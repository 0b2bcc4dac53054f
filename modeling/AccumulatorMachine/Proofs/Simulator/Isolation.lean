import AccumulatorMachine.Proofs.Machine.Step
import AccumulatorMachine.Proofs.Simulator.Coherence
import AccumulatorMachine.Proofs.Simulator.Transition

/-! Nothing of one program is left when the next is loaded. No event changes how a simulator is
built, and loading sets everything else anew but the trace switch; so what a simulator does after
a load, or after a reset over the same memory, says nothing of its past. -/
namespace AccumulatorMachine

inductive Event where
  | operation (op : Operation)
  | intervention (i : Intervention)
  deriving DecidableEq, Repr

namespace Machine

open Storage (Changes)

variable {m n : Machine}

theorem traceCapacity_step (m : Machine) : m.step.traceCapacity = m.traceCapacity := by
  by_cases hs : m.state = .running
  · have hmoves := step_moves hs
    generalize m.step = n at hmoves
    cases hmoves with
    | left => rfl
    | undecoded => rfl
    | executed pc i => exact (m.executed_frame pc i).2.1
  · rw [step_stopped hs]

/-- What is fixed when a machine is built: its block sizes and the room of its trace. -/
def build (m : Machine) : (ℕ × ℕ) × ℕ := (m.storage.sizes, m.traceCapacity)

theorem build_transition (h : Transition m n) : n.build = m.build := by
  cases h with
  | step =>
    have hsizes : m.step.storage.sizes = m.storage.sizes :=
      m.step_accesses.changes.keep (P := fun s => s.sizes = m.storage.sizes)
        (fun change hs => (Storage.sizes_change change).trans hs) rfl
    rw [build, hsizes, traceCapacity_step]
    rfl
  | reset => simp [build, Storage.sizes, storage, Machine.reset]
  | assemble => simp [build, Storage.sizes, storage, install]
  | poke => simp [build, Storage.sizes, storage, Machine.poke]

theorem build_transitions (h : Transitions m n) : n.build = m.build :=
  h.keep (P := fun k => k.build = m.build) (fun last hk => (build_transition last).trans hk) rfl

end Machine

namespace Simulator

variable {x : Simulator} {s : Settings}

def undergo (x : Simulator) : Event → Simulator
  | .operation op => (x.perform op).2
  | .intervention i => x.intervene i

def after (s : Settings) (past : List Event) : Simulator := past.foldl undergo (new s)

def responses (x : Simulator) : List Operation → List (Answer × Simulator)
  | [] => []
  | op :: ops => x.perform op :: (x.perform op).2.responses ops

structure BuiltFrom (s : Settings) (x : Simulator) : Prop where
  settings : x.settings = s
  build : x.machine.build = (Machine.new s).build

theorem builtFrom_new (s : Settings) : BuiltFrom s (new s) := ⟨rfl, rfl⟩

theorem BuiltFrom.perform (h : BuiltFrom s x) (op : Operation) :
    BuiltFrom s (x.perform op).2 := by
  constructor
  · cases op <;> exact h.settings
  · exact (Machine.build_transitions (x.perform_transitions op)).trans h.build

theorem BuiltFrom.intervene (h : BuiltFrom s x) (i : Intervention) :
    BuiltFrom s (x.intervene i) := by
  constructor
  · exact h.settings
  · cases i <;> exact h.build

theorem builtFrom_after (s : Settings) (past : List Event) : BuiltFrom s (after s past) := by
  -- Stated for any start, because every event moves the simulator the rest begins at.
  have from_here {x : Simulator} (hx : BuiltFrom s x) (events : List Event) :
      BuiltFrom s (events.foldl undergo x) := by
    induction events generalizing x with
    | nil => exact hx
    | cons event events ih =>
      apply ih
      cases event with
      | operation op => exact hx.perform op
      | intervention i => exact hx.intervene i
  exact from_here (builtFrom_new s) past

def fresh (s : Settings) (tracing : Bool) : Simulator := (new s).intervene (.setTracing tracing)

def holding (s : Settings) (tracing : Bool) (memory : Memory) (base : Base) : Simulator :=
  { fresh s tracing with machine := { (fresh s tracing).machine with memory }, base }

theorem BuiltFrom.reset (h : BuiltFrom s x) :
    x.reset = holding s x.machine.tracing x.machine.memory x.base := by
  obtain ⟨m, settings, base⟩ := x
  obtain ⟨hsettings, hbuild⟩ := h
  simp only [Machine.build, Storage.sizes, Prod.mk.injEq] at hsettings hbuild
  obtain ⟨⟨hi, hd⟩, hcapacity⟩ := hbuild
  have hicache : m.icache.invalidate = .empty s.icacheBlock :=
    BlockCache.invalidate_eq (hi.trans (BlockCache.size_empty s.icacheBlock))
  have hdcache : m.dcache.invalidate = .empty s.dcacheBlock :=
    BlockCache.invalidate_eq (hd.trans (BlockCache.size_empty s.dcacheBlock))
  have hroom : m.traceCapacity = s.loopGuard := hcapacity
  simp only [Simulator.reset, Machine.reset, hsettings, hicache, hdcache, hroom]
  rfl

/-- Of the past only the trace switch is left. -/
theorem BuiltFrom.loadProgram (h : BuiltFrom s x) (p : ProgramFile) :
    x.loadProgram p =
      let assembly := AccumulatorMachine.assemble p.base p.lines
      (assembly.report, holding s x.machine.tracing assembly.memory p.base) :=
  congrArg (Prod.mk _) (h.perform (.assemble p.base p.lines)).reset

theorem BuiltFrom.loadProgram_fresh (h : BuiltFrom s x) (p : ProgramFile) :
    x.loadProgram p = (fresh s x.machine.tracing).loadProgram p := by
  have hfresh := (builtFrom_new s).intervene (.setTracing x.machine.tracing)
  exact (h.loadProgram p).trans (hfresh.loadProgram p).symm

/-- The pasts are arbitrary: faults, loops and programs stored over themselves, cells and registers
written from outside. -/
theorem nothing_leaks (s : Settings) (past past' : List Event)
    (ht : (after s past).machine.tracing = (after s past').machine.tracing) :
    (∀ p : ProgramFile,
      (after s past).loadProgram p = (after s past').loadProgram p ∧
      (after s past).loadProgram p = (fresh s (after s past).machine.tracing).loadProgram p ∧
      ∀ later, ((after s past).loadProgram p).2.responses later =
        ((after s past').loadProgram p).2.responses later) ∧
    ((after s past).machine.memory = (after s past').machine.memory →
      (after s past).base = (after s past').base →
      (after s past).reset = (after s past').reset ∧
      (after s past).reset = holding s (after s past).machine.tracing
        (after s past).machine.memory (after s past).base ∧
      ∀ later, (after s past).reset.responses later = (after s past').reset.responses later) := by
  have hbuilt := builtFrom_after s past
  have hbuilt' := builtFrom_after s past'
  constructor
  · intro p
    have hfresh := hbuilt.loadProgram_fresh p
    have hsame : (after s past).loadProgram p = (after s past').loadProgram p := by
      rw [hfresh, ht, ← hbuilt'.loadProgram_fresh p]
    exact ⟨hsame, hfresh, fun later => by rw [hsame]⟩
  · intro hm hb
    have hsame : (after s past).reset = (after s past').reset := by
      rw [hbuilt.reset, hbuilt'.reset, ht, hm, hb]
    exact ⟨hsame, hbuilt.reset, fun later => by rw [hsame]⟩

/-- One has faulted far behind the last cell; in the other a cell was changed behind the caches. -/
theorem nothing_leaks_after_fault :
    let past : List Event := [.operation (.assemble .hex ["LDA 10".toList]),
      .operation (.poke 16 9), .operation .step, .intervention (.setPc 300), .operation .step,
      .intervention (.setTracing true)]
    let past' : List Event := [.intervention (.setTracing true), .intervention (.setAc 7),
      .operation (.assemble .hex ["LDA 10".toList]), .intervention (.writeCell 16 9),
      .operation (.runGuarded 2)]
    (after {} past).machine.state = .faulted (.pcOutOfBounds 300) ∧
    (after {} past').machine.state = .running ∧
    (after {} past).machine.tracing = (after {} past').machine.tracing ∧
    (after {} past).machine.memory = (after {} past').machine.memory ∧
    (after {} past).base = (after {} past').base ∧
    (after {} past).reset = (after {} past').reset ∧
    ∀ p, (after {} past).loadProgram p = (after {} past').loadProgram p := by
  intro past past'
  obtain ⟨hload, hreset⟩ := nothing_leaks {} past past' rfl
  exact ⟨by decide +kernel, by decide +kernel, rfl, rfl, rfl, (hreset rfl rfl).1,
    fun p => (hload p).1⟩

end Simulator

end AccumulatorMachine
