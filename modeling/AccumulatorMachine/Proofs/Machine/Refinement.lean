import AccumulatorMachine.Proofs.Machine.Plain
import AccumulatorMachine.Proofs.Memory
import AccumulatorMachine.Proofs.Simulator.Coherence
import Mathlib.Order.Fin.Basic

/-! The cached machine refines the plain one. While the caches are coherent, a step of the machine
is a step of the plain machine, a run is a run and every operation of a driver has the same answer;
and coherence never ends. No condition on the settings is needed. -/
namespace AccumulatorMachine

theorem mem_lanes {start : UInt8} {lane : Fin 4} {a : UInt8} :
    (lane, a) ∈ lanes start ↔ start.toNat + lane.val = a.toNat := by
  have ha := a.toNat_lt
  simp only [lanes, List.mem_filterMap, List.mem_finRange, true_and]
  constructor
  · rintro ⟨i, hi⟩
    split at hi
    · simp only [Option.some.injEq, Prod.mk.injEq] at hi
      obtain ⟨rfl, rfl⟩ := hi
      simp
      omega
    · contradiction
  · intro h
    refine ⟨lane, ?_⟩
    rw [if_pos (by omega), h, UInt8.ofNat_toNat]

theorem laneAt?_eq_some_iff {start : UInt8} {a : ℕ} {lane : Fin 4} :
    laneAt? start a = some lane ↔ start.toNat + lane.val = a := by
  have hl := lane.isLt
  unfold laneAt?
  constructor
  · intro h
    split at h
    · obtain rfl := Option.some.inj h
      dsimp only
      omega
    · contradiction
  · rintro rfl
    rw [dif_pos (by omega)]
    simp

def withLane (vac : Vector UInt8 4) (i : Fin 4) (v : UInt8) : Vector UInt8 4 :=
  Vector.ofFn fun j => if j = i then v else vac.get j

theorem set_eq_withLane (vac : Vector UInt8 4) (i : Fin 4) (v : UInt8) (h : i.val < 4) :
    vac.set i.val v h = withLane vac i v := by
  apply Vector.ext
  intro j hj
  rw [withLane, Vector.getElem_set, Vector.getElem_ofFn]
  simp only [Fin.ext_iff, eq_comm (a := j)]
  rfl

theorem get_withLane (vac : Vector UInt8 4) (i r : Fin 4) (v : UInt8) :
    (withLane vac i v).get r = if r = i then v else vac.get r :=
  Vector.getElem_ofFn r.isLt

theorem withLane_self (vac : Vector UInt8 4) (i : Fin 4) : withLane vac i (vac.get i) = vac := by
  rw [← set_eq_withLane vac i _ i.isLt]
  exact Vector.set_getElem_self i.isLt

/-- Changing the lanes of a list one after another changes each of them once. -/
theorem get_foldl_withLane (g : Fin 4 → UInt8 → UInt8) {ls : List (Fin 4)} (hn : ls.Nodup)
    (vac : Vector UInt8 4) (r : Fin 4) :
    (ls.foldl (fun vac i => withLane vac i (g i (vac.get i))) vac).get r =
      if r ∈ ls then g r (vac.get r) else vac.get r := by
  induction ls generalizing vac with
  | nil => simp
  | cons i ls ih =>
    obtain ⟨hi, hn⟩ := List.nodup_cons.mp hn
    rw [List.foldl_cons, ih hn, get_withLane]
    by_cases hr : r = i
    · simp [hr, hi]
    · simp [hr]

/-- Storing lanes one after another fills each cell with its lane, if no cell has two. -/
theorem cell_foldl_store (vac : Vector UInt8 4) {b : UInt8} {lane : Fin 4}
    {xs : List (Fin 4 × UInt8)} (hu : ∀ i, (i, b) ∈ xs → i = lane) (m : Memory) :
    (xs.foldl (fun m x => (m.write x.2 (vac.get x.1)).setTag x.2 none) m).cell b =
      if (lane, b) ∈ xs then (vac.get lane, none) else m.cell b := by
  induction xs generalizing m with
  | nil => simp
  | cons x xs ih =>
    obtain ⟨i, a⟩ := x
    rw [List.foldl_cons, ih (fun j hj => hu j (List.mem_cons_of_mem _ hj)), Memory.cell_replace]
    by_cases hab : a = b
    · subst hab
      obtain rfl := hu i List.mem_cons_self
      simp
    · have hne : (lane, b) ≠ (i, a) := fun h => hab (congrArg Prod.snd h).symm
      simp [hab, hne]

theorem foldl_lanes_withLane (m : Memory) (start : UInt8) (f : UInt8 → UInt8 → UInt8)
    (vac : Vector UInt8 4) :
    (lanes start).foldl (fun vac x => withLane vac x.1 (f (vac.get x.1) (m.read x.2))) vac =
      Vector.ofFn fun i => match m.get? (start.toNat + i.val) with
        | some v => f (vac.get i) v
        | none => vac.get i := by
  let g (i : Fin 4) (lane : UInt8) : UInt8 := match m.get? (start.toNat + i.val) with
    | some v => f lane v
    | none => lane
  have hall : (lanes start).foldl
      (fun vac x => withLane vac x.1 (f (vac.get x.1) (m.read x.2))) vac =
      (List.finRange 4).foldl (fun vac i => withLane vac i (g i (vac.get i))) vac := by
    rw [lanes, List.foldl_filterMap]
    congr 1
    funext vac i
    by_cases hi : start.toNat + i.val < 256
    · simp only [if_pos hi, g, m.get?_eq_read hi]
    · simp only [if_neg hi, g, m.get?_eq_none (Nat.le_of_not_lt hi)]
      exact (withLane_self vac i).symm
  rw [hall]
  apply Vector.ext
  intro i hi
  have hget := get_foldl_withLane g (List.nodup_finRange 4) vac ⟨i, hi⟩
  rw [if_pos (List.mem_finRange _)] at hget
  rw [Vector.getElem_ofFn]
  exact hget

theorem foldl_lanes_store (m : Memory) (start : UInt8) (vac : Vector UInt8 4) (b : UInt8) :
    ((lanes start).foldl (fun m x => (m.write x.2 (vac.get x.1)).setTag x.2 none) m).cell b =
      match laneAt? start b.toNat with
      | some lane => (vac.get lane, none)
      | none => m.cell b := by
  have unique {i lane : Fin 4} (hi : (i, b) ∈ lanes start) (hl : (lane, b) ∈ lanes start) :
      i = lane := by
    rw [mem_lanes] at hi hl
    exact Fin.ext (by omega)
  cases hb : laneAt? start b.toNat with
  | some lane =>
    have hl : (lane, b) ∈ lanes start := mem_lanes.mpr (laneAt?_eq_some_iff.mp hb)
    rw [cell_foldl_store vac (fun i hi => unique hi hl), if_pos hl]
  | none =>
    have hno (i : Fin 4) : (i, b) ∉ lanes start := by
      intro hi
      rw [laneAt?_eq_some_iff.mpr (mem_lanes.mp hi)] at hb
      contradiction
    have hzero (i : Fin 4) (hi : (i, b) ∈ lanes start) : i = 0 := absurd hi (hno i)
    rw [cell_foldl_store vac hzero, if_neg (hno 0)]

namespace Machine

variable {m : Machine}

@[simp] theorem plain_goto (m : Machine) (pc : ℕ) : (m.goto pc).plain = { m.plain with pc } := rfl

@[simp] theorem plain_fault (m : Machine) (f : Fault) :
    (m.fault f).plain = { m.plain with state := .faulted f } := rfl

theorem plain_branch (m : Machine) (p : Prop) [Decidable p] (target : UInt8) (next : ℕ) :
    (if p then m.jump target else m.goto next).plain =
      { m.plain with pc := if p then target.toNat else next } := by
  by_cases hp : p
  · rw [if_pos hp, if_pos hp]
    rfl
  · rw [if_neg hp, if_neg hp]
    rfl

theorem plain_retire (m : Machine) (i : Fetched) : (m.retire i).plain = m.plain := by
  unfold retire record
  dsimp only
  split <;> rfl

theorem fetch_value (h : m.storage.Coherent) (a : UInt8) : (m.fetch a).1 = m.memory.read a :=
  h.icache.access_value a

theorem load_value (h : m.storage.Coherent) (a : UInt8) : (m.load a).1 = m.memory.read a :=
  h.dcache.access_value a

theorem plain_loadAc (h : m.storage.Coherent) (a : UInt8) (f : UInt8 → UInt8 → UInt8) :
    (m.loadAc a f).plain = { m.plain with ac := f m.regs.ac (m.memory.read a) } := by
  rw [← load_value h]
  rfl

theorem plain_foldl_load (f : UInt8 → UInt8 → UInt8) (xs : List (Fin 4 × UInt8))
    (h : m.storage.Coherent) :
    (xs.foldl (fun m x => (m.load x.2).2.setLane x.1
      (f ((m.load x.2).2.regs.vac.get x.1) (m.load x.2).1)) m).plain =
    { m.plain with
      vac := xs.foldl (fun vac x => withLane vac x.1 (f (vac.get x.1) (m.memory.read x.2)))
        m.regs.vac } := by
  induction xs generalizing m with
  | nil => rfl
  | cons x xs ih =>
    have hv := load_value h x.2
    have hl : ((m.load x.2).2.setLane x.1
        (f ((m.load x.2).2.regs.vac.get x.1) (m.load x.2).1)).storage.Coherent :=
      h.accesses (m.load_accesses x.2)
    rw [List.foldl_cons, List.foldl_cons, ih hl, hv, ← set_eq_withLane _ _ _ x.1.isLt]
    rfl

theorem plain_loadLanes (h : m.storage.Coherent) (start : UInt8) (f : UInt8 → UInt8 → UInt8) :
    (m.loadLanes start f).plain = m.plain.combine start f := by
  refine (plain_foldl_load f (lanes start) h).trans ?_
  rw [foldl_lanes_withLane]
  rfl

theorem plain_foldl_store (xs : List (Fin 4 × UInt8)) (m : Machine) :
    (xs.foldl (fun m x => m.store x.2 (m.regs.vac.get x.1)) m).plain =
    { m.plain with
      memory := xs.foldl (fun n x => (n.write x.2 (m.regs.vac.get x.1)).setTag x.2 none)
        m.memory } := by
  induction xs generalizing m with
  | nil => rfl
  | cons x xs ih =>
    rw [List.foldl_cons, List.foldl_cons, ih]
    rfl

theorem plain_storeLanes (m : Machine) (start : UInt8) :
    (m.storeLanes start).plain = m.plain.storeLanes start := by
  have hm : (lanes start).foldl
      (fun n x => (n.write x.2 (m.regs.vac.get x.1)).setTag x.2 none) m.memory =
      (m.plain.storeLanes start).memory := by
    apply Memory.ext_cell
    intro b
    rw [foldl_lanes_store]
    simp only [Memory.cell, Memory.read, Memory.tag, Plain.storeLanes, Vector.getElem_ofFn]
    cases laneAt? start b.toNat <;> rfl
  refine (plain_foldl_store (lanes start) m).trans ?_
  rw [hm]
  rfl

theorem plain_fetchInstruction (m : Machine) (pc : UInt8) :
    (m.fetchInstruction pc).2.plain = m.plain := by
  unfold fetchInstruction
  dsimp only
  split
  · rfl
  · split
    · rfl
    · split <;> rfl

/-- What is decoded is what memory holds at PC and behind it. -/
theorem fetchInstruction_value (h : m.storage.Coherent) (pc : UInt8) :
    (m.fetchInstruction pc).1 = match Mnemonic.ofOpcode? (m.memory.read pc) with
      | none => .error (m.memory.read pc)
      | some mnemonic => .ok ⟨pc, mnemonic, match mnemonic.arity with
        | .implied => none
        | .address => some ((m.memory.get? (pc.toNat + 1)).getD 0)⟩ := by
  have hopcode : (m.fetch pc).1 = m.memory.read pc := fetch_value h pc
  have hc : (m.fetch pc).2.storage.Coherent := h.accesses (m.fetch_accesses pc)
  unfold fetchInstruction
  dsimp only
  rw [hopcode]
  cases Mnemonic.ofOpcode? (m.memory.read pc) with
  | none => rfl
  | some mnemonic =>
    dsimp only
    cases mnemonic.arity with
    | implied => rfl
    | address =>
      dsimp only
      rw [m.memory.getD_get?_succ]
      by_cases hpc : pc = 255
      · rw [if_pos hpc, if_pos hpc]
      · rw [if_neg hpc, if_neg hpc, fetch_value hc]
        rfl

/-- The fetched instruction stands at PC; its operand is what the plain machine reads behind it. -/
theorem plain_execute (h : m.storage.Coherent) {i : Fetched} (hpc : i.pc.toNat = m.regs.pc)
    {operand : UInt8} (ho : i.mnemonic.arity = .address → i.operand = some operand) :
    (m.execute i).plain = m.plain.execute i.mnemonic operand := by
  obtain ⟨pc, mnemonic, got⟩ := i
  dsimp only at hpc ho
  unfold execute Plain.execute
  cases mnemonic with
  | nop | not | hlt | veadd | vnot =>
    simp only [hpc]
    rfl
  | sta | jmp =>
    obtain rfl := ho rfl
    simp only [hpc]
    rfl
  | lda | add | or | and =>
    obtain rfl := ho rfl
    simp only [plain_goto, plain_loadAc h, hpc]
    rfl
  | jn =>
    obtain rfl := ho rfl
    simp only [Registers.negative, decide_eq_true_eq, hpc]
    exact m.plain_branch (128 ≤ m.regs.ac) operand _
  | jz =>
    obtain rfl := ho rfl
    simp only [Registers.zero, decide_eq_true_eq, hpc]
    exact m.plain_branch (m.regs.ac = 0) operand _
  | vld | vadd | vor | vand =>
    obtain rfl := ho rfl
    simp only [plain_goto, plain_loadLanes h, hpc]
    rfl
  | vst =>
    obtain rfl := ho rfl
    simp only [plain_goto, plain_storeLanes, hpc]
    rfl

theorem plain_step (h : m.storage.Coherent) : m.step.plain = m.plain.step := by
  unfold step Plain.step
  cases hs : m.state with
  | halted => simp only [plain, hs]
  | faulted f => simp only [plain, hs]
  | running =>
    have hrun : m.plain.state = .running := hs
    simp only [hrun]
    by_cases hpc : m.regs.pc < 256
    · rw [if_pos hpc]
      have hget : m.plain.memory.get? m.plain.pc = some (m.memory.read (UInt8.ofNat m.regs.pc)) :=
        m.memory.get?_eq_read hpc
      have hnat : (UInt8.ofNat m.regs.pc).toNat = m.regs.pc := by simp; omega
      -- Fetching touches the instruction cache alone, and decodes what memory holds.
      have hvalue := fetchInstruction_value h (UInt8.ofNat m.regs.pc)
      have hplain := m.plain_fetchInstruction (UInt8.ofNat m.regs.pc)
      have hc : (m.fetchInstruction (UInt8.ofNat m.regs.pc)).2.storage.Coherent :=
        h.accesses (m.fetchInstruction_accesses _)
      obtain ⟨got, m', hf⟩ : ∃ got m', m.fetchInstruction (UInt8.ofNat m.regs.pc) = (got, m') :=
        ⟨_, _, rfl⟩
      simp only [hf] at hvalue hplain hc
      simp only [hget, hf]
      cases hd : Mnemonic.ofOpcode? (m.memory.read (UInt8.ofNat m.regs.pc)) with
      | none =>
        rw [hd] at hvalue
        subst hvalue
        dsimp only
        rw [plain_fault, hplain]
        rfl
      | some mnemonic =>
        rw [hd] at hvalue
        subst hvalue
        dsimp only
        rw [plain_execute (by rw [storage_retire]; exact hc), plain_retire, hplain]
        · exact hnat.trans (congrArg Plain.pc ((m'.plain_retire _).trans hplain)).symm
        · intro harity
          simp only [harity, hnat]
          rfl
    · rw [if_neg hpc]
      have hget : m.plain.memory.get? m.plain.pc = none :=
        m.memory.get?_eq_none (Nat.le_of_not_lt hpc)
      simp only [hget]
      rfl

/-- A run that has executed some instructions goes on as a plain run does, and adds to them. -/
theorem plain_runFrom (h : m.storage.Coherent) (steps guard : ℕ) :
    (m.runFrom steps guard).1 =
      ⟨(m.plain.run guard).1.outcome, steps + (m.plain.run guard).1.steps⟩ ∧
    (m.runFrom steps guard).2.plain = (m.plain.run guard).2 := by
  induction guard generalizing m steps with
  | zero =>
    rw [runFrom_zero]
    exact ⟨rfl, rfl⟩
  | succ guard ih =>
    by_cases hs : m.state = .running
    · have hrun : m.plain.state = .running := hs
      have hexec : m.plain.step.state = m.step.state :=
        (congrArg Plain.state (plain_step h)).symm
      obtain ⟨hreport, hlast⟩ := ih (h.accesses m.step_accesses) (steps + m.step.state.executed)
      rw [plain_step h] at hreport hlast
      have hplain : m.plain.run (guard + 1) =
          (⟨(m.plain.step.run guard).1.outcome,
            (m.plain.step.run guard).1.steps + m.step.state.executed⟩,
            (m.plain.step.run guard).2) := by
        simp only [Plain.run, hrun, hexec]
      rw [runFrom_running hs, hreport, hlast, hplain, Nat.add_assoc, Nat.add_comm m.step.state.executed]
      exact ⟨rfl, rfl⟩
    · have hstop : m.plain.run (guard + 1) = (⟨m.plain.state.outcome, 0⟩, m.plain) := by
        have hp : m.plain.state ≠ .running := hs
        unfold Plain.run
        cases hq : m.plain.state with
        | running => exact absurd hq hp
        | halted => rfl
        | faulted f => rfl
      rw [runFrom_stopped hs, hstop]
      exact ⟨rfl, rfl⟩

theorem plain_run (h : m.storage.Coherent) (guard : ℕ) :
    (m.run guard).1 = (m.plain.run guard).1 ∧ (m.run guard).2.plain = (m.plain.run guard).2 := by
  obtain ⟨hreport, hlast⟩ := plain_runFrom h 0 guard
  rw [Nat.zero_add] at hreport
  exact ⟨hreport, hlast⟩

end Machine

namespace Simulator

variable {x : Simulator}

@[simp] theorem settings_perform (x : Simulator) (op : Operation) :
    (x.perform op).2.settings = x.settings := by
  cases op <;> rfl

/-- One operation, answered and carried out as by the plain machine. -/
theorem plain_perform (h : x.machine.storage.Coherent) (op : Operation) :
    ((x.perform op).1.ofMachine, (x.perform op).2.machine.plain) =
      x.machine.plain.perform x.settings.loopGuard op := by
  cases op with
  | assemble | load | reset | poke | convert => rfl
  | step =>
    have hstep := Machine.plain_step h
    have hstate : x.machine.step.state = x.machine.plain.step.state :=
      congrArg Plain.state hstep
    simp only [perform, step, Plain.perform, Answer.ofMachine, hstep, hstate]
  | run =>
    obtain ⟨hreport, hlast⟩ := Machine.plain_run h x.settings.loopGuard
    simp only [perform, run, runGuarded, Plain.perform, Answer.ofMachine, hreport, hlast]
  | runGuarded guard =>
    obtain ⟨hreport, hlast⟩ := Machine.plain_run h guard
    simp only [perform, runGuarded, Plain.perform, Answer.ofMachine, hreport, hlast]

theorem transcript_eq_of_coherent (h : x.machine.storage.Coherent) (ops : List Operation) :
    x.transcript ops = x.machine.plain.transcript x.settings.loopGuard ops := by
  induction ops generalizing x with
  | nil => rfl
  | cons op ops ih =>
    have hop := plain_perform h op
    have hlast := congrArg Prod.snd hop
    rw [transcript, Plain.transcript, ih (coherent_perform h op), settings_perform, hop]
    rw [← hlast]

/-- From the first operation to the last, whatever the settings, a driver cannot tell the caches
from none: answers, registers, cells, tags and execution state are those of the plain machine. -/
theorem transcript_new (s : Settings) (ops : List Operation) :
    (new s).transcript ops = Plain.initial.transcript s.loopGuard ops :=
  transcript_eq_of_coherent (coherent_new s) ops

end Simulator

end AccumulatorMachine
