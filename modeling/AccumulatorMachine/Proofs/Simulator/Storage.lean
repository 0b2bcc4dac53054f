import AccumulatorMachine.Proofs.Machine.Run
import AccumulatorMachine.Simulator.Operation
import Mathlib.Logic.Relation

/-! The storage of a machine is its memory and the two caches in front of it.
Executing only fetches, loads and stores; a driver may also empty the caches, install an assembled
program or poke a cell. What all of these keep is kept by every history of operations. -/
namespace AccumulatorMachine

structure Storage where
  memory : Memory
  icache : BlockCache
  dcache : BlockCache

namespace Storage

def store (s : Storage) (a v : UInt8) : Storage where
  memory := (s.memory.write a v).setTag a none
  icache := s.icache.patch a v
  dcache := s.dcache.patch a v

def poke (s : Storage) (a v : UInt8) : Storage where
  memory := s.memory.write a v
  icache := s.icache.patch a v
  dcache := s.dcache.patch a v

def install (s : Storage) (m : Memory) : Storage where
  memory := m
  icache := s.icache.invalidate
  dcache := s.dcache.invalidate

inductive Access : Storage → Storage → Prop where
  | fetch (s : Storage) (a : UInt8) :
      Access s { s with icache := (s.icache.access s.memory a).2.2 }
  | load (s : Storage) (a : UInt8) :
      Access s { s with dcache := (s.dcache.access s.memory a).2.2 }
  | store (s : Storage) (a v : UInt8) : Access s (s.store a v)

/-- What any operation but a poke does to the storage. -/
inductive Change : Storage → Storage → Prop where
  | access {s t : Storage} : Access s t → Change s t
  | clear (s : Storage) : Change s (s.install s.memory)
  | assemble (s : Storage) (base : Base) (lines : List Text) :
      Change s (s.install (assemble base lines).memory)

abbrev Accesses := Relation.ReflTransGen Access
abbrev Changes := Relation.ReflTransGen Change

theorem Changes.keep {P : Storage → Prop} (hP : ∀ {s t}, Change s t → P s → P t) {s t : Storage}
    (h : Changes s t) (hs : P s) : P t := by
  induction h with
  | refl => exact hs
  | tail _ step ih => exact hP step ih

theorem Accesses.changes {s t : Storage} (h : Accesses s t) : Changes s t :=
  Relation.ReflTransGen.mono (fun _ _ => Change.access) _ _ h

end Storage

namespace Machine

open Storage (Accesses Changes)

def storage (m : Machine) : Storage := ⟨m.memory, m.icache, m.dcache⟩

theorem storage_record (m : Machine) (i : Fetched) : (m.record i).storage = m.storage := by
  unfold record
  split <;> rfl

theorem storage_retire (m : Machine) (i : Fetched) : (m.retire i).storage = m.storage :=
  m.storage_record i

theorem load_accesses (m : Machine) (a : UInt8) : Accesses m.storage (m.load a).2.storage :=
  .single (.load m.storage a)

theorem fetch_accesses (m : Machine) (a : UInt8) : Accesses m.storage (m.fetch a).2.storage :=
  .single (.fetch m.storage a)

theorem store_accesses (m : Machine) (a v : UInt8) : Accesses m.storage (m.store a v).storage :=
  .single (.store m.storage a v)

theorem foldl_accesses {α : Type*} {f : Machine → α → Machine}
    (hf : ∀ m x, Accesses m.storage (f m x).storage) (xs : List α) (m : Machine) :
    Accesses m.storage (xs.foldl f m).storage := by
  induction xs generalizing m with
  | nil => exact .refl
  | cons x xs ih => exact (hf m x).trans (ih (f m x))

theorem loadLanes_accesses (m : Machine) (start : UInt8) (f : UInt8 → UInt8 → UInt8) :
    Accesses m.storage (m.loadLanes start f).storage := by
  apply foldl_accesses
  rintro m ⟨i, a⟩
  exact m.load_accesses a

theorem storeLanes_accesses (m : Machine) (start : UInt8) :
    Accesses m.storage (m.storeLanes start).storage := by
  apply foldl_accesses
  rintro m ⟨i, a⟩
  exact m.store_accesses a _

theorem execute_accesses (m : Machine) (i : Fetched) :
    Accesses m.storage (m.execute i).storage := by
  unfold execute
  cases i.mnemonic with
  | nop | not | jmp | hlt | veadd | vnot => exact .refl
  | sta => exact m.store_accesses _ _
  | lda | add | or | and => exact m.load_accesses _
  | jn | jz => dsimp only; split <;> exact .refl
  | vld | vadd | vor | vand => exact m.loadLanes_accesses _ _
  | vst => exact m.storeLanes_accesses _

theorem fetchInstruction_accesses (m : Machine) (pc : UInt8) :
    Accesses m.storage (m.fetchInstruction pc).2.storage := by
  have hopcode := m.fetch_accesses pc
  unfold fetchInstruction
  dsimp only
  split
  · exact hopcode
  · split
    · exact hopcode
    · split
      · exact hopcode
      · exact hopcode.trans (fetch_accesses _ _)

theorem step_accesses (m : Machine) : Accesses m.storage m.step.storage := by
  unfold step
  split
  · exact .refl
  · exact .refl
  · split
    · have hfetch := m.fetchInstruction_accesses (UInt8.ofNat m.regs.pc)
      dsimp only
      split
      · next heq => rw [heq] at hfetch; exact hfetch
      · next i m' heq =>
        rw [heq] at hfetch
        have hexec := (m'.retire i).execute_accesses i
        rw [storage_retire] at hexec
        exact hfetch.trans hexec
    · exact .refl

theorem runFrom_accesses (m : Machine) (steps guard : ℕ) :
    Accesses m.storage (m.runFrom steps guard).2.storage := by
  induction guard generalizing m steps with
  | zero => rw [runFrom_zero]
  | succ guard ih =>
    by_cases hs : m.state = .running
    · rw [runFrom_running hs]
      exact m.step_accesses.trans (ih _ _)
    · rw [runFrom_stopped hs]

end Machine

namespace Simulator

open Storage (Change Changes)

theorem perform_changes (x : Simulator) {op : Operation} (hop : ∀ a v, op ≠ .poke a v) :
    Changes x.machine.storage (x.perform op).2.machine.storage := by
  cases op with
  | assemble base lines => exact .single (.assemble _ base lines)
  | load program =>
    exact (Relation.ReflTransGen.single (Change.assemble _ program.base program.lines)).tail
      (.clear _)
  | reset => exact .single (.clear _)
  | step => exact x.machine.step_accesses.changes
  | run => exact (x.machine.runFrom_accesses 0 x.settings.loopGuard).changes
  | runGuarded guard => exact (x.machine.runFrom_accesses 0 guard).changes
  | poke a v => exact absurd rfl (hop a v)
  | convert new lines => exact .refl

theorem perform_keeps {P : Storage → Prop} (hc : ∀ {s t}, Change s t → P s → P t)
    {op : Operation} (hp : ∀ {s a v}, op = .poke a v → P s → P (s.poke a v)) {x : Simulator}
    (hx : P x.machine.storage) : P (x.perform op).2.machine.storage := by
  by_cases hop : ∃ a v, op = .poke a v
  · obtain ⟨a, v, rfl⟩ := hop
    exact hp rfl hx
  · exact (x.perform_changes fun a v h => hop ⟨a, v, h⟩).keep hc hx

/-- A condition on storage outlives a history if it outlives every change, and every poke of that
history. -/
theorem performAll_keeps {P : Storage → Prop} (hc : ∀ {s t}, Change s t → P s → P t)
    {ops : List Operation} (hp : ∀ {s a v}, .poke a v ∈ ops → P s → P (s.poke a v))
    {x : Simulator} (hx : P x.machine.storage) : P (x.performAll ops).machine.storage := by
  induction ops generalizing x with
  | nil => exact hx
  | cons op ops ih =>
    apply ih (fun hm => hp (List.mem_cons_of_mem op hm))
    apply perform_keeps hc _ hx
    rintro s a v rfl
    exact hp List.mem_cons_self

end Simulator

end AccumulatorMachine
