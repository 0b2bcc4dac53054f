import AccumulatorMachine.Proofs.Cache.History
import AccumulatorMachine.Proofs.Machine.Poke

/-! A cell that is never read cannot influence a run. The two runs compared differ in one poke, made
before the first step. A block that is brought in copies the poked byte along with the cells that
are read, so the caches of the two may hold different bytes for as long as both runs last; but
registers, addresses and counters are the same at every step. -/
namespace AccumulatorMachine

/-- What a cache tells of itself, leaving the bytes aside. -/
def BlockCache.books (c : BlockCache) : ℕ × ℕ × Option UInt8 :=
  (c.hits, c.misses, c.resident.map Block.start)

theorem BlockCache.books_patch (c : BlockCache) (a v : UInt8) : (c.patch a v).books = c.books := by
  unfold books
  rw [c.start_patch a v]
  rfl

namespace Simulator

variable {x : Simulator} {a : UInt8}

def steps (x : Simulator) : ℕ → List ExecState × Simulator
  | 0 => ([], x)
  | n + 1 =>
    let (state, y) := x.step
    let (states, z) := y.steps n
    (state :: states, z)

theorem steps_last (x : Simulator) (n : ℕ) :
    (x.steps n).2 = { x with machine := Machine.step^[n] x.machine } := by
  induction n generalizing x with
  | zero => rfl
  | succ n ih =>
    rw [Function.iterate_succ_apply]
    exact ih x.step.2

/-- The first of some steps do not depend on how many follow. -/
theorem steps_states (x : Simulator) (n : ℕ) :
    (x.steps n).1 = (List.range n).map fun k => (Machine.step^[k + 1] x.machine).state := by
  induction n generalizing x with
  | zero => rfl
  | succ n ih =>
    rw [List.range_succ_eq_map, List.map_cons, List.map_map]
    exact congrArg (List.cons _) (ih x.step.2)

/-- Two simulators that show the same but for the byte of one cell, and the copies of it in the
caches. -/
structure AgreesBut (a : UInt8) (x y : Simulator) : Prop where
  registers : x.machine.regs = y.machine.regs
  state : x.machine.state = y.machine.state
  statistics : x.statistics = y.statistics
  icache : x.machine.icache.books = y.machine.icache.books
  dcache : x.machine.dcache.books = y.machine.dcache.books
  trace : x.machine.trace = y.machine.trace
  cell : ∀ b ≠ a, x.machine.memory.cell b = y.machine.memory.cell b
  tag : x.machine.memory.tag a = y.machine.memory.tag a

theorem AgreesBut.refl (a : UInt8) (x : Simulator) : AgreesBut a x x :=
  ⟨rfl, rfl, rfl, rfl, rfl, rfl, fun _ _ => rfl, rfl⟩

theorem agreesBut_poke (x : Simulator) (a v : UInt8) : AgreesBut a x (x.poke a v) := by
  constructor
  · rfl
  · rfl
  · rfl
  · exact (x.machine.icache.books_patch a v).symm
  · exact (x.machine.dcache.books_patch a v).symm
  · rfl
  · intro b hb
    exact ((x.machine.memory.cell_write a b v).trans (if_neg (Ne.symm hb))).symm
  · rfl

theorem machine_poke (x : Simulator) (a v : UInt8) :
    (x.poke a v).machine = x.machine.poke a v := rfl

theorem steps_poke (hc : x.machine.storage.Coherent) {n : ℕ} (hx : ¬ x.machine.ReadsFrom a n)
    (v : UInt8) :
    ((x.poke a v).steps n).2 =
      if x.machine.StoresTo a n then (x.steps n).2 else (x.steps n).2.poke a v := by
  rw [steps_last, steps_last, machine_poke, Machine.iterate_poke hc hx]
  split <;> rfl

theorem states_poke (hc : x.machine.storage.Coherent) {n : ℕ} (hx : ¬ x.machine.ReadsFrom a n)
    (v : UInt8) : ((x.poke a v).steps n).1 = (x.steps n).1 := by
  rw [steps_states, steps_states]
  apply List.map_congr_left
  intro k hk
  have hbefore : ¬ x.machine.ReadsFrom a (k + 1) :=
    fun h => hx (h.mono (List.mem_range.mp hk))
  rw [machine_poke, Machine.iterate_poke hc hbefore]
  split <;> rfl

/-- Between the two runs there is nothing but the poke, and a store to the cell takes that away. The
cells that a step is said to read and to store to are those that it touches. -/
theorem unread_cell_without_influence (s : Settings) (ops : List Operation) {n : ℕ}
    (ha : ¬ ((new s).performAll ops).machine.ReadsFrom a n) (v : UInt8) :
    let x := (new s).performAll ops
    (∀ k < n, (Machine.step^[k] x.machine).Touches) ∧
    ((x.poke a v).steps n).1 = (x.steps n).1 ∧
    AgreesBut a (x.steps n).2 ((x.poke a v).steps n).2 ∧
    (x.machine.StoresTo a n → ((x.poke a v).steps n).2 = (x.steps n).2) ∧
    (¬ x.machine.StoresTo a n → ((x.poke a v).steps n).2 = (x.steps n).2.poke a v) := by
  intro x
  have hc : x.machine.storage.Coherent := coherent_performAll s ops
  have hlast := steps_poke hc ha v
  refine ⟨?_, states_poke hc ha v, ?_, ?_, ?_⟩
  · intro k _
    exact Machine.touches (Machine.coherent_iterate hc k)
  · rw [hlast]
    by_cases hstored : x.machine.StoresTo a n
    · rw [if_pos hstored]
      exact AgreesBut.refl a _
    · rw [if_neg hstored]
      exact agreesBut_poke _ a v
  · intro hstored
    rw [hlast, if_pos hstored]
  · intro hnone
    rw [hlast, if_neg hnone]

/-- Both cells lie in the block that the loads bring in, so both runs copy them. One is stored to
in the end, the other never, and its copies are then different. -/
theorem unread_cell_without_influence_in_block :
    let ops : List Operation := [
      .assemble .hex ["LDA 10".toList, "VADD 10".toList, "STA 15".toList, "HLT".toList],
      .poke 16 5, .step]
    let x := (new {}).performAll ops
    ¬ x.machine.ReadsFrom 20 3 ∧ ¬ x.machine.ReadsFrom 21 3 ∧
    ¬ x.machine.StoresTo 20 3 ∧ x.machine.StoresTo 21 3 ∧
    ((x.steps 3).2.poke 20 9).machine.dcache.data ≠ (x.steps 3).2.machine.dcache.data ∧
    ((x.poke 20 9).steps 3).2 = (x.steps 3).2.poke 20 9 ∧
    ((x.poke 20 9).steps 3).1 = (x.steps 3).1 ∧
    AgreesBut 20 (x.steps 3).2 ((x.poke 20 9).steps 3).2 ∧
    ((x.poke 21 9).steps 3).2 = (x.steps 3).2 := by
  intro ops x
  have hunread : ¬ x.machine.ReadsFrom 20 3 := by decide +kernel
  have hunread' : ¬ x.machine.ReadsFrom 21 3 := by decide +kernel
  have hnone : ¬ x.machine.StoresTo 20 3 := by decide +kernel
  have hstored : x.machine.StoresTo 21 3 := by decide +kernel
  obtain ⟨-, hstates, hagrees, -, hpoked⟩ := unread_cell_without_influence {} ops hunread 9
  obtain ⟨-, -, -, hsame, -⟩ := unread_cell_without_influence {} ops hunread' 9
  exact ⟨hunread, hunread', hnone, hstored, by decide +kernel, hpoked hnone, hstates, hagrees,
    hsame hstored⟩

end Simulator

end AccumulatorMachine
