import AccumulatorMachine.Proofs.Machine.Guard
import AccumulatorMachine.Simulator.Operation
import Mathlib.Logic.Relation

/-! Every operation of a driver comes down to transitions of the machine: single steps, and what
is done to it between steps. A condition that each transition keeps holds of every machine that a
history of operations leads to. -/
namespace AccumulatorMachine

namespace Machine

def install (m : Machine) (memory : Memory) : Machine :=
  { m with memory, icache := m.icache.invalidate, dcache := m.dcache.invalidate }

def poke (m : Machine) (a v : UInt8) : Machine :=
  { m with
    memory := m.memory.write a v
    icache := m.icache.patch a v
    dcache := m.dcache.patch a v }

inductive Transition : Machine → Machine → Prop where
  | step (m : Machine) : Transition m m.step
  | reset (m : Machine) : Transition m m.reset
  | assemble (m : Machine) (base : Base) (lines : List Text) :
      Transition m (m.install (assemble base lines).memory)
  | poke (m : Machine) (a v : UInt8) : Transition m (m.poke a v)

abbrev Transitions := Relation.ReflTransGen Transition

theorem Transitions.keep {P : Machine → Prop} (hP : ∀ {m n}, Transition m n → P m → P n)
    {m n : Machine} (h : Transitions m n) (hm : P m) : P n := by
  induction h with
  | refl => exact hm
  | tail _ last ih => exact hP last ih

theorem iterate_transitions (m : Machine) (k : ℕ) : Transitions m (step^[k] m) := by
  induction k generalizing m with
  | zero => exact .refl
  | succ k ih =>
    rw [Function.iterate_succ_apply]
    exact .head (.step m) (ih m.step)

theorem run_transitions (m : Machine) (guard : ℕ) : Transitions m (m.run guard).2 := by
  rw [run_last]
  exact m.iterate_transitions guard

end Machine

namespace Simulator

open Machine (Transition Transitions)

theorem perform_transitions (x : Simulator) (op : Operation) :
    Transitions x.machine (x.perform op).2.machine := by
  cases op with
  | assemble base lines => exact .single (.assemble x.machine base lines)
  | load program =>
    exact (Relation.ReflTransGen.single
      (Transition.assemble x.machine program.base program.lines)).tail (.reset _)
  | reset => exact .single (.reset x.machine)
  | step => exact .single (.step x.machine)
  | run => exact x.machine.run_transitions x.settings.loopGuard
  | runGuarded guard => exact x.machine.run_transitions guard
  | poke a v => exact .single (.poke x.machine a v)
  | convert new lines => exact .refl

theorem performAll_transitions (x : Simulator) (ops : List Operation) :
    Transitions x.machine (x.performAll ops).machine := by
  induction ops generalizing x with
  | nil => exact .refl
  | cons op ops ih => exact (x.perform_transitions op).trans (ih _)

end Simulator

end AccumulatorMachine
