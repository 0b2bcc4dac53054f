import AccumulatorMachine.Machine.Step

/-! Runs of the machine under a guard on the number of instructions. -/
namespace AccumulatorMachine

inductive RunOutcome where
  | halted
  | faulted (fault : Fault)
  | loopGuardTripped
  deriving DecidableEq, Repr

/-- How a run ended and how many instructions it executed. HLT counts, a step that ends in a fault
does not. -/
structure RunReport where
  outcome : RunOutcome
  steps : Nat
  deriving DecidableEq, Repr

namespace Machine

/-- Continues a run that has executed `steps` instructions and may execute `guard` more. Whether
the machine has stopped is asked before the guard. -/
def runFrom (m : Machine) (steps guard : Nat) : RunReport × Machine :=
  match m.state, guard with
  | .halted, _ => (⟨.halted, steps⟩, m)
  | .faulted f, _ => (⟨.faulted f, steps⟩, m)
  | .running, 0 => (⟨.loopGuardTripped, steps⟩, m)
  | .running, guard + 1 =>
    let m := m.step
    match m.state with
    | .faulted _ => m.runFrom steps guard
    | .running | .halted => m.runFrom (steps + 1) guard

def run (m : Machine) (guard : Nat) : RunReport × Machine := m.runFrom 0 guard

end Machine

end AccumulatorMachine
