import AccumulatorMachine.Machine.Run
import Mathlib.Data.Nat.Notation

/-! How a run unfolds. A run that cannot go on reports the state it stands in; otherwise it steps
once and goes on with one instruction less, which counts unless it has faulted. -/
namespace AccumulatorMachine

namespace ExecState

def outcome : ExecState → RunOutcome
  | running => .loopGuardTripped
  | halted => .halted
  | faulted f => .faulted f

def executed : ExecState → Nat
  | running | halted => 1
  | faulted _ => 0

end ExecState

namespace Machine

variable {m : Machine}

theorem runFrom_zero (m : Machine) (steps : ℕ) :
    m.runFrom steps 0 = (⟨m.state.outcome, steps⟩, m) := by
  unfold runFrom
  cases m.state <;> rfl

theorem runFrom_stopped (hs : m.state ≠ .running) (steps guard : ℕ) :
    m.runFrom steps guard = (⟨m.state.outcome, steps⟩, m) := by
  unfold runFrom
  cases h : m.state with
  | running => exact absurd h hs
  | halted => rfl
  | faulted f => rfl

theorem runFrom_running (hs : m.state = .running) (steps guard : ℕ) :
    m.runFrom steps (guard + 1) = m.step.runFrom (steps + m.step.state.executed) guard := by
  rw [runFrom.eq_def]
  simp only [hs]
  cases m.step.state <;> rfl

end Machine

end AccumulatorMachine
