import AccumulatorMachine.Proofs.Machine.Step
import Mathlib.Data.Nat.Find
import Mathlib.Logic.Function.Iterate
import Mathlib.Order.Bounds.Basic

/-! Guarded runs are iterated steps. A run ends where stepping as often as the guard allows ends,
counts what it executes, and may be interrupted anywhere. Nothing is asked of the machine that
runs: its caches may hold anything, and it may have stopped. -/
namespace AccumulatorMachine

theorem ExecState.outcome_injective : Function.Injective outcome := by
  intro s t h
  cases s <;> cases t <;> simp_all [outcome]

theorem ExecState.executed_le_one (s : ExecState) : s.executed ≤ 1 := by
  cases s <;> simp [executed]

namespace Machine

variable {m last : Machine} {report : RunReport} {steps guard k : ℕ}

/-- A step counts one instruction, and none if it ends in a fault. -/
theorem retired_step (hs : m.state = .running) :
    m.step.counts.retired = m.counts.retired + m.step.state.executed := by
  have hmoves := step_moves hs
  generalize m.step = n at hmoves
  cases hmoves with
  | left => rfl
  | undecoded => rfl
  | executed pc i =>
    obtain ⟨hstate, -, hretired⟩ := m.executed_frame pc i
    rw [hretired, hstate, hs]
    split <;> rfl

theorem iterate_stopped (hs : m.state ≠ .running) (k : ℕ) : step^[k] m = m :=
  Function.iterate_fixed (step_stopped hs) k

theorem runFrom_last (m : Machine) (steps guard : ℕ) :
    (m.runFrom steps guard).2 = step^[guard] m := by
  induction guard generalizing m steps with
  | zero => rw [runFrom_zero, Function.iterate_zero_apply]
  | succ guard ih =>
    by_cases hs : m.state = .running
    · rw [runFrom_running hs, ih, Function.iterate_succ_apply]
    · rw [runFrom_stopped hs, iterate_stopped hs]

theorem runFrom_outcome (m : Machine) (steps guard : ℕ) :
    (m.runFrom steps guard).1.outcome = (m.runFrom steps guard).2.state.outcome := by
  induction guard generalizing m steps with
  | zero => rw [runFrom_zero]
  | succ guard ih =>
    by_cases hs : m.state = .running
    · rw [runFrom_running hs, ih]
    · rw [runFrom_stopped hs]

theorem runFrom_retired (m : Machine) (steps guard : ℕ) :
    m.counts.retired + (m.runFrom steps guard).1.steps =
      steps + (m.runFrom steps guard).2.counts.retired := by
  induction guard generalizing m steps with
  | zero => rw [runFrom_zero, Nat.add_comm]
  | succ guard ih =>
    by_cases hs : m.state = .running
    · rw [runFrom_running hs]
      have hrest := ih m.step (steps + m.step.state.executed)
      rw [retired_step hs] at hrest
      omega
    · rw [runFrom_stopped hs, Nat.add_comm]

theorem runFrom_steps_le (m : Machine) (steps guard : ℕ) :
    (m.runFrom steps guard).1.steps ≤ steps + guard := by
  induction guard generalizing m steps with
  | zero => rw [runFrom_zero, Nat.add_zero]
  | succ guard ih =>
    by_cases hs : m.state = .running
    · rw [runFrom_running hs]
      have hrest := ih m.step (steps + m.step.state.executed)
      have hone := m.step.state.executed_le_one
      omega
    · rw [runFrom_stopped hs]
      exact Nat.le_add_right _ _

/-- A step that does not fault executes one instruction, so a machine that is still running has
executed all that the guard allows. -/
theorem runFrom_steps_eq (h : (m.runFrom steps guard).2.state = .running) :
    (m.runFrom steps guard).1.steps = steps + guard := by
  induction guard generalizing m steps with
  | zero => rw [runFrom_zero, Nat.add_zero]
  | succ guard ih =>
    by_cases hs : m.state = .running
    · rw [runFrom_running hs] at h ⊢
      rw [ih h]
      cases hnext : m.step.state with
      | running | halted =>
        rw [ExecState.executed]
        omega
      | faulted f =>
        rw [runFrom_stopped (by rw [hnext]; simp)] at h
        rw [hnext] at h
        contradiction
    · rw [runFrom_stopped hs] at h
      exact absurd h hs

/-- The loop of a run, which compares what it has counted with the guard. It only has the ends that
it reaches after finitely many rounds. -/
inductive Loop (guard : ℕ) : Machine → ℕ → RunReport → Machine → Prop where
  | stopped {m : Machine} {steps : ℕ} : m.state ≠ .running →
      Loop guard m steps ⟨m.state.outcome, steps⟩ m
  | tripped {m : Machine} {steps : ℕ} : m.state = .running → guard ≤ steps →
      Loop guard m steps ⟨.loopGuardTripped, steps⟩ m
  | next {m : Machine} {steps : ℕ} {report : RunReport} {last : Machine} :
      m.state = .running → steps < guard →
      Loop guard m.step (steps + m.step.state.executed) report last →
      Loop guard m steps report last

theorem executed_cases (m : Machine) : m.state.executed = 1 ∨ m.state ≠ .running := by
  cases m.state with
  | running => exact .inl rfl
  | halted => exact .inl rfl
  | faulted f => exact .inr (by simp)

theorem loop_runFrom (m : Machine) (steps k : ℕ) :
    Loop (steps + k) m steps (m.runFrom steps k).1 (m.runFrom steps k).2 := by
  induction k generalizing m steps with
  | zero =>
    rw [runFrom_zero]
    by_cases hs : m.state = .running
    · rw [hs]
      exact .tripped hs (Nat.le_refl _)
    · exact .stopped hs
  | succ k ih =>
    by_cases hs : m.state = .running
    · rw [runFrom_running hs]
      apply Loop.next hs (by omega)
      rcases m.step.executed_cases with hone | hstop
      · have hrest := ih m.step (steps + 1)
        rw [Nat.add_right_comm] at hrest
        rw [hone]
        exact hrest
      · rw [runFrom_stopped hstop]
        exact .stopped hstop
    · rw [runFrom_stopped hs]
      exact .stopped hs

/-- The loop has no other end. -/
theorem Loop.eq_runFrom (h : Loop guard m steps report last) :
    m.runFrom steps (guard - steps) = (report, last) := by
  induction h with
  | stopped hs => exact runFrom_stopped hs _ _
  | tripped hs hg => rw [Nat.sub_eq_zero_of_le hg, runFrom_zero, hs, ExecState.outcome]
  | @next m steps report last hs hg _ ih =>
    have hround : guard - steps = guard - (steps + 1) + 1 := by omega
    rw [hround, runFrom_running hs]
    rcases m.step.executed_cases with hone | hstop
    · rw [hone] at ih ⊢
      exact ih
    · rw [runFrom_stopped hstop] at ih ⊢
      exact ih

theorem loop_iff_run : Loop guard m 0 report last ↔ m.run guard = (report, last) := by
  constructor
  · intro h
    exact h.eq_runFrom
  · intro h
    have hloop := m.loop_runFrom 0 guard
    rw [Nat.zero_add] at hloop
    rwa [show m.runFrom 0 guard = (report, last) from h] at hloop

theorem run_last (m : Machine) (guard : ℕ) : (m.run guard).2 = step^[guard] m :=
  m.runFrom_last 0 guard

theorem run_retired (m : Machine) (guard : ℕ) :
    (m.run guard).2.counts.retired = m.counts.retired + (m.run guard).1.steps := by
  have h := m.runFrom_retired 0 guard
  rw [Nat.zero_add] at h
  exact h.symm

theorem run_steps_le (m : Machine) (guard : ℕ) : (m.run guard).1.steps ≤ guard := by
  have h := m.runFrom_steps_le 0 guard
  rwa [Nat.zero_add] at h

theorem run_steps_eq (h : (m.run guard).2.state = .running) : (m.run guard).1.steps = guard := by
  have hall := runFrom_steps_eq h
  rwa [Nat.zero_add] at hall

theorem run_outcome_iff (m : Machine) (guard : ℕ) (s : ExecState) :
    (m.run guard).1.outcome = s.outcome ↔ (m.run guard).2.state = s := by
  rw [run, runFrom_outcome]
  exact ExecState.outcome_injective.eq_iff

/-- The steps after which a machine has stopped or has executed what a guard allows. -/
def ends (m : Machine) (guard : ℕ) : Set ℕ :=
  {k | (step^[k] m).state ≠ .running ∨
    (step^[k] m).counts.retired = m.counts.retired + guard}

theorem guard_mem_ends (m : Machine) (guard : ℕ) : guard ∈ m.ends guard := by
  by_cases hs : (step^[guard] m).state = .running
  · right
    rw [← run_last] at hs ⊢
    rw [run_retired, run_steps_eq hs]
  · exact .inl hs

/-- Where a run ends, it is the first time that it may. -/
theorem run_last_of_least (h : IsLeast (m.ends guard) k) : (m.run guard).2 = step^[k] m := by
  have hle : k ≤ guard := h.2 (m.guard_mem_ends guard)
  rcases h.1 with hstop | hall
  · have hsplit : guard = guard - k + k := by omega
    rw [run_last, hsplit, Function.iterate_add_apply, iterate_stopped hstop]
  · -- No step executes more than one instruction, so the guard is used up only by as many steps.
    have hcount := m.run_retired k
    have hbound := m.run_steps_le k
    rw [run_last] at hcount
    have heq : k = guard := by omega
    rw [run_last, heq]

theorem exists_least_end (m : Machine) (guard : ℕ) : ∃ k, IsLeast (m.ends guard) k := by
  classical
  have hne : ∃ k, k ∈ m.ends guard := ⟨guard, m.guard_mem_ends guard⟩
  exact ⟨Nat.find hne, Nat.find_spec hne, fun j hj => Nat.find_min' hne hj⟩

theorem run_add (m : Machine) (a b : ℕ) :
    m.run (a + b) =
      (⟨((m.run a).2.run b).1.outcome, (m.run a).1.steps + ((m.run a).2.run b).1.steps⟩,
        ((m.run a).2.run b).2) := by
  have hlast : (m.run (a + b)).2 = ((m.run a).2.run b).2 := by
    rw [run_last, run_last, run_last, Nat.add_comm, Function.iterate_add_apply]
  have houtcome : (m.run (a + b)).1.outcome = ((m.run a).2.run b).1.outcome := by
    rw [run, runFrom_outcome, run, runFrom_outcome]
    exact congrArg (fun x => x.state.outcome) hlast
  have hsteps : (m.run (a + b)).1.steps =
      (m.run a).1.steps + ((m.run a).2.run b).1.steps := by
    have hall := m.run_retired (a + b)
    have hfirst := m.run_retired a
    have hsecond := (m.run a).2.run_retired b
    rw [hlast] at hall
    omega
  rw [← hlast, ← houtcome, ← hsteps]

theorem run_succ (hs : m.state = .running) (guard : ℕ) :
    m.run (guard + 1) =
      (⟨(m.step.run guard).1.outcome, m.step.state.executed + (m.step.run guard).1.steps⟩,
        (m.step.run guard).2) := by
  have hone : m.run 1 = (⟨m.step.state.outcome, m.step.state.executed⟩, m.step) := by
    rw [run, runFrom_running hs, runFrom_zero, Nat.zero_add]
  rw [Nat.add_comm, run_add, hone]

theorem run_stopped (hs : m.state ≠ .running) (guard : ℕ) :
    m.run guard = (⟨m.state.outcome, 0⟩, m) := runFrom_stopped hs 0 guard

structure Guarded (m : Machine) (guard : ℕ) : Prop where
  loop : ∀ report last, Loop guard m 0 report last ↔ m.run guard = (report, last)
  last : ∃ k, IsLeast (m.ends guard) k ∧ (m.run guard).2 = step^[k] m
  bounded : (m.run guard).1.steps ≤ guard
  counted : (m.run guard).2.counts.retired = m.counts.retired + (m.run guard).1.steps
  halted : (m.run guard).1.outcome = .halted ↔ (m.run guard).2.state = .halted
  faulted : ∀ f, (m.run guard).1.outcome = .faulted f ↔ (m.run guard).2.state = .faulted f
  tripped : (m.run guard).1.outcome = .loopGuardTripped ↔ (m.run guard).2.state = .running
  full : (m.run guard).1.outcome = .loopGuardTripped → (m.run guard).1.steps = guard

theorem guarded (m : Machine) (guard : ℕ) : m.Guarded guard := by
  have htripped := m.run_outcome_iff guard .running
  constructor
  · intro report last
    exact loop_iff_run
  · obtain ⟨k, hk⟩ := m.exists_least_end guard
    exact ⟨k, hk, run_last_of_least hk⟩
  · exact m.run_steps_le guard
  · exact m.run_retired guard
  · exact m.run_outcome_iff guard .halted
  · intro f
    exact m.run_outcome_iff guard (.faulted f)
  · exact htripped
  · intro h
    exact run_steps_eq (htripped.mp h)

/-- Guards that a halt, a fault or a cut falls on exactly are no exception. -/
theorem runs_guarded_and_composed (m : Machine) :
    (∀ guard, m.Guarded guard) ∧
    ∀ a b, m.run (a + b) =
      (⟨((m.run a).2.run b).1.outcome, (m.run a).1.steps + ((m.run a).2.run b).1.steps⟩,
        ((m.run a).2.run b).2) :=
  ⟨m.guarded, m.run_add⟩

end Machine

end AccumulatorMachine
