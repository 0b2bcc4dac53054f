import AccumulatorMachine.Proofs.Simulator.Transition

/-! A tripped loop guard means a loop. Between two jumps every instruction lies behind the one before
it or ends the run, so there are at most 256 of them, whatever happens to memory meanwhile. -/
namespace AccumulatorMachine

theorem Mnemonic.size_pos (mnemonic : Mnemonic) : 0 < mnemonic.size := by
  cases mnemonic <;> decide

namespace Machine

variable {m : Machine} {guard : ℕ}

/-- The number of cells that execution has left behind since the last jump, at most. HLT stays
where it is, but leaves its cell behind all the same. -/
def passed (m : Machine) : ℕ := min (m.regs.pc + if m.state = .halted then 1 else 0) 256

def allowance (m : Machine) : ℕ := 256 * m.counts.branchesTaken + m.passed

theorem allowance_le (m : Machine) : m.allowance ≤ 256 * (m.counts.branchesTaken + 1) := by
  have hpassed : m.passed ≤ 256 := Nat.min_le_right _ _
  rw [allowance]
  omega

theorem passed_of_running (h : m.state = .running) : m.passed = min m.regs.pc 256 := by
  simp [passed, h]

theorem passed_of_halted (h : m.state = .halted) : m.passed = min (m.regs.pc + 1) 256 := by
  simp [passed, h]

/-- What a step executes, it adds to the allowance. -/
theorem retired_step_le (m : Machine) :
    m.step.counts.retired + m.allowance ≤ m.counts.retired + m.step.allowance := by
  by_cases hs : m.state = .running
  · have hmoves := step_moves hs
    generalize m.step = n at hmoves ⊢
    cases hmoves with
    | left => simp [allowance, passed, fault, hs]
    | undecoded => simp [allowance, passed, fault, fetch, hs]
    | executed pc i hpc hf =>
      have hlt := pc.toNat_lt
      have hsize := i.mnemonic.size_pos
      obtain ⟨rfl, -⟩ := fetchInstruction_ok hf
      obtain ⟨hstate, -, hretired⟩ := m.executed_frame i.pc i
      obtain ⟨hnext, hcounts, -⟩ := m.executed_flow i.pc i
      have htaken := congrArg Counts.branchesTaken hcounts
      generalize ((m.fetchInstruction i.pc).2.retire i).execute i = n at *
      dsimp only at htaken
      rw [allowance, allowance, passed_of_running hs, hretired, htaken]
      by_cases hhlt : i.mnemonic = .hlt
      · have hjump : ¬ i.jumps m.regs := by simp [Fetched.jumps, hhlt]
        rw [if_pos hhlt] at hstate
        rw [if_neg hjump, if_pos hhlt] at hnext
        rw [if_neg hjump, passed_of_halted hstate]
        omega
      · rw [if_neg hhlt, hs] at hstate
        rw [passed_of_running hstate, hnext, if_neg hhlt]
        -- A jump begins a new stretch, and pays for the whole of the old one.
        split <;> omega
  · rw [step_stopped hs]

theorem retired_iterate_le (m : Machine) (k : ℕ) :
    (step^[k] m).counts.retired + m.allowance ≤
      m.counts.retired + (step^[k] m).allowance := by
  induction k with
  | zero => rfl
  | succ k ih =>
    have hlast := (step^[k] m).retired_step_le
    rw [Function.iterate_succ_apply']
    omega

theorem run_steps_allowed (m : Machine) (guard : ℕ) :
    (m.run guard).1.steps + m.allowance ≤ (m.run guard).2.allowance := by
  have hcount := m.run_retired guard
  have hallowed := m.retired_iterate_le guard
  rw [← run_last] at hallowed
  omega

theorem retired_transition_le {n : Machine} (h : Transition m n)
    (hm : m.counts.retired ≤ m.allowance) : n.counts.retired ≤ n.allowance := by
  cases h with
  | step =>
    have hstep := m.retired_step_le
    omega
  | reset => exact Nat.zero_le _
  | assemble => exact hm
  | poke => exact hm

theorem run_steps_le_of_no_jump
    (h : (m.run guard).2.counts.branchesTaken ≤ m.counts.branchesTaken) :
    (m.run guard).1.steps ≤ 256 := by
  have hsteps := m.run_steps_allowed guard
  have hlast := (m.run guard).2.allowance_le
  have hfirst : 256 * m.counts.branchesTaken ≤ m.allowance := Nat.le_add_right _ _
  omega

theorem jump_of_tripped (hguard : 256 < guard)
    (h : (m.run guard).1.outcome = .loopGuardTripped) :
    m.counts.branchesTaken < (m.run guard).2.counts.branchesTaken := by
  by_contra hnone
  have hfew := run_steps_le_of_no_jump (Nat.le_of_not_lt hnone)
  rw [(m.guarded guard).full h] at hfew
  omega

end Machine

namespace Simulator

/-- What the loop guard tells of a simulator. The program may have run for a while or start anew. -/
structure TripsOnLoops (x : Simulator) : Prop where
  retired_le : x.machine.counts.retired ≤ 256 * (x.machine.counts.branchesTaken + 1)
  tripped : ∀ guard > 256, (x.runGuarded guard).1.outcome = .loopGuardTripped →
    x.machine.counts.branchesTaken < (x.runGuarded guard).2.machine.counts.branchesTaken
  tripped_anew : ∀ guard > 256, (x.reset.runGuarded guard).1.outcome = .loopGuardTripped →
    1 ≤ (x.reset.runGuarded guard).2.machine.counts.branchesTaken
  jumpless : ∀ guard, (x.reset.runGuarded guard).2.machine.counts.branchesTaken = 0 →
    (x.reset.runGuarded guard).1.steps ≤ 256 ∧
    (256 < guard → (x.reset.runGuarded guard).2.machine.state ≠ .running)

/-- Memory may have been replaced or poked in the middle of any stretch of the program. -/
theorem trips_on_loops (s : Settings) (ops : List Operation) :
    TripsOnLoops ((new s).performAll ops) := by
  have hallowed := ((new s).performAll_transitions ops).keep
    (P := fun m => m.counts.retired ≤ m.allowance) Machine.retired_transition_le (Nat.zero_le _)
  generalize (new s).performAll ops = x at hallowed
  constructor
  · exact hallowed.trans x.machine.allowance_le
  · intro guard hguard h
    exact Machine.jump_of_tripped hguard h
  · intro guard hguard h
    exact Machine.jump_of_tripped (m := x.reset.machine) hguard h
  · intro guard hnone
    refine ⟨Machine.run_steps_le_of_no_jump (Nat.le_of_eq hnone), ?_⟩
    intro hguard hrunning
    have htripped := ((x.reset.machine.guarded guard).tripped).mpr hrunning
    have hjump := Machine.jump_of_tripped hguard htripped
    rw [show (x.reset.machine.run guard).2.counts.branchesTaken = 0 from hnone] at hjump
    exact absurd hjump (Nat.not_lt_zero _)

/-- A guard of 256 is too small: empty memory holds as many instructions, and none of them jumps. -/
example : ((new {}).runGuarded 256).1 = ⟨.loopGuardTripped, 256⟩ ∧
    ((new {}).runGuarded 256).2.machine.counts.branchesTaken = 0 := by decide +kernel

end Simulator

end AccumulatorMachine
