import AccumulatorMachine.Proofs.Simulator.Trace

/-! The counters agree with each other and with the execution state. They are bumped in three places,
by booking an instruction, by a jump and by a fault, and only a reset clears them; a driver may
replace memory in between. -/
namespace AccumulatorMachine

def ExecState.faults : ExecState → ℕ
  | running | halted => 0
  | faulted _ => 1

def Counts.grouped (c : Counts) : ℕ := c.load + c.store + c.alu + c.branch + c.vector + c.system

structure Counts.Balanced (c : Counts) (s : ExecState) : Prop where
  retired : c.retired = c.grouped
  taken : c.branchesTaken ≤ c.branch
  faults : c.faults = s.faults
  halted : s = .halted → 1 ≤ c.system

namespace Counts

variable {c : Counts}

theorem balanced_zero : zero.Balanced .running := by
  constructor
  · rfl
  · exact Nat.le_refl _
  · rfl
  · intro h
    contradiction

theorem faults_record (c : Counts) (mnemonic : Mnemonic) :
    (c.record mnemonic).faults = c.faults := by
  unfold record
  cases mnemonic.group <;> rfl

theorem grouped_record (c : Counts) (mnemonic : Mnemonic) :
    (c.record mnemonic).grouped = c.grouped + 1 := by
  unfold record
  cases mnemonic.group with
  | load | store | alu | branch | vector | system =>
    simp only [recordGroup, grouped]
    omega

theorem Balanced.executed (h : c.Balanced .running) (i : Fetched) (r : Registers) :
    Balanced { c.record i.mnemonic with
      branchesTaken := c.branchesTaken + if i.jumps r then 1 else 0 }
      (if i.mnemonic = .hlt then .halted else .running) := by
  have hbranch := c.ofGroup_record i.mnemonic .branch
  have hsystem := c.ofGroup_record i.mnemonic .system
  simp only [ofGroup] at hbranch hsystem
  constructor
  · have hgrouped := c.grouped_record i.mnemonic
    rw [← h.retired] at hgrouped
    exact hgrouped.symm
  · have htaken := h.taken
    dsimp only
    rw [hbranch]
    by_cases hjump : i.jumps r
    · rw [if_pos hjump, if_pos (Fetched.group_of_jumps hjump)]
      omega
    · rw [if_neg hjump]
      omega
  · have hfaults : (c.record i.mnemonic).faults = 0 := (c.faults_record i.mnemonic).trans h.faults
    by_cases hhlt : i.mnemonic = .hlt
    · rw [if_pos hhlt]
      exact hfaults
    · rw [if_neg hhlt]
      exact hfaults
  · intro hhalted
    by_cases hhlt : i.mnemonic = .hlt
    · rw [hhlt, if_pos (show Mnemonic.hlt.group = .system from rfl)] at hsystem
      dsimp only
      rw [hhlt]
      omega
    · rw [if_neg hhlt] at hhalted
      contradiction

theorem Balanced.fault (h : c.Balanced .running) (f : Fault) :
    Balanced { c with faults := c.faults + 1 } (.faulted f) := by
  refine ⟨h.retired, h.taken, ?_, ?_⟩
  · exact congrArg (· + 1) h.faults
  · intro hhalted
    contradiction

end Counts

namespace Machine

variable {m n : Machine}

theorem balanced_step (h : m.counts.Balanced m.state) : m.step.counts.Balanced m.step.state := by
  by_cases hs : m.state = .running
  · have hmoves := step_moves hs
    generalize m.step = n at hmoves ⊢
    rw [hs] at h
    cases hmoves with
    | left => exact h.fault _
    | undecoded => exact h.fault _
    | executed pc i =>
      obtain ⟨hstate, -⟩ := m.executed_frame pc i
      obtain ⟨-, hcounts, -⟩ := m.executed_flow pc i
      rw [hstate, hcounts, hs]
      exact h.executed i m.regs
  · rw [step_stopped hs]
    exact h

theorem balanced_transition (hmn : Transition m n) (h : m.counts.Balanced m.state) :
    n.counts.Balanced n.state := by
  cases hmn with
  | step => exact balanced_step h
  | reset => exact Counts.balanced_zero
  | assemble => exact h
  | poke => exact h

end Machine

namespace Simulator

/-- Assembling and loading in the middle of a run included. -/
theorem statistics_balanced (s : Settings) (ops : List Operation) :
    let x := (new s).performAll ops
    x.statistics.counts.Balanced x.machine.state :=
  ((new s).performAll_transitions ops).keep (P := fun m => m.counts.Balanced m.state)
    Machine.balanced_transition Counts.balanced_zero

/-- Behind a fault in mid-run, which assembling does not undo. -/
example : let x := (new {}).performAll [.poke 0 255, .step, .assemble .dec ["JMP 0".toList], .step]
    x.statistics.counts = { faults := 1 } ∧ x.machine.state = .faulted (.invalidOpcode 255 0) := by
  decide +kernel

end Simulator

end AccumulatorMachine
