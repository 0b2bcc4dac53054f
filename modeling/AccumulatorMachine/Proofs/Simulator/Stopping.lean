import AccumulatorMachine.Proofs.Machine.Step
import AccumulatorMachine.Proofs.Simulator.Coherence
import AccumulatorMachine.Proofs.Simulator.Transition

/-! How execution stops. A step that ends in a fault executes nothing and names the fault as it
is, down to the byte in memory; a step that halts leaves everything as it was but the counters, the
trace and the instruction cache. A machine that has stopped stays so until it is reset. -/
namespace AccumulatorMachine

namespace Machine

variable {m : Machine} {o p : UInt8} {pc : ℕ}

theorem step_left (hs : m.state = .running) (h : m.step.state = .faulted (.pcOutOfBounds pc)) :
    pc = m.regs.pc ∧ 256 ≤ pc ∧ m.step = m.fault (.pcOutOfBounds pc) := by
  have hmoves := step_moves hs
  generalize m.step = n at h hmoves
  cases hmoves with
  | left hpc =>
    obtain rfl : m.regs.pc = pc := by simpa [fault] using h
    exact ⟨rfl, hpc, rfl⟩
  | undecoded => simp [fault] at h
  | executed q i =>
    rw [(m.executed_frame q i).1, hs] at h
    split at h <;> contradiction

theorem step_undecoded (hc : m.storage.Coherent) (hs : m.state = .running)
    (h : m.step.state = .faulted (.invalidOpcode o p)) :
    p.toNat = m.regs.pc ∧ m.memory.read p = o ∧ (∀ mnemonic : Mnemonic, mnemonic.opcode ≠ o) ∧
      m.step = (m.fetch p).2.fault (.invalidOpcode o p) := by
  have hmoves := step_moves hs
  generalize m.step = n at h hmoves
  cases hmoves with
  | left => simp [fault] at h
  | undecoded q byte hpc hf =>
    obtain ⟨rfl, rfl⟩ : byte = o ∧ q = p := by simpa [fault] using h
    obtain ⟨rfl, hnone⟩ := (fetchInstruction_eq_error_iff hc).mp hf
    exact ⟨hpc, rfl, Memory.instruction?_eq_none_iff.mp hnone, rfl⟩
  | executed q i =>
    rw [(m.executed_frame q i).1, hs] at h
    split at h <;> contradiction

theorem step_halts (hc : m.storage.Coherent) (hs : m.state = .running)
    (h : m.step.state = .halted) :
    ∃ p : UInt8, p.toNat = m.regs.pc ∧ m.memory.read p = 240 ∧ m.step.regs = m.regs ∧
      m.step.memory = m.memory ∧ m.step.dcache = m.dcache := by
  have hmoves := step_moves hs
  generalize m.step = n at h hmoves
  cases hmoves with
  | left => simp [fault] at h
  | undecoded => simp [fault] at h
  | executed q i hpc hf =>
    have hhlt : i.mnemonic = .hlt := by
      by_contra hne
      rw [(m.executed_frame q i).1, if_neg hne, hs] at h
      contradiction
    have hopcode := Memory.opcode_of_instruction? ((fetchInstruction_eq_ok_iff hc).mp hf)
    refine ⟨q, hpc, by rw [← hopcode, hhlt]; rfl, ?_⟩
    rw [execute_hlt _ hhlt, retire_frame, fetchInstruction_frame]
    exact ⟨rfl, rfl, rfl⟩

end Machine

namespace Simulator

variable {x : Simulator}

/-- No history leads further than past an instruction that begins in the last cell. -/
theorem pc_performAll_le (s : Settings) (ops : List Operation) :
    ((new s).performAll ops).machine.regs.pc ≤ 257 := by
  have hstart : (new s).machine.regs.pc ≤ 257 := Nat.zero_le _
  refine ((new s).performAll_transitions ops).keep (P := fun m => m.regs.pc ≤ 257) ?_ hstart
  intro m n h hm
  cases h with
  | step => exact Machine.pc_step_le hm
  | reset => exact Nat.zero_le _
  | assemble => exact hm
  | poke => exact hm

def Restarts (op : Operation) : Prop := op = .reset ∨ ∃ program, op = .load program

theorem state_perform (hs : x.machine.state ≠ .running) {op : Operation} (hop : ¬ Restarts op) :
    (x.perform op).2.machine.state = x.machine.state := by
  cases op with
  | assemble | poke | convert => rfl
  | load program => exact absurd (.inr ⟨program, rfl⟩) hop
  | reset => exact absurd (.inl rfl) hop
  | step => exact congrArg Machine.state (Machine.step_stopped hs)
  | run | runGuarded =>
    exact congrArg (fun r => r.2.state) (Machine.runFrom_stopped hs 0 _)

theorem state_performAll (hs : x.machine.state ≠ .running) {ops : List Operation}
    (hops : ∀ op ∈ ops, ¬ Restarts op) : (x.performAll ops).machine.state = x.machine.state := by
  induction ops generalizing x with
  | nil => rfl
  | cons op ops ih =>
    have hop := state_perform hs (hops op List.mem_cons_self)
    have hrest := ih (by rw [hop]; exact hs) fun o ho => hops o (List.mem_cons_of_mem op ho)
    exact hrest.trans hop

theorem step_of_stopped (hs : x.machine.state ≠ .running) : x.step = (x.machine.state, x) := by
  rw [step, Machine.step_stopped hs]

theorem runGuarded_of_stopped (hs : x.machine.state ≠ .running) (guard : ℕ) :
    x.runGuarded guard = (⟨x.machine.state.outcome, 0⟩, x) := by
  rw [runGuarded, Machine.run, Machine.runFrom_stopped hs]

/-- What stopping tells of a simulator and leaves of it. A fault changes its own two fields and, if
an opcode was looked for, the cache it was fetched through. -/
structure StopsTruthfully (x : Simulator) : Prop where
  outOfBounds : x.machine.state = .running → ∀ pc, x.step.1 = .faulted (.pcOutOfBounds pc) →
    pc = x.machine.regs.pc ∧ (pc = 256 ∨ pc = 257) ∧
    x.step.2 = { x with
      machine := { x.machine with
        counts := { x.machine.counts with faults := x.machine.counts.faults + 1 }
        state := .faulted (.pcOutOfBounds pc) } }
  invalidOpcode : x.machine.state = .running → ∀ o p, x.step.1 = .faulted (.invalidOpcode o p) →
    p.toNat = x.machine.regs.pc ∧ x.machine.memory.read p = o ∧
    (∀ mnemonic : Mnemonic, mnemonic.opcode ≠ o) ∧
    x.step.2 = { x with
      machine := { x.machine with
        icache := (x.machine.icache.access x.machine.memory p).2.2
        counts := { x.machine.counts with faults := x.machine.counts.faults + 1 }
        state := .faulted (.invalidOpcode o p) } }
  halted : x.machine.state = .running → x.step.1 = .halted →
    ∃ p : UInt8, p.toNat = x.machine.regs.pc ∧ x.machine.memory.read p = 240 ∧
    x.step.2.machine.regs = x.machine.regs ∧ x.step.2.machine.memory = x.machine.memory ∧
    x.step.2.machine.dcache = x.machine.dcache
  final : x.machine.state ≠ .running → ∀ ops : List Operation, (∀ op ∈ ops, ¬ Restarts op) →
    let y := x.performAll ops
    y.step = (x.machine.state, y) ∧ y.run = (⟨x.machine.state.outcome, 0⟩, y) ∧
    ∀ guard, y.runGuarded guard = (⟨x.machine.state.outcome, 0⟩, y)

/-- The driver may have done anything before, such as replace or poke memory in mid-run. -/
theorem stops_truthfully (s : Settings) (ops : List Operation) :
    StopsTruthfully ((new s).performAll ops) := by
  have hc := coherent_performAll s ops
  have hbound := pc_performAll_le s ops
  generalize (new s).performAll ops = x at hc hbound
  constructor
  · intro hs pc h
    obtain ⟨rfl, hpc, hstep⟩ := Machine.step_left hs h
    -- The fault begins at 256, and no history gets past 257.
    refine ⟨rfl, by omega, ?_⟩
    rw [step, hstep]
    rfl
  · intro hs o p h
    obtain ⟨hpc, hread, hopcode, hstep⟩ := Machine.step_undecoded hc hs h
    refine ⟨hpc, hread, hopcode, ?_⟩
    rw [step, hstep]
    rfl
  · intro hs h
    exact Machine.step_halts hc hs h
  · intro hs ops hops
    have hstate := state_performAll hs hops
    have hstopped : (x.performAll ops).machine.state ≠ .running := by
      rw [hstate]
      exact hs
    dsimp only
    rw [← hstate]
    exact ⟨step_of_stopped hstopped, runGuarded_of_stopped hstopped _,
      runGuarded_of_stopped hstopped⟩

/-- An address instruction in the last cell leads behind the missing cell of its operand. -/
example : ((new {}).performAll [.poke 0 128, .poke 1 255, .poke 255 32, .step, .step]).step.1 =
    .faulted (.pcOutOfBounds 257) := by decide +kernel

end Simulator

end AccumulatorMachine
