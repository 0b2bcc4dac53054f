import AccumulatorMachine.Proofs.Machine.Refinement

/-! What one step can do. A running machine leaves memory, meets a byte that is no opcode, or
executes the instruction it has fetched; there is no fourth way, and each says which parts of the
machine it may touch. With coherent caches the fetched bytes are those in memory. -/
namespace AccumulatorMachine

namespace Mnemonic

theorem ofOpcode?_eq_none_iff {byte : UInt8} :
    ofOpcode? byte = none ↔ ∀ mnemonic : Mnemonic, mnemonic.opcode ≠ byte := by
  rw [ofOpcode?, List.find?_eq_none]
  constructor
  · intro h mnemonic
    simpa using h mnemonic mnemonic.mem_all
  · intro h mnemonic _
    simpa using h mnemonic

theorem opcode_of_ofOpcode? {byte : UInt8} {mnemonic : Mnemonic}
    (h : ofOpcode? byte = some mnemonic) : mnemonic.opcode = byte := by
  have hfound := List.find?_some h
  simpa using hfound

end Mnemonic

namespace Memory

/-- The instruction at an address, if there is an opcode. The cell behind the last one is read
as 0. -/
def instruction? (m : Memory) (pc : UInt8) : Option Fetched :=
  (Mnemonic.ofOpcode? (m.read pc)).map fun mnemonic =>
    ⟨pc, mnemonic, match mnemonic.arity with
      | .implied => none
      | .address => some ((m.get? (pc.toNat + 1)).getD 0)⟩

variable {m : Memory} {pc : UInt8} {i : Fetched}

theorem instruction?_eq_none_iff :
    m.instruction? pc = none ↔ ∀ mnemonic : Mnemonic, mnemonic.opcode ≠ m.read pc := by
  rw [instruction?, Option.map_eq_none_iff, Mnemonic.ofOpcode?_eq_none_iff]

theorem opcode_of_instruction? (h : m.instruction? pc = some i) :
    i.mnemonic.opcode = m.read pc := by
  obtain ⟨mnemonic, hm, rfl⟩ := Option.map_eq_some_iff.mp h
  exact Mnemonic.opcode_of_ofOpcode? hm

end Memory

def Fetched.jumps (i : Fetched) (r : Registers) : Bool :=
  match i.mnemonic with
  | .jmp => true
  | .jn => r.negative
  | .jz => r.zero
  | _ => false

theorem Counts.branchesTaken_record (c : Counts) (mnemonic : Mnemonic) :
    (c.record mnemonic).branchesTaken = c.branchesTaken := by
  unfold record
  cases mnemonic.group <;> rfl

namespace Machine

variable {m : Machine} {pc o : UInt8} {i : Fetched}

/-- Fetching touches the instruction cache alone. -/
theorem fetchInstruction_frame (m : Machine) (pc : UInt8) :
    (m.fetchInstruction pc).2 = { m with icache := (m.fetchInstruction pc).2.icache } := by
  unfold fetchInstruction
  dsimp only
  split
  · rfl
  · split
    · rfl
    · split <;> rfl

/-- A byte that is no opcode is all that is fetched. -/
theorem fetchInstruction_error (h : (m.fetchInstruction pc).1 = .error o) :
    (m.fetchInstruction pc).2 = (m.fetch pc).2 := by
  unfold fetchInstruction at h ⊢
  dsimp only at h ⊢
  split at h
  · rfl
  · split at h
    · contradiction
    · split at h <;> contradiction

theorem fetchInstruction_eq (h : m.storage.Coherent) (pc : UInt8) :
    (m.fetchInstruction pc).1 = match m.memory.instruction? pc with
      | some i => .ok i
      | none => .error (m.memory.read pc) := by
  rw [fetchInstruction_value h, Memory.instruction?]
  cases Mnemonic.ofOpcode? (m.memory.read pc) <;> rfl

theorem fetchInstruction_eq_ok_iff (h : m.storage.Coherent) :
    (m.fetchInstruction pc).1 = .ok i ↔ m.memory.instruction? pc = some i := by
  rw [fetchInstruction_eq h]
  cases m.memory.instruction? pc <;> simp

theorem fetchInstruction_eq_error_iff (h : m.storage.Coherent) :
    (m.fetchInstruction pc).1 = .error o ↔
      m.memory.read pc = o ∧ m.memory.instruction? pc = none := by
  rw [fetchInstruction_eq h]
  cases m.memory.instruction? pc <;> simp

/-- What is fetched has an operand just if it takes one, be it fetched or not. -/
theorem fetchInstruction_ok (h : (m.fetchInstruction pc).1 = .ok i) :
    i.pc = pc ∧ (i.operand.isSome ↔ i.mnemonic.arity = .address) := by
  unfold fetchInstruction at h
  dsimp only at h
  split at h
  · contradiction
  · split at h
    · next harity =>
      obtain rfl := Except.ok.inj h
      simp [harity]
    · next harity =>
      split at h <;>
      · obtain rfl := Except.ok.inj h
        simp [harity]

theorem step_stopped (hs : m.state ≠ .running) : m.step = m := by
  unfold step
  cases h : m.state with
  | running => exact absurd h hs
  | halted => rfl
  | faulted f => rfl

inductive Moves (m : Machine) : Machine → Prop where
  | left : 256 ≤ m.regs.pc → Moves m (m.fault (.pcOutOfBounds m.regs.pc))
  | undecoded (pc o : UInt8) : pc.toNat = m.regs.pc → (m.fetchInstruction pc).1 = .error o →
      Moves m ((m.fetch pc).2.fault (.invalidOpcode o pc))
  | executed (pc : UInt8) (i : Fetched) : pc.toNat = m.regs.pc →
      (m.fetchInstruction pc).1 = .ok i →
      Moves m (((m.fetchInstruction pc).2.retire i).execute i)

/-- A program counter inside memory fits in a byte, so no address is lost on the way. -/
theorem exists_toNat_eq_pc (hpc : m.regs.pc < 256) : ∃ pc : UInt8, pc.toNat = m.regs.pc := by
  refine ⟨UInt8.ofNat m.regs.pc, ?_⟩
  simp
  omega

theorem step_of_left (hs : m.state = .running) (hpc : 256 ≤ m.regs.pc) :
    m.step = m.fault (.pcOutOfBounds m.regs.pc) := by
  simp only [step, hs, if_neg (Nat.not_lt_of_le hpc)]

theorem step_of_error (hs : m.state = .running) (hpc : pc.toNat = m.regs.pc)
    (hf : (m.fetchInstruction pc).1 = .error o) :
    m.step = (m.fetch pc).2.fault (.invalidOpcode o pc) := by
  have hlt : m.regs.pc < 256 := hpc ▸ pc.toNat_lt
  simp only [step, hs, if_pos hlt]
  rw [← hpc, UInt8.ofNat_toNat, ← Prod.eta (m.fetchInstruction pc), hf, fetchInstruction_error hf]

theorem step_of_ok (hs : m.state = .running) (hpc : pc.toNat = m.regs.pc)
    (hf : (m.fetchInstruction pc).1 = .ok i) :
    m.step = ((m.fetchInstruction pc).2.retire i).execute i := by
  have hlt : m.regs.pc < 256 := hpc ▸ pc.toNat_lt
  simp only [step, hs, if_pos hlt]
  rw [← hpc, UInt8.ofNat_toNat, ← Prod.eta (m.fetchInstruction pc), hf]

theorem step_moves (hs : m.state = .running) : m.Moves m.step := by
  by_cases hpc : m.regs.pc < 256
  · obtain ⟨pc, hnat⟩ := exists_toNat_eq_pc hpc
    cases hf : (m.fetchInstruction pc).1 with
    | error o =>
      rw [step_of_error hs hnat hf]
      exact .undecoded pc o hnat hf
    | ok i =>
      rw [step_of_ok hs hnat hf]
      exact .executed pc i hnat hf
  · rw [step_of_left hs (Nat.le_of_not_lt hpc)]
    exact .left (Nat.le_of_not_lt hpc)

theorem loadLanes_frame (m : Machine) (start : UInt8) (f : UInt8 → UInt8 → UInt8) :
    ∃ vac dcache, m.loadLanes start f = { m with regs := { m.regs with vac }, dcache } := by
  unfold loadLanes
  induction lanes start generalizing m with
  | nil => exact ⟨_, _, rfl⟩
  | cons x xs ih =>
    obtain ⟨vac, dcache, h⟩ := ih ((m.load x.2).2.setLane x.1
      (f ((m.load x.2).2.regs.vac.get x.1) (m.load x.2).1))
    rw [List.foldl_cons]
    exact ⟨vac, dcache, h⟩

theorem storeLanes_frame (m : Machine) (start : UInt8) :
    ∃ memory icache dcache, m.storeLanes start = { m with memory, icache, dcache } := by
  unfold storeLanes
  induction lanes start generalizing m with
  | nil => exact ⟨_, _, _, rfl⟩
  | cons x xs ih =>
    obtain ⟨memory, icache, dcache, h⟩ := ih (m.store x.2 (m.regs.vac.get x.1))
    rw [List.foldl_cons]
    exact ⟨memory, icache, dcache, h⟩

theorem trace_record (m : Machine) (i : Fetched) :
    (m.record i).trace =
      if m.tracing ∧ m.trace.size < m.traceCapacity then m.trace.push i else m.trace := by
  unfold record
  split <;> rfl

/-- Booking touches the trace and the counters alone. -/
theorem retire_frame (m : Machine) (i : Fetched) :
    m.retire i =
      { m with trace := (m.record i).trace, counts := m.counts.record i.mnemonic } := by
  unfold retire record
  dsimp only
  split <;> rfl

/-- Executing leaves the trace alone, and counts nothing but the branches that it takes. Of all
instructions only HLT stops the machine. -/
theorem execute_frame (m : Machine) (i : Fetched) :
    ∃ regs memory icache dcache,
      m.execute i = { m with
        regs, memory, icache, dcache
        state := if i.mnemonic = .hlt then .halted else m.state
        counts := { m.counts with
          branchesTaken := m.counts.branchesTaken + if i.jumps m.regs then 1 else 0 } } := by
  unfold execute Fetched.jumps
  cases i.mnemonic with
  | nop | not | jmp | hlt | veadd | vnot | sta | lda | add | or | and =>
    exact ⟨_, _, _, _, rfl⟩
  | jn | jz =>
    dsimp only
    split <;> exact ⟨_, _, _, _, rfl⟩
  | vld | vadd | vor | vand =>
    obtain ⟨vac, dcache, h⟩ := m.loadLanes_frame (i.operand.getD 0) _
    dsimp only
    rw [h]
    exact ⟨_, _, _, _, rfl⟩
  | vst =>
    obtain ⟨memory, icache, dcache, h⟩ := m.storeLanes_frame (i.operand.getD 0)
    dsimp only
    rw [h]
    exact ⟨_, _, _, _, rfl⟩

theorem execute_hlt (m : Machine) (h : i.mnemonic = .hlt) :
    m.execute i = { m with state := .halted } := by
  unfold execute
  rw [h]

/-- What an executed instruction leaves of a machine besides what it computes. -/
theorem executed_frame (m : Machine) (pc : UInt8) (i : Fetched) :
    let n := ((m.fetchInstruction pc).2.retire i).execute i
    n.state = (if i.mnemonic = .hlt then .halted else m.state) ∧
      n.traceCapacity = m.traceCapacity ∧ n.counts.retired = m.counts.retired + 1 := by
  obtain ⟨_, _, _, _, h⟩ := execute_frame ((m.fetchInstruction pc).2.retire i) i
  rw [h, retire_frame, fetchInstruction_frame]
  exact ⟨rfl, rfl, rfl⟩

theorem pc_execute (m : Machine) (i : Fetched) :
    (m.execute i).regs.pc =
      if i.jumps m.regs then (i.operand.getD 0).toNat
      else if i.mnemonic = .hlt then m.regs.pc else i.pc.toNat + i.mnemonic.size := by
  unfold execute Fetched.jumps
  cases i.mnemonic with
  | jn | jz =>
    dsimp only
    split <;> rfl
  | _ => rfl

theorem executed_flow (m : Machine) (pc : UInt8) (i : Fetched) :
    let n := ((m.fetchInstruction pc).2.retire i).execute i
    n.regs.pc = (if i.jumps m.regs then (i.operand.getD 0).toNat
      else if i.mnemonic = .hlt then m.regs.pc else i.pc.toNat + i.mnemonic.size) ∧
    n.counts = { m.counts.record i.mnemonic with
      branchesTaken := m.counts.branchesTaken + if i.jumps m.regs then 1 else 0 } ∧
    n.tracing = m.tracing ∧
    n.trace = if m.tracing ∧ m.trace.size < m.traceCapacity then m.trace.push i else m.trace := by
  have hbooks : (m.fetchInstruction pc).2.retire i =
      { m with
        icache := (m.fetchInstruction pc).2.icache
        trace := if m.tracing ∧ m.trace.size < m.traceCapacity then m.trace.push i else m.trace
        counts := m.counts.record i.mnemonic } := by
    rw [retire_frame, trace_record, fetchInstruction_frame]
  rw [hbooks]
  refine ⟨pc_execute _ i, ?_⟩
  obtain ⟨_, _, _, _, h⟩ := execute_frame _ i
  rw [h, Counts.branchesTaken_record]
  exact ⟨rfl, rfl, rfl⟩

/-- No instruction leads further than two cells behind the last one. -/
theorem pc_execute_le (m : Machine) (i : Fetched) (h : m.regs.pc ≤ 257) :
    (m.execute i).regs.pc ≤ 257 := by
  have hpc := i.pc.toNat_lt
  have hoperand := (i.operand.getD 0).toNat_lt
  have hsize : i.mnemonic.size ≤ 2 := by cases i.mnemonic <;> decide
  rw [pc_execute]
  split
  · omega
  · split <;> omega

theorem pc_step_le (h : m.regs.pc ≤ 257) : m.step.regs.pc ≤ 257 := by
  by_cases hs : m.state = .running
  · have hmoves := step_moves hs
    generalize m.step = n at hmoves
    cases hmoves with
    | left => exact h
    | undecoded => exact h
    | executed pc i =>
      apply pc_execute_le
      rw [retire_frame, fetchInstruction_frame]
      exact h
  · rw [step_stopped hs]
    exact h

end Machine

end AccumulatorMachine
