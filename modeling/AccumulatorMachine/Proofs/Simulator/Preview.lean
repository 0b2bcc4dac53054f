import AccumulatorMachine.Cli.Command
import AccumulatorMachine.Proofs.Machine.Access
import AccumulatorMachine.Proofs.Simulator.Trace

/-! The listing foretells the next step. It decodes memory, the machine what comes through its cache;
while a cell is tagged, the row that begins there and the step that begins there are the same
instruction, whatever has been stored or poked over it. -/
namespace AccumulatorMachine

namespace Listing

variable {m : Memory} {a : UInt8} {i : Fetched}

/-- The row of an instruction covers as many of its cells as there are. -/
theorem rowAt_of_instruction? (b : Base) (htag : (m.tag a).isSome) (h : m.instruction? a = some i) :
    rowAt b m a = (instructionText b i.mnemonic i.operand, min i.mnemonic.size (256 - a.toNat)) := by
  obtain ⟨mnemonic, hm, rfl⟩ := Option.map_eq_some_iff.mp h
  have hdecode : decode? m a = some mnemonic := by rw [decode?, if_pos htag, hm]
  have hlt := a.toNat_lt
  unfold rowAt Mnemonic.size
  rw [hdecode]
  cases harity : mnemonic.arity with
  | implied =>
    have hsize : min 1 (256 - a.toNat) = 1 := by omega
    simp only [harity, hsize]
  | address =>
    simp only [harity, m.getD_get?_succ]
    by_cases ha : a = 255
    · rw [if_pos ha, if_pos ha, ha]
      rfl
    · have hne : a.toNat ≠ 255 := fun h => ha (UInt8.toNat.inj h)
      have hsize : min 2 (256 - a.toNat) = 2 := by omega
      rw [if_neg ha, if_neg ha, hsize]

end Listing

theorem Fetched.not_jumps {i : Fetched} (h : i.mnemonic.group ≠ .branch) (r : Registers) :
    ¬ i.jumps r := by
  intro hjump
  exact h (group_of_jumps hjump)

namespace Machine

open Listing (rowAt instructionText)

variable {m : Machine} {i : Fetched}

/-- What the row of an instruction says of the step that a machine is about to make: what is
executed and traced, and where it leads unless it is a branch or HLT. -/
structure Foretold (b : Base) (m : Machine) (i : Fetched) : Prop where
  executed : m.step = ((m.fetchInstruction i.pc).2.retire i).execute i
  traced : m.tracing → m.trace.size < m.traceCapacity → m.step.trace = m.trace.push i
  text : (rowAt b m.memory i.pc).1 = instructionText b i.mnemonic i.operand
  printed : Cli.nextText b m = String.ofList (instructionText b i.mnemonic i.operand)
  leads : i.mnemonic.group ≠ .branch → i.mnemonic ≠ .hlt →
    ¬ (i.mnemonic.arity = .address ∧ i.pc = 255) →
    m.step.regs.pc = m.regs.pc + (rowAt b m.memory i.pc).2
  last : i.mnemonic.arity = .address → i.pc = 255 →
    (rowAt b m.memory i.pc).2 = 1 ∧ (i.mnemonic.group ≠ .branch → m.step.regs.pc = 257)

theorem foretold (hc : m.storage.Coherent) (hs : m.state = .running)
    (hpc : i.pc.toNat = m.regs.pc) (htag : (m.memory.tag i.pc).isSome)
    (hi : m.memory.instruction? i.pc = some i) (b : Base) : Foretold b m i := by
  have hf := (fetchInstruction_eq_ok_iff hc).mpr hi
  have hstep := step_of_ok hs hpc hf
  have hrow := Listing.rowAt_of_instruction? b htag hi
  have hlt := i.pc.toNat_lt
  obtain ⟨hnext, -, -, htrace⟩ := m.executed_flow i.pc i
  rw [← hstep] at hnext htrace
  constructor
  · exact hstep
  · intro hon hroom
    rw [htrace, if_pos ⟨hon, hroom⟩]
  · rw [hrow]
  · have hin : m.regs.pc < 256 := hpc ▸ hlt
    rw [Cli.nextText, if_pos hin, ← hpc, UInt8.ofNat_toNat, hrow]
  · intro hbranch hhlt hroom
    -- Only an operand behind the last cell makes a row smaller than its instruction.
    have hsize : min i.mnemonic.size (256 - i.pc.toNat) = i.mnemonic.size := by
      unfold Mnemonic.size
      cases harity : i.mnemonic.arity with
      | implied =>
        dsimp only
        omega
      | address =>
        have hne : i.pc.toNat ≠ 255 := fun h => hroom ⟨harity, UInt8.toNat.inj h⟩
        dsimp only
        omega
    rw [hnext, if_neg (Fetched.not_jumps hbranch _), if_neg hhlt, hrow, hsize, hpc]
  · intro harity hlast
    have hsize : i.mnemonic.size = 2 := by rw [Mnemonic.size, harity]
    have hpc : i.pc.toNat = 255 := congrArg UInt8.toNat hlast
    constructor
    · rw [hrow, hsize, hpc]
      rfl
    · intro hbranch
      have hhlt : i.mnemonic ≠ .hlt := by
        intro h
        rw [h] at harity
        contradiction
      rw [hnext, if_neg (Fetched.not_jumps hbranch _), if_neg hhlt, hpc, hsize]

end Machine

namespace Simulator

/-- A poke may have put another opcode under the tag, a store another operand next to it. -/
theorem listing_foretells_step (s : Settings) (ops : List Operation) {pc : UInt8}
    {mnemonic : Mnemonic} {tag : Category} :
    let m := ((new s).performAll ops).machine
    m.state = .running → pc.toNat = m.regs.pc →
    m.memory.cell pc = (mnemonic.opcode, some tag) →
    ∃ operand, ∀ b, m.Foretold b ⟨pc, mnemonic, operand⟩ := by
  intro m hs hpc hcell
  have htag : m.memory.tag pc = some tag := congrArg Prod.snd hcell
  have hopcode : m.memory.read pc = mnemonic.opcode := congrArg Prod.fst hcell
  obtain ⟨operand, hi⟩ : ∃ operand, m.memory.instruction? pc = some ⟨pc, mnemonic, operand⟩ := by
    rw [Memory.instruction?, hopcode, Mnemonic.ofOpcode?_opcode]
    exact ⟨_, rfl⟩
  refine ⟨operand, ?_⟩
  intro b
  exact Machine.foretold (coherent_performAll s ops) hs hpc (Option.isSome_of_eq_some htag) hi b

/-- A store has replaced the operand of ADD, and a poke its opcode. -/
theorem listing_foretells_overwritten_step :
    let ops : List Operation := [.assemble .dec ["NOT".toList, "STA 4".toList, "ADD 1".toList],
      .step, .step, .poke 3 64]
    let m := ((new {}).performAll ops).machine
    m.state = .running ∧ m.regs.pc = 3 ∧ m.memory.cell 3 = (Mnemonic.or.opcode, some .operand) ∧
    (Listing.rowAt .hex m.memory 3).1 = "OR FF".toList ∧
    ∃ operand, ∀ b, m.Foretold b ⟨3, .or, operand⟩ := by
  intro ops m
  have hs : m.state = .running := by decide +kernel
  have hpc : m.regs.pc = 3 := by decide +kernel
  have hcell : m.memory.cell 3 = (Mnemonic.or.opcode, some .operand) := by decide +kernel
  refine ⟨hs, hpc, hcell, by decide +kernel, ?_⟩
  exact listing_foretells_step {} ops hs hpc.symm hcell

end Simulator

end AccumulatorMachine
