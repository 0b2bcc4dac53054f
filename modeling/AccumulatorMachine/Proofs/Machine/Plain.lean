import AccumulatorMachine.Proofs.Machine.Run
import AccumulatorMachine.Simulator.Operation

/-! The machine as a programmer sees it: registers, memory and execution state, with no cache, no
counter and no trace. Every instruction works on the cells themselves, a vector instruction on all
its lanes at once. It answers the same operations as the simulator. -/
namespace AccumulatorMachine

structure Plain where
  ac : UInt8
  pc : Nat
  vac : Vector UInt8 4
  memory : Memory
  state : ExecState
  deriving DecidableEq, Repr

def laneAt? (start : UInt8) (a : Nat) : Option (Fin 4) :=
  if h : start.toNat ≤ a ∧ a < start.toNat + 4 then some ⟨a - start.toNat, by omega⟩ else none

namespace Plain

def initial : Plain := ⟨0, 0, Vector.replicate 4 0, .empty, .running⟩

def store (p : Plain) (a v : UInt8) : Plain :=
  { p with memory := (p.memory.write a v).setTag a none }

/-- Combines every lane with its cell; a lane past the end of memory keeps its value. -/
def combine (p : Plain) (start : UInt8) (f : UInt8 → UInt8 → UInt8) : Plain :=
  { p with
    vac := Vector.ofFn fun i => match p.memory.get? (start.toNat + i.val) with
      | some v => f (p.vac.get i) v
      | none => p.vac.get i }

def storeLanes (p : Plain) (start : UInt8) : Plain :=
  { p with
    memory :=
      { cells := Vector.ofFn fun a => match laneAt? start a with
          | some lane => p.vac.get lane
          | none => p.memory.cells.get a
        tags := Vector.ofFn fun a => match laneAt? start a with
          | some _ => none
          | none => p.memory.tags.get a } }

def execute (p : Plain) (m : Mnemonic) (operand : UInt8) : Plain :=
  let cell := p.memory.read operand
  match m with
  | .nop => { p with pc := p.pc + 1 }
  | .sta => { p.store operand p.ac with pc := p.pc + 2 }
  | .lda => { p with ac := cell, pc := p.pc + 2 }
  | .add => { p with ac := p.ac + cell, pc := p.pc + 2 }
  | .or => { p with ac := p.ac ||| cell, pc := p.pc + 2 }
  | .and => { p with ac := p.ac &&& cell, pc := p.pc + 2 }
  | .not => { p with ac := ~~~p.ac, pc := p.pc + 1 }
  | .jmp => { p with pc := operand.toNat }
  | .jn => { p with pc := if 128 ≤ p.ac then operand.toNat else p.pc + 2 }
  | .jz => { p with pc := if p.ac = 0 then operand.toNat else p.pc + 2 }
  | .hlt => { p with state := .halted }
  | .vld => { p.combine operand (fun _ v => v) with pc := p.pc + 2 }
  | .vst => { p.storeLanes operand with pc := p.pc + 2 }
  | .vadd => { p.combine operand (fun lane v => lane + v) with pc := p.pc + 2 }
  | .veadd => { p with vac := p.vac.map (fun lane => lane + p.ac), pc := p.pc + 1 }
  | .vor => { p.combine operand (fun lane v => lane ||| v) with pc := p.pc + 2 }
  | .vand => { p.combine operand (fun lane v => lane &&& v) with pc := p.pc + 2 }
  | .vnot => { p with vac := p.vac.map (fun lane => ~~~lane), pc := p.pc + 1 }

/-- The byte behind the opcode is the operand, 0 if there is no such cell. -/
def step (p : Plain) : Plain :=
  match p.state with
  | .halted | .faulted _ => p
  | .running =>
    match p.memory.get? p.pc with
    | none => { p with state := .faulted (.pcOutOfBounds p.pc) }
    | some opcode =>
      match Mnemonic.ofOpcode? opcode with
      | none => { p with state := .faulted (.invalidOpcode opcode (UInt8.ofNat p.pc)) }
      | some m => p.execute m ((p.memory.get? (p.pc + 1)).getD 0)

/-- Steps at most `guard` times. A step that faults executes nothing and is not counted. -/
def run (p : Plain) : Nat → RunReport × Plain
  | 0 => (⟨p.state.outcome, 0⟩, p)
  | guard + 1 =>
    match p.state with
    | .halted | .faulted _ => (⟨p.state.outcome, 0⟩, p)
    | .running =>
      let (rest, last) := p.step.run guard
      (⟨rest.outcome, rest.steps + p.step.state.executed⟩, last)

def reset (p : Plain) : Plain := { initial with memory := p.memory }

def perform (loopGuard : Nat) (p : Plain) : Operation → Answer × Plain
  | .assemble base lines =>
    let a := assemble base lines
    (.assembled a.report, { p with memory := a.memory })
  | .load program =>
    let a := assemble program.base program.lines
    (.assembled a.report, { initial with memory := a.memory })
  | .reset => (.nothing, p.reset)
  | .step => (.stepped p.step.state, p.step)
  | .run => let (r, p) := p.run loopGuard; (.ran r, p)
  | .runGuarded guard => let (r, p) := p.run guard; (.ran r, p)
  | .poke a v => (.nothing, { p with memory := p.memory.write a v })
  | .convert _ _ => (.nothing, p)

def transcript (loopGuard : Nat) (p : Plain) : List Operation → List (Answer × Plain)
  | [] => []
  | op :: ops => p.perform loopGuard op :: (p.perform loopGuard op).2.transcript loopGuard ops

end Plain

/-- What an answer says of the machine. Converted lines say nothing of it. -/
def Answer.ofMachine : Answer → Answer
  | converted _ => nothing
  | answer => answer

def Machine.plain (m : Machine) : Plain := ⟨m.regs.ac, m.regs.pc, m.regs.vac, m.memory, m.state⟩

/-- The answers to a history of operations, each with what a programmer sees of the machine
afterwards. -/
def Simulator.transcript (x : Simulator) : List Operation → List (Answer × Plain)
  | [] => []
  | op :: ops =>
    ((x.perform op).1.ofMachine, (x.perform op).2.machine.plain) ::
      (x.perform op).2.transcript ops

end AccumulatorMachine
