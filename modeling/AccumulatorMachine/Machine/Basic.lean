import AccumulatorMachine.Cache
import AccumulatorMachine.Counts
import AccumulatorMachine.Registers
import AccumulatorMachine.Settings

/-! The state of the machine. Execution stops in a halted or faulted state until the next reset;
faults are states, not errors. -/
namespace AccumulatorMachine

inductive Fault where
  | pcOutOfBounds (pc : Nat)
  | invalidOpcode (opcode : UInt8) (pc : UInt8)
  deriving DecidableEq, Repr

def Fault.message : Fault → String
  | pcOutOfBounds pc => s!"Program Counter out of bounds ({pc})"
  | invalidOpcode opcode pc => s!"Invalid opcode {opcode.toNat} at address {pc.toNat}"

inductive ExecState where
  | running
  | halted
  | faulted (fault : Fault)
  deriving DecidableEq, Repr

structure Fetched where
  pc : UInt8
  mnemonic : Mnemonic
  operand : Option UInt8
  deriving DecidableEq, Repr

structure Machine where
  regs : Registers
  memory : Memory
  icache : BlockCache
  dcache : BlockCache
  state : ExecState
  counts : Counts
  tracing : Bool
  trace : Array Fetched
  traceCapacity : Nat
  deriving DecidableEq, Repr

namespace Machine

/-- Zeroed memory and registers, empty caches. The trace holds as many instructions as one run may
execute. -/
def new (s : Settings) : Machine where
  regs := .zeroed
  memory := .empty
  icache := .empty s.icacheBlock
  dcache := .empty s.dcacheBlock
  state := .running
  counts := .zero
  tracing := s.traceInstructions
  trace := #[]
  traceCapacity := s.loopGuard

/-- Everything but memory and the trace switch starts anew. -/
def reset (m : Machine) : Machine :=
  { m with
    regs := .zeroed
    icache := m.icache.invalidate
    dcache := m.dcache.invalidate
    state := .running
    counts := .zero
    trace := #[] }

def record (m : Machine) (i : Fetched) : Machine :=
  if m.tracing ∧ m.trace.size < m.traceCapacity then { m with trace := m.trace.push i } else m

def fault (m : Machine) (f : Fault) : Machine :=
  { m with counts := { m.counts with faults := m.counts.faults + 1 }, state := .faulted f }

end Machine

end AccumulatorMachine
