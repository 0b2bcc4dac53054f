import AccumulatorMachine.Conversion
import AccumulatorMachine.Machine.Run
import AccumulatorMachine.ProgramFile
import AccumulatorMachine.Assembly

/-! Log events. An event has a level, a target that filters match, a message and named values. -/
namespace AccumulatorMachine.Log

inductive Level where
  | error
  | warn
  | info
  | debug
  | trace
  deriving DecidableEq, Repr

namespace Level

def name : Level → String
  | error => "ERROR"
  | warn => "WARN"
  | info => "INFO"
  | debug => "DEBUG"
  | trace => "TRACE"

def verbosity : Level → Nat
  | error => 1
  | warn => 2
  | info => 3
  | debug => 4
  | trace => 5

end Level

structure Event where
  level : Level
  target : String
  message : String
  fields : List (String × String)
  deriving DecidableEq, Repr

namespace Event

def line (e : Event) : String :=
  e.level.name ++ " " ++ e.message ++
    String.join (e.fields.map fun (name, value) => s!" {name}={value}")

def loaded (path : String) (p : ProgramFile) : Event where
  level := .debug
  target := "neander_core::sim::loader"
  message := "loaded program"
  fields := [("path", path), ("base", p.base.name), ("lines", toString p.lines.length)]

def assembled (base : Base) (r : AssemblyReport) : Event where
  level := .debug
  target := "neander_core::asm::assembler"
  message := "assembled program"
  fields := [("cells", toString r.cellsUsed), ("lines", toString r.linesAssembled),
    ("truncated", toString r.truncated), ("base", base.name)]

def reset : Event where
  level := .debug
  target := "neander_core::sim::simulator"
  message := "reset"
  fields := []

def converting (old new : Base) (count : Nat) : Event where
  level := .debug
  target := "neander_core::asm::convert"
  message := "converting source base"
  fields := [("from", old.name), ("to", new.name), ("lines", toString count)]

def cacheTarget : String := "neander_core::core::units::cache"

def accessed (kind : CacheKind) (a : UInt8) (hit : Bool) : Event where
  level := .trace
  target := cacheTarget
  message := if hit then "HIT" else "MISS"
  fields := [("cache", kind.label), ("address", toString a.toNat)]

def written (a v : UInt8) : Event where
  level := .trace
  target := cacheTarget
  message := "WRITE"
  fields := [("cache", CacheKind.label .data), ("address", toString a.toNat),
    ("value", toString v.toNat)]

def executionTarget : String := "neander_core::core::cpu::execution"

def operandText : Option UInt8 → String
  | some v => s!"Some({v.toNat})"
  | none => "None"

def executing (i : Fetched) : Event where
  level := .trace
  target := executionTarget
  message := "executing"
  fields := [("mnemonic", i.mnemonic.name), ("operand", operandText i.operand),
    ("pc", toString i.pc.toNat)]

def faulted (f : Fault) : Event where
  level := .warn
  target := executionTarget
  message := "execution fault"
  fields := [("fault", f.message)]

def halted (pc : UInt8) : Event where
  level := .info
  target := executionTarget
  message := "Program halted"
  fields := [("pc", toString pc.toNat)]

def guardReached (steps : Nat) : Event where
  level := .warn
  target := executionTarget
  message := "infinite loop detected: step guard reached"
  fields := [("steps", toString steps)]

def faultText : Fault → String
  | .pcOutOfBounds pc => s!"PcOutOfBounds \x7b pc: {pc} \x7d"
  | .invalidOpcode opcode pc => s!"InvalidOpcode \x7b opcode: {opcode.toNat}, pc: {pc.toNat} \x7d"

def outcomeText : RunOutcome → String
  | .halted => "Halted"
  | .loopGuardTripped => "LoopGuardTripped"
  | .faulted f => s!"Faulted \x7b fault: {faultText f} \x7d"

def finished (r : RunReport) : Event where
  level := .info
  target := executionTarget
  message := "run finished"
  fields := [("steps", toString r.steps), ("outcome", outcomeText r.outcome)]

end Event

end AccumulatorMachine.Log
