import AccumulatorMachine.Json.Data
import AccumulatorMachine.Keyword
import AccumulatorMachine.Simulator

/-! The state of a simulator as a JSON document. The members of each record stand in the order of
the alphabet. -/
namespace AccumulatorMachine.Snapshot

open Json (Data)

def byte (v : UInt8) : Data := .number v.toNat

def fault : Fault → Data
  | .pcOutOfBounds pc => .record [("kind", .text "PcOutOfBounds"), ("pc", .number pc)]
  | .invalidOpcode opcode pc =>
    .record [("kind", .text "InvalidOpcode"), ("opcode", byte opcode), ("pc", byte pc)]

def state : ExecState → Data
  | .running => .record [("state", .text "Running")]
  | .halted => .record [("state", .text "Halted")]
  | .faulted f => .record [("fault", fault f), ("state", .text "Faulted")]

def outcome : RunOutcome → Data
  | .halted => .record [("outcome", .text "Halted")]
  | .faulted f => .record [("fault", fault f), ("outcome", .text "Faulted")]
  | .loopGuardTripped => .record [("outcome", .text "LoopGuardTripped")]

def report (r : RunReport) : Data :=
  .record [("outcome", outcome r.outcome), ("steps", .number r.steps)]

def cacheKind : CacheKind → Data
  | .instruction => .text "Instruction"
  | .data => .text "Data"

def cache (kind : CacheKind) (c : BlockCache) : Data :=
  .record [("data", .list (c.data.toList.map byte)), ("hits", .number (shownCounter c.hits)),
    ("kind", cacheKind kind), ("misses", .number (shownCounter c.misses)),
    ("tag", c.resident.elim .null fun b => byte b.start), ("valid", .bool c.resident.isSome)]

def memory (m : Memory) : Data :=
  .record [("cells", .list (m.cells.toList.map byte)),
    ("classes", .list (m.tags.toList.map fun t => t.elim .null fun c => .text c.name))]

def registers (r : Registers) : Data :=
  .record [("ac", byte r.ac), ("pc", .number r.pc), ("vac", .list (r.vac.toList.map byte))]

def simulator (s : Simulator) : Data :=
  let m := s.machine
  .record [("ac", byte m.regs.ac), ("base", .text (Keyword.ofBase s.base)),
    ("dcache", cache .data m.dcache), ("icache", cache .instruction m.icache),
    ("memory", memory m.memory), ("negative", .bool m.regs.negative), ("pc", .number m.regs.pc),
    ("state", state m.state), ("vac", .list (m.regs.vac.toList.map byte)),
    ("zero", .bool m.regs.zero)]

end AccumulatorMachine.Snapshot
