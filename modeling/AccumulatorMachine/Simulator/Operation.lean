import AccumulatorMachine.Simulator

/-! What a driver may ask of a simulator, and what else may be done to its machine from outside.
A history is a list of these, and what it leads to depends on nothing else. -/
namespace AccumulatorMachine

inductive Operation where
  | assemble (base : Base) (lines : List Text)
  | load (program : ProgramFile)
  | reset
  | step
  | run
  | runGuarded (guard : Nat)
  | poke (a v : UInt8)
  | convert (new : Base) (lines : List Text)
  deriving DecidableEq, Repr

/-- Writes that go past the caches and the rules of execution. -/
inductive Intervention where
  | writeCell (a v : UInt8)
  | setTag (a : UInt8) (tag : Option Category)
  | setAc (v : UInt8)
  | setPc (pc : Nat)
  | setVac (lanes : Vector UInt8 4)
  | setTracing (on : Bool)
  deriving DecidableEq, Repr

inductive Answer where
  | nothing
  | assembled (report : AssemblyReport)
  | stepped (state : ExecState)
  | ran (report : RunReport)
  | converted (lines : List Text)
  deriving DecidableEq, Repr

namespace Simulator

def perform (s : Simulator) : Operation → Answer × Simulator
  | .assemble base lines => let (r, s) := s.assemble base lines; (.assembled r, s)
  | .load program => let (r, s) := s.loadProgram program; (.assembled r, s)
  | .reset => (.nothing, s.reset)
  | .step => let (state, s) := s.step; (.stepped state, s)
  | .run => let (r, s) := s.run; (.ran r, s)
  | .runGuarded guard => let (r, s) := s.runGuarded guard; (.ran r, s)
  | .poke a v => (.nothing, s.poke a v)
  | .convert new lines => let (converted, s) := s.convertBase new lines; (.converted converted, s)

def performAll (s : Simulator) (ops : List Operation) : Simulator :=
  ops.foldl (fun s op => (s.perform op).2) s

def intervene (s : Simulator) (i : Intervention) : Simulator :=
  let m := s.machine
  { s with
    machine := match i with
      | .writeCell a v => { m with memory := m.memory.write a v }
      | .setTag a tag => { m with memory := m.memory.setTag a tag }
      | .setAc v => m.setAc v
      | .setPc pc => m.goto pc
      | .setVac lanes => { m with regs := { m.regs with vac := lanes } }
      | .setTracing on => { m with tracing := on } }

end Simulator

end AccumulatorMachine
