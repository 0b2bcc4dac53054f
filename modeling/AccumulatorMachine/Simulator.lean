import AccumulatorMachine.Assembly
import AccumulatorMachine.Conversion
import AccumulatorMachine.Machine.Run
import AccumulatorMachine.ProgramFile
import AccumulatorMachine.Statistics

/-! The simulator: a machine, the settings it was built from, and the base of its program.
Assembling replaces memory and empties the caches, but leaves registers and execution state
alone; only a reset starts the machine anew. -/
namespace AccumulatorMachine

structure Simulator where
  machine : Machine
  settings : Settings
  base : Base
  deriving DecidableEq, Repr

namespace Simulator

def new (s : Settings) : Simulator := ⟨.new s, s, s.base⟩

def assemble (s : Simulator) (base : Base) (lines : List Text) : AssemblyReport × Simulator :=
  let assembly := AccumulatorMachine.assemble base lines
  (assembly.report,
    { s with
      machine := { s.machine with
        memory := assembly.memory
        icache := s.machine.icache.invalidate
        dcache := s.machine.dcache.invalidate }
      base := base })

def reset (s : Simulator) : Simulator := { s with machine := s.machine.reset }

def loadProgram (s : Simulator) (p : ProgramFile) : AssemblyReport × Simulator :=
  let (report, s) := s.assemble p.base p.lines
  (report, s.reset)

def step (s : Simulator) : ExecState × Simulator :=
  let machine := s.machine.step
  (machine.state, { s with machine := machine })

def runGuarded (s : Simulator) (guard : Nat) : RunReport × Simulator :=
  let (report, machine) := s.machine.run guard
  (report, { s with machine := machine })

def run (s : Simulator) : RunReport × Simulator := s.runGuarded s.settings.loopGuard

def convertBase (s : Simulator) (new : Base) (lines : List Text) : List Text × Simulator :=
  (Conversion.convert s.base new lines, { s with base := new })

/-- Writes a cell and the copies of it in the caches; the tag of the cell stays. -/
def poke (s : Simulator) (a v : UInt8) : Simulator :=
  { s with
    machine := { s.machine with
      memory := s.machine.memory.write a v
      icache := s.machine.icache.patch a v
      dcache := s.machine.dcache.patch a v } }

def statistics (s : Simulator) : Statistics where
  counts := s.machine.counts
  icacheHits := s.machine.icache.hits
  icacheMisses := s.machine.icache.misses
  dcacheHits := s.machine.dcache.hits
  dcacheMisses := s.machine.dcache.misses

end Simulator

end AccumulatorMachine
