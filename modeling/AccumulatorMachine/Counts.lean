import AccumulatorMachine.Instruction

/-! What the machine counts while it runs. Counters are unbounded. -/
namespace AccumulatorMachine

structure Counts where
  retired : Nat := 0
  load : Nat := 0
  store : Nat := 0
  alu : Nat := 0
  branch : Nat := 0
  vector : Nat := 0
  system : Nat := 0
  branchesTaken : Nat := 0
  faults : Nat := 0
  deriving DecidableEq, Repr

namespace Counts

def zero : Counts := {}

def recordGroup (c : Counts) : Group → Counts
  | .load => { c with load := c.load + 1 }
  | .store => { c with store := c.store + 1 }
  | .alu => { c with alu := c.alu + 1 }
  | .branch => { c with branch := c.branch + 1 }
  | .vector => { c with vector := c.vector + 1 }
  | .system => { c with system := c.system + 1 }

def record (c : Counts) (m : Mnemonic) : Counts :=
  { c.recordGroup m.group with retired := c.retired + 1 }

def ofGroup (c : Counts) : Group → Nat
  | .load => c.load
  | .store => c.store
  | .alu => c.alu
  | .branch => c.branch
  | .vector => c.vector
  | .system => c.system

end Counts

end AccumulatorMachine
