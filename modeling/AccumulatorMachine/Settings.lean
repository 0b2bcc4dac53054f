import AccumulatorMachine.Base
import AccumulatorMachine.Cache

/-! The settings a machine is built from, and which of them are admitted. -/
namespace AccumulatorMachine

structure Settings where
  traceInstructions : Bool := false
  base : Base := .dec
  loopGuard : Nat := 10000
  icacheBlock : Nat := 8
  dcacheBlock : Nat := 16
  deriving DecidableEq, Repr

namespace Settings

inductive Flaw where
  | invalidBlockSize (cache : CacheKind) (size : Nat)
  | zeroLoopGuard
  deriving DecidableEq, Repr

def Flaw.message : Flaw → String
  | invalidBlockSize cache size =>
    let name := match cache with
      | .instruction => "icache"
      | .data => "dcache"
    s!"{name} block size {size} must be a power of two between 1 and 256"
  | zeroLoopGuard => "loop guard must be at least 1"

def isBlockSize (size : Nat) : Bool := (List.range 9).any fun k => size == Nat.pow 2 k

/-- The first flaw, block sizes before the loop guard. -/
def flaw? (s : Settings) : Option Flaw :=
  if !isBlockSize s.icacheBlock then some (.invalidBlockSize .instruction s.icacheBlock)
  else if !isBlockSize s.dcacheBlock then some (.invalidBlockSize .data s.dcacheBlock)
  else if s.loopGuard = 0 then some .zeroLoopGuard
  else none

end Settings

end AccumulatorMachine
