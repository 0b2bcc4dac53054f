import AccumulatorMachine.Numeral

/-! The register file: accumulator, program counter and the four lanes of the vector accumulator.
The flags are read off the accumulator. The program counter may point past the last cell. -/
namespace AccumulatorMachine

structure Registers where
  ac : UInt8
  pc : Nat
  vac : Vector UInt8 4
  deriving DecidableEq, Repr

namespace Registers

def zeroed : Registers := ⟨0, 0, Vector.replicate 4 0⟩

def zero (r : Registers) : Bool := r.ac = 0

def negative (r : Registers) : Bool := r.ac ≥ 128

def flagDigit (b : Bool) : String := if b then "1" else "0"

/-- All registers on one line, such as `AC=10 PC=4 VAC=[1, 2, 3, 4] N=0 Z=0`. -/
def dump (base : Base) (r : Registers) : String :=
  let shown (n : Nat) : String := String.ofList (Numeral.writeNat base n)
  let lanes := ", ".intercalate (r.vac.toList.map fun v => shown v.toNat)
  "AC=" ++ shown r.ac.toNat ++ " PC=" ++ shown r.pc ++ " VAC=[" ++ lanes ++ "] N=" ++
    flagDigit r.negative ++ " Z=" ++ flagDigit r.zero

end Registers

end AccumulatorMachine
