import AccumulatorMachine.Line

/-! Where lines land, without assembling them: the size of a line does not depend on the base. -/
namespace AccumulatorMachine.Layout

def addressesFrom (start : Nat) : List Text → List (Option UInt8)
  | [] => []
  | line :: rest =>
    (if start < 256 then some (UInt8.ofNat start) else none) ::
      addressesFrom (start + Line.size line) rest

/-- The start of every line, none for a line that would begin past the end of memory. -/
def lineAddresses (lines : List Text) : List (Option UInt8) := addressesFrom 0 lines

def fitFrom (used : Nat) : List Text → Nat
  | [] => 0
  | line :: rest =>
    let used := used + Line.size line
    if used ≤ 256 then fitFrom used rest + 1 else 0

/-- The number of leading lines that fit in memory together. -/
def fitLines (lines : List Text) : Nat := fitFrom 0 lines

end AccumulatorMachine.Layout
