import AccumulatorMachine.Text.Upper

/-! The numeral base of a program: how its literals are read and its values are shown. -/
namespace AccumulatorMachine

inductive Base where
  | dec
  | hex
  deriving DecidableEq, Repr, Inhabited

namespace Base

def radix : Base → Nat
  | dec => 10
  | hex => 16

def name : Base → String
  | dec => "DEC"
  | hex => "HEX"

def header : Base → String
  | dec => "#DEC"
  | hex => "#HEX"

/-- Headers ignore blanks around them and the case of ASCII letters. -/
def ofHeader? (line : Text) : Option Base :=
  let bare := Text.upperAscii (Text.trim line)
  if bare = hex.header.toList then some hex
  else if bare = dec.header.toList then some dec
  else none

def ofName? (name : Text) : Option Base :=
  let bare := Text.lowerAscii (Text.trim name)
  if bare = "dec".toList ∨ bare = "10".toList ∨ bare = "decimal".toList then some dec
  else if bare = "hex".toList ∨ bare = "16".toList ∨ bare = "hexadecimal".toList then some hex
  else none

def unknownMessage (name : String) : String :=
  s!"unknown numeral base '{name}' (expected dec, hex, 10 or 16)"

theorem one_lt_radix (b : Base) : 1 < b.radix := by cases b <;> decide

end Base

end AccumulatorMachine
