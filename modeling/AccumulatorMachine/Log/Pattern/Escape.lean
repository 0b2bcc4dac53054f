import AccumulatorMachine.Log.Pattern.State

/-! What stands behind a backslash: a character by its name or code, a class, a place between
characters, or a sign that is to mean itself. -/
namespace AccumulatorMachine.Log.Pattern

def control? (c : Char) : Option Char :=
  if c = 'a' then some '\x07'
  else if c = 'f' then some '\x0c'
  else if c = 't' then some '\t'
  else if c = 'n' then some '\n'
  else if c = 'r' then some '\r'
  else if c = 'v' then some '\x0b'
  else none

def hexDigit? (c : Char) : Option Nat :=
  if c.isDigit then some (c.toNat - 48)
  else if 'a' ≤ c.toLower ∧ c.toLower ≤ 'f' then some (c.toLower.toNat - 87)
  else none

namespace State

def escape (s : State) (p : Place) (c : Char) : Option State :=
  match control? c with
  | some control => s.complete p (.letter control false)
  | none =>
    if c = 'x' then s.go (.code p 2 0 true)
    else if c = 'u' then s.go (.code p 4 0 false)
    else if c = 'U' then s.go (.code p 8 0 false)
    else if c = 'd' ∨ c = 's' ∨ c = 'w' then s.complete p .category
    else if c = 'A' ∨ c = 'z' then if p = .outside then some (s.part 0) else none
    else if c = 'b' ∨ c = 'B' ∨ c = '<' ∨ c = '>' then
      if p = .outside ∧ ¬ s.current.unicode then some (s.part 0) else none
    else if c.isAlphanum ∨ 0x80 ≤ c.toNat then none
    else s.complete p (.letter c false)

def code (s : State) (p : Place) (left value : Nat) (isByte : Bool) (c : Char) : Option State :=
  match hexDigit? c with
  | none => none
  | some d =>
    let value := value * 16 + d
    if 1 < left then s.go (.code p (left - 1) value isByte)
    else if value.isValidChar then s.complete p (.letter (Char.ofNat value) isByte)
    else none

end State

end AccumulatorMachine.Log.Pattern
