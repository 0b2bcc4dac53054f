import AccumulatorMachine.Log.Pattern.Nest
import AccumulatorMachine.Text.Blank

/-! An expression while it is read, character by character. Classes of digits, blanks and words,
the edge of a word, and letters in either case are known for ASCII alone, so an expression has
them only where Unicode is switched off. There, in turn, nothing may match a byte outside ASCII. -/
namespace AccumulatorMachine.Log.Pattern

structure Switches where
  unicode : Bool := true
  caseless : Bool := false
  /-- Whether blanks and comments stand between the parts and mean nothing. -/
  spaced : Bool := false
  deriving DecidableEq, Repr

/-- What matches a character: a letter, perhaps written as the code of a byte, or a class. -/
inductive Atom where
  | letter (c : Char) (isByte : Bool)
  | category
  deriving DecidableEq, Repr

/-- Where an atom stands: outside of sets, in a set, or there at the end of a range. -/
inductive Place where
  | outside
  | item
  | rangeEnd (first : Char)
  deriving DecidableEq, Repr

inductive Mode where
  | text (repeatable : Bool)
  /-- Behind a backslash. -/
  | escape (p : Place)
  /-- In the digits of a character's code. -/
  | code (p : Place) (left value : Nat) (isByte : Bool)
  /-- Behind an opening parenthesis. -/
  | group
  /-- Behind the question mark of a group. -/
  | question
  /-- Behind the `P` in front of a group's name. -/
  | label
  /-- In the name of a group, of which so much has been read, latest first. -/
  | name (read : Text)
  | switches (seen : List Char) (off : Bool) (inner : Switches)
  /-- At the beginning of a set, where all minus signs are items. -/
  | opened (negatable : Bool)
  /-- In front of an item of a set. -/
  | items
  /-- Behind an item of a set, with which a range can begin if it is a letter. -/
  | behind (first : Option Char)
  /-- Behind the minus sign of a range. -/
  | range (first : Char)
  deriving DecidableEq, Repr

def Mode.isLoose : Mode → Bool
  | text _ | code .. | group | opened _ | items | behind _ | range _ => true
  | escape _ | question | label | name _ | switches .. => false

structure State where
  /-- The open groups, each with the switches and the parts to return to. -/
  groups : List (Switches × Nest) := []
  /-- The open sets, the innermost first. -/
  sets : List Nest := []
  nest : Nest := {}
  /-- The names of groups so far. -/
  names : List Text := []
  current : Switches := {}
  mode : Mode := .text false
  /-- How many of the characters to come have been read already. -/
  ahead : Nat := 0
  deriving DecidableEq, Repr

def Switches.admits (w : Switches) (p : Place) : Atom → Bool
  | .category => !w.unicode
  | .letter c isByte =>
    if w.unicode then !w.caseless else c.toNat < 0x80 || (p = .outside && !isByte)

namespace State

def go (s : State) (mode : Mode) : Option State := some { s with mode := mode }

def part (s : State) (depth : Nat) : State :=
  { s with nest := s.nest.add depth, mode := .text true }

def addItem (s : State) (depth : Nat) : State :=
  match s.sets with
  | [] => s
  | n :: sets => { s with sets := n.add depth :: sets }

def complete (s : State) (p : Place) (a : Atom) : Option State :=
  if s.current.admits p a then
    match p, a with
    | .outside, _ => some (s.part 0)
    | .item, .letter c _ => (s.addItem 0).go (.behind (some c))
    | .item, .category => (s.addItem 0).go (.behind none)
    | .rangeEnd first, .letter last _ => if first ≤ last then s.go .items else none
    | .rangeEnd _, .category => none
  else none

end State

end AccumulatorMachine.Log.Pattern
