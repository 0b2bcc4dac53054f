/-! How deep the parts of an expression are nested. A sequence of several parts is one deeper than
the deepest of them, and so is a choice between several sequences; one alone is not. -/
namespace AccumulatorMachine.Log.Pattern

def joint : List Nat → Nat
  | [] => 0
  | [d] => d
  | d :: ds => ds.foldl max d + 1

/-- What has been read of a group or a set: the depths of the parts of its last sequence, latest
first, and those of the sequences in front of it. -/
structure Nest where
  parts : List Nat := []
  branches : List Nat := []
  deriving DecidableEq, Repr

namespace Nest

def depth (n : Nest) : Nat := joint (joint n.parts :: n.branches)

def add (n : Nest) (d : Nat) : Nest := { n with parts := d :: n.parts }

/-- A repetition is one deeper than the part it repeats. -/
def deepen (n : Nest) : Nest :=
  match n.parts with
  | [] => n
  | d :: ds => { n with parts := (d + 1) :: ds }

def branch (n : Nest) : Nest := ⟨[], joint n.parts :: n.branches⟩

def operand (n : Nest) : Nest := ⟨[], [n.depth]⟩

def limit : Nat := 250

end Nest

end AccumulatorMachine.Log.Pattern
