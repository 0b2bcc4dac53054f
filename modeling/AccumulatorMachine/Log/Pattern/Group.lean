import AccumulatorMachine.Log.Pattern.State
import AccumulatorMachine.Text.Alphanumeric

/-! The groups of an expression: their names, no two of them alike, and the switches that hold to
the end of a group. -/
namespace AccumulatorMachine.Log.Pattern

/-- The switches after one of them is turned on or off by its letter. Some have no bearing on what
is an expression. -/
def Switches.turn? (w : Switches) (on : Bool) (c : Char) : Option Switches :=
  if c = 'i' then some { w with caseless := on }
  else if c = 'u' then some { w with unicode := on }
  else if c = 'x' then some { w with spaced := on }
  else if c = 'm' ∨ c = 's' ∨ c = 'U' ∨ c = 'R' then some w
  else none

namespace State

def enterGroup (s : State) (inner : Switches) : State :=
  { s with groups := (s.current, s.nest) :: s.groups, current := inner, nest := {}
           mode := .text false }

def leaveGroup (s : State) : Option State :=
  match s.groups with
  | [] => none
  | (outer, nest) :: groups =>
    some ({ s with groups := groups, current := outer, nest := nest }.part (s.nest.depth + 1))

def name (s : State) (read : Text) (c : Char) : Option State :=
  if c = '>' then
    if read = [] ∨ s.names.contains read then none
    else some ({ s with names := read :: s.names }.enterGroup s.current)
  else if c = '_' ∨ Text.isAlphabetic c ∨
      (read ≠ [] ∧ (c = '.' ∨ c = '[' ∨ c = ']' ∨ Text.isNumber c)) then
    s.go (.name (c :: read))
  else none

/-- A letter among the switches of a group, or the end of them. Each is named once, and those
behind a minus sign are switched off. -/
def switch (s : State) (seen : List Char) (off : Bool) (inner : Switches) (c : Char) :
    Option State :=
  if c = ':' ∨ c = ')' then
    if seen.head? = some '-' then none
    else if c = ':' then some (s.enterGroup inner)
    else if seen = [] then none
    else some { s with current := inner, nest := s.nest.add 0, mode := .text false }
  else if seen.contains c then none
  else if c = '-' then s.go (.switches (c :: seen) true inner)
  else do s.go (.switches (c :: seen) off (← inner.turn? (!off) c))

def question (s : State) (c : Char) : Option State :=
  if c = 'P' then s.go .label
  else if c = '<' then s.go (.name [])
  else s.switch [] false s.current c

end State

end AccumulatorMachine.Log.Pattern
