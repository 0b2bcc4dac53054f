import AccumulatorMachine.Log.Pattern.Escape
import AccumulatorMachine.Log.Pattern.Group
import AccumulatorMachine.Log.Pattern.Set

/-! Which texts are regular expressions, without look-around and back references. -/
namespace AccumulatorMachine.Log.Pattern

namespace State

/-- Outside of sets. Counted repetitions are never closed, for a value ends at a closing brace. -/
def text (s : State) (repeatable : Bool) (c : Char) (rest : Text) : Option State :=
  if c = '\\' then s.go (.escape .outside)
  else if c = '[' then some s.enterSet
  else if c = '(' then s.go .group
  else if c = ')' then s.leaveGroup
  else if c = '|' then some { s with nest := s.nest.branch, mode := .text false }
  else if c = '*' ∨ c = '+' ∨ c = '?' then
    if repeatable then
      some { s with nest := s.nest.deepen, mode := .text true
                    ahead := if rest.head? = some '?' then 1 else 0 }
    else none
  else if c = '\x7b' then none
  else if c = '.' then if s.current.unicode then some (s.part 0) else none
  else if c = '^' ∨ c = '$' then some (s.part 0)
  else s.complete .outside (.letter c false)

def read (s : State) (c : Char) (rest : Text) : Option State :=
  match s.mode with
  | .text repeatable => s.text repeatable c rest
  | .escape p => s.escape p c
  | .code p left value isByte => s.code p left value isByte c
  | .group => if c = '?' then s.go .question else (s.enterGroup s.current).text false c rest
  | .question => s.question c
  | .label => if c = '<' then s.go (.name []) else none
  | .name read => s.name read c
  | .switches seen off inner => s.switch seen off inner c
  | .opened negatable => s.opened negatable c rest
  | .items => s.items c rest
  | .behind first => s.behind first c rest
  | .range first => s.range first c

def step (s : State) (c : Char) (rest : Text) : Option State :=
  if s.current.spaced ∧ s.mode.isLoose then
    if Text.isBlank c then some s
    else if c = '#' then some { s with ahead := (rest.takeWhile (· ≠ '\n')).length + 1 }
    else s.read c rest
  else s.read c rest

def run (s : State) : Text → Option State
  | [] => some s
  | c :: rest =>
    match s.ahead with
    | 0 => do (← s.step c rest).run rest
    | n + 1 => { s with ahead := n }.run rest

def isFinal (s : State) : Bool :=
  match s.mode with
  | .text _ => s.groups.isEmpty && s.nest.depth ≤ Nest.limit
  | _ => false

end State

def isExpression (t : Text) : Bool := (State.run {} t).any State.isFinal

end AccumulatorMachine.Log.Pattern
