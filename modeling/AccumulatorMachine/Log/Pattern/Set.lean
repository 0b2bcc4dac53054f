import AccumulatorMachine.Log.Pattern.State

/-! The sets of an expression: characters, ranges, classes of ASCII and further sets, joined by
operators. Without Unicode no set is negated, because it would match bytes outside ASCII. -/
namespace AccumulatorMachine.Log.Pattern

def classNames : List String :=
  ["alnum", "alpha", "ascii", "blank", "cntrl", "digit", "graph", "lower", "print", "punct",
    "space", "upper", "word", "xdigit"]

/-- A class behind its opening bracket: whether it is negated, and how many characters it takes. -/
def classAhead? (t : Text) : Option (Bool × Nat) :=
  let negated := [':', '^'].isPrefixOf t
  let body := t.drop (if negated then 2 else 1)
  let name := body.takeWhile (· ≠ ':')
  if t.head? = some ':' ∧ classNames.contains (String.ofList name) ∧
      [':', ']'].isPrefixOf (body.drop name.length) then
    some (negated, (if negated then 2 else 1) + name.length + 2)
  else none

/-- The next character that is no blank. The sign that begins a comment counts as one here, once,
but the comment does not. -/
def nextSolid? (t : Text) : Option Char :=
  match t.dropWhile Text.isBlank with
  | '#' :: t => (t.dropWhile Text.isBlank).head?
  | t => t.head?

namespace State

def enterSet (s : State) : State := { s with sets := {} :: s.sets, mode := .opened true }

def leaveSet (s : State) : Option State :=
  match s.sets with
  | [] => none
  | [n] => some ({ s with sets := [] }.part (n.depth + 1))
  | n :: outer => ({ s with sets := outer }.addItem (n.depth + 1)).go .items

def operator (s : State) : State :=
  match s.sets with
  | [] => s
  | n :: outer => { s with sets := n.operand :: outer, mode := .items, ahead := 1 }

def addClass (s : State) (negated : Bool) (length : Nat) : Option State :=
  let isKnown := if s.current.unicode then !s.current.caseless else !negated
  if isKnown then some { s.addItem 0 with mode := .items, ahead := length } else none

def items (s : State) (c : Char) (rest : Text) : Option State :=
  if c = '\\' then s.go (.escape .item)
  else if c = '[' then
    match classAhead? rest with
    | some (negated, length) => s.addClass negated length
    | none => some s.enterSet
  else if c = ']' then s.leaveSet
  else if (c = '&' ∨ c = '-' ∨ c = '~') ∧ rest.head? = some c then some s.operator
  else s.complete .item (.letter c false)

/-- At the beginning of a set, a bracket that would close it is an item. -/
def opened (s : State) (negatable : Bool) (c : Char) (rest : Text) : Option State :=
  let isEmpty := s.sets.head?.any fun n => n.parts.isEmpty
  if c = '^' ∧ negatable then if s.current.unicode then s.go (.opened false) else none
  else if c = '-' then do (← s.complete .item (.letter c false)).go (.opened false)
  else if c = ']' ∧ isEmpty then do (← s.complete .item (.letter c false)).go .items
  else s.items c rest

/-- Behind an item. A minus sign begins a range unless it is the last item or part of an
operator. -/
def behind (s : State) (first : Option Char) (c : Char) (rest : Text) : Option State :=
  let next := if s.current.spaced then nextSolid? rest else rest.head?
  if c = '-' ∧ next ≠ some ']' ∧ next ≠ some '-' then do s.go (.range (← first))
  else s.items c rest

def range (s : State) (first : Char) (c : Char) : Option State :=
  if c = '\\' then s.go (.escape (.rangeEnd first))
  else s.complete (.rangeEnd first) (.letter c false)

end State

end AccumulatorMachine.Log.Pattern
