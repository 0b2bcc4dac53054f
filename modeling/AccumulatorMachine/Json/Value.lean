import AccumulatorMachine.Json.Lexeme

/-! A JSON text as a tree, as far as it goes. Where the text stops being JSON the tree ends, and
every list or record still open there keeps the problem as its flaw. So a reader that goes through
the tree in order meets the first problem of the text first. -/
namespace AccumulatorMachine.Json

/-- A member of a record is a key and a value. A key that is no string is kept as it was found. -/
inductive Value where
  | missing (problem : Problem)
  | word (value : Except Problem Word)
  | number (value : Except Problem (Option Nat)) (flaw : Option Problem)
  | string (value : Except Problem Text) (flaw : Option Problem)
  | list (items : List Value) (flaw : Option Problem)
  | record (members : List (Value × Value)) (flaw : Option Problem)

namespace Value

def flaw : Value → Option Problem
  | missing p => some p
  | word (.error p) => some p
  | word (.ok _) => none
  | number _ flaw | string _ flaw | list _ flaw | record _ flaw => flaw

inductive Container where
  | items (done : List Value)
  | members (done : List (Value × Value))

def Container.close (flaw : Option Problem) : Container → Value
  | items done => list done.reverse flaw
  | members done => record done.reverse flaw

inductive Frame where
  | item (done : List Value)
  | member (done : List (Value × Value)) (key : Value)

def Frame.attach (v : Value) : Frame → Container
  | item done => .items (v :: done)
  | member done key => .members ((key, v) :: done)

inductive Expected where
  | value
  | firstItem
  | firstKey
  | key (done : List (Value × Value))
  | colon (done : List (Value × Value)) (key : Value)
  | separator (container : Container)

/-- The whole tree, if the text stops behind `v`. -/
def abandon (p : Problem) (v : Value) (frames : List Frame) : Value :=
  frames.foldl (fun v f => (f.attach v).close (some p)) v

inductive Progress where
  | reading (frames : List Frame) (expected : Expected)
  | finished (v : Value)

def complete (frames : List Frame) (v : Value) : Progress :=
  match frames with
  | [] => .finished v
  | f :: frames => .reading frames (.separator (f.attach v))

/-- The value that a lexeme is. A bracket in the place of a key begins a value that ends there. -/
def ofLexeme : Lexeme → Value
  | .word value => word value
  | .number value flaw => number value flaw
  | .string value flaw => string value flaw
  | .openList => list [] (some .malformed)
  | .openRecord => record [] (some .malformed)
  | .closeList | .closeRecord | .comma | .colon | .stray => missing .malformed

def atValue (frames : List Frame) : Lexeme → Progress
  | .openList => .reading frames .firstItem
  | .openRecord => .reading frames .firstKey
  | l => match (ofLexeme l).flaw with
    | some p => .finished (abandon p (ofLexeme l) frames)
    | none => complete frames (ofLexeme l)

def atKey (frames : List Frame) (done : List (Value × Value)) : Lexeme → Progress
  | .string value none => .reading frames (.colon done (string value none))
  | .string value (some p) =>
    .finished (abandon p (missing p) (.member done (string value (some p)) :: frames))
  | l => .finished (abandon .malformed (missing .malformed) (.member done (ofLexeme l) :: frames))

def advance (frames : List Frame) : Expected → Lexeme → Progress
  | .value, l => atValue frames l
  | .firstItem, .closeList => complete frames (list [] none)
  | .firstItem, l => atValue (.item [] :: frames) l
  | .firstKey, .closeRecord => complete frames (record [] none)
  | .firstKey, l => atKey frames [] l
  | .key done, l => atKey frames done l
  | .colon done key, .colon => .reading (.member done key :: frames) .value
  | .colon done key, _ =>
    .finished (abandon .malformed (missing .malformed) (.member done key :: frames))
  | .separator (.items done), .comma => .reading (.item done :: frames) .value
  | .separator (.members done), .comma => .reading frames (.key done)
  | .separator (.items done), .closeList => complete frames (list done.reverse none)
  | .separator (.members done), .closeRecord => complete frames (record done.reverse none)
  | .separator c, _ => .finished (abandon .malformed (c.close (some .malformed)) frames)

def atEnd (frames : List Frame) : Expected → Value
  | .value => abandon .ended (missing .ended) frames
  | .firstItem => abandon .ended (list [] (some .ended)) frames
  | .firstKey => abandon .ended (record [] (some .ended)) frames
  | .key done => abandon .ended (missing .ended) (.member done (missing .ended) :: frames)
  | .colon done key => abandon .ended (missing .ended) (.member done key :: frames)
  | .separator c => abandon .ended (c.close (some .ended)) frames

def build (frames : List Frame) (expected : Expected) : List Lexeme → Value × List Lexeme
  | [] => (atEnd frames expected, [])
  | l :: ls => match advance frames expected l with
    | .finished v => (v, ls)
    | .reading frames expected => build frames expected ls

end Value

def readText (read : Value → Except Problem α) (text : Text) : Except Problem α := do
  let (v, rest) := Value.build [] .value (lex text)
  let a ← read v
  if rest.isEmpty then pure a else throw .malformed

end AccumulatorMachine.Json
