import AccumulatorMachine.Log.Event
import AccumulatorMachine.Log.Pattern

/-! The directives of a log filter: a level, a target, or a target and a level, such as `info`,
`disk` or `disk=info`. Between target and level a span may stand in brackets, and in its braces a
named value that an event must have, as in `disk[write{size}]=info`. -/
namespace AccumulatorMachine.Log

/-- A directive that asks for a span, or for more of a value than its name, fits no event, because
events here stand outside every span. -/
structure Directive where
  target : Text
  fields : List Text
  concernsSpan : Bool
  verbosity : Nat
  deriving DecidableEq, Repr

namespace Directive

def everything : Nat := Level.trace.verbosity

def verbosity? (t : Text) : Option Nat :=
  let digits := match t with
    | '+' :: digits => digits
    | digits => digits
  if digits ≠ [] ∧ digits.all Char.isDigit then
    let n := digits.foldl (fun n c => n * 10 + (c.toNat - 48)) 0
    if n ≤ everything then some n else none
  else
    (["off", "error", "warn", "info", "debug", "trace"].map String.toList).idxOf?
      (Text.lowerAscii t)

def dropBytes (n : Nat) : Text → Text
  | [] => []
  | c :: t => if n = 0 then c :: t else dropBytes (n - c.utf8Size) t

def takeBytes (n : Nat) : Text → Text
  | [] => []
  | c :: t => if n = 0 then [] else c :: takeBytes (n - c.utf8Size) t

/-- A directive is taken apart without the blanks around it, but its parts are cut out of the text
with them, by their distance from the beginning in bytes. So blanks in front move every part. -/
structure Source where
  whole : Text
  bare : Text

namespace Source

def ofText (t : Text) : Source := ⟨t, Text.trim t⟩

def offset (s : Source) (rest : Text) : Nat :=
  Text.utf8Size s.bare - Text.utf8Size rest

/-- The part from the beginning of one rest up to that of another. -/
def between (s : Source) (rest later : Text) : Text :=
  takeBytes (s.offset later - s.offset rest) (dropBytes (s.offset rest) s.whole)

def behind (s : Source) (rest : Text) : Text := dropBytes (s.offset rest) s.whole

end Source

def ofName (name : Text) : Directive :=
  match verbosity? name with
  | some n => ⟨[], [], false, n⟩
  | none => ⟨name, [], false, everything⟩

/-- Sets the level to what is written behind the equals sign. Nothing there shows everything. -/
def withLevel (d : Directive) (level : Text) : Option Directive :=
  if level = [] then some { d with verbosity := everything }
  else (verbosity? level).map fun n => { d with verbosity := n }

def behindSpan (s : Source) (d : Directive) : Text → Option Directive
  | [] => some d
  | '=' :: level => d.withLevel (s.behind level)
  | _ => none

def withField (d : Directive) (field : Text) : Option Directive :=
  let name := field.takeWhile (· ≠ '=')
  match field.dropWhile (· ≠ '=') with
  | [] => if name = [] then none else some { d with fields := [name] }
  | _ :: value =>
    if Pattern.isPattern (value.takeWhile (· ≠ '=')) then
      some { d with fields := [name], concernsSpan := true }
    else none

/-- Behind the opening bracket of a span. A span without a field has a name, if an empty one. -/
def ofSpan (s : Source) (target : Text) (rest : Text) : Option Directive :=
  let d : Directive := ⟨target, [], false, everything⟩
  let later := rest.dropWhile fun c => c ≠ ']' ∧ c ≠ '\x7b'
  match later with
  | ']' :: tail => behindSpan s { d with concernsSpan := true } tail
  | '\x7b' :: field =>
    let close := field.dropWhile (· ≠ '\x7d')
    match close with
    | '\x7d' :: ']' :: tail => do
      let d ← { d with concernsSpan := s.between rest later ≠ [] }.withField (s.between field close)
      behindSpan s d tail
    | _ => none
  | _ => none

def beginsTarget (c : Char) : Bool := c = '-' || c = ':' || c = '_' || Text.isAlphanumeric c

def parse? (t : Text) : Option Directive :=
  let s := Source.ofText t
  match s.bare with
  | [] => none
  | '[' :: rest => ofSpan s [] rest
  | c :: _ =>
    if beginsTarget c then
      let later := s.bare.dropWhile fun c => c ≠ '=' ∧ c ≠ '['
      let target := s.between s.bare later
      match later with
      | '=' :: level => Directive.withLevel ⟨target, [], false, everything⟩ (s.behind level)
      | '[' :: rest => ofSpan s target rest
      | _ => some (ofName (s.behind s.bare))
    else none

/-- The message of an event counts as one of its named values. -/
def fits (d : Directive) (e : Event) : Bool :=
  !d.concernsSpan && d.target.isPrefixOf e.target.toList &&
    d.fields.all fun f => ("message" :: e.fields.map (·.1)).any fun name => name.toList = f

def precedes (names others : List Text) : Bool :=
  names.lex others fun s t => s.lex t fun a b => a < b

/-- Longer targets are more specific, then more named values, then names further on in the
alphabet. -/
def yieldsTo (d e : Directive) : Bool :=
  d.target.length < e.target.length ||
    (d.target.length = e.target.length &&
      (d.fields.length < e.fields.length ||
        (d.fields.length = e.fields.length && !precedes e.fields d.fields)))

end Directive

end AccumulatorMachine.Log
