import AccumulatorMachine.Cli.Count
import AccumulatorMachine.Cli.Usage

/-! Reading the command line. An argument is taken up only when the next one is met: first whether
it has its value, then whether it was there before, then the value itself. An argument that stands
for nothing is reported at once. -/
namespace AccumulatorMachine.Cli

structure Common where
  file : String
  base : Option Base
  config : Option String
  trace : Bool
  deriving DecidableEq, Repr

inductive Command where
  | run (common : Common) (json stats : Bool)
  | step (common : Common) (count : Nat)
  | asm (common : Common)
  | convert (common : Common) (target : Base)
  deriving DecidableEq, Repr

inductive Request where
  | command (c : Command)
  | version
  | help
  deriving DecidableEq, Repr

structure Taken where
  present : List Slot := []
  file : Option String := none
  base : Option Base := none
  config : Option String := none
  count : Option Nat := none
  target : Option Base := none

/-- An argument that has been met and not yet taken up. -/
structure Pending where
  slot : Slot
  value : Option String

inductive Stop where
  | error (e : UsageError)
  | help

abbrev Reading := Except Stop

def fail (e : UsageError) : Reading α := .error (.error e)

def readBase (slot : Slot) (value : String) : Reading Base :=
  match Base.ofName? value.toList with
  | some b => pure b
  | none => fail (.invalidValue value slot.shown (Base.unknownMessage value))

def readPath (slot : Slot) (value : String) : Reading String :=
  if value.isEmpty then fail (.missingValue slot.shown) else pure value

def readCount (slot : Slot) (value : String) : Reading Nat :=
  match Count.parse value.toList with
  | .ok n => pure n
  | .error reason => fail (.invalidValue value slot.shown reason)

namespace Taken

def setValue (t : Taken) (slot : Slot) (value : String) : Reading Taken :=
  match slot with
  | .file => do pure { t with file := ← readPath slot value }
  | .base => do pure { t with base := ← readBase slot value }
  | .config => do pure { t with config := ← readPath slot value }
  | .count => do pure { t with count := ← readCount slot value }
  | .target => do pure { t with target := ← readBase slot value }
  | .trace | .json | .stats | .help => pure t

def add (t : Taken) (slot : Slot) (value : Option String) : Reading Taken := do
  if slot.takesValue ∧ value.isNone then fail (.missingValue slot.shown)
  else if slot = .help then .error .help
  else if t.present.contains slot then fail (.repeated slot.shown)
  else
    let t := { t with present := slot :: t.present }
    t.setValue slot (value.getD "")

def settle (t : Taken) : Option Pending → Reading Taken
  | none => pure t
  | some p => t.add p.slot p.value

end Taken

structure State where
  taken : Taken := {}
  pending : Option Pending := none
  seenFile : Bool := false
  onlyPositional : Bool := false

namespace State

def attach (s : State) (slot : Slot) (value : String) : Reading State := do
  let taken ← s.taken.settle s.pending
  pure { s with taken := ← taken.add slot (some value), pending := none }

def await (s : State) (slot : Slot) : Reading State := do
  pure { s with taken := ← s.taken.settle s.pending, pending := some ⟨slot, none⟩ }

def flag (s : State) (slot : Slot) : Reading State := do
  let taken ← s.taken.settle s.pending
  pure { s with taken := ← taken.add slot none, pending := none }

/-- An argument that belongs to no option is the file, once. -/
def positional (s : State) (arg : String) : Reading State := do
  if s.seenFile then fail (.unexpectedArgument arg)
  else
    let taken ← s.taken.settle s.pending
    pure { s with taken := taken, pending := some ⟨.file, some arg⟩, seenFile := true }

/-- A long name, with a value behind an equals sign if there is one. -/
def long (c : Subcommand) (s : State) (body : Text) : Reading State :=
  let name := String.ofList (body.takeWhile (· ≠ '='))
  let value := match body.dropWhile (· ≠ '=') with
    | [] => none
    | _ :: v => some (String.ofList v)
  match Slot.ofLong? c name with
  | none => fail (.unexpectedArgument s!"--{name}")
  | some slot =>
    match slot.takesValue, value with
    | true, some v => s.attach slot v
    | true, none => s.await slot
    | false, some v => fail (.unexpectedValue v slot.shown)
    | false, none => s.flag slot

/-- Short names in a row. The first one that takes a value takes the rest, less an equals sign. -/
def shorts (c : Subcommand) (s : State) : Text → Reading State
  | [] => pure s
  | name :: rest =>
    match Slot.ofShort? c name with
    | none => fail (.unexpectedArgument (String.ofList ['-', name]))
    | some slot =>
      if slot.takesValue then
        match rest with
        | [] => s.await slot
        | '=' :: v => s.attach slot (String.ofList v)
        | v => s.attach slot (String.ofList v)
      else do (← s.flag slot).shorts c rest

/-- An argument that looks like no option: the value of an option that waits for one, or a
positional one. -/
def plain (s : State) (arg : String) : Reading State :=
  match s.pending with
  | some ⟨slot, none⟩ => pure { s with pending := some ⟨slot, some arg⟩ }
  | _ => s.positional arg

def next (c : Subcommand) (s : State) (arg : String) : Reading State :=
  if s.onlyPositional then s.positional arg
  else match arg.toList with
    | ['-', '-'] => pure { s with onlyPositional := true }
    | '-' :: '-' :: body => s.long c body
    | '-' :: name :: rest => s.shorts c (name :: rest)
    | _ => s.plain arg

def finish (c : Subcommand) (s : State) : Reading Command := do
  let t ← s.taken.settle s.pending
  let required {α : Type} (a : Option α) : Reading α :=
    match a with
    | some a => pure a
    | none => fail .missingArguments
  let common : Common := ⟨← required t.file, t.base, t.config, t.present.contains .trace⟩
  match c with
  | .run => pure (.run common (t.present.contains .json) (t.present.contains .stats))
  | .step => pure (.step common (t.count.getD 1))
  | .asm => pure (.asm common)
  | .convert => pure (.convert common (← required t.target))

end State

def readCommand (c : Subcommand) (args : List String) : Reading Command := do
  (← args.foldlM (State.next c) {}).finish c

/-- Names in front of the subcommand: only help and version are known there. -/
def readTop : List String → Except UsageError Request
  | [] => .error .missingSubcommand
  | arg :: args =>
    match arg.toList with
    | ['-', '-'] =>
      match args with
      | [] => .error .missingSubcommand
      | name :: _ =>
        if (Subcommand.ofName? name).isSome ∨ name = "help" then .error (.unexpectedArgument name)
        else .error (.unrecognizedSubcommand name)
    | '-' :: '-' :: body => topLong (body.takeWhile (· ≠ '=')) (body.dropWhile (· ≠ '='))
    | '-' :: 'h' :: _ => .ok .help
    | '-' :: 'V' :: _ => .ok .version
    | '-' :: name :: _ => .error (.unexpectedArgument (String.ofList ['-', name]))
    | _ =>
      match Subcommand.ofName? arg with
      | some c => match readCommand c args with
        | .ok command => .ok (.command command)
        | .error (.error e) => .error e
        | .error .help => .ok .help
      | none => if arg = "help" then topHelp args else .error (.unrecognizedSubcommand arg)
where
  topLong (name value : Text) : Except UsageError Request :=
    let name := String.ofList name
    if name = "help" ∨ name = "version" then
      match value with
      | [] => .ok (if name = "help" then .help else .version)
      | _ :: v => .error (.unexpectedValue (String.ofList v) s!"--{name}")
    else .error (.unexpectedArgument s!"--{name}")
  /-- Help on a subcommand; no subcommand has further ones. -/
  topHelp : List String → Except UsageError Request
    | [] => .ok .help
    | name :: names =>
      if (Subcommand.ofName? name).isSome ∨ name = "help" then
        match names with
        | [] => .ok .help
        | further :: _ => .error (.unrecognizedSubcommand further)
      else .error (.unrecognizedSubcommand name)

end AccumulatorMachine.Cli
