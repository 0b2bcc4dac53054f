import AccumulatorMachine.Json.Value

/-! Readers that expect values of a shape. Whatever comes first in the text decides: a problem of
the text in front of a mismatch, a mismatch in front of a problem that comes later. -/
namespace AccumulatorMachine.Json

namespace Value

def mismatch : Value → Problem
  | missing p | word (.error p) | number (.error p) _ | string (.error p) _ => p
  | word (.ok _) | number (.ok _) _ | string (.ok _) _ | list _ _ | record _ _ => .mismatched

def readBool : Value → Except Problem Bool
  | word (.ok .true) => .ok true
  | word (.ok .false) => .ok false
  | v => .error v.mismatch

def readNat (bound : Nat) : Value → Except Problem Nat
  | number (.ok (some n)) _ => if n < bound then .ok n else .error .mismatched
  | v => .error v.mismatch

def readNull : Value → Except Problem Unit
  | word (.ok .null) => .ok ()
  | v => .error v.mismatch

/-- A key of a record. What is no string is not looked into. -/
def readKey : Value → Except Problem Text
  | string value _ => value
  | missing p => .error p
  | _ => .error .malformed

/-- One of several names: the name as a string, or a record of the name alone with null. No other
kind of value is looked into. -/
def readName (find? : Text → Option α) : Value → Except Problem α
  | string value _ => do
    let name ← value
    (find? name).elim (.error .mismatched) .ok
  | record [] flaw => .error (flaw.getD .malformed)
  | record ((key, v) :: more) flaw => do
    let name ← readKey key
    let a ← (find? name).elim (.error .mismatched) .ok
    readNull v
    match more, flaw with
    | [], none => .ok a
    | [], some p => .error p
    | _ :: _, _ => .error .malformed
  | missing p => .error p
  | _ => .error .malformed

end Value

structure Part (σ : Type) where
  name : String
  required : Bool
  read : σ → Value → Except Problem σ

namespace Part

/-- Members in order; `seen` holds the names of the parts read so far. None must come twice, and
members of other names are skipped. -/
def readMembers (parts : List (Part σ)) (seen : List String) (s : σ) :
    List (Value × Value) → Except Problem (List String × σ)
  | [] => .ok (seen, s)
  | (key, v) :: rest =>
    match key.readKey with
    | .ok name =>
      match parts.find? fun part => part.name.toList = name with
      | some part =>
        if seen.contains part.name then .error .mismatched
        else do
          let s ← part.read s v
          readMembers parts (part.name :: seen) s rest
      | none =>
        match v.flaw with
        | some p => .error p
        | none => readMembers parts seen s rest
    | .error p => .error p

/-- Items in the order of the parts. Parts left over keep what they have, unless required; items
left over are no JSON of this shape. -/
def readItems (flaw : Option Problem) (s : σ) : List (Part σ) → List Value → Except Problem σ
  | part :: parts, v :: rest => do
    let s ← part.read s v
    readItems flaw s parts rest
  | [], _ :: _ => .error .malformed
  | [], [] => flaw.elim (.ok s) .error
  | part :: parts, [] =>
    match flaw with
    | some p => .error p
    | none => if part.required then .error .mismatched else readItems flaw s parts []

end Part

/-- A structure as a record of its parts in any order, or as a list of them in their order. -/
def readParts (parts : List (Part σ)) (s : σ) : Value → Except Problem σ
  | .record members flaw => do
    let (seen, s) ← Part.readMembers parts [] s members
    match flaw with
    | some p => .error p
    | none =>
      if parts.all fun part => !part.required || seen.contains part.name then .ok s
      else .error .mismatched
  | .list items flaw => Part.readItems flaw s parts items
  | v => .error v.mismatch

end AccumulatorMachine.Json
