import AccumulatorMachine.Json.Problem
import AccumulatorMachine.Text.Blank

/-! JSON strings. A string that is skipped may hold halves of surrogate pairs on their own; a
string that is read may not. -/
namespace AccumulatorMachine.Json

/-- What is found behind an opening quote: the content for a reader, the flaw for one who skips the
string, and the text that follows it if there is no flaw. -/
structure StringScan where
  value : Except Problem Text
  flaw : Option Problem
  rest : Text

namespace StringScan

def broken (p : Problem) : StringScan := ⟨.error p, some p, []⟩

def push (c : Char) (s : StringScan) : StringScan := { s with value := s.value.map (c :: ·) }

def refuse (s : StringScan) : StringScan := { s with value := .error .malformed }

/-- The first half of a surrogate pair must not stand alone. -/
def settle (s : StringScan) (half : Option Nat) : StringScan :=
  if half.isSome then s.refuse else s

@[simp] theorem rest_push (c : Char) (s : StringScan) : (s.push c).rest = s.rest := rfl

@[simp] theorem rest_refuse (s : StringScan) : s.refuse.rest = s.rest := rfl

@[simp] theorem rest_settle (half : Option Nat) (s : StringScan) :
    (s.settle half).rest = s.rest := by
  unfold settle
  split <;> rfl

def hexDigit? (c : Char) : Option Nat :=
  if '0' ≤ c ∧ c ≤ '9' then some (c.toNat - 48)
  else if 'A' ≤ c ∧ c ≤ 'F' then some (c.toNat - 55)
  else if 'a' ≤ c ∧ c ≤ 'f' then some (c.toNat - 87)
  else none

def unit? (a b c d : Char) : Option Nat := do
  let a ← hexDigit? a
  let b ← hexDigit? b
  let c ← hexDigit? c
  let d ← hexDigit? d
  pure (((a * 16 + b) * 16 + c) * 16 + d)

/-- Whether the text goes on for the four bytes that an escape of this kind needs. -/
def hasFourBytes (t : Text) : Bool := Text.utf8Size (t.take 4) ≥ 4

def escape? (c : Char) : Option Char :=
  if c = '"' ∨ c = '\\' ∨ c = '/' then some c
  else if c = 'b' then some '\x08'
  else if c = 'f' then some '\x0c'
  else if c = 'n' then some '\n'
  else if c = 'r' then some '\r'
  else if c = 't' then some '\t'
  else none

def isHighHalf (n : Nat) : Bool := 0xD800 ≤ n && n ≤ 0xDBFF

def isLowHalf (n : Nat) : Bool := 0xDC00 ≤ n && n ≤ 0xDFFF

def joinHalves (high low : Nat) : Char :=
  Char.ofNat (0x10000 + (high - 0xD800) * 0x400 + (low - 0xDC00))

/-- Scans a string, `half` being the first half of a surrogate pair that came just before. -/
def scan (half : Option Nat) : Text → StringScan
  | [] => broken .ended
  | c :: t =>
    if c = '"' then settle ⟨.ok [], none, t⟩ half
    else if c = '\\' then
      match t with
      | [] => broken .ended
      | e :: t =>
        if e = 'u' then
          match t with
          | h₁ :: h₂ :: h₃ :: h₄ :: t =>
            match unit? h₁ h₂ h₃ h₄ with
            | none => broken .malformed
            | some n =>
              match half with
              | some high =>
                if isLowHalf n then (scan none t).push (joinHalves high n) else (scan none t).refuse
              | none =>
                if isHighHalf n then scan (some n) t
                else if isLowHalf n then (scan none t).refuse
                else (scan none t).push (Char.ofNat n)
          | t => broken (if hasFourBytes t then .malformed else .ended)
        else match escape? e with
          | some x => ((scan none t).push x).settle half
          | none => broken .malformed
    else if c.toNat < 0x20 then broken .malformed
    else ((scan none t).push c).settle half

theorem rest_scan_length (half : Option Nat) (t : Text) :
    (scan half t).rest.length ≤ t.length := by
  fun_induction scan half t <;> simp [broken] <;> omega

end StringScan

end AccumulatorMachine.Json
