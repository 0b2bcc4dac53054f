import AccumulatorMachine.Decimal
import AccumulatorMachine.Json.Problem
import AccumulatorMachine.Text.Blank

/-! JSON numbers. A number that is skipped need only have the form of a number. A number that is
read must also lie in the range of double precision, and is a natural number if it is written as
one and fits 64 bits. -/
namespace AccumulatorMachine.Json

/-- What is found at a number: its value for a reader, its flaw for one who skips it, and the text
that follows it if there is no flaw. -/
structure NumberScan where
  value : Except Problem (Option Nat)
  flaw : Option Problem
  rest : Text

namespace NumberScan

def digitsOf (t : Text) : Text := t.takeWhile Char.isDigit

def afterDigits (t : Text) : Text := t.dropWhile Char.isDigit

def broken (rest : Text) : NumberScan :=
  ⟨.error (if rest = [] then .ended else .malformed), some .malformed, []⟩

def refused : NumberScan := ⟨.error .malformed, some .malformed, []⟩

/-- Adds digits to a significand while it fits 64 bits; answers how many are left over. -/
def significand (start : Nat) : Text → Nat × Nat
  | [] => (start, 0)
  | c :: cs =>
    let next := start * 10 + (c.toNat - 48)
    if next < Nat.pow 2 64 then significand next cs else (start, cs.length + 1)

def natural (digits : Text) : Nat := digits.foldl (fun n c => n * 10 + (c.toNat - 48)) 0

/-- The nearest number with 53 significant bits. -/
def toDouble (n : Nat) : Nat :=
  let unit := Nat.pow 2 (n.log2 + 1 - 53)
  Decimal.roundDiv n unit * unit

/-- Whether `n * 10 ^ exponent` is out of range when the factors and the product are rounded to
double precision. -/
def exceedsDouble (n : Nat) (exponent : Int) : Bool :=
  n ≠ 0 && (exponent > 308 ||
    (exponent ≥ 0 && toDouble n * toDouble (Nat.pow 10 exponent.toNat) ≥
      Nat.pow 2 1024 - Nat.pow 2 970))

/-- A number with the digits before and after its point and its exponent. Digits that do not fit
the significand count as powers of ten before the point and are dropped after it. -/
def range (whole fraction : Text) (exponent : Int) : Except Problem (Option Nat) :=
  let (n, left) := significand 0 whole
  let (m, dropped) := significand n fraction
  if exceedsDouble m (left - (fraction.length - dropped : Nat) + exponent) then .error .malformed
  else .ok none

def sign : Text → Bool × Text
  | [] => (false, [])
  | c :: cs => if c = '-' then (true, cs) else if c = '+' then (false, cs) else (false, c :: cs)

def atExponent (negative : Bool) (whole fraction : Text) (rest : Text) : NumberScan :=
  match rest with
  | c :: cs =>
    if c = 'e' ∨ c = 'E' then
      let (down, cs) := sign cs
      let digits := digitsOf cs
      if digits = [] then broken cs
      else
        let size : Int := natural digits
        ⟨range whole fraction (if down then -size else size), none, afterDigits cs⟩
    else atEnd (c :: cs)
  | [] => atEnd []
where
  atEnd (rest : Text) : NumberScan :=
    let value := natural whole
    if fraction = [] ∧ value < Nat.pow 2 64 then
      ⟨.ok (if negative then none else some value), none, rest⟩
    else ⟨range whole fraction 0, none, rest⟩

def atPoint (negative : Bool) (whole : Text) (rest : Text) : NumberScan :=
  match rest with
  | c :: cs =>
    if c = '.' then
      let digits := digitsOf cs
      if digits = [] then broken (afterDigits cs)
      else atExponent negative whole digits (afterDigits cs)
    else atExponent negative whole [] (c :: cs)
  | [] => atExponent negative whole [] []

/-- Reads on behind the sign. A number has no zero in front of another digit. -/
def unsigned (negative : Bool) : Text → NumberScan
  | [] => broken []
  | c :: cs =>
    if c.isDigit then
      if c = '0' ∧ digitsOf cs ≠ [] then refused
      else atPoint negative (c :: digitsOf cs) (afterDigits cs)
    else refused

theorem afterDigits_length (t : Text) : (afterDigits t).length ≤ t.length :=
  (List.dropWhile_suffix _).length_le

theorem sign_length (t : Text) : (sign t).2.length ≤ t.length := by
  unfold sign
  split
  · simp
  · split
    · simp
    · split <;> simp

theorem rest_atExponent_length (negative : Bool) (whole fraction t : Text) :
    (atExponent negative whole fraction t).rest.length ≤ t.length := by
  have atEnd (t : Text) : (atExponent.atEnd negative whole fraction t).rest = t := by
    unfold atExponent.atEnd
    dsimp only
    split <;> rfl
  unfold atExponent
  split
  · rename_i c cs
    split
    · dsimp only
      split
      · simp [broken]
      · have := afterDigits_length (sign cs).2
        have := sign_length cs
        simp only [List.length_cons]
        omega
    · exact Nat.le_of_eq (congrArg List.length (atEnd (c :: cs)))
  · simp [atEnd]

theorem rest_atPoint_length (negative : Bool) (whole t : Text) :
    (atPoint negative whole t).rest.length ≤ t.length := by
  unfold atPoint
  split
  · rename_i c cs
    split
    · dsimp only
      split
      · simp [broken]
      · have := rest_atExponent_length negative whole (digitsOf cs) (afterDigits cs)
        have := afterDigits_length cs
        simp only [List.length_cons]
        omega
    · exact rest_atExponent_length ..
  · exact rest_atExponent_length ..

/-- A number takes at least one character. -/
theorem rest_unsigned_length (negative : Bool) (t : Text) :
    (unsigned negative t).rest.length ≤ t.length - 1 := by
  unfold unsigned
  split
  · simp [broken]
  · rename_i c cs
    split
    · split
      · simp [refused]
      · have := rest_atPoint_length negative (c :: digitsOf cs) (afterDigits cs)
        have := afterDigits_length cs
        simp only [List.length_cons]
        omega
    · simp [refused]

end NumberScan

end AccumulatorMachine.Json
