import AccumulatorMachine.Base

/-! Numerals in a base: an optional sign, in base 16 an optional `0x` mark, and the longest run of
digits that follows; the rest of the token is ignored. Values are 64-bit words that wrap. -/
namespace AccumulatorMachine.Numeral

def digitValue? (base : Base) (c : Char) : Option Nat :=
  if '0' ≤ c ∧ c ≤ '9' then some (c.toNat - 48)
  else if base = .hex ∧ 'A' ≤ c ∧ c ≤ 'F' then some (c.toNat - 55)
  else if base = .hex ∧ 'a' ≤ c ∧ c ≤ 'f' then some (c.toNat - 87)
  else none

def digitChar (d : Nat) : Char := if d < 10 then Char.ofNat (48 + d) else Char.ofNat (55 + d)

def leadingDigits (base : Base) : Text → List Nat
  | [] => []
  | c :: cs => match digitValue? base c with
    | some d => d :: leadingDigits base cs
    | none => []

def splitSign : Text → Bool × Text
  | '-' :: t => (true, t)
  | '+' :: t => (false, t)
  | t => (false, t)

/-- Base 16 allows its digits one mark in front. -/
def dropMark : Base → Text → Text
  | .hex, '0' :: 'x' :: t => t
  | .hex, '0' :: 'X' :: t => t
  | _, t => t

def accumulate (base : Base) (digits : List Nat) : Int64 :=
  digits.foldl (fun v d => v * Int64.ofNat base.radix + Int64.ofNat d) 0

def parse? (base : Base) (token : Text) : Option Int64 :=
  let (negative, rest) := splitSign (Text.trimStart token)
  match leadingDigits base (dropMark base rest) with
  | [] => none
  | digits =>
    let magnitude := accumulate base digits
    some (if negative then -magnitude else magnitude)

/-- The byte a token stands for: the low byte of its value, and 0 without a value. -/
def byte (base : Base) (token : Text) : UInt8 :=
  match parse? base token with
  | some v => v.toUInt64.toUInt8
  | none => 0

def writeNat (base : Base) (n : Nat) : Text :=
  if n < base.radix then [digitChar n]
  else writeNat base (n / base.radix) ++ [digitChar (n % base.radix)]
termination_by n
decreasing_by
  have := base.one_lt_radix
  exact Nat.div_lt_self (by omega) this

/-- No padding and no mark; a minus sign in front of the magnitude. -/
def write (base : Base) (v : Int64) : Text :=
  if v < 0 then '-' :: writeNat base v.toInt.natAbs else writeNat base v.toInt.natAbs

end AccumulatorMachine.Numeral
