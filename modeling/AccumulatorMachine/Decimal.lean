/-! Numbers with a fixed number of decimal places. A floating-point number stands for its exact
binary value, and a value halfway between two neighbours goes to the even one. -/
namespace AccumulatorMachine.Decimal

/-- The whole number nearest to `num / den`. -/
def roundDiv (num den : Nat) : Nat :=
  let q := num / den
  let r := num % den
  if 2 * r < den then q
  else if den < 2 * r then q + 1
  else q + q % 2

def padLeft (width : Nat) (s : String) : String :=
  "".pushn ' ' (width - s.length) ++ s

def padRight (width : Nat) (s : String) : String :=
  s.pushn ' ' (width - s.length)

def fixed (places num den : Nat) : String :=
  let scaled := roundDiv (num * Nat.pow 10 places) den
  let fraction := toString (scaled % Nat.pow 10 places)
  toString (scaled / Nat.pow 10 places) ++ "." ++ "".pushn '0' (places - fraction.length) ++ fraction

/-- The exact value of a finite float that is not negative, as a quotient. -/
def ratio (x : Float) : Nat × Nat :=
  let bits := x.toBits.toNat
  let exponent := bits / Nat.pow 2 52 % Nat.pow 2 11
  let mantissa := bits % Nat.pow 2 52
  if exponent = 0 then (mantissa, Nat.pow 2 1074)
  else
    let mantissa := mantissa + Nat.pow 2 52
    if exponent ≥ 1075 then (mantissa * Nat.pow 2 (exponent - 1075), 1)
    else (mantissa, Nat.pow 2 (1075 - exponent))

def ofFloat (places : Nat) (x : Float) : String :=
  let (num, den) := ratio x
  fixed places num den

end AccumulatorMachine.Decimal
