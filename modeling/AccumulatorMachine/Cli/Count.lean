import AccumulatorMachine.Text.Blank

/-! The number of steps on the command line: a signed 64-bit numeral in the range of 32 bits
without a sign. The first character that is no digit or no longer fits decides what is wrong. -/
namespace AccumulatorMachine.Cli.Count

def tooLarge : String := "number too large to fit in target type"

def tooSmall : String := "number too small to fit in target type"

def invalidDigit : String := "invalid digit found in string"

def digits (negative : Bool) (magnitude : Nat) : Text → Except String Int
  | [] => .ok (if negative then -(magnitude : Int) else magnitude)
  | c :: cs =>
    if c.isDigit then
      let next := magnitude * 10 + (c.toNat - 48)
      if negative ∧ Nat.pow 2 63 < next then .error tooSmall
      else if ¬ negative ∧ Nat.pow 2 63 ≤ next then .error tooLarge
      else digits negative next cs
    else .error invalidDigit

def signed : Text → Except String Int
  | [] => .error "cannot parse integer from empty string"
  | c :: cs =>
    if c = '+' ∨ c = '-' then
      if cs = [] then .error invalidDigit else digits (c = '-') 0 cs
    else digits false 0 (c :: cs)

def parse (t : Text) : Except String Nat := do
  let n ← signed t
  if 0 ≤ n ∧ n < Nat.pow 2 32 then .ok n.toNat else .error s!"{n} is not in 0..=4294967295"

end AccumulatorMachine.Cli.Count
