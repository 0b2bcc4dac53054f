import AccumulatorMachine.Log.Pattern.Expression
import AccumulatorMachine.Text.Upper

/-! Which texts are patterns for a value: truth values, numbers, and regular expressions. -/
namespace AccumulatorMachine.Log.Pattern

/-- Digits with a point in front, among or behind them, or without one, and then perhaps an
exponent. -/
def isDecimal (t : Text) : Bool :=
  let whole := t.takeWhile Char.isDigit
  let rest := t.dropWhile Char.isDigit
  let fraction := if rest.head? = some '.' then (rest.drop 1).takeWhile Char.isDigit else []
  let rest := if rest.head? = some '.' then (rest.drop 1).dropWhile Char.isDigit else rest
  (whole ≠ [] || fraction ≠ []) && match rest with
    | [] => true
    | e :: exponent =>
      let digits := match exponent with
        | '+' :: digits => digits
        | '-' :: digits => digits
        | digits => digits
      (e = 'e' || e = 'E') && digits ≠ [] && digits.all Char.isDigit

/-- A number with a plus sign. Any other number is an expression as well, and so are the truth
values. -/
def isSignedNumber : Text → Bool
  | '+' :: t =>
    isDecimal t || ["inf", "infinity", "nan"].any fun name => name.toList = Text.lowerAscii t
  | _ => false

def isPattern (t : Text) : Bool := isSignedNumber t || isExpression t

end AccumulatorMachine.Log.Pattern
