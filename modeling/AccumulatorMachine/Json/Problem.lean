/-! Why a JSON text cannot be read. A reader reports the first problem in the order of the text. -/
namespace AccumulatorMachine.Json

inductive Problem where
  /-- The text is not JSON. -/
  | malformed
  /-- The text ends inside a value. -/
  | ended
  /-- The text is JSON so far, but not of the shape that is read. -/
  | mismatched
  deriving DecidableEq, Repr

def Problem.category : Problem → String
  | malformed => "syntax"
  | ended => "eof"
  | mismatched => "data"

end AccumulatorMachine.Json
