import AccumulatorMachine.Line
import AccumulatorMachine.Numeral

/-! Source lines of one base, written in another. A token keeps its value; one without a value in
the old base is left as it stands, even if it has one in the new base. -/
namespace AccumulatorMachine.Conversion

/-- A data literal that would read as a mnemonic, such as `ADD` in base 16, gets a 0 in front. -/
def dataLiteral (base : Base) (v : Int64) : Text :=
  let text := Numeral.write base v
  if (Mnemonic.ofToken? text).isSome then '0' :: text else text

def convertToken (old new : Base) (token : Text) : Text :=
  match Numeral.parse? old token with
  | some v => Numeral.write new v
  | none => token

/-- Only the first token after a mnemonic is an operand. -/
def convertOperand (old new : Base) : List Text → List Text
  | [] => []
  | operand :: rest => convertToken old new operand :: rest

/-- Instructions are written anew with single spaces, data lines keep their first token alone, and
the comment follows after one space. -/
def convertLine (old new : Base) (line : Text) : Text :=
  if Line.code line = [] then line
  else
    let suffix := match Line.comment line with
      | some c => ' ' :: ';' :: c
      | none => []
    let (first, later) := Line.tokens (Line.code line)
    match Mnemonic.ofToken? first with
    | some _ => [' '].intercalate (first :: convertOperand old new later) ++ suffix
    | none => match Numeral.parse? old first with
      | some v => dataLiteral new v ++ suffix
      | none => line

def convert (old new : Base) (lines : List Text) : List Text := lines.map (convertLine old new)

end AccumulatorMachine.Conversion
