import AccumulatorMachine.Base

/-! The text form of a program: an optional header line that names the base, then one source line
per line. A carriage return before a line feed belongs to the line ending. -/
namespace AccumulatorMachine

structure ProgramFile where
  base : Base
  lines : List Text
  deriving DecidableEq, Repr

namespace ProgramFile

def dropReturn (line : Text) : Text := if line.getLast? = some '\r' then line.dropLast else line

/-- The lines of a text. A final line ending starts no further line, and an empty text is one
empty line. -/
def splitLines (text : Text) : List Text :=
  let lines := (text.splitOn '\n').map dropReturn
  if lines.length > 1 ∧ lines.getLast? = some [] then lines.dropLast else lines

/-- Without a header the default base holds and the first line is a source line. -/
def parse (default : Base) (text : Text) : ProgramFile :=
  match splitLines text with
  | [] => ⟨default, []⟩
  | first :: rest => match Base.ofHeader? first with
    | some base => ⟨base, rest⟩
    | none => ⟨default, first :: rest⟩

def render (p : ProgramFile) : Text := p.base.header.toList ++ p.lines.flatMap ('\n' :: ·)

end ProgramFile

end AccumulatorMachine
