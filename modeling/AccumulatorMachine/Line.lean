import AccumulatorMachine.Instruction

/-! What a source line holds: its code, its comment, the tokens of the code, and the kind of line
they make. Every pass over source text reads lines through these functions. -/
namespace AccumulatorMachine.Line

def code (line : Text) : Text := Text.trim (line.takeWhile (· != ';'))

def comment (line : Text) : Option Text :=
  match line.dropWhile (· != ';') with
  | [] => none
  | _ :: rest => some rest

def isSeparator (c : Char) : Bool := Text.isBlank c || c == ','

/-- The first token, empty if a separator comes first, and the later tokens, none of them empty. -/
def tokens (code : Text) : Text × List Text :=
  match code.splitOnP isSeparator with
  | [] => ([], [])
  | first :: later => (first, later.filter (· ≠ []))

inductive Kind where
  | blank
  | instruction (mnemonic : Mnemonic) (operand : Option Text)
  | literal (code : Text)
  deriving DecidableEq, Repr

/-- An instruction begins with a mnemonic in any case; other code is a data literal as a whole. -/
def classify (line : Text) : Kind :=
  if code line = [] then .blank
  else
    let (first, later) := tokens (code line)
    match Mnemonic.ofToken? first with
    | some m => .instruction m later.head?
    | none => .literal (code line)

def Kind.size : Kind → Nat
  | .instruction m _ => m.size
  | .blank | .literal _ => 1

def size (line : Text) : Nat := (classify line).size

end AccumulatorMachine.Line
