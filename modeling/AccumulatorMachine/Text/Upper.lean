import AccumulatorMachine.Text.Blank

/-! Upper case, as far as names of ASCII letters can tell.
Ten characters outside ASCII have an upper case made of ASCII letters alone; every other one keeps
something outside ASCII, so leaving it as it is never makes or breaks such a name. -/
namespace AccumulatorMachine.Text

def upperChar (c : Char) : Text :=
  match c.toNat with
  | 0xDF => ['S', 'S']
  | 0x131 => ['I']
  | 0x17F => ['S']
  | 0xFB00 => ['F', 'F']
  | 0xFB01 => ['F', 'I']
  | 0xFB02 => ['F', 'L']
  | 0xFB03 => ['F', 'F', 'I']
  | 0xFB04 => ['F', 'F', 'L']
  | 0xFB05 => ['S', 'T']
  | 0xFB06 => ['S', 'T']
  | _ => [c.toUpper]

def upper (t : Text) : Text := t.flatMap upperChar

def upperAscii (t : Text) : Text := t.map Char.toUpper

def lowerAscii (t : Text) : Text := t.map Char.toLower

end AccumulatorMachine.Text
