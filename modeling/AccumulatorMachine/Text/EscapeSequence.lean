import AccumulatorMachine.Text.Blank

/-! Text without the escape sequences and control characters that a terminal would act upon. What
is left are the characters a terminal shows, and blanks. -/
namespace AccumulatorMachine.Text.EscapeSequence

inductive State where
  /-- Outside of sequences. -/
  | ground
  /-- Behind the escape character. -/
  | escape
  /-- Behind the escape character and further characters of a short sequence. -/
  | intermediate
  /-- In a control sequence, which a character from `@` to `~` ends. -/
  | control
  /-- In front of a device string. -/
  | device
  /-- In a command to the system, which a bell ends. -/
  | command
  /-- In a string, which the byte 0x9C ends. -/
  | string
  deriving DecidableEq, Repr

/-- The bytes behind the first one in UTF-8. -/
def laterBytes (c : Char) : List Nat :=
  let n := c.toNat
  let byte (shift : Nat) : Nat := 0x80 + n / Nat.pow 2 shift % 64
  if n < 0x80 then []
  else if n < 0x800 then [byte 0]
  else if n < 0x10000 then [byte 6, byte 0]
  else [byte 12, byte 6, byte 0]

/-- An escape character begins a sequence anywhere, and two control characters end any. -/
def next (s : State) (c : Char) : State :=
  let n := c.toNat
  if n = 0x1B then .escape
  else if n = 0x18 ∨ n = 0x1A then .ground
  else match s with
    | .ground => .ground
    | .escape =>
      if n < 0x20 ∨ 0x7F ≤ n then .escape
      else if n < 0x30 then .intermediate
      else if c = '[' then .control
      else if c = ']' then .command
      else if c = 'P' then .device
      else if c = 'X' ∨ c = '^' ∨ c = '_' then .string
      else .ground
    | .intermediate => if 0x30 ≤ n ∧ n < 0x7F then .ground else .intermediate
    | .control => if 0x40 ≤ n ∧ n < 0x7F then .ground else .control
    | .device => if 0x40 ≤ n ∧ n < 0x7F then .string else .device
    | .command => if n = 0x07 then .ground else .command
    | .string => if (laterBytes c).contains 0x9C then .ground else .string

def isBlankControl (c : Char) : Bool := c = '\t' || c = '\n' || c = '\x0c' || c = '\r'

def keeps (s : State) (c : Char) : Bool :=
  match s with
  | .ground => isBlankControl c || (0x20 ≤ c.toNat && c.toNat ≠ 0x7F)
  | .escape | .intermediate | .control => isBlankControl c
  | .device | .command | .string => false

/-- Goes on in a state. A blank control character inside a sequence interrupts it, and all is kept
up to a character that is not; there the sequence goes on, unless a character outside ASCII came
in between. -/
def stripFrom (s : State) (interrupted : Bool) : Text → Text
  | [] => []
  | c :: t =>
    if interrupted ∧ keeps .ground c then
      c :: stripFrom (if c.toNat < 0x80 then s else .ground) true t
    else if keeps s c then c :: stripFrom (next s c) true t
    else stripFrom (next s c) false t

def strip (t : Text) : Text := stripFrom .ground false t

end AccumulatorMachine.Text.EscapeSequence
