import AccumulatorMachine.Memory
import AccumulatorMachine.Numeral

/-! Memory as text: a tagged cell that holds an opcode is shown as an instruction, any other cell
as a value. -/
namespace AccumulatorMachine.Listing

def instructionText (base : Base) (m : Mnemonic) (operand : Option UInt8) : Text :=
  match operand with
  | some v => m.name.toList ++ ' ' :: Numeral.writeNat base v.toNat
  | none => m.name.toList

def decode? (m : Memory) (a : UInt8) : Option Mnemonic :=
  if (m.tag a).isSome then Mnemonic.ofOpcode? (m.read a) else none

/-- The text of the row that begins at an address and the number of cells it covers. An operand
that lacks its cell is shown as 0. -/
def rowAt (base : Base) (m : Memory) (a : UInt8) : Text × Nat :=
  match decode? m a with
  | none => (Numeral.writeNat base (m.read a).toNat, 1)
  | some mnemonic =>
    match mnemonic.arity with
    | .implied => (instructionText base mnemonic none, 1)
    | .address =>
      if a = 255 then (instructionText base mnemonic (some 0), 1)
      else (instructionText base mnemonic (some (m.read (a + 1))), 2)

structure Row where
  address : UInt8
  size : Nat
  text : Text
  tag : Option Category
  deriving DecidableEq, Repr

theorem rowAt_size_pos (base : Base) (m : Memory) (a : UInt8) : 0 < (rowAt base m a).2 := by
  unfold rowAt
  split
  · exact Nat.one_pos
  · split
    · exact Nat.one_pos
    · split <;> simp

/-- The rows from a cell on, each beginning where the one before ends. -/
def rowsFrom (base : Base) (m : Memory) (start : Nat) : List Row :=
  if start < 256 then
    let a := UInt8.ofNat start
    ⟨a, (rowAt base m a).2, (rowAt base m a).1, m.tag a⟩ ::
      rowsFrom base m (start + (rowAt base m a).2)
  else []
termination_by 256 - start
decreasing_by
  have := rowAt_size_pos base m (UInt8.ofNat start)
  omega

def rows (base : Base) (m : Memory) : List Row := rowsFrom base m 0

end AccumulatorMachine.Listing
