import AccumulatorMachine.Line
import AccumulatorMachine.Memory
import AccumulatorMachine.Numeral

/-! The assembler: one forward pass that lays the lines out from address 0. It stops before the
first line whose cells do not all lie in memory, so nothing wraps and no line is cut in two. -/
namespace AccumulatorMachine

structure AssemblyReport where
  cellsUsed : Nat
  linesAssembled : Nat
  truncated : Bool
  deriving DecidableEq, Repr

structure Assembly where
  memory : Memory
  report : AssemblyReport
  deriving DecidableEq, Repr

namespace Assembly

/-- Writes the cells of one line. A blank line keeps its cell as it is, and so does an address
instruction without a token the cell of its operand. -/
def place (base : Base) (m : Memory) (start : Nat) : Line.Kind → Memory
  | .blank => m
  | .instruction mnemonic operand =>
    let cell := UInt8.ofNat start
    let opened := (m.write cell mnemonic.opcode).setTag cell (some mnemonic.category)
    match mnemonic.arity, operand with
    | .address, some token => opened.write (UInt8.ofNat (start + 1)) (Numeral.byte base token)
    | _, _ => opened
  | .literal code => m.write (UInt8.ofNat start) (Numeral.byte base code)

/-- Places lines from `start` on; answers the memory, the end of the program and the number of
lines placed. -/
def placeAll (base : Base) (m : Memory) (start : Nat) : List Text → Memory × Nat × Nat
  | [] => (m, start, 0)
  | line :: rest =>
    let kind := Line.classify line
    if start + kind.size ≤ 256 then
      let (m, finish, count) := placeAll base (place base m start kind) (start + kind.size) rest
      (m, finish, count + 1)
    else (m, start, 0)

end Assembly

def assemble (base : Base) (lines : List Text) : Assembly :=
  let (memory, cells, count) := Assembly.placeAll base .empty 0 lines
  { memory, report := ⟨cells, count, count < lines.length⟩ }

end AccumulatorMachine
