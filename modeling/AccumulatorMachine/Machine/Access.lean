import AccumulatorMachine.Machine.Step

/-! Which cells an instruction touches: the ones it is fetched from, the ones it loads, and the
ones it stores to with the bytes it stores. -/
namespace AccumulatorMachine

namespace Fetched

/-- The address of the opcode, then that of the operand byte if it has a cell. -/
def fetches (i : Fetched) : List UInt8 :=
  match i.mnemonic.arity with
  | .implied => [i.pc]
  | .address => if i.pc = 255 then [i.pc] else [i.pc, i.pc + 1]

def loads (i : Fetched) : List UInt8 :=
  let operand := i.operand.getD 0
  match i.mnemonic with
  | .lda | .add | .or | .and => [operand]
  | .vld | .vadd | .vor | .vand => (lanes operand).map (·.2)
  | _ => []

def stores (i : Fetched) (r : Registers) : List (UInt8 × UInt8) :=
  let operand := i.operand.getD 0
  match i.mnemonic with
  | .sta => [(operand, r.ac)]
  | .vst => (lanes operand).map fun (lane, a) => (a, r.vac.get lane)
  | _ => []

end Fetched

end AccumulatorMachine
