import AccumulatorMachine.Instruction
import AccumulatorMachine.Base
import AccumulatorMachine.Json.Reader

/-! The names of bases, mnemonics and categories in JSON. -/
namespace AccumulatorMachine.Keyword

def base? (name : Text) : Option Base :=
  if name = "Dec".toList ∨ name = "DEC".toList ∨ name = "dec".toList then some .dec
  else if name = "Hex".toList ∨ name = "HEX".toList ∨ name = "hex".toList then some .hex
  else none

def category? (name : Text) : Option Category :=
  [Category.simple, .operand, .vector].find? fun c => c.name.toList = name

def readBase : Json.Value → Except Json.Problem Base := Json.Value.readName base?

def readMnemonic : Json.Value → Except Json.Problem Mnemonic :=
  Json.Value.readName Mnemonic.ofName?

def readCategory : Json.Value → Except Json.Problem Category := Json.Value.readName category?

def ofBase : Base → String
  | .dec => "Dec"
  | .hex => "Hex"

end AccumulatorMachine.Keyword
