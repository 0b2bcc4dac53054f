import AccumulatorMachine.Text.Upper

/-! The instruction table: mnemonics, their opcode bytes and the classes derived from them. -/
namespace AccumulatorMachine

inductive Mnemonic where
  | nop | sta | lda | add | or | and | not | jmp | jn | jz | hlt
  | vld | vst | vadd | veadd | vor | vand | vnot
  deriving DecidableEq, Repr

inductive Arity where
  | implied
  | address
  deriving DecidableEq, Repr

inductive Category where
  | simple
  | operand
  | vector
  deriving DecidableEq, Repr

inductive Group where
  | load
  | store
  | alu
  | branch
  | vector
  | system
  deriving DecidableEq, Repr

def Category.name : Category → String
  | simple => "simple"
  | operand => "operand"
  | vector => "vector"

namespace Mnemonic

def all : List Mnemonic :=
  [nop, sta, lda, add, or, and, not, jmp, jn, jz, hlt, vld, vst, vadd, veadd, vor, vand, vnot]

def opcode : Mnemonic → UInt8
  | nop => 0
  | sta => 16
  | lda => 32
  | add => 48
  | or => 64
  | and => 80
  | not => 96
  | jmp => 128
  | jn => 144
  | jz => 160
  | hlt => 240
  | vld => 241
  | vst => 242
  | vadd => 243
  | veadd => 244
  | vor => 245
  | vand => 246
  | vnot => 247

def name : Mnemonic → String
  | nop => "NOP"
  | sta => "STA"
  | lda => "LDA"
  | add => "ADD"
  | or => "OR"
  | and => "AND"
  | not => "NOT"
  | jmp => "JMP"
  | jn => "JN"
  | jz => "JZ"
  | hlt => "HLT"
  | vld => "VLD"
  | vst => "VST"
  | vadd => "VADD"
  | veadd => "VEADD"
  | vor => "VOR"
  | vand => "VAND"
  | vnot => "VNOT"

def ofOpcode? (byte : UInt8) : Option Mnemonic := all.find? fun m => m.opcode = byte

def ofName? (name : Text) : Option Mnemonic := all.find? fun m => m.name.toList = name

def ofToken? (token : Text) : Option Mnemonic := ofName? (Text.upper token)

def arity : Mnemonic → Arity
  | nop | not | hlt | veadd | vnot => .implied
  | sta | lda | add | or | and | jmp | jn | jz | vld | vst | vadd | vor | vand => .address

def group : Mnemonic → Group
  | lda => .load
  | sta => .store
  | add | or | and | not => .alu
  | jmp | jn | jz => .branch
  | vld | vst | vadd | veadd | vor | vand | vnot => .vector
  | nop | hlt => .system

/-- Vector instructions come first, with or without an address. -/
def category (m : Mnemonic) : Category :=
  if m.group = .vector then .vector
  else match m.arity with
    | .address => .operand
    | .implied => .simple

def size (m : Mnemonic) : Nat :=
  match m.arity with
  | .implied => 1
  | .address => 2

def unknownMessage (name : String) : String := s!"unknown mnemonic '{name}'"

def invalidMessage (byte : UInt8) : String := s!"invalid opcode {byte.toNat}"

theorem mem_all (m : Mnemonic) : m ∈ all := by cases m <;> decide

theorem ofOpcode?_opcode (m : Mnemonic) : ofOpcode? m.opcode = some m := by cases m <;> rfl

theorem ofName?_name (m : Mnemonic) : ofName? m.name.toList = some m := by cases m <;> rfl

end Mnemonic

end AccumulatorMachine
