/-! JSON documents that are written, and their text with one part per line. -/
namespace AccumulatorMachine.Json

inductive Data where
  | null
  | bool (b : Bool)
  | number (n : Nat)
  | text (s : String)
  | list (items : List Data)
  | record (members : List (String × Data))

namespace Data

def escape (c : Char) : String :=
  if c = '"' then "\\\""
  else if c = '\\' then "\\\\"
  else if c.toNat < 0x20 then
    let code := "0123456789abcdef".toList
    "\\u00" ++ String.ofList [code.getD (c.toNat / 16) '0', code.getD (c.toNat % 16) '0']
  else c.toString

def quote (s : String) : String := "\"" ++ String.join (s.toList.map escape) ++ "\""

def lineBreak (depth : Nat) : String := "\n".pushn ' ' (2 * depth)

mutual

/-- The text at a depth of nesting: every part on a line of its own, two blanks deeper. -/
def prettyAt (depth : Nat) : Data → String
  | null => "null"
  | bool b => if b then "true" else "false"
  | number n => toString n
  | text s => quote s
  | list [] => "[]"
  | list (item :: items) =>
    "[" ++ lineBreak (depth + 1) ++ prettyAt (depth + 1) item ++ prettyItems (depth + 1) items ++
      lineBreak depth ++ "]"
  | record [] => "\x7b\x7d"
  | record ((name, v) :: members) =>
    "\x7b" ++ lineBreak (depth + 1) ++ quote name ++ ": " ++ prettyAt (depth + 1) v ++
      prettyMembers (depth + 1) members ++ lineBreak depth ++ "\x7d"

def prettyItems (depth : Nat) : List Data → String
  | [] => ""
  | item :: items => "," ++ lineBreak depth ++ prettyAt depth item ++ prettyItems depth items

def prettyMembers (depth : Nat) : List (String × Data) → String
  | [] => ""
  | (name, v) :: members =>
    "," ++ lineBreak depth ++ quote name ++ ": " ++ prettyAt depth v ++ prettyMembers depth members

end

def pretty (d : Data) : String := prettyAt 0 d

end Data

end AccumulatorMachine.Json
