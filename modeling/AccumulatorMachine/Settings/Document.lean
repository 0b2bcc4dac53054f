import AccumulatorMachine.Keyword
import AccumulatorMachine.Settings

/-! Settings as a JSON document. Every part may be left out and then keeps its default, except the
block size of a cache that is mentioned. -/
namespace AccumulatorMachine.Settings

def general : List (Json.Part Settings) :=
  [{ name := "trace_instructions", required := false,
      read := fun s v => do pure { s with traceInstructions := ← v.readBool } },
    { name := "base", required := false,
      read := fun s v => do pure { s with base := ← Keyword.readBase v } }]

def execution : List (Json.Part Settings) :=
  [{ name := "loop_guard", required := false,
      read := fun s v => do pure { s with loopGuard := ← v.readNat (Nat.pow 2 32) } }]

def icache : List (Json.Part Settings) :=
  [{ name := "block_bytes", required := true,
      read := fun s v => do pure { s with icacheBlock := ← v.readNat (Nat.pow 2 64) } }]

def dcache : List (Json.Part Settings) :=
  [{ name := "block_bytes", required := true,
      read := fun s v => do pure { s with dcacheBlock := ← v.readNat (Nat.pow 2 64) } }]

def cache : List (Json.Part Settings) :=
  [{ name := "icache", required := false, read := Json.readParts icache },
    { name := "dcache", required := false, read := Json.readParts dcache }]

def document : List (Json.Part Settings) :=
  [{ name := "general", required := false, read := Json.readParts general },
    { name := "execution", required := false, read := Json.readParts execution },
    { name := "cache", required := false, read := Json.readParts cache }]

inductive DocumentError where
  | unreadable (problem : Json.Problem)
  | flawed (flaw : Flaw)
  deriving DecidableEq, Repr

abbrev TextReader := (Json.Value → Except Json.Problem Settings) → Text →
  Except Json.Problem Settings

def ofJsonBy (reader : TextReader) (text : Text) : Except DocumentError Settings :=
  match reader (Json.readParts document {}) text with
  | .error p => .error (.unreadable p)
  | .ok s => match s.flaw? with
    | some f => .error (.flawed f)
    | none => .ok s

def ofJson (text : Text) : Except DocumentError Settings := ofJsonBy Json.readText text

end AccumulatorMachine.Settings
