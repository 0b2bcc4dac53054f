import AccumulatorMachine.Cli.Command

/-! The program: it reads the files that its arguments name, lets the command do its work, and
writes what the command answers. -/
namespace AccumulatorMachine.Main

def readFile (path : String) : IO (Except FileError ByteArray) := do
  try
    return .ok (← IO.FS.readBinFile path)
  catch
    | .noFileOrDirectory .. => return .error .notFound
    | e =>
      let hasCode (n : Nat) : Bool := (e.toString.splitOn s!"error code: {n}").length > 1
      if hasCode 21 then return .error .isDirectory
      else if hasCode 20 then return .error .notDirectory
      else if hasCode 36 then return .error .nameTooLong
      else return .error (.other e.toString)

def report : Cli.Notice → IO Unit
  | .event e => IO.eprintln e.line
  | .line s => IO.eprintln s

def perform (args : List String) : IO UInt32 := do
  let contents ← (Cli.filesNamed args).mapM fun path => return (path, ← readFile path)
  let read : FileReader := fun path => (contents.lookup path).getD (.error .notFound)
  let logSetting ← IO.getEnv "RUST_LOG"
  let began ← IO.monoNanosNow
  let answer ← IO.lazyPure fun _ => Cli.perform args ⟨read, logSetting⟩
  let ended ← IO.monoNanosNow
  match answer with
  | .error usage =>
    IO.eprintln usage
    return 2
  | .ok outcome =>
    outcome.notices.forM report
    IO.print (outcome.text (Decimal.fixed 4 (ended - began) (Nat.pow 10 9)))
    return UInt32.ofNat outcome.exit

end AccumulatorMachine.Main

def main (args : List String) : IO UInt32 := AccumulatorMachine.Main.perform args
