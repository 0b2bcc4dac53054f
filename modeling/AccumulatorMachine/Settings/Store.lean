import AccumulatorMachine.FileSystem
import AccumulatorMachine.Settings.Document

/-! Settings on disk. -/
namespace AccumulatorMachine.Settings

inductive LoadError where
  | inaccessible (path : String) (e : FileError)
  | invalid (e : DocumentError)
  deriving DecidableEq, Repr

def DocumentError.message : DocumentError → String
  | unreadable _ => "invalid configuration:"
  | flawed f => f.message

def LoadError.message : LoadError → String
  | inaccessible path e => s!"could not read configuration file '{path}': {e.message}"
  | invalid e => e.message

def load (read : FileReader) (path : String) : Except LoadError Settings :=
  match read.readText path with
  | .error e => .error (.inaccessible path e)
  | .ok text => match ofJson text.toList with
    | .error e => .error (.invalid e)
    | .ok s => .ok s

end AccumulatorMachine.Settings
