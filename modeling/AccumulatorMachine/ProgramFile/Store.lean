import AccumulatorMachine.FileSystem
import AccumulatorMachine.ProgramFile

/-! Program files on disk. -/
namespace AccumulatorMachine.ProgramFile

def accessMessage (path : String) (e : FileError) : String :=
  s!"could not access program file '{path}': {e.message}"

def load (read : FileReader) (path : String) (default : Base) : Except FileError ProgramFile := do
  let text ← read.readText path
  .ok (parse default text.toList)

def save (p : ProgramFile) (fs : FileSystem) (path : String) : Except FileError FileSystem :=
  fs.write path (String.ofList p.render).toUTF8

end AccumulatorMachine.ProgramFile
