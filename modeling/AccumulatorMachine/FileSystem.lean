/-! A directory of named files and directories, and what goes wrong when one is read or written.
Paths go on from it, so the empty one leads to the directory itself. Of what is around it only the
directories above are known. -/
namespace AccumulatorMachine

inductive FileError where
  | notFound
  | isDirectory
  | notDirectory
  | notText
  | nameTooLong
  /-- A path with a null character in it. -/
  | notAPath
  /-- Anything else, in the words of the host. -/
  | other (words : String)
  deriving DecidableEq, Repr

def FileError.message : FileError → String
  | notFound => "No such file or directory (os error 2)"
  | isDirectory => "Is a directory (os error 21)"
  | notDirectory => "Not a directory (os error 20)"
  | notText => "stream did not contain valid UTF-8"
  | nameTooLong => "File name too long (os error 36)"
  | notAPath => "file name contained an unexpected NUL byte"
  | other words => words

abbrev FileReader := String → Except FileError ByteArray

def FileReader.readText (read : FileReader) (path : String) : Except FileError String := do
  match String.fromUTF8? (← read path) with
  | some text => .ok text
  | none => .error .notText

inductive FileEntry where
  | file (bytes : ByteArray)
  | directory

/-- The entries by path; a path is the list of names on the way to it. -/
structure FileSystem where
  entries : List (List String × FileEntry)

namespace FileSystem

def namesOf (path : String) : List String := (path.splitOn "/").filter (· ≠ "")

/-- Names that no path spells: the root of all paths, and the directories above this one. -/
def outside : List (List String) := [["/"], [".."]]

def startOf (path : String) : List String := if path.startsWith "/" then ["/"] else []

def parentOf (here : List String) : List String :=
  if here = [] then [".."] else if outside.contains here then here else here.dropLast

/-- A path that ends in a slash leads to a directory, and so does the empty one. -/
def leadsToDirectory (path : String) : Bool := path.toList.getLast?.all (· = '/')

/-- What a list of names leads to. A directory is also there if something is in it. -/
def entry? (fs : FileSystem) (names : List String) : Option FileEntry :=
  if names.isEmpty ∨ outside.contains names then some .directory
  else match fs.entries.lookup names with
    | some e => some e
    | none =>
      if fs.entries.any fun (path, _) => names.isPrefixOf path then some .directory else none

/-- Walks from a directory along names. Answers where they lead, and what is there. -/
def walk (fs : FileSystem) (here : List String) :
    List String → Except FileError (List String × Option FileEntry)
  | [] => .ok (here, fs.entry? here)
  | "." :: names => fs.walk here names
  | ".." :: names => fs.walk (parentOf here) names
  | name :: names =>
    if 255 < name.utf8ByteSize then .error .nameTooLong
    else
      let there := here ++ [name]
      match fs.entry? there, names with
      | e, [] => .ok (there, e)
      | some .directory, _ => fs.walk there names
      | some (.file _), _ => .error .notDirectory
      | none, _ => .error .notFound

def checkPath (path : String) : Except FileError Unit :=
  if path.toList.contains '\x00' then .error .notAPath
  else if 4096 ≤ path.utf8ByteSize then .error .nameTooLong
  else .ok ()

def read (fs : FileSystem) : FileReader := fun path => do
  checkPath path
  let names := namesOf path ++ if leadsToDirectory path then ["."] else []
  match (← fs.walk (startOf path) names).2 with
  | some (.file bytes) => .ok bytes
  | some .directory => .error .isDirectory
  | none => .error .notFound

/-- Where a file is to be written. A path to a directory leads to none, once the way to its last
name is there. -/
def findTarget (fs : FileSystem) (path : String) :
    Except FileError (List String × Option FileEntry) := do
  checkPath path
  if leadsToDirectory path then
    let _ ← fs.walk (startOf path) ((namesOf path).dropLast ++ ["."])
    .error .isDirectory
  else fs.walk (startOf path) (namesOf path)

def write (fs : FileSystem) (path : String) (bytes : ByteArray) : Except FileError FileSystem := do
  match ← fs.findTarget path with
  | (_, some .directory) => .error .isDirectory
  | (names, _) =>
    .ok ⟨(names, .file bytes) :: fs.entries.filter fun (other, _) => other ≠ names⟩

end FileSystem

end AccumulatorMachine
