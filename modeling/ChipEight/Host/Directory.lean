import ChipEight.Host.Files

/-! # Directories
The files below a working directory and what opening a path finds among them. A path is walked name by
name; every name but the last must be that of a directory. Nothing is known of what lies outside. -/
namespace ChipEight

/-- The files and empty directories by their names from the working directory on. -/
structure Directory where
  entries : List (List String × Option (List Byte))

namespace Directory

/-- What a place in the tree holds. -/
inductive Place where
  | folder (names : List String)
  | file (bytes : List Byte)
  | outside

def namesOf (path : String) : List String := (path.splitOn "/").filter fun n => n ≠ "" ∧ n ≠ "."

def ofFiles (files : List (String × Option (List Byte))) : Directory :=
  ⟨files.map fun f => (namesOf f.1, f.2)⟩

def find? (d : Directory) (names : List String) : Option Place :=
  match d.entries.find? fun e => e.1 == names with
  | some (_, some bytes) => some (.file bytes)
  | some (_, none) => some (.folder names)
  | none => if d.entries.any fun e => names.isPrefixOf e.1 then some (.folder names) else none

def maxNameBytes : Nat := 255
def maxPathBytes : Nat := 4095

/-- The number and the wording of an error. -/
abbrev Cause := Nat × String

def noSuchFile : Cause := (2, "No such file or directory")
def notADirectory : Cause := (20, "Not a directory")
def isADirectory : Cause := (21, "Is a directory")
def nameTooLong : Cause := (36, "File name too long")

def enter (d : Directory) (name : String) : Place → Except Cause Place
  | .file _ => .error notADirectory
  | .outside =>
    if name = "" ∨ name = "." ∨ name = ".." then .ok .outside
    else if maxNameBytes < name.utf8ByteSize then .error nameTooLong
    else .error noSuchFile
  | .folder names =>
    if name = "" ∨ name = "." then .ok (.folder names)
    else if name = ".." then
      .ok (if names.isEmpty then .outside else .folder names.dropLast)
    else if maxNameBytes < name.utf8ByteSize then .error nameTooLong
    else (d.find? (names ++ [name])).elim (.error noSuchFile) .ok

def walk (d : Directory) (path : String) : Except Cause Place :=
  let start := if path.startsWith "/" then .outside else .folder []
  (path.splitOn "/").foldlM (fun place name => d.enter name place) start

def contents (d : Directory) (path : String) : Except Cause (List Byte) :=
  if path = "" then .error noSuchFile
  else if maxPathBytes < path.utf8ByteSize then .error nameTooLong
  else match d.walk path with
    | .ok (.file bytes) => .ok bytes
    | .ok _ => .error isADirectory
    | .error cause => .error cause

/-- Files that can be read whenever they can be opened. -/
def files (d : Directory) : FileSystem := fun path =>
  if path.contains '\x00' then .error .nulByte
  else match d.contents path with
    | .ok bytes => .ok ⟨.ok bytes⟩
    | .error cause => .error (.system ⟨cause.1, cause.2, some path⟩)

end Directory

end ChipEight
