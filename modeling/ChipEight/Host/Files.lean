import ChipEight.Byte
import ChipEight.Text.Quoted

/-! # Files
What opening a path and reading the file to its end give. The operating system may refuse either for
any reason, and it is not even asked about what could be no path. -/
namespace ChipEight

/-- An error of the operating system, with the path if the error is about one. -/
structure SystemError where
  number : Nat
  text : String
  path : Option String
deriving DecidableEq, Repr

def SystemError.message (e : SystemError) : String :=
  "[Errno " ++ toString e.number ++ "] " ++ e.text ++
    e.path.elim "" fun path => ": " ++ Text.quoted path

/-- Why there is no open file. -/
inductive OpenError where
  | system (e : SystemError)
  | nulByte
  | noPath
deriving DecidableEq, Repr

def OpenError.message : OpenError → String
  | .system e => e.message
  | .nulByte => "embedded null byte"
  | .noPath => "expected str, bytes or os.PathLike object, not list"

/-- An open file is what reading it to the end gives. -/
structure OpenFile where
  contents : Except SystemError (List Byte)

/-- What opening a path gives. -/
abbrev FileSystem := String → Except OpenError OpenFile

/-- A path that is set to none is refused. -/
def FileSystem.open? (files : FileSystem) : Option String → Except OpenError OpenFile
  | some path => files path
  | none => .error .noPath

end ChipEight
