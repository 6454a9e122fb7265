import ChipEight.Host.Files
import ChipEight.Machine.Basic

/-! # Loading files
A program is read whole from a file and copied to the place where programs start. -/
namespace ChipEight

/-- Why a program could not be loaded from a file. -/
inductive LoadError where
  | unopened (e : OpenError)
  | unread (e : SystemError)
  | fault (f : Fault)
deriving DecidableEq, Repr

namespace LoadError

def message : LoadError → String
  | .unopened e => e.message
  | .unread e => e.message
  | .fault f => f.message

/-- Whether it is an error of the operating system or a fault that the machine announces. -/
def isExpected : LoadError → Bool
  | .unopened (.system _) | .unread _ => true
  | .unopened .nulByte | .unopened .noPath => false
  | .fault f => f.isAnnounced

end LoadError

namespace Machine
variable {τ : Type}

def loadFile (m : Machine τ) (opened : Except OpenError OpenFile) :
    Machine τ × Except LoadError Unit :=
  match opened with
  | .error e => (m, .error (.unopened e))
  | .ok file => match file.contents with
    | .error e => (m, .error (.unread e))
    | .ok program =>
      let (loaded, result) := m.load program programStart
      (loaded, result.mapError .fault)

/-- What loading a file adds to the trace. -/
def loadTrace (path : String) : String :=
  "The ROM at path " ++ path ++ " has been loaded successfully\n"

end Machine

end ChipEight
