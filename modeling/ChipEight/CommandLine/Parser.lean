import ChipEight.CommandLine.Words

/-! # Reading the options
The words are taken from left to right, an option that needs a value together with the argument after
it. The last value of an option counts, a file is required, and no word may be left over. -/
namespace ChipEight.CommandLine

/-- What has been set so far, and the words that no option took. -/
structure Progress where
  file : Option (Option String) := none
  hires : Bool := false
  speed : Option Int := some 500
  scale : Option Int := some 15
  extras : List String := []
deriving DecidableEq, Repr

namespace Progress

/-- The value that a word stands for. Later versions of such readers keep a value of two dashes. This one
follows the earlier versions, which take two dashes away and leave an empty value. -/
def valueOf (word : List Char) : Option (List Char) :=
  if word = ['-', '-'] then none else some word

def setInteger (flag : Flag) (word : List Char) (set : Option Int → Progress) :
    Except Stop Progress :=
  match valueOf word with
  | none => .ok (set none)
  | some value =>
    match Text.integer? value with
    | some n => .ok (set (some n))
    | none => .error (.usage (.notAnInteger flag (String.ofList value)))

def setValue (p : Progress) (flag : Flag) (word : List Char) : Except Stop Progress :=
  match flag with
  | .file => .ok { p with file := some ((valueOf word).map String.ofList) }
  | .speed => setInteger flag word fun speed => { p with speed }
  | .scale => setInteger flag word fun scale => { p with scale }
  | .hires | .help => .ok p

def setFlag (p : Progress) : Flag → Except Stop Progress
  | .help => .error .help
  | .hires => .ok { p with hires := true }
  | .file | .speed | .scale => .ok p

def leave (p : Progress) (word : String) : Progress := { p with extras := p.extras ++ [word] }

def options (p : Progress) : Except Stop Options :=
  match p.file with
  | none => .error (.usage .fileRequired)
  | some file =>
    if p.extras.isEmpty then .ok ⟨file, p.hires, p.speed, p.scale⟩
    else .error (.usage (.unrecognized p.extras))

end Progress

/-- What comes of letters joined to a request for help. They are short options themselves, and help is
shown if each of them is one and has what it needs. -/
def joinedToHelp (valueFollows : Bool) : List Char → Stop
  | ['h'] => .help
  | 'h' :: rest => joinedToHelp valueFollows rest
  | ['f'] => if valueFollows then .help else .usage (.missingValue .file)
  | 'f' :: _ => .help
  | letters => .usage (.unwantedValue .help (String.ofList letters))

/-- What comes of a value attached to an option that takes none. -/
def refuseValue (valueFollows : Bool) : Flag → Attached → Stop
  | .help, .joined letters => joinedToHelp valueFollows letters
  | flag, .joined value | flag, .afterEquals value =>
    .usage (.unwantedValue flag (String.ofList value))
  | flag, .none => .usage (.missingValue flag)

def startsWithArgument : List (String × Word) → Bool
  | (_, .argument) :: _ => true
  | _ => false

/-- Takes the words from left to right. -/
def take (p : Progress) : List (String × Word) → Except Stop Progress
  | [] => .ok p
  | (_, .option flag .none) :: rest =>
    if flag.takesValue then
      match rest with
      | (value, .argument) :: rest => do take (← p.setValue flag value.toList) rest
      | _ => .error (.usage (.missingValue flag))
    else do take (← p.setFlag flag) rest
  | (_, .option flag attached) :: rest =>
    match flag.takesValue, attached with
    | true, .afterEquals value | true, .joined value => do take (← p.setValue flag value) rest
    | _, _ => .error (refuseValue (startsWithArgument rest) flag attached)
  | (word, _) :: rest => take (p.leave word) rest

/-- Reads the options, or tells why the program stops. -/
def parse (words : List String) : Except Stop Options := do
  let words ← (classifyAll words).mapError .usage
  let p ← take {} words
  p.options

end ChipEight.CommandLine
