import ChipEight.Host.Directory
import ChipEight.Host.Program
import ChipEight.Seconds

/-! # Command line
Plays a program in a terminal. Every line of standard input is one look at the keyboard and names the
keys that are held, apart by blanks; the end of the input leaves the program. The frames are printed
in the order in which they were shown, and a trace if the environment asks for one. -/
namespace ChipEight.Terminal
open CommandLine

/-- The number of an error code, which some calls negate, and its wording. -/
def codeAndText : IO.Error → UInt32 × String
  | .alreadyExists _ code text | .otherError code text | .resourceBusy code text
  | .resourceVanished code text | .unsupportedOperation code text | .hardwareFault code text
  | .unsatisfiedConstraints code text | .illegalOperation code text | .protocolError code text
  | .timeExpired code text | .interrupted _ code text | .noFileOrDirectory _ code text
  | .invalidArgument _ code text | .permissionDenied _ code text | .resourceExhausted _ code text
  | .inappropriateType _ code text | .noSuchThing _ code text => (code, text)
  | .unexpectedEof => (0, "end of file")
  | .userError text => (0, text)

def systemError (path : Option String) (e : IO.Error) : SystemError :=
  let (code, text) := codeAndText e
  ⟨min code.toNat (0 - code).toNat, text, path⟩

/-- Reads an open file. A folder is refused only now, and counts as not opened. -/
def readFile (path : String) (handle : IO.FS.Handle) : IO (Except OpenError OpenFile) := do
  try
    let bytes ← handle.readBinToEnd
    return .ok ⟨.ok (bytes.toList.map fun b => Byte.ofInt b.toNat)⟩
  catch e =>
    let failed := systemError none e
    if failed.number = Directory.isADirectory.1 then
      return .error (.system { failed with path := some path })
    return .ok ⟨.error failed⟩

def openFile (path : String) : IO (Except OpenError OpenFile) := do
  if path.contains '\x00' then return .error .nulByte
  try readFile path (← IO.FS.Handle.mk path .read)
  catch e => return .error (.system (systemError (some path) e))

/-- One look at the keyboard for each line, an instruction's time apart. -/
partial def readPolls (input : IO.FS.Stream) (speed : Option Int) (polls : Array (KeyboardPoll Float)) :
    IO (List (KeyboardPoll Float)) := do
  let line ← input.getLine
  if line.isEmpty then return polls.toList
  let held := (line.split Char.isWhitespace).toList.map (·.toString)
  let wait := (speed.filter (0 < ·)).map (seconds 1)
  readPolls input speed (polls.push { wait, held, events := [] })

def isTracing : IO Bool := do
  let level := ((← IO.getEnv "DEBUG").bind fun s => Text.integer? s.toList).getD 0
  return 1 ≤ level

/-- A window that nobody looks at. -/
def unseen : WindowSystem Unit where
  start := id
  stop := id
  answer _ := pure ()
  size _ := (0, 0)
  pixel _ _ _ := .blueViolet

/-- The surroundings for some words. The file that they name is read first. -/
def world (words : List String) : IO (World Float Unit) := do
  let options := (CommandLine.parse words).toOption
  let opened ← openFile ((options.bind Options.file).getD "")
  let polls ← match options with
    | some o => readPolls (← IO.getStdin) o.speed #[]
    | none => pure []
  return {
    files := fun _ => opened
    clock := 0
    noise := .scrambled (UInt64.ofNat (← IO.rand 0 0xffffffff))
    polls
    paceWait := none
    tracing := ← isTracing
    system := unseen
    desktop := () }

def report (r : Program.Report Float Unit) : IO UInt32 := do
  let out ← IO.getStdout
  out.putStr r.course.stdout
  (← IO.getStderr).putStr r.course.stderr
  for frame in r.course.frames do
    out.putStr (Pens.picture {} frame)
  match r.outcome with
  | .ok () => return 0
  | .error (.stopped s) => return UInt32.ofNat s.exitCode
  | .error (.text message) => failWith message
  | .error (.load e) => failWith e.message
  | .error (.fault f) => failWith f.message
  | .error (.key f) => failWith f.message
  | .error (.window e) => failWith e.message
  | .error .missingPart => return 1
where
  failWith (text : String) : IO UInt32 := do
    (← IO.getStderr).putStrLn text
    return 1

end ChipEight.Terminal

def main (words : List String) : IO UInt32 := do
  let world ← ChipEight.Terminal.world words
  ChipEight.Terminal.report (ChipEight.Program.run world words)
