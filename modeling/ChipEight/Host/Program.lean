import ChipEight.CommandLine.Parser
import ChipEight.Host.Keyboard
import ChipEight.Host.Rom
import ChipEight.Host.Session

/-! # The whole program
Read the options, load the file, start the window system, make a window and hold a session, after which
the window system is stopped. Files, clock, random bytes, keyboard and window system are inputs. What
the program has done is kept step by step, also when it throws something. -/
namespace ChipEight

/-- What one look at the keyboard finds, how far the clock has moved before it, and how far it moves
on. -/
structure KeyboardPoll (τ : Type) where
  wait : Option τ
  held : List String
  events : List Event
  lags : Lags τ := {}

def Keyboard.script {τ : Type} (k : Keyboard) (polls : List (KeyboardPoll τ)) : List (Poll τ) :=
  polls.map fun p => ⟨p.wait, k.poll p.held p.events, p.lags⟩

/-- What surrounds the program. -/
structure World (τ ω : Type) where
  files : FileSystem
  clock : τ
  noise : Noise
  polls : List (KeyboardPoll τ)
  paceWait : Option τ
  tracing : Bool
  system : WindowSystem ω
  desktop : ω

namespace Program

/-- What the program may throw. It leaves with a text on purpose. -/
inductive Thrown where
  | stopped (s : CommandLine.Stop)
  | text (message : String)
  | load (e : LoadError)
  | fault (f : Fault)
  | key (f : KeyFault)
  | window (e : WindowError)
  | missingPart
deriving DecidableEq, Repr

/-- What the program has made, printed and shown so far. The window system has its calls with it. -/
structure Course (τ ω : Type) where
  desktop : ω × List Call
  stdout : String := ""
  stderr : String := ""
  machine : Option (Machine τ) := none
  polls : Nat := 0
  frames : Array Display := #[]

namespace Course
variable {τ ω : Type} (c : Course τ ω)

def starts : Nat := c.desktop.2.count .start

def stops : Nat := c.desktop.2.count .stop

def speeds : List Measure := c.desktop.2.filterMap Call.speed?

def windows : List (Measure × Measure) := c.desktop.2.filterMap Call.window?

def captions : List String := c.desktop.2.filterMap Call.caption?

end Course

abbrev ProgramM (τ ω : Type) := EStateM Thrown (Course τ ω)

/-- The last name of a path. -/
def lastName (path : String) : String :=
  String.ofList (path.toList.reverse.takeWhile (· ≠ '/')).reverse

def resolution (o : CommandLine.Options) : Resolution := if o.hires then .high else .low

def thrown? : Ending → Option Thrown
  | .left => none
  | .fault f => some (.fault f)
  | .keyFault f => some (.key f)
  | .window e => some (.window e)
  | .noKeys | .noViewer => some .missingPart

def screen (o : CommandLine.Options) : Screen := { scale := o.scale }

/-- Asks for the frame clock, the title and the window of a session. -/
def opening {ω : Type} (system : WindowSystem ω) (o : CommandLine.Options) : WindowM ω Unit := do
  system.answer .clock
  system.answer (.caption (o.file.elim "" lastName))
  (screen o).makeWindow system (resolution o).width (resolution o).height

section Steps
variable {τ ω : Type} (w : World τ ω)

def print (text : String) : ProgramM τ ω Unit :=
  modify fun c => { c with stdout := c.stdout ++ text }

def ask (x : WindowM (ω × List Call) Unit) : ProgramM τ ω Unit := fun c =>
  match x c.desktop with
  | .ok _ desktop => .ok () { c with desktop }
  | .error e desktop => .error (.window e) { c with desktop }

def readOptions (words : List String) : ProgramM τ ω CommandLine.Options :=
  match CommandLine.parse words with
  | .ok o => pure o
  | .error s => do
    modify fun c => { c with stdout := c.stdout ++ s.stdout, stderr := c.stderr ++ s.stderr }
    throw (.stopped s)

def switchOn (r : Resolution) : ProgramM τ ω (Machine τ) := do
  let m : Machine τ := .initial r w.noise w.clock
  modify fun c => { c with machine := some m }
  return m

def loadFile (m : Machine τ) (file : Option String) : ProgramM τ ω (Machine τ) := do
  let (m, result) := m.loadFile (w.files.open? file)
  modify fun c => { c with machine := some m }
  match result with
  | .error e => throw (.load e)
  | .ok () =>
    if w.tracing then print (Machine.loadTrace (file.getD ""))
    return m

/-- Leaves with a text that says why no program was loaded, if that was to be expected. -/
def leaveUnloaded {α : Type} (file : Option String) : Thrown → ProgramM τ ω α
  | .load e =>
    if e.isExpected then throw (.text ("Cannot load " ++ file.getD "[]" ++ ": " ++ e.message))
    else throw (.load e)
  | e => throw e

def start : ProgramM τ ω Unit :=
  modify fun c => { c with desktop := w.system.recorded.start c.desktop }

def stop : ProgramM τ ω Unit :=
  modify fun c => { c with desktop := w.system.recorded.stop c.desktop }

def setup (o : CommandLine.Options) : Setup τ (ω × List Call) where
  viewer := .window ((screen o).present w.system.recorded)
  pace := .ticked w.paceWait (w.system.recorded.answer (.tick o.speed))
  tracing := w.tracing

def hold (m : Machine τ) (o : CommandLine.Options) [Clock τ] [Add τ] : ProgramM τ ω Unit := do
  let (s, ending) := (Session.start m w.clock (← get).desktop).run (setup w o)
    (Keyboard.usual.script w.polls)
  modify fun c =>
    { c with
      desktop := s.desktop
      stdout := c.stdout ++ s.log
      machine := some s.machine
      polls := s.polls
      frames := s.frames }
  match thrown? ending with
  | none => return
  | some e => throw e

/-- Leaves with a text that shows the machine, if it was the machine that gave up. -/
def leaveCrashed : Thrown → ProgramM τ ω Unit
  | .fault f => do
    let shown := (← get).machine.elim "" Machine.text
    if f.isAnnounced then
      throw (.text ("********** THE EMULATOR CRASHED: " ++ f.message ++ "\n" ++ shown))
    else throw (.fault f)
  | e => throw e

variable [Clock τ] [Add τ]

def main (words : List String) : ProgramM τ ω Unit := do
  let o ← readOptions words
  let fresh ← switchOn w (resolution o)
  let m ← try
      loadFile w fresh o.file
    catch e => leaveUnloaded o.file e
  start w
  ask (opening w.system.recorded o)
  try
    hold w m o
  catch e => leaveCrashed e
  finally
    stop w

end Steps

/-- How a program has ended, and what it has done. -/
structure Report (τ ω : Type) where
  outcome : Except Thrown Unit
  course : Course τ ω

variable {τ ω : Type} [Clock τ] [Add τ]

/-- Runs the program with the words of its command line. -/
def run (w : World τ ω) (words : List String) : Report τ ω :=
  match main w words { desktop := (w.desktop, []) } with
  | .ok _ c => ⟨.ok (), c⟩
  | .error e c => ⟨.error e, c⟩

end Program

end ChipEight
