import ChipEight.Display.Text
import ChipEight.Host.Window
import ChipEight.Machine.Report

/-! # Sessions
The loop around the machine: look at the keys, run one cycle, show the display if the cycle drew, let
the countdowns catch up with the clock, and keep the pace. What the keys will be and when is written
down beforehand as a list of polls, and after the last one the user leaves. -/
namespace ChipEight

/-- How far the clock moves between two of its readings: before the cycle, and before either countdown
looks at it. -/
structure Lags (τ : Type) where
  cycle : Option τ := none
  delay : Option τ := none
  sound : Option τ := none

/-- What one look at the keys finds, how far the clock has moved before it, and how far it moves on. -/
structure Poll (τ : Type) where
  wait : Option τ
  keys : Except KeyFault Keys
  lags : Lags τ := {}

inductive KeySource (τ : Type) where
  | script (polls : List (Poll τ))
  | missing

/-- Where the display is shown. -/
inductive Viewer (ω : Type) where
  | recorder
  | text (pens : Pens)
  | window (present : Display → WindowM ω Unit)
  | missing

/-- How the loop is kept at its pace after every completed cycle. -/
inductive Pace (τ ω : Type) where
  | free
  | kept (wait : Option τ)
  | ticked (wait : Option τ) (tick : WindowM ω Unit)

structure Setup (τ ω : Type) where
  viewer : Viewer ω
  pace : Pace τ ω
  tracing : Bool

/-- The machine, the clock, the window system and everything that has become visible so far. -/
structure Session (τ ω : Type) where
  machine : Machine τ
  now : τ
  desktop : ω
  cycles : Nat := 0
  polls : Nat := 0
  updates : Nat := 0
  paces : Nat := 0
  frames : Array Display := #[]
  shown : String := ""
  log : String := ""

/-- Why a session ended. -/
inductive Ending where
  | left
  | fault (f : Fault)
  | keyFault (f : KeyFault)
  | window (e : WindowError)
  | noKeys
  | noViewer
deriving DecidableEq, Repr

namespace Session
variable {τ ω : Type}

def start (m : Machine τ) (now : τ) (desktop : ω) : Session τ ω := { machine := m, now, desktop }

def wait [Add τ] (s : Session τ ω) (step? : Option τ) : Session τ ω :=
  match step? with
  | some d => { s with now := s.now + d }
  | none => s

def ask (s : Session τ ω) (x : WindowM ω Unit) : Session τ ω × Option Ending :=
  match x s.desktop with
  | .ok _ desktop => ({ s with desktop }, none)
  | .error e desktop => ({ s with desktop }, some (.window e))

def present (s : Session τ ω) : Viewer ω → Session τ ω × Option Ending
  | .recorder => ({ s with frames := s.frames.push s.machine.display }, none)
  | .text pens => ({ s with shown := s.shown ++ pens.picture s.machine.display }, none)
  | .window present =>
    { s with frames := s.frames.push s.machine.display }.ask (present s.machine.display)
  | .missing => (s, some .noViewer)

def keepPace [Add τ] (s : Session τ ω) : Pace τ ω → Session τ ω × Option Ending
  | .free => (s, none)
  | .kept wait => ({ s with paces := s.paces + 1 }.wait wait, none)
  | .ticked wait tick => ({ s with paces := s.paces + 1 }.wait wait).ask tick

def runCycle [Clock τ] (s : Session τ ω) (tracing : Bool) (keys : Keys) :
    Session τ ω × Except Fault Bool :=
  let before := { s.machine with keys }
  let (machine, result) := before.cycle s.now
  ({ s with machine, log := if tracing then s.log ++ before.trace result else s.log }, result)

/-- Lets the countdowns look at the clock one after the other. -/
def updateTimers [Clock τ] [Add τ] (s : Session τ ω) (lags : Lags τ) : Session τ ω :=
  let delayed := s.wait lags.delay
  let sounded := delayed.wait lags.sound
  { sounded with
    machine := s.machine.tickTimers delayed.now sounded.now
    updates := s.updates + 1 }

/-- What follows a completed cycle that has been shown. -/
def settle [Clock τ] [Add τ] (s : Session τ ω) (pace : Pace τ ω) (lags : Lags τ) :
    Session τ ω × Option Ending :=
  let s := s.updateTimers lags
  { s with cycles := s.cycles + 1 }.keepPace pace

/-- One pass of the loop with the given keys, and the ending if it is the last. -/
def turn [Clock τ] [Add τ] (setup : Setup τ ω) (s : Session τ ω) (keys : Keys) (lags : Lags τ) :
    Session τ ω × Option Ending :=
  match (s.wait lags.cycle).runCycle setup.tracing keys with
  | (s, .error f) => (s, some (.fault f))
  | (s, .ok false) => s.settle setup.pace lags
  | (s, .ok true) => match s.present setup.viewer with
    | (s, none) => s.settle setup.pace lags
    | (s, some ending) => (s, some ending)

def run [Clock τ] [Add τ] (setup : Setup τ ω) (s : Session τ ω) :
    List (Poll τ) → Session τ ω × Ending
  | [] => ({ s with polls := s.polls + 1 }, .left)
  | poll :: rest =>
    let s := { s with polls := s.polls + 1 }.wait poll.wait
    match poll.keys with
    | .error f => (s, .keyFault f)
    | .ok keys =>
      if keys.exit then (s, .left)
      else match s.turn setup keys poll.lags with
        | (s, some ending) => (s, ending)
        | (s, none) => s.run setup rest

def play [Clock τ] [Add τ] (setup : Setup τ ω) (s : Session τ ω) :
    KeySource τ → Session τ ω × Ending
  | .script polls => s.run setup polls
  | .missing => (s, .noKeys)

end Session

end ChipEight
