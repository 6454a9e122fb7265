import ChipEight.Proofs.SessionCourse
import ChipEight.Seconds

/-!
# Paused sessions

A session keeps nothing but the machine, the clock, the window system and its records, and the records
only grow at their end. So if the user leaves and a new session goes on with the machine at the same
time, the two of them together do what one session does that is not interrupted.
-/
namespace ChipEight.Session
variable {τ ω : Type}

/-- The second of two sessions, with the records of the first one in front of its own. -/
def followedBy (s t : Session τ ω) : Session τ ω :=
  { t with
    cycles := s.cycles + t.cycles
    polls := s.polls + t.polls
    updates := s.updates + t.updates
    paces := s.paces + t.paces
    frames := s.frames ++ t.frames
    shown := s.shown ++ t.shown
    log := s.log ++ t.log }

theorem followedBy_start (s : Session τ ω) :
    s.followedBy (start s.machine s.now s.desktop) = s := by
  simp [followedBy, start]

theorem ask_followedBy (s t : Session τ ω) (x : WindowM ω Unit) :
    (s.followedBy t).ask x = (s.followedBy (t.ask x).1, (t.ask x).2) := by
  have hdesktop : (s.followedBy t).desktop = t.desktop := rfl
  simp only [ask, hdesktop]
  cases x t.desktop <;> rfl

theorem present_followedBy (s t : Session τ ω) (viewer : Viewer ω) :
    (s.followedBy t).present viewer =
      (s.followedBy (t.present viewer).1, (t.present viewer).2) := by
  cases viewer with
  | recorder => simp [present, followedBy]
  | text pens => simp [present, followedBy, String.append_assoc]
  | window act =>
    have hframes : { s.followedBy t with frames := (s.followedBy t).frames.push t.machine.display } =
        s.followedBy { t with frames := t.frames.push t.machine.display } := by
      simp [followedBy]
    have hask := ask_followedBy s { t with frames := t.frames.push t.machine.display }
      (act t.machine.display)
    rw [← hframes] at hask
    exact hask
  | missing => rfl

theorem wait_followedBy [Add τ] (s t : Session τ ω) (step? : Option τ) :
    (s.followedBy t).wait step? = s.followedBy (t.wait step?) := by
  cases step? <;> rfl

theorem polled_followedBy [Add τ] (s t : Session τ ω) (poll : Poll τ) :
    (s.followedBy t).polled poll = s.followedBy (t.polled poll) :=
  wait_followedBy s { t with polls := t.polls + 1 } poll.wait

theorem keepPace_followedBy [Add τ] (s t : Session τ ω) (pace : Pace τ ω) :
    (s.followedBy t).keepPace pace =
      (s.followedBy (t.keepPace pace).1, (t.keepPace pace).2) := by
  cases pace with
  | free => rfl
  | kept step? => exact congrArg (·, none) (wait_followedBy s { t with paces := t.paces + 1 } step?)
  | ticked step? tick =>
    have hwait := wait_followedBy s { t with paces := t.paces + 1 } step?
    exact (congrArg (·.ask tick) hwait).trans (ask_followedBy s _ tick)

theorem runCycle_followedBy [Clock τ] (s t : Session τ ω) (tracing : Bool) (keys : Keys) :
    (s.followedBy t).runCycle tracing keys =
      (s.followedBy (t.runCycle tracing keys).1, (t.runCycle tracing keys).2) := by
  cases tracing with
  | true => simp [runCycle, followedBy, String.append_assoc]
  | false => rfl

variable [Clock τ] [Add τ] {setup : Setup τ ω}

theorem updateTimers_followedBy (s t : Session τ ω) (lags : Lags τ) :
    (s.followedBy t).updateTimers lags = s.followedBy (t.updateTimers lags) := by
  simp only [updateTimers, wait_followedBy]
  rfl

theorem settle_followedBy (s t : Session τ ω) (pace : Pace τ ω) (lags : Lags τ) :
    (s.followedBy t).settle pace lags =
      (s.followedBy (t.settle pace lags).1, (t.settle pace lags).2) := by
  simp only [settle, updateTimers_followedBy]
  have hcycles : { s.followedBy (t.updateTimers lags) with
      cycles := (s.followedBy (t.updateTimers lags)).cycles + 1 } =
        s.followedBy { t.updateTimers lags with cycles := (t.updateTimers lags).cycles + 1 } := rfl
  rw [hcycles, keepPace_followedBy]

theorem turn_followedBy (setup : Setup τ ω) (s t : Session τ ω) (keys : Keys) (lags : Lags τ) :
    (s.followedBy t).turn setup keys lags =
      (s.followedBy (t.turn setup keys lags).1, (t.turn setup keys lags).2) := by
  rw [turn, turn, wait_followedBy, runCycle_followedBy]
  rcases (t.wait lags.cycle).runCycle setup.tracing keys with ⟨u, f | redraw⟩
  · rfl
  · cases redraw with
    | false => exact settle_followedBy s u setup.pace lags
    | true =>
      simp only [present_followedBy]
      rcases u.present setup.viewer with ⟨v, _ | ending⟩
      · exact settle_followedBy s v setup.pace lags
      · rfl

/-- What a session does from now on does not depend on its records. -/
theorem run_followedBy (setup : Setup τ ω) (s t : Session τ ω) (polls : List (Poll τ)) :
    (s.followedBy t).run setup polls =
      (s.followedBy (t.run setup polls).1, (t.run setup polls).2) := by
  induction polls generalizing t with
  | nil => rfl
  | cons poll rest ih =>
    have hpoll := polled_followedBy s t poll
    rw [polled, polled] at hpoll
    rw [run, run, hpoll]
    cases poll.keys with
    | error f => rfl
    | ok keys =>
      cases hexit : keys.exit with
      | true => simp only [hexit, if_true]
      | false =>
        simp only [hexit, Bool.false_eq_true, if_false, turn_followedBy]
        rcases turn setup _ keys poll.lags with ⟨u, _ | ending⟩
        · exact ih u
        · rfl

def GoesOn (poll : Poll τ) : Prop := ∃ keys, poll.keys = .ok keys ∧ keys.exit = false

variable {s t u : Session τ ω} {poll : Poll τ} {keys : Keys} {lags : Lags τ}
variable {script : List (Poll τ)} {ending : Ending} {fit : ω → Prop}

/-- A script in which the user stays and no cycle faults leaves a session that goes on with whatever
follows. -/
theorem exists_run_append (hkeeps : setup.Keeps fit) (hfit : fit s.desktop)
    (hscript : ∀ poll ∈ script, GoesOn poll) (hfault : ∀ f, (s.run setup script).2 ≠ .fault f) :
    ∃ t : Session τ ω, ∀ rest, s.run setup (script ++ rest) = t.run setup rest := by
  induction script generalizing s with
  | nil => exact ⟨s, fun _ => rfl⟩
  | cons poll script ih =>
    obtain ⟨keys, hkeys, hstay⟩ := hscript poll List.mem_cons_self
    have hpolled : fit (s.polled poll).desktop := by rwa [desktop_polled]
    rcases turn_cases hkeeps hpolled keys poll.lags with
      ⟨f, log, -, hturn⟩ | ⟨redraw, log, desktop, -, hfit', hturn⟩
    · rw [run_cons_of_some hkeys hstay hturn] at hfault
      exact absurd rfl (hfault f)
    · have hcons := run_cons_of_none hkeys hstay hturn
      rw [hcons] at hfault
      obtain ⟨t, ht⟩ := ih hfit' (fun p hp => hscript p (List.mem_cons_of_mem _ hp)) hfault
      exact ⟨t, fun rest => (hcons _).trans (ht rest)⟩

/-- A poll at which the user leaves changes nothing but the number of polls, if the clock stands
still meanwhile. -/
theorem run_leave (hwait : poll.wait = none) (hkeys : poll.keys = .ok keys)
    (hexit : keys.exit = true) (s : Session τ ω) (rest : List (Poll τ)) :
    s.run setup (poll :: rest) = ({ s with polls := s.polls + 1 }, .left) := by
  simp [run, wait, hwait, hkeys, hexit]

/-- Nobody notices a pause. A script in which the user stays and no cycle faults is played, then the
user leaves at a poll that takes no time, and a new session plays the rest of a script with the same
machine. It ends like one session that plays both without the pause, with the same machine, at the same
time and with the window system in the same state, and what the two have shown and counted is together
what that one has, but for the poll of the pause. -/
theorem pause_unobservable {m : Machine τ} {now : τ} {desktop : ω} (hkeeps : setup.Keeps fit)
    (hfit : fit desktop) (hscript : ∀ poll ∈ script, GoesOn poll)
    (hfault : ∀ f, ((start m now desktop).run setup script).2 ≠ .fault f)
    (hwait : poll.wait = none) (hkeys : poll.keys = .ok keys) (hexit : keys.exit = true)
    (rest : List (Poll τ)) :
    let first := (start m now desktop).run setup (script ++ [poll])
    let second := (start first.1.machine first.1.now first.1.desktop).run setup rest
    let whole := (start m now desktop).run setup (script ++ rest)
    first.2 = .left ∧ second.2 = whole.2 ∧
    second.1.machine = whole.1.machine ∧ second.1.now = whole.1.now ∧
    second.1.desktop = whole.1.desktop ∧
    first.1.frames ++ second.1.frames = whole.1.frames ∧
    first.1.shown ++ second.1.shown = whole.1.shown ∧
    first.1.log ++ second.1.log = whole.1.log ∧
    first.1.paces + second.1.paces = whole.1.paces ∧
    first.1.updates + second.1.updates = whole.1.updates ∧
    first.1.cycles + second.1.cycles = whole.1.cycles ∧
    first.1.polls + second.1.polls = whole.1.polls + 1 := by
  obtain ⟨t, ht⟩ := exists_run_append hkeeps (s := start m now desktop) hfit hscript hfault
  have hwhole := run_followedBy setup t (start t.machine t.now t.desktop) rest
  rw [followedBy_start] at hwhole
  intro first second whole
  have hfirst : first = ({ t with polls := t.polls + 1 }, .left) :=
    (ht [poll]).trans (run_leave hwait hkeys hexit t [])
  have hwhole' : whole = _ := (ht rest).trans hwhole
  have hsecond : second = (start t.machine t.now t.desktop).run setup rest := by
    simp only [second, hfirst]
  rw [← hsecond] at hwhole'
  rw [hfirst, hwhole']
  exact ⟨rfl, rfl, rfl, rfl, rfl, rfl, rfl, rfl, rfl, rfl, rfl,
    Nat.add_right_comm t.polls 1 second.1.polls⟩

def drawing : Machine Float :=
  { Machine.initial .low ⟨fun _ => 0, 0⟩ 0 with
    memory := Memory.zeros.writeBytes programStart [0xd0, 0x05, 0x12, 0x00] }

theorem pause_unobservable_drawing :
    let setup : Setup Float Unit := ⟨.recorder, .kept (some 1), true⟩
    let fit : Unit → Prop := fun _ => True
    let stay : Poll Float := { wait := some 1, keys := .ok Keys.released, lags := { sound := some 1 } }
    let leave : Poll Float := { wait := none, keys := .ok { Keys.released with exit := true } }
    let first := (start drawing 0 ()).run setup ([stay, stay, stay] ++ [leave])
    let second := (start first.1.machine first.1.now ()).run setup [stay, stay, leave]
    let whole := (start drawing 0 ()).run setup ([stay, stay, stay] ++ [stay, stay, leave])
    setup.Keeps fit ∧ fit () ∧ (∀ poll ∈ [stay, stay, stay], GoesOn poll) ∧
    (∀ f, ((start drawing 0 ()).run setup [stay, stay, stay]).2 ≠ .fault f) ∧
    first.2 = .left ∧ second.2 = whole.2 ∧ second.1.machine = whole.1.machine ∧
    first.1.frames ++ second.1.frames = whole.1.frames ∧
    first.1.paces + second.1.paces = whole.1.paces ∧
    first.1.cycles + second.1.cycles = whole.1.cycles := by
  intro setup fit stay leave first second whole
  have hkeeps : setup.Keeps fit := ⟨trivial, trivial⟩
  have hscript : ∀ poll ∈ [stay, stay, stay], GoesOn poll := by
    intro poll hpoll
    obtain rfl : poll = stay := by simpa using hpoll
    exact ⟨Keys.released, rfl, rfl⟩
  have hleft : ((start drawing 0 ()).run setup [stay, stay, stay]).2 = .left := by decide +kernel
  have hfault : ∀ f, ((start drawing 0 ()).run setup [stay, stay, stay]).2 ≠ .fault f := by
    rw [hleft]
    nofun
  have hwait : leave.wait = none := rfl
  obtain ⟨hfirst, hend, hmachine, -, -, hframes, -, -, hpaces, -, hcycles, -⟩ :=
    pause_unobservable hkeeps trivial hscript hfault hwait rfl rfl [stay, stay, leave]
  exact ⟨hkeeps, trivial, hscript, hfault, hfirst, hend, hmachine, hframes, hpaces, hcycles⟩

end ChipEight.Session
