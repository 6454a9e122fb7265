import ChipEight.Host.Session
import ChipEight.Proofs.WindowRequests

/-!
# The course of a session

A pass of the loop runs one cycle, shows the display if the cycle asks for it, lets the countdowns
look at the clock and keeps the pace; a fault ends it after the cycle. As long as the user stays and
no pass is the last one, a session goes on from each poll as a session that starts there with the rest
of the script.
-/
namespace ChipEight

/-- The clock after it has moved on by a step, if there is one. -/
def elapsed {τ : Type} [Add τ] (now : τ) : Option τ → τ
  | some step => now + step
  | none => now

namespace Lags
variable {τ : Type} [Add τ] (lags : Lags τ) (now : τ)

/-- The reading of the clock during the cycle, `now` being the time of the poll before it. -/
def cycleNow : τ := elapsed now lags.cycle

def delayNow : τ := elapsed (lags.cycleNow now) lags.delay

def soundNow : τ := elapsed (lags.delayNow now) lags.sound

end Lags

namespace Pace
variable {τ ω : Type}

/-- How far the clock moves on when the pace is kept. -/
def wait? : Pace τ ω → Option τ
  | .free => none
  | .kept wait | .ticked wait _ => wait

def calls (passes : ℕ) : Pace τ ω → ℕ
  | .free => 0
  | .kept _ | .ticked _ _ => passes

theorem calls_succ (pace : Pace τ ω) (passes : ℕ) :
    pace.calls (passes + 1) = pace.calls passes + pace.calls 1 := by
  cases pace <;> rfl

end Pace

namespace Viewer
variable {ω : Type}

/-- What a viewer has recorded and written once it has been shown some displays. -/
def records (displays : List Display) : Viewer ω → Array Display × String
  | .recorder | .window _ => (displays.toArray, "")
  | .text pens => (#[], String.join (displays.map pens.picture))
  | .missing => (#[], "")

theorem records_append (viewer : Viewer ω) (ds es : List Display) :
    viewer.records (ds ++ es) =
      ((viewer.records ds).1 ++ (viewer.records es).1,
        (viewer.records ds).2 ++ (viewer.records es).2) := by
  cases viewer with
  | recorder | window => simp [records]
  | text pens => simp [records, String.join_append]
  | missing => rfl

theorem records_nil (viewer : Viewer ω) : viewer.records [] = (#[], "") := by
  cases viewer <;> rfl

end Viewer

/-- Showing displays keeps a window system fit. Viewers without a window always show them. -/
def Viewer.Keeps {ω : Type} (fit : ω → Prop) : Viewer ω → Prop
  | .recorder | .text _ => True
  | .window present => ∀ d, Granted fit (present d)
  | .missing => False

def Pace.Keeps {τ ω : Type} (fit : ω → Prop) : Pace τ ω → Prop
  | .free | .kept _ => True
  | .ticked _ tick => Granted fit tick

/-- There is a viewer, and what a session asks a fit window system for is granted. -/
structure Setup.Keeps {τ ω : Type} (setup : Setup τ ω) (fit : ω → Prop) : Prop where
  viewer : setup.viewer.Keeps fit
  pace : setup.pace.Keeps fit

namespace Session
variable {τ ω : Type} {setup : Setup τ ω} {s t : Session τ ω} {poll : Poll τ}
variable {ds earlier : List Display} {polls rest : List (Poll τ)} {n : ℕ} {fit : ω → Prop}
variable {keys : Keys} {ending : Ending}

/-- The viewer of a session has been shown these displays, in this order, and nothing else. -/
def HasShown (setup : Setup τ ω) (s : Session τ ω) (ds : List Display) : Prop :=
  (s.frames, s.shown) = setup.viewer.records ds

/-- Between two moments of a session the viewer has been shown these displays. -/
def ShowsBetween (setup : Setup τ ω) (s t : Session τ ω) (ds : List Display) : Prop :=
  t.frames = s.frames ++ (setup.viewer.records ds).1 ∧
    t.shown = s.shown ++ (setup.viewer.records ds).2

theorem HasShown.append (hs : HasShown setup s earlier) (h : ShowsBetween setup s t ds) :
    HasShown setup t (earlier ++ ds) := by
  rw [HasShown, Viewer.records_append, ← hs, h.1, h.2]

theorem ShowsBetween.nil_iff :
    ShowsBetween setup s t [] ↔ t.frames = s.frames ∧ t.shown = s.shown := by
  rw [ShowsBetween, Viewer.records_nil, Array.append_empty, String.append_empty]

theorem wait_eq [Add τ] (s : Session τ ω) (step? : Option τ) :
    s.wait step? = { s with now := elapsed s.now step? } := by
  cases step? <;> rfl

/-- The session once a poll has been made. -/
def polled [Add τ] (s : Session τ ω) (poll : Poll τ) : Session τ ω :=
  { s with polls := s.polls + 1 }.wait poll.wait

theorem polled_eq [Add τ] (s : Session τ ω) (poll : Poll τ) :
    s.polled poll = { s with polls := s.polls + 1, now := elapsed s.now poll.wait } :=
  wait_eq _ _

theorem desktop_polled [Add τ] (s : Session τ ω) (poll : Poll τ) :
    (s.polled poll).desktop = s.desktop := by
  rw [polled_eq]

theorem hasShown_polled [Add τ] (s : Session τ ω) (poll : Poll τ) :
    HasShown setup (s.polled poll) ds ↔ HasShown setup s ds := by
  rw [polled_eq, HasShown, HasShown]

theorem polls_polled [Add τ] (s : Session τ ω) (poll : Poll τ) :
    (s.polled poll).polls = s.polls + 1 := by
  rw [polled_eq]

theorem exists_ask (hfit : fit s.desktop) {x : WindowM ω Unit} (hx : Granted fit x) :
    ∃ desktop, fit desktop ∧ s.ask x = ({ s with desktop }, none) := by
  obtain ⟨desktop, hask, hfit'⟩ := hx s.desktop hfit
  exact ⟨desktop, hfit', by rw [ask, hask]⟩

theorem exists_present_eq (hfit : fit s.desktop) {viewer : Viewer ω} (hview : viewer.Keeps fit) :
    ∃ desktop, fit desktop ∧ s.present viewer =
      ({ s with
          desktop
          frames := s.frames ++ (viewer.records [s.machine.display]).1
          shown := s.shown ++ (viewer.records [s.machine.display]).2 }, none) := by
  cases viewer with
  | recorder => exact ⟨s.desktop, hfit, by simp [present, Viewer.records]⟩
  | text pens => exact ⟨s.desktop, hfit, by simp [present, Viewer.records]⟩
  | window act =>
    obtain ⟨desktop, hfit', hask⟩ := exists_ask
      (s := { s with frames := s.frames.push s.machine.display }) hfit (hview s.machine.display)
    exact ⟨desktop, hfit', hask.trans (by simp [Viewer.records])⟩
  | missing => exact absurd hview id

variable [Clock τ] [Add τ]

theorem updateTimers_eq (s : Session τ ω) (lags : Lags τ) :
    s.updateTimers lags =
      { s with
        machine := s.machine.tickTimers (elapsed s.now lags.delay)
          (elapsed (elapsed s.now lags.delay) lags.sound)
        now := elapsed (elapsed s.now lags.delay) lags.sound
        updates := s.updates + 1 } := by
  simp only [updateTimers, wait_eq]

theorem exists_settle_eq (hfit : fit s.desktop) {pace : Pace τ ω} (hpace : pace.Keeps fit)
    (lags : Lags τ) :
    ∃ desktop, fit desktop ∧ s.settle pace lags =
      ({ s with
          machine := s.machine.tickTimers (elapsed s.now lags.delay)
            (elapsed (elapsed s.now lags.delay) lags.sound)
          now := elapsed (elapsed (elapsed s.now lags.delay) lags.sound) pace.wait?
          desktop
          cycles := s.cycles + 1
          updates := s.updates + 1
          paces := s.paces + pace.calls 1 }, none) := by
  simp only [settle, updateTimers_eq]
  cases pace with
  | free => exact ⟨s.desktop, hfit, rfl⟩
  | kept step? => exact ⟨s.desktop, hfit, congrArg (·, none) (wait_eq _ _)⟩
  | ticked step? tick =>
    simp only [keepPace, wait_eq]
    exact exists_ask (s := { s with
      machine := s.machine.tickTimers (elapsed s.now lags.delay)
        (elapsed (elapsed s.now lags.delay) lags.sound)
      now := elapsed (elapsed (elapsed s.now lags.delay) lags.sound) step?
      cycles := s.cycles + 1
      updates := s.updates + 1
      paces := s.paces + 1 }) hfit hpace

/-- The session after a pass of the loop that does not end it. -/
def turned (setup : Setup τ ω) (s : Session τ ω) (keys : Keys) (lags : Lags τ) (redraw : Bool)
    (log : String) (desktop : ω) : Session τ ω :=
  let c := { s.machine with keys }.cycle (lags.cycleNow s.now)
  let shown := setup.viewer.records (if redraw then [c.1.display] else [])
  { s with
    machine := c.1.tickTimers (lags.delayNow s.now) (lags.soundNow s.now)
    now := elapsed (lags.soundNow s.now) setup.pace.wait?
    desktop
    cycles := s.cycles + 1
    updates := s.updates + 1
    paces := s.paces + setup.pace.calls 1
    frames := s.frames ++ shown.1
    shown := s.shown ++ shown.2
    log }

theorem showsBetween_turned (setup : Setup τ ω) (s : Session τ ω) (keys : Keys) (lags : Lags τ)
    (redraw : Bool) (log : String) (desktop : ω) :
    ShowsBetween setup s (s.turned setup keys lags redraw log desktop)
      (if redraw then [({ s.machine with keys }.cycle (lags.cycleNow s.now)).1.display] else []) :=
  ⟨rfl, rfl⟩

/-- What one pass of the loop can do: it ends with a fault right after the cycle, or it goes on. -/
theorem turn_cases (hkeeps : setup.Keeps fit) (hfit : fit s.desktop) (keys : Keys) (lags : Lags τ) :
    let c := { s.machine with keys }.cycle (lags.cycleNow s.now)
    (∃ f log, c.2 = .error f ∧
      s.turn setup keys lags =
        ({ s with machine := c.1, now := lags.cycleNow s.now, log }, some (.fault f))) ∨
    ∃ redraw log desktop, c.2 = .ok redraw ∧ fit desktop ∧
      s.turn setup keys lags = (s.turned setup keys lags redraw log desktop, none) := by
  intro c
  obtain ⟨log, hrun⟩ : ∃ log, (s.wait lags.cycle).runCycle setup.tracing keys =
      ({ s with machine := c.1, now := lags.cycleNow s.now, log }, c.2) := by
    rw [wait_eq]
    exact ⟨_, rfl⟩
  rw [turn, hrun]
  cases hc : c.2 with
  | error f => exact .inl ⟨f, log, rfl, rfl⟩
  | ok redraw =>
    right
    cases redraw with
    | false =>
      obtain ⟨desktop, hfit', hsettle⟩ := exists_settle_eq
        (s := { s with machine := c.1, now := lags.cycleNow s.now, log }) hfit hkeeps.pace lags
      refine ⟨false, log, desktop, rfl, hfit', hsettle.trans ?_⟩
      simp only [turned, Bool.false_eq_true, if_false, Viewer.records_nil, Array.append_empty,
        String.append_empty]
      rfl
    | true =>
      obtain ⟨desktop, hfit', hpresent⟩ := exists_present_eq
        (s := { s with machine := c.1, now := lags.cycleNow s.now, log }) hfit hkeeps.viewer
      obtain ⟨desktop', hfit'', hsettle⟩ := exists_settle_eq
        (s := ({ s with machine := c.1, now := lags.cycleNow s.now, log }.present setup.viewer).1)
        (by rw [hpresent]; exact hfit') hkeeps.pace lags
      rw [hpresent] at hsettle
      simp only [hpresent]
      exact ⟨true, log, desktop', rfl, hfit'', hsettle⟩

theorem run_cons_of_none (hkeys : poll.keys = .ok keys) (hstay : keys.exit = false)
    (hturn : (s.polled poll).turn setup keys poll.lags = (t, none)) (rest : List (Poll τ)) :
    s.run setup (poll :: rest) = t.run setup rest := by
  rw [polled] at hturn
  simp only [run, hkeys, hstay, Bool.false_eq_true, if_false, hturn]

theorem run_cons_of_some (hkeys : poll.keys = .ok keys) (hstay : keys.exit = false)
    (hturn : (s.polled poll).turn setup keys poll.lags = (t, some ending)) (rest : List (Poll τ)) :
    s.run setup (poll :: rest) = (t, ending) := by
  rw [polled] at hturn
  simp only [run, hkeys, hstay, Bool.false_eq_true, if_false, hturn]

/-- The session after a poll at which the user stays and a pass of the loop that is not the last. -/
def pass? (setup : Setup τ ω) (s : Session τ ω) (poll : Poll τ) : Option (Session τ ω) :=
  match poll.keys with
  | .error _ => none
  | .ok keys =>
    if keys.exit then none
    else match (s.polled poll).turn setup keys poll.lags with
      | (t, none) => some t
      | (_, some _) => none

/-- The session when it comes to poll `n` of a script, if it gets that far. The poll after the last one
of a script is one at which the user leaves. -/
def atPoll? (setup : Setup τ ω) (s : Session τ ω) (polls : List (Poll τ)) :
    ℕ → Option (Session τ ω)
  | 0 => some s
  | n + 1 => (s.atPoll? setup polls n).bind fun t => polls[n]?.bind (t.pass? setup)

theorem pass?_eq_some_iff : s.pass? setup poll = some t ↔
    ∃ keys, poll.keys = .ok keys ∧ keys.exit = false ∧
      (s.polled poll).turn setup keys poll.lags = (t, none) := by
  rw [pass?]
  cases poll.keys with
  | error f => simp
  | ok keys =>
    cases hexit : keys.exit with
    | true => simp [hexit]
    | false =>
      rcases hturn : (s.polled poll).turn setup keys poll.lags with ⟨u, _ | ending⟩ <;>
        simp [hexit, hturn]

theorem atPoll?_succ_eq_some_iff : s.atPoll? setup polls (n + 1) = some t ↔
    ∃ u poll, s.atPoll? setup polls n = some u ∧ polls[n]? = some poll ∧
      u.pass? setup poll = some t := by
  simp [atPoll?, Option.bind_eq_some_iff]

theorem run_of_pass? (h : s.pass? setup poll = some t) (rest : List (Poll τ)) :
    s.run setup (poll :: rest) = t.run setup rest := by
  obtain ⟨keys, hkeys, hstay, hturn⟩ := pass?_eq_some_iff.mp h
  exact run_cons_of_none hkeys hstay hturn rest

/-- From each poll that it comes to a session goes on with the rest of the script. -/
theorem run_of_atPoll? (h : s.atPoll? setup polls n = some t) :
    s.run setup polls = t.run setup (polls.drop n) := by
  induction n generalizing t with
  | zero =>
    obtain rfl := Option.some.inj h
    rfl
  | succ n ih =>
    obtain ⟨u, poll, hu, hpoll, hpass⟩ := atPoll?_succ_eq_some_iff.mp h
    rw [ih hu, List.drop_eq_getElem?_toList_append, hpoll, Option.toList_some, List.singleton_append,
      run_of_pass? hpass]

theorem exists_of_pass? (hkeeps : setup.Keeps fit) (hfit : fit s.desktop)
    (h : s.pass? setup poll = some t) :
    ∃ keys redraw log desktop, poll.keys = .ok keys ∧ fit desktop ∧
      ({ (s.polled poll).machine with keys }.cycle
        (poll.lags.cycleNow (s.polled poll).now)).2 = .ok redraw ∧
      t = (s.polled poll).turned setup keys poll.lags redraw log desktop := by
  obtain ⟨keys, hkeys, -, hturn⟩ := pass?_eq_some_iff.mp h
  have hpolled : fit (s.polled poll).desktop := by rwa [desktop_polled]
  rcases turn_cases hkeeps hpolled keys poll.lags with
    ⟨f, log, -, hend⟩ | ⟨redraw, log, desktop, hok, hfit', hgo⟩
  · cases hturn.symm.trans hend
  · exact ⟨keys, redraw, log, desktop, hkeys, hfit', hok, (Prod.mk.inj (hturn.symm.trans hgo)).1⟩

/-- A session leaves the window system fit from poll to poll. -/
theorem fit_of_atPoll? (hkeeps : setup.Keeps fit) (hfit : fit s.desktop)
    (h : s.atPoll? setup polls n = some t) : fit t.desktop := by
  induction n generalizing t with
  | zero =>
    obtain rfl := Option.some.inj h
    exact hfit
  | succ n ih =>
    obtain ⟨u, poll, hu, -, hpass⟩ := atPoll?_succ_eq_some_iff.mp h
    obtain ⟨keys, redraw, log, desktop, -, hfit', -, rfl⟩ := exists_of_pass? hkeeps (ih hu) hpass
    exact hfit'

/-! ## Counting polls -/

theorem polls_of_atPoll? (hkeeps : setup.Keeps fit) (hfit : fit s.desktop)
    (h : s.atPoll? setup polls n = some t) : t.polls = s.polls + n := by
  induction n generalizing t with
  | zero =>
    obtain rfl := Option.some.inj h
    rfl
  | succ n ih =>
    obtain ⟨u, poll, hu, -, hpass⟩ := atPoll?_succ_eq_some_iff.mp h
    obtain ⟨keys, redraw, log, desktop, -, -, -, rfl⟩ :=
      exists_of_pass? hkeeps (fit_of_atPoll? hkeeps hfit hu) hpass
    exact (polls_polled u poll).trans (congrArg (· + 1) (ih hu))

theorem polls_of_pass?_eq_none (hkeeps : setup.Keeps fit) (hfit : fit s.desktop)
    (h : s.pass? setup poll = none) : (s.run setup (poll :: rest)).1.polls = s.polls + 1 := by
  cases hkeys : poll.keys with
  | error f =>
    simp only [run, hkeys]
    exact polls_polled s poll
  | ok keys =>
    cases hexit : keys.exit with
    | true =>
      simp only [run, hkeys, hexit, if_true]
      exact polls_polled s poll
    | false =>
      have hpolled : fit (s.polled poll).desktop := by rwa [desktop_polled]
      rcases turn_cases hkeeps hpolled keys poll.lags with
        ⟨f, log, -, hend⟩ | ⟨redraw, log, desktop, -, -, hgo⟩
      · rw [run_cons_of_some hkeys hexit hend]
        exact polls_polled s poll
      · rw [pass?_eq_some_iff.mpr ⟨keys, hkeys, hexit, hgo⟩] at h
        cases h

/-- A session comes to all the polls that it counts. -/
theorem exists_atPoll? (hkeeps : setup.Keeps fit) (hfit : fit s.desktop)
    (hn : s.polls + n < (s.run setup polls).1.polls) : ∃ t, s.atPoll? setup polls n = some t := by
  induction n with
  | zero => exact ⟨s, rfl⟩
  | succ n ih =>
    obtain ⟨t, ht⟩ := ih (by omega)
    have hpolls := polls_of_atPoll? hkeeps hfit ht
    rw [run_of_atPoll? ht, List.drop_eq_getElem?_toList_append] at hn
    cases hpoll : polls[n]? with
    | none =>
      have hlen : polls.length ≤ n := List.getElem?_eq_none_iff.mp hpoll
      have hend : (t.run setup []).1.polls = t.polls + 1 := rfl
      rw [hpoll, Option.toList_none, List.nil_append, List.drop_eq_nil_of_le (by omega), hend] at hn
      omega
    | some poll =>
      cases hpass : t.pass? setup poll with
      | none =>
        rw [hpoll, Option.toList_some, List.singleton_append,
          polls_of_pass?_eq_none hkeeps (fit_of_atPoll? hkeeps hfit ht) hpass] at hn
        omega
      | some u => exact ⟨u, atPoll?_succ_eq_some_iff.mpr ⟨t, poll, ht, hpoll, hpass⟩⟩

end Session

end ChipEight
