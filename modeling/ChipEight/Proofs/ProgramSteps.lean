import ChipEight.Host.Program
import ChipEight.Proofs.WindowRequests

/-!
# The ways through the program

The program stops at its options, ends because its file cannot be loaded, ends because its window is
refused, or holds a session. Each of these has one equation, which says what the program throws and what
it has done by then.
-/
namespace ChipEight.Program
variable {τ ω : Type} {w : World τ ω} {words : List String} {o : CommandLine.Options}
variable {m : Machine τ} {c : Course τ ω}

def unloaded (file : Option String) (e : LoadError) : Thrown :=
  if e.isExpected then .text ("Cannot load " ++ file.getD "[]" ++ ": " ++ e.message) else .load e

def outcome (m : Machine τ) : Ending → Except Thrown Unit
  | .left => .ok ()
  | .fault f =>
    if f.isAnnounced then
      .error (.text ("********** THE EMULATOR CRASHED: " ++ f.message ++ "\n" ++ m.text))
    else .error (.fault f)
  | .keyFault f => .error (.key f)
  | .window e => .error (.window e)
  | .noKeys | .noViewer => .error .missingPart

/-- The program comes to open a window, with these options and with this machine, which has the file
loaded. -/
structure Opens (w : World τ ω) (words : List String) (o : CommandLine.Options) (m : Machine τ) :
    Prop where
  parse : CommandLine.parse words = .ok o
  load : (Machine.initial (resolution o) w.noise w.clock).loadFile (w.files.open? o.file) =
    (m, .ok ())

def loadedCourse (w : World τ ω) (o : CommandLine.Options) (m : Machine τ) : Course τ ω where
  desktop := w.system.recorded.start (w.desktop, [])
  stdout := if w.tracing then Machine.loadTrace (o.file.getD "") else ""
  machine := some m

section Finally
variable {ε σ α β : Type} {x : EStateM ε σ α} {y : EStateM ε σ β} {a : α} {b : β} {s t u : σ}

theorem finally_of_ok (hx : x s = .ok a t) (hy : y t = .ok b u) : tryFinally x y s = .ok a u := by
  unfold tryFinally
  change EStateM.map _ _ _ = _
  simp only [EStateM.map, tryFinally', hx, hy]

theorem finally_of_error {e : ε} (hx : x s = .error e t) (hy : y t = .ok b u) :
    tryFinally x y s = .error e u := by
  unfold tryFinally
  change EStateM.map _ _ _ = _
  simp only [EStateM.map, tryFinally', hx, hy]

end Finally

section Asking
variable {x : WindowM (ω × List Call) Unit} {desktop : ω × List Call}

theorem ask_of_ok (h : x c.desktop = .ok () desktop) : ask x c = .ok () { c with desktop } := by
  rw [ask, h]

theorem ask_of_error {e : WindowError} (h : x c.desktop = .error e desktop) :
    ask x c = .error (.window e) { c with desktop } := by
  rw [ask, h]

end Asking

theorem readOptions_of_ok (h : CommandLine.parse words = .ok o) :
    readOptions (τ := τ) (ω := ω) words = pure o := by
  rw [readOptions, h]

theorem loading_of_error {fresh : Machine τ} {file : Option String} {e : LoadError}
    (h : fresh.loadFile (w.files.open? file) = (m, .error e)) :
    tryCatch (loadFile w fresh file) (fun e => leaveUnloaded file e) c =
      .error (unloaded file e) { c with machine := some m } := by
  have hload : loadFile w fresh file c = .error (.load e) { c with machine := some m } := by
    unfold loadFile
    rw [h]
    rfl
  change EStateM.tryCatch _ _ _ = _
  simp only [EStateM.tryCatch, hload, leaveUnloaded, unloaded]
  split <;> rfl

theorem loading_of_ok {fresh : Machine τ} {file : Option String}
    (h : fresh.loadFile (w.files.open? file) = (m, .ok ())) :
    tryCatch (loadFile w fresh file) (fun e => leaveUnloaded file e) c =
      .ok m { c with
        machine := some m
        stdout := if w.tracing then c.stdout ++ Machine.loadTrace (file.getD "") else c.stdout } := by
  have hload : loadFile w fresh file c = .ok m { c with
      machine := some m
      stdout := if w.tracing then c.stdout ++ Machine.loadTrace (file.getD "") else c.stdout } := by
    unfold loadFile
    rw [h]
    cases w.tracing <;> rfl
  change EStateM.tryCatch _ _ _ = _
  simp only [EStateM.tryCatch, hload]

variable [Clock τ] [Add τ]

/-- The session that the program holds with a machine, and how it ends. -/
def session (w : World τ ω) (o : CommandLine.Options) (m : Machine τ) (desktop : ω × List Call) :
    Session τ (ω × List Call) × Ending :=
  (Session.start m w.clock desktop).run (setup w o) (Keyboard.usual.script w.polls)

def heldCourse (w : World τ ω) (o : CommandLine.Options) (m : Machine τ) (c : Course τ ω) :
    Course τ ω :=
  let s := (session w o m c.desktop).1
  { c with
    desktop := s.desktop
    stdout := c.stdout ++ s.log
    machine := some s.machine
    polls := s.polls
    frames := s.frames }

theorem hold_eq (w : World τ ω) (o : CommandLine.Options) (m : Machine τ) (c : Course τ ω) :
    hold w m o c = match thrown? (session w o m c.desktop).2 with
      | none => .ok () (heldCourse w o m c)
      | some e => .error e (heldCourse w o m c) := by
  have hhold : hold w m o c = (match thrown? (session w o m c.desktop).2 with
      | none => pure ()
      | some e => throw e : ProgramM τ ω Unit) (heldCourse w o m c) := rfl
  rw [hhold]
  cases thrown? (session w o m c.desktop).2 <;> rfl

theorem catching_eq (w : World τ ω) (o : CommandLine.Options) (m : Machine τ) (c : Course τ ω) :
    (tryCatch (hold w m o) fun e => leaveCrashed e : ProgramM τ ω Unit) c =
      match outcome (session w o m c.desktop).1.machine (session w o m c.desktop).2 with
      | .ok () => .ok () (heldCourse w o m c)
      | .error e => .error e (heldCourse w o m c) := by
  change EStateM.tryCatch _ _ _ = _
  rw [EStateM.tryCatch, hold_eq]
  cases (session w o m c.desktop).2 with
  | fault f =>
    have hleave : (leaveCrashed (.fault f) : ProgramM τ ω Unit) (heldCourse w o m c) =
        (if f.isAnnounced then throw (.text ("********** THE EMULATOR CRASHED: " ++ f.message ++ "\n" ++
            (session w o m c.desktop).1.machine.text))
          else throw (.fault f) : ProgramM τ ω Unit) (heldCourse w o m c) := rfl
    simp only [thrown?]
    refine hleave.trans ?_
    cases hannounced : f.isAnnounced <;> simp only [outcome, hannounced] <;> rfl
  | _ => rfl

/-- A session is followed by stopping the window system, however it ends. -/
theorem holding_eq (w : World τ ω) (o : CommandLine.Options) (m : Machine τ) (c : Course τ ω) :
    let stopped := { heldCourse w o m c with
      desktop := w.system.recorded.stop (session w o m c.desktop).1.desktop }
    (tryFinally (tryCatch (hold w m o) fun e => leaveCrashed e) (stop w) : ProgramM τ ω Unit) c =
      match outcome (session w o m c.desktop).1.machine (session w o m c.desktop).2 with
      | .ok () => .ok () stopped
      | .error e => .error e stopped := by
  intro stopped
  have hcatch := catching_eq w o m c
  have hstop : stop w (heldCourse w o m c) = .ok () stopped := rfl
  cases houtcome : outcome (session w o m c.desktop).1.machine (session w o m c.desktop).2 with
  | ok u =>
    rw [houtcome] at hcatch
    exact finally_of_ok hcatch hstop
  | error e =>
    rw [houtcome] at hcatch
    exact finally_of_error hcatch hstop

theorem run_of_stop {s : CommandLine.Stop} (h : CommandLine.parse words = .error s) :
    run w words = ⟨.error (.stopped s), {
      desktop := (w.desktop, [])
      stdout := s.stdout
      stderr := s.stderr }⟩ := by
  have hread (c : Course τ ω) : readOptions (τ := τ) (ω := ω) words c =
      .error (.stopped s) { c with stdout := c.stdout ++ s.stdout, stderr := c.stderr ++ s.stderr } := by
    rw [readOptions, h]
    rfl
  rw [run, main, bind_of_error (hread _)]
  simp

theorem run_of_unloaded (hparse : CommandLine.parse words = .ok o) {e : LoadError}
    (hload : (Machine.initial (resolution o) w.noise w.clock).loadFile (w.files.open? o.file) =
      (m, .error e)) :
    run w words = ⟨.error (unloaded o.file e), { desktop := (w.desktop, []), machine := some m }⟩ := by
  have hmain (c : Course τ ω) :
      main w words c = .error (unloaded o.file e) { c with machine := some m } := by
    rw [main, readOptions_of_ok hparse, pure_bind]
    exact (bind_of_ok rfl).trans (bind_of_error (loading_of_error hload))
  rw [run, hmain]

section Opened
variable (h : Opens w words o m)
include h

/-- What is left of a program once it has loaded its file. -/
theorem main_of_opens :
    main w words { desktop := (w.desktop, []) } = (do
      ask (opening w.system.recorded o)
      tryFinally (tryCatch (hold w m o) fun e => leaveCrashed e) (stop w) : ProgramM τ ω Unit)
        (loadedCourse w o m) := by
  rw [main, readOptions_of_ok h.parse, pure_bind]
  refine (bind_of_ok rfl).trans ((bind_of_ok (loading_of_ok h.load)).trans ?_)
  simp only [loadedCourse, String.empty_append]
  rfl

theorem run_of_refused {e : WindowError} {desktop : ω × List Call}
    (hopening : opening w.system.recorded o (w.system.recorded.start (w.desktop, [])) =
      .error e desktop) :
    run w words = ⟨.error (.window e), { loadedCourse w o m with desktop }⟩ := by
  have hask := ask_of_error (c := loadedCourse w o m) hopening
  rw [run, main_of_opens h, bind_of_error hask]

theorem run_of_opened {desktop : ω × List Call}
    (hopening : opening w.system.recorded o (w.system.recorded.start (w.desktop, [])) =
      .ok () desktop) :
    let r := session w o m desktop
    run w words = ⟨outcome r.1.machine r.2, {
      desktop := w.system.recorded.stop r.1.desktop
      stdout := (loadedCourse w o m).stdout ++ r.1.log
      machine := some r.1.machine
      polls := r.1.polls
      frames := r.1.frames }⟩ := by
  intro r
  have hask := ask_of_ok (c := loadedCourse w o m) hopening
  rw [run, main_of_opens h, bind_of_ok hask, holding_eq]
  have hr : session w o m { loadedCourse w o m with desktop }.desktop = r := rfl
  rw [hr]
  cases outcome r.1.machine r.2 <;> rfl

end Opened

end ChipEight.Program
