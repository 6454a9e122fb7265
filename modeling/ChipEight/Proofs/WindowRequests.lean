import ChipEight.Host.Window
import Mathlib.Data.Nat.Notation
import Mathlib.Tactic.Common

/-!
# Requests to a window system

What is asked of a window system is a list of requests, made one after the other up to the first that
is refused. A window system that keeps its calls answers like the one that it stands for and has just
these requests to show for it. A request is granted if it succeeds in every fit state and leaves a fit
state behind.
-/
namespace ChipEight

section Steps
variable {ε σ α β : Type} {x : EStateM ε σ α} {f : α → EStateM ε σ β} {s t : σ}

theorem bind_of_ok {a : α} (h : x s = .ok a t) : (x >>= f) s = f a t := by
  change EStateM.bind x f s = _
  rw [EStateM.bind, h]

theorem bind_of_error {e : ε} (h : x s = .error e t) : (x >>= f) s = .error e t := by
  change EStateM.bind x f s = _
  rw [EStateM.bind, h]

end Steps

section Granted
variable {ω : Type} {fit : ω → Prop} {x y : WindowM ω Unit}

/-- In every fit state the window system does what it is asked for and stays fit. -/
def Granted (fit : ω → Prop) (x : WindowM ω Unit) : Prop :=
  ∀ s, fit s → ∃ t, x s = .ok () t ∧ fit t

theorem Granted.pure : Granted fit (pure ()) := fun s hs => ⟨s, rfl, hs⟩

theorem Granted.bind (hx : Granted fit x) (hy : Granted fit y) : Granted fit (x >>= fun _ => y) := by
  intro s hs
  obtain ⟨t, ht, hfit⟩ := hx s hs
  rw [bind_of_ok ht]
  exact hy t hfit

theorem Granted.forM {α : Type} {act : α → WindowM ω Unit} (h : ∀ a, Granted fit (act a))
    (as : List α) : Granted fit (as.forM act) := by
  induction as with
  | nil => exact .pure
  | cons a rest ih => exact (h a).bind ih

end Granted

/-- The state of the window system after an answer, whether it has granted what it was asked for or
not. -/
def answered {ω : Type} (x : WindowM ω Unit) (s : ω) : ω :=
  match x s with
  | .ok _ t | .error _ t => t

section Makes
variable {ω : Type} {requests more : List WindowRequest}
variable {x x' : WindowM ω Unit} {y y' : WindowM (ω × List Call) Unit}

/-- An answer with the calls that have been made. -/
def withCalls (calls : List Call) :
    EStateM.Result WindowError ω Unit → EStateM.Result WindowError (ω × List Call) Unit
  | .ok a s => .ok a (s, calls)
  | .error e s => .error e (s, calls)

def callsOf (requests : List WindowRequest) : List Call := (requests.map Call.request).reverse

@[simp] theorem callsOf_append (requests more : List WindowRequest) :
    callsOf (requests ++ more) = callsOf more ++ callsOf requests := by
  simp [callsOf]

/-- `y` answers like `x` and has made the requests of a list for it, all of them if it succeeds and
otherwise those up to the one that was refused. -/
def Makes (requests : List WindowRequest) (x : WindowM ω Unit) (y : WindowM (ω × List Call) Unit) :
    Prop :=
  ∀ s calls, ∃ made, made <+: requests ∧ ((∃ t, x s = .ok () t) → made = requests) ∧
    y (s, calls) = withCalls (callsOf made ++ calls) (x s)

theorem Makes.pure : Makes [] (pure () : WindowM ω Unit) (pure ()) :=
  fun _ _ => ⟨[], List.nil_prefix, fun _ => rfl, rfl⟩

theorem Makes.answer (system : WindowSystem ω) (r : WindowRequest) :
    Makes [r] (system.answer r) (system.recorded.answer r) := by
  intro s calls
  refine ⟨[r], List.prefix_refl _, fun _ => rfl, ?_⟩
  simp only [WindowSystem.recorded]
  cases system.answer r s <;> rfl

theorem Makes.bind (h : Makes requests x y) (h' : Makes more x' y') :
    Makes (requests ++ more) (x >>= fun _ => x') (y >>= fun _ => y') := by
  intro s calls
  obtain ⟨made, hprefix, hall, hy⟩ := h s calls
  cases hx : x s with
  | error e t =>
    rw [hx] at hy
    refine ⟨made, hprefix.trans (List.prefix_append _ _), ?_, ?_⟩
    · rintro ⟨u, hu⟩
      rw [bind_of_error hx] at hu
      cases hu
    · rw [bind_of_error hx, bind_of_error hy]
      rfl
  | ok a t =>
    obtain rfl := hall ⟨t, hx⟩
    rw [hx] at hy
    obtain ⟨made', hprefix', hall', hy'⟩ := h' t (callsOf made ++ calls)
    refine ⟨made ++ made', (List.prefix_append_right_inj made).mpr hprefix', ?_, ?_⟩
    · rw [bind_of_ok hx]
      exact fun hok => congrArg (made ++ ·) (hall' hok)
    · rw [bind_of_ok hx, bind_of_ok hy, hy', callsOf_append, List.append_assoc]

theorem Makes.forM {α : Type} {request : α → WindowRequest} {act : α → WindowM ω Unit}
    {act' : α → WindowM (ω × List Call) Unit} (h : ∀ a, Makes [request a] (act a) (act' a))
    (as : List α) : Makes (as.map request) (as.forM act) (as.forM act') := by
  induction as with
  | nil => exact .pure
  | cons a rest ih => exact (h a).bind ih

theorem Makes.exists_answered (h : Makes requests x y) (s : ω) (calls : List Call) :
    ∃ made, answered y (s, calls) = (answered x s, callsOf made ++ calls) := by
  obtain ⟨made, -, -, hy⟩ := h s calls
  refine ⟨made, ?_⟩
  rw [answered, answered, hy]
  cases x s <;> rfl

/-- What is granted is granted with its calls kept, and all requests have been made. -/
theorem Makes.of_ok (h : Makes requests x y) {s t : ω} (hx : x s = .ok () t) (calls : List Call) :
    y (s, calls) = .ok () (t, callsOf requests ++ calls) := by
  obtain ⟨made, -, hall, hy⟩ := h s calls
  obtain rfl := hall ⟨t, hx⟩
  rw [hy, hx]
  rfl

theorem Makes.exists_of_granted {fit : ω → Prop} (h : Makes requests x y) (hx : Granted fit x) {s : ω}
    (hs : fit s) (calls : List Call) :
    ∃ t, y (s, calls) = .ok () (t, callsOf requests ++ calls) ∧ fit t := by
  obtain ⟨t, ht, hfit⟩ := hx s hs
  exact ⟨t, h.of_ok ht calls, hfit⟩

end Makes

namespace Screen
variable {ω : Type} (s : Screen) (system : WindowSystem ω)

def square (p : ℕ × ℕ) : WindowRequest :=
  .rectangle (s.measure p.1) (s.measure p.2) s.scale s.scale s.foreground

def requests (d : Display) : List WindowRequest :=
  .fill s.background :: d.litPixels.map s.square ++ [.flip]

theorem makes_present (d : Display) :
    Makes (s.requests d) (s.present system d) (s.present system.recorded d) := by
  have hsquares := Makes.forM (fun p => Makes.answer system (s.square p)) d.litPixels
  exact (Makes.answer system _).bind (hsquares.bind (Makes.answer system _))

theorem makes_makeWindow (width height : Int) :
    Makes [.mode (s.measure width) (s.measure height), .fill s.background]
      (s.makeWindow system width height) (s.makeWindow system.recorded width height) :=
  (Makes.answer system _).bind (Makes.answer system _)

variable {s system} {fit : ω → Prop}

theorem granted_present (hfill : Granted fit (system.answer (.fill s.background)))
    (hsquare : ∀ p, Granted fit (system.answer (s.square p)))
    (hflip : Granted fit (system.answer .flip)) (d : Display) : Granted fit (s.present system d) :=
  hfill.bind ((Granted.forM hsquare _).bind hflip)

end Screen

end ChipEight
