import ChipEight.Proofs.KeyViews
import Mathlib.Data.List.Induction

/-!
# Polled keyboards

Between two looks at a keyboard events come in and wait, and keys are pressed and let go. A look takes
all events that wait and sees the keys that are held, so that it finds out whether the user has asked to
leave since the last look, and which keys are down. What an earlier look has found does not come back.
-/
namespace ChipEight

/-- What happens at a keyboard: an event comes in, other physical keys are held from now on, or the
program looks. -/
inductive Happening where
  | event (e : Event)
  | hold (names : List String)
  | look
deriving DecidableEq

/-- Whether it is anything but an event that is not for leaving. -/
def Happening.isHeeded : Happening → Bool
  | .event e => e = .quit
  | .hold _ | .look => true

/-- The events that wait to be taken, and the physical keys that are held. -/
structure KeyboardState where
  queue : List Event
  held : List String

namespace KeyboardState

def idle : KeyboardState := ⟨[], []⟩

/-- A look takes all events, also if it fails. -/
def next (d : KeyboardState) : Happening → KeyboardState
  | .event e => { d with queue := d.queue ++ [e] }
  | .hold names => { d with held := names }
  | .look => { d with queue := [] }

def after (d : KeyboardState) (course : List Happening) : KeyboardState := course.foldl next d

variable {d d' : KeyboardState} {course since : List Happening} {h : Happening} {e : Event}

theorem after_append (d : KeyboardState) (past since : List Happening) :
    d.after (past ++ since) = (d.after past).after since := List.foldl_append

/-- In the course of events one of a kind has come in after the last look. -/
def Unseen (e : Event) (course : List Happening) : Prop :=
  ∃ past since, course = past ++ .event e :: since ∧ .look ∉ since

theorem not_unseen_nil : ¬ Unseen e [] := by
  rintro ⟨past, since, heq, -⟩
  exact List.append_ne_nil_of_right_ne_nil past (List.cons_ne_nil _ since) heq.symm

theorem unseen_concat : Unseen e (course ++ [h]) ↔ h = .event e ∨ h ≠ .look ∧ Unseen e course := by
  constructor
  · rintro ⟨past, since, heq, hlook⟩
    -- the event is the last happening itself or has come in before it
    rcases since.eq_nil_or_concat with rfl | ⟨rest, last, rfl⟩
    · exact .inl (List.singleton_inj.mp (List.append_inj' heq rfl).2)
    · have hsplit : course ++ [h] = (past ++ .event e :: rest) ++ [last] := by
        simpa using heq
      obtain ⟨rfl, hlast⟩ := List.append_inj' hsplit rfl
      obtain rfl := List.singleton_inj.mp hlast
      rw [List.concat_eq_append, List.mem_append, List.mem_singleton, not_or] at hlook
      exact .inr ⟨Ne.symm hlook.2, past, rest, rfl, hlook.1⟩
  · rintro (rfl | ⟨hne, past, since, rfl, hlook⟩)
    · exact ⟨course, [], rfl, List.not_mem_nil⟩
    · refine ⟨past, since ++ [h], by simp, ?_⟩
      rw [List.mem_append, List.mem_singleton, not_or]
      exact ⟨hlook, hne.symm⟩

/-- The events that wait are those that have come in after the last look. -/
theorem mem_queue_iff_unseen : e ∈ (idle.after course).queue ↔ Unseen e course := by
  -- from the end, since the last happening decides what waits
  induction course using List.reverseRecOn with
  | nil => exact iff_of_false List.not_mem_nil not_unseen_nil
  | append_singleton course h ih =>
    rw [unseen_concat, ← ih, after_append]
    cases h with
    | event e' => simp [after, next, or_comm, eq_comm]
    | hold names => simp [after, next]
    | look => simp [after, next]

/-- The same keys are held, and it is the same whether an event for leaving waits. -/
structure Alike (d d' : KeyboardState) : Prop where
  held : d.held = d'.held
  quit : .quit ∈ d.queue ↔ .quit ∈ d'.queue

theorem Alike.refl (d : KeyboardState) : d.Alike d := ⟨rfl, Iff.rfl⟩

theorem Alike.next (hd : d.Alike d') (h : Happening) : (d.next h).Alike (d'.next h) := by
  cases h with
  | event e =>
    refine ⟨hd.held, ?_⟩
    simp only [KeyboardState.next, List.mem_append, hd.quit]
  | hold names => exact ⟨rfl, hd.quit⟩
  | look => exact ⟨hd.held, Iff.rfl⟩

/-- An event that is not for leaving goes unnoticed. -/
theorem Alike.event (hd : d.Alike d') (he : e ≠ .quit) : d.Alike (d'.next (.event e)) := by
  refine ⟨hd.held, hd.quit.trans ?_⟩
  simp [KeyboardState.next, he.symm]

theorem Alike.after_filter (hd : d.Alike d') (course : List Happening) :
    (d.after (course.filter Happening.isHeeded)).Alike (d'.after course) := by
  induction course generalizing d d' with
  | nil => exact hd
  | cons h rest ih =>
    cases hheeded : h.isHeeded with
    | true =>
      rw [List.filter_cons_of_pos hheeded]
      exact ih (hd.next h)
    | false =>
      -- what is left out happens on one side only
      rw [List.filter_cons_of_neg (by simp [hheeded])]
      cases h with
      | event e => exact ih (hd.event (by simpa [Happening.isHeeded] using hheeded))
      | hold names => cases hheeded
      | look => cases hheeded

/-- After a look only the held keys are left of what has been before. -/
theorem after_look_eq {before past : List Happening}
    (hheld : (idle.after before).held = (idle.after past).held) :
    idle.after (before ++ .look :: since) = idle.after (past ++ .look :: since) := by
  rw [after_append, after_append]
  show (KeyboardState.mk [] (idle.after before).held).after since = _
  rw [hheld]
  rfl

end KeyboardState

namespace Keyboard
open KeyboardState
variable {k : Keyboard} {d d' : KeyboardState} {s : Keys} {n : ℕ}

def look (k : Keyboard) (d : KeyboardState) : Except KeyFault Keys := k.poll d.held d.queue

theorem exists_mem_pressed {held : List String} {property : Int → Prop} :
    (∃ number ∈ k.pressed held, property number) ↔
      ∃ p ∈ k.map, p.1 ∈ held ∧ property p.2 := by
  simp only [pressed, List.mem_map, List.mem_filter, List.contains_iff_mem]
  constructor
  · rintro ⟨_, ⟨p, ⟨hp, hheld⟩, rfl⟩, hproperty⟩
    exact ⟨p, hp, hheld, hproperty⟩
  · rintro ⟨p, hp, hheld, hproperty⟩
    exact ⟨p.2, ⟨p, ⟨hp, hheld⟩, rfl⟩, hproperty⟩

theorem look_eq (k : Keyboard) (d : KeyboardState) :
    k.look d = Keys.ofPressed (k.pressed d.held)
      (d.queue.contains .quit || d.held.contains k.exitKey) := rfl

theorem look_of_alike (hd : d.Alike d') : k.look d = k.look d' := by
  have hquit : d.queue.contains .quit = d'.queue.contains .quit := by
    rw [Bool.eq_iff_iff, List.contains_iff_mem, List.contains_iff_mem]
    exact hd.quit
  rw [look_eq, look_eq, hd.held, hquit]

theorem exit_of_look (h : k.look d = .ok s) :
    s.exit = true ↔ .quit ∈ d.queue ∨ k.exitKey ∈ d.held := by
  rw [Keys.exit_of_ofPressed h, Bool.or_eq_true, List.contains_iff_mem, List.contains_iff_mem]

theorem exists_look_eq_error_iff :
    (∃ f, k.look d = .error f) ↔ ∃ p ∈ k.map, p.1 ∈ d.held ∧ (p.2 < -16 ∨ 15 < p.2) := by
  rw [look_eq, Keys.exists_ofPressed_eq_error_iff, exists_mem_pressed]
  simp only [Keys.not_isNumber_iff]

theorem mem_active_of_look (h : k.look d = .ok s) :
    n ∈ s.active ↔ ∃ p ∈ k.map, p.1 ∈ d.held ∧ p.2 % 16 = n := by
  rw [Keys.mem_active_of_ofPressed h]
  exact exists_mem_pressed

/-- The order of a map does not matter. -/
theorem look_of_same_map {map : List (String × Int)} (hsame : ∀ p, p ∈ map ↔ p ∈ k.map)
    (h : k.look d = .ok s) : { k with map }.look d = .ok s := by
  have hpressed (number : Int) :
      number ∈ { k with map }.pressed d.held ↔ number ∈ k.pressed d.held := by
    simp only [pressed, List.mem_map, List.mem_filter, hsame]
  exact Keys.ofPressed_of_same_members hpressed h

/-- What a look at a keyboard finds. It fails if and only if a mapped key is held that stands for what is
not the number of a key, counted from either end. Otherwise the keys that are down are listed in
ascending order, and they are those of the held mapped keys modulo sixteen, in whatever order the map
lists them and however many stand for one key. The user leaves if and only if an event for it has come in
since the last look or the exit key is held. Other events change nothing, and nothing is left of
what earlier looks have found: only the keys that are still held matter. -/
theorem look_finds (k : Keyboard) (course : List Happening) :
    let d := idle.after course
    let found := k.look d
    ((∃ f, found = .error f) ↔ ∃ p ∈ k.map, p.1 ∈ d.held ∧ (p.2 < -16 ∨ 15 < p.2)) ∧
    (∀ s, found = .ok s →
      s.active.Pairwise (· < ·) ∧
      (∀ n : ℕ, n ∈ s.active ↔ ∃ p ∈ k.map, p.1 ∈ d.held ∧ p.2 % 16 = n) ∧
      (∀ map, (∀ p, p ∈ map ↔ p ∈ k.map) → { k with map }.look d = .ok s) ∧
      (s.exit = true ↔ Unseen .quit course ∨ k.exitKey ∈ d.held)) ∧
    k.look (idle.after (course.filter Happening.isHeeded)) = found ∧
    ∀ past since, course = past ++ .look :: since →
      ∀ before, (idle.after before).held = (idle.after past).held →
        k.look (idle.after (before ++ .look :: since)) = found := by
  intro d found
  refine ⟨exists_look_eq_error_iff, fun s hs => ⟨s.pairwise_active, fun n => mem_active_of_look hs,
    fun map hsame => look_of_same_map hsame hs, ?_⟩, ?_, ?_⟩
  · rw [exit_of_look hs, mem_queue_iff_unseen]
  · exact look_of_alike ((Alike.refl idle).after_filter course)
  · rintro past since rfl before hheld
    rw [after_look_eq hheld]

/-- Two physical keys stand for one key, one of them from the end, and a third one for none. -/
def doubled : Keyboard := ⟨[("p", 15), ("q", 3), ("w", -13), ("z", 16)], "escape"⟩

/-- The user asks to leave before the first look and holds keys from then on. -/
def leavingEarly : List Happening :=
  [.event .quit, .look, .event .mouse, .hold ["w", "q", "p"], .event .keyDown]

theorem look_finds_leaving_early :
    let held : List String := ["w", "q", "p"]
    ∃ s, doubled.look (idle.after leavingEarly) = .ok s ∧
      3 ∈ s.active ∧ 13 ∉ s.active ∧ s.exit = false ∧
      doubled.look (idle.after [.event .quit, .look, .hold held]) = .ok s ∧
      doubled.look (idle.after [.look, .event .mouse, .hold held, .event .keyDown]) = .ok s := by
  intro held
  obtain ⟨hrefused, hfound, hquiet, hearlier⟩ := look_finds doubled leavingEarly
  cases h : doubled.look (idle.after leavingEarly) with
  | error f =>
    have hnumbers : ¬ ∃ p ∈ doubled.map, p.1 ∈ (idle.after leavingEarly).held ∧
        (p.2 < -16 ∨ 15 < p.2) := by decide
    exact absurd (hrefused.mp ⟨f, h⟩) hnumbers
  | ok s =>
    obtain ⟨-, hmem, -, hexit⟩ := hfound s h
    have hthirteen : ¬ ∃ p ∈ doubled.map, p.1 ∈ (idle.after leavingEarly).held ∧
        p.2 % 16 = (13 : ℕ) := by decide
    have hstay : ¬ (Unseen .quit leavingEarly ∨ "escape" ∈ (idle.after leavingEarly).held) := by
      rw [← mem_queue_iff_unseen]
      decide
    refine ⟨s, rfl, (hmem 3).mpr ⟨("w", -13), by decide⟩, fun hin => hthirteen ((hmem 13).mp hin),
      Bool.eq_false_iff.mpr fun hleave => hstay (hexit.mp hleave), hquiet.trans h, ?_⟩
    exact (hearlier [.event .quit] _ rfl [] rfl).trans h

end Keyboard
end ChipEight
