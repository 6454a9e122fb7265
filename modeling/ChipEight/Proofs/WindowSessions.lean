import ChipEight.Proofs.WatchedSessions
import ChipEight.Proofs.WindowSystemCalls

/-!
# Sessions in a window

The program holds its session in a window and at the pace of a frame clock. If the window system can
make that window, paint on it and tick at that speed, it grants everything that the session asks for.
Then the session takes the same course as one that only records its frames, and what it has asked for
tells the frames and the number of cycles.
-/
namespace ChipEight.Program
variable {τ ω : Type} {w : World τ ω} {o : CommandLine.Options} {m : Machine τ}
variable {ready fit : ω → Prop} {n : ℕ} {frames : Array Display} {calls : List Call}

def windowSize (o : CommandLine.Options) : Measure × Measure :=
  ((screen o).measure (resolution o).width, (screen o).measure (resolution o).height)

/-- What is expected of a window system that is to serve a program with these options. It is `ready` once
it has been started, and `fit` once it has made the window. -/
structure Serves (system : WindowSystem ω) (o : CommandLine.Options) (ready fit : ω → Prop) :
    Prop where
  start : ∀ s, ready (system.start s)
  clock : Granted ready (system.answer .clock)
  caption : ∀ title, Granted ready (system.answer (.caption title))
  /-- A window of the size that was asked for is made. -/
  mode : ∀ s, ready s →
    ∃ t, system.answer (.mode (windowSize o).1 (windowSize o).2) s = .ok () t ∧ fit t
  fill : ∀ c, Granted fit (system.answer (.fill c))
  square : ∀ (left top side : Int) (c : Colour), 0 < side →
    Granted fit (system.answer (.rectangle left top side side c))
  flip : Granted fit (system.answer .flip)
  /-- The frame clock accepts the speed. -/
  tick : Granted fit (system.answer (.tick o.speed))

/-- A request that paints or shows what has been painted. -/
def painting? : Call → Option WindowRequest
  | .request (.fill c) => some (.fill c)
  | .request (.rectangle left top width height c) => some (.rectangle left top width height c)
  | .request .flip => some .flip
  | _ => none

/-- What a program has asked for in its window, after so many ticks and with these frames shown. -/
structure Asked (o : CommandLine.Options) (n : ℕ) (frames : Array Display) (calls : List Call) :
    Prop where
  counts : counts calls = (1, 0)
  first : calls.getLast? = some .start
  captions : calls.filterMap Call.caption? = [o.file.elim "" lastName]
  windows : calls.filterMap Call.window? = [windowSize o]
  speeds : calls.filterMap Call.speed? = List.replicate n o.speed
  paintings : calls.reverse.filterMap painting? =
    .fill (screen o).background :: frames.toList.flatMap (screen o).requests

theorem paintings_requests (s : Screen) (d : Display) :
    (callsOf (s.requests d)).reverse.filterMap painting? = s.requests d := by
  simp [callsOf, Screen.requests, Screen.square, painting?, Function.comp_def]

theorem filterMap_requests {α : Type} {f : Call → Option α} {s : Screen}
    (hfill : f (.request (.fill s.background)) = none)
    (hsquare : ∀ p, f (.request (s.square p)) = none) (hflip : f (.request .flip) = none)
    (d : Display) : (callsOf (s.requests d)).filterMap f = [] := by
  rw [List.filterMap_eq_nil_iff]
  simp only [callsOf, Screen.requests, List.mem_reverse, List.mem_map, List.mem_append,
    List.mem_cons, List.not_mem_nil, or_false]
  rintro _ ⟨r, (rfl | ⟨p, -, rfl⟩) | rfl, rfl⟩
  · exact hfill
  · exact hsquare p
  · exact hflip

namespace Asked

theorem ne_nil (h : Asked o n frames calls) : calls ≠ [] := by
  rintro rfl
  exact absurd h.first nofun

theorem opened (o : CommandLine.Options) :
    Asked o 0 #[] (callsOf (openingRequests o) ++ [.start]) where
  counts := counts_append _ _
  first := rfl
  captions := rfl
  windows := rfl
  speeds := rfl
  paintings := rfl

theorem shown (h : Asked o n frames calls) (d : Display) :
    Asked o n (frames.push d) (callsOf ((screen o).requests d) ++ calls) where
  counts := (counts_append _ _).trans h.counts
  first := by rw [List.getLast?_append, h.first]; rfl
  captions := by
    rw [List.filterMap_append, filterMap_requests rfl (fun _ => rfl) rfl, List.nil_append, h.captions]
  windows := by
    rw [List.filterMap_append, filterMap_requests rfl (fun _ => rfl) rfl, List.nil_append, h.windows]
  speeds := by
    rw [List.filterMap_append, filterMap_requests rfl (fun _ => rfl) rfl, List.nil_append, h.speeds]
  paintings := by
    rw [List.reverse_append, List.filterMap_append, h.paintings, paintings_requests]
    simp

theorem ticked (h : Asked o n frames calls) :
    Asked o (n + 1) frames (callsOf [.tick o.speed] ++ calls) where
  counts := (counts_append _ _).trans h.counts
  first := by rw [List.getLast?_append, h.first]; rfl
  captions := h.captions
  windows := h.windows
  speeds := congrArg (o.speed :: ·) h.speeds
  paintings := by
    rw [List.reverse_append, List.filterMap_append, h.paintings]
    exact List.append_nil _

end Asked

section Served
variable (h : Serves w.system o ready fit) {scale : Int} (hscale : o.scale = some scale)
variable (hpos : 0 < scale)
include h

/-- The window is opened, and all that this takes has been asked for. -/
theorem exists_opening :
    ∃ t, opening w.system.recorded o (w.system.recorded.start (w.desktop, [])) =
      .ok () (t, callsOf (openingRequests o) ++ [.start]) ∧ fit t := by
  obtain ⟨a, ha, hready⟩ := h.clock _ (h.start w.desktop)
  obtain ⟨b, hb, hready⟩ := h.caption (o.file.elim "" lastName) a hready
  obtain ⟨c, hc, hfit⟩ := h.mode b hready
  obtain ⟨d, hd, hfit⟩ := h.fill (screen o).background c hfit
  have hopening : opening w.system o (w.system.start w.desktop) = .ok () d :=
    (bind_of_ok ha).trans ((bind_of_ok hb).trans ((bind_of_ok hc).trans hd))
  exact ⟨d, (makes_opening w.system o).of_ok hopening [.start], hfit⟩

include hscale hpos

theorem granted_present (d : Display) : Granted fit ((screen o).present w.system d) := by
  have hsquare (p : ℕ × ℕ) : Granted fit (w.system.answer ((screen o).square p)) := by
    have hp := h.square (p.1 * scale) (p.2 * scale) scale (screen o).foreground hpos
    simp only [Screen.square, Screen.measure, screen, hscale, Option.map_some]
    exact hp
  exact Screen.granted_present (h.fill _) hsquare h.flip d

/-- A session asks for its frames to be presented and for a tick after every cycle. -/
theorem maintains_asked :
    Maintains (fun n frames (d : ω × List Call) => fit d.1 ∧ Asked o n frames d.2)
      ((screen o).present w.system.recorded) (w.system.recorded.answer (.tick o.speed)) := by
  constructor
  · rintro n frames ⟨s, calls⟩ d ⟨hfit, hasked⟩
    obtain ⟨t, ht, hfit'⟩ := ((screen o).makes_present w.system d).exists_of_granted
      (granted_present h hscale hpos d) hfit calls
    rw [answered, ht]
    exact ⟨hfit', hasked.shown d⟩
  · rintro n frames ⟨s, calls⟩ ⟨hfit, hasked⟩
    obtain ⟨t, ht, hfit'⟩ :=
      (Makes.answer w.system (.tick o.speed)).exists_of_granted h.tick hfit calls
    rw [answered, ht]
    exact ⟨hfit', hasked.ticked⟩

theorem keeps_setup : (setup w o).Keeps fun d => fit d.1 where
  viewer d := by
    rintro ⟨s, calls⟩ hfit
    obtain ⟨t, ht, hfit'⟩ := ((screen o).makes_present w.system d).exists_of_granted
      (granted_present h hscale hpos d) hfit calls
    exact ⟨_, ht, hfit'⟩
  pace := by
    rintro ⟨s, calls⟩ hfit
    obtain ⟨t, ht, hfit'⟩ :=
      (Makes.answer w.system (.tick o.speed)).exists_of_granted h.tick hfit calls
    exact ⟨_, ht, hfit'⟩

theorem asked_session [Clock τ] [Add τ] {desktop : ω} (hfit : fit desktop)
    (hasked : Asked o 0 #[] calls) (m : Machine τ) :
    let s := (session w o m (desktop, calls)).1
    Asked o s.paces s.frames s.desktop.2 :=
  (Session.run_maintains (maintains_asked h hscale hpos) ⟨hfit, hasked⟩ _).2

end Served

end ChipEight.Program
