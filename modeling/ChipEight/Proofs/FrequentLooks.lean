import ChipEight.Proofs.CountdownSpacing

/-!
# Looking at a countdown more often

Every look that finds a period passed lowers the countdown, and the next period starts there. This is
the most that can be made of a sequence of readings: no other choice of readings a period apart is
longer. A choice among some of the readings is also one among all of them. So looking more often never
leaves a countdown higher, although it may shift all the looks that lower it.
-/
namespace ChipEight.Countdown
variable {τ : Type} [Clock τ] {c : Countdown τ} {since earlier t : τ}
variable {readings fewer more chosen : List τ}

/-- The countdown after a look at each of some readings, one after the other. -/
def lookAll (c : Countdown τ) (readings : List τ) : Countdown τ := readings.foldl tick c

@[simp] theorem lookAll_nil (c : Countdown τ) : c.lookAll [] = c := rfl

@[simp] theorem lookAll_cons (c : Countdown τ) (t : τ) (rest : List τ) :
    c.lookAll (t :: rest) = (c.tick t).lookAll rest := rfl

theorem lookAll_append (c : Countdown τ) (before after : List τ) :
    c.lookAll (before ++ after) = (c.lookAll before).lookAll after := List.foldl_append

/-- A period passes up to each of the readings, from the one before it or at first from `since`. -/
def Spaced (since : τ) (chosen : List τ) : Prop :=
  List.IsChain (fun earlier later => Clock.periodPassed earlier later = true) (since :: chosen)

theorem spaced_nil (since : τ) : Spaced since [] := List.IsChain.singleton since

theorem spaced_cons_iff :
    Spaced since (t :: chosen) ↔ Clock.periodPassed since t = true ∧ Spaced t chosen :=
  List.isChain_cons_cons

/-- How many of some readings can be chosen such that a period passes up to each of them. -/
def choices (since : τ) (readings : List τ) : Set ℕ :=
  {k | ∃ chosen : List τ, chosen.Sublist readings ∧ Spaced since chosen ∧ chosen.length = k}

theorem choices_mono (hsub : fewer.Sublist more) : choices since fewer ⊆ choices since more := by
  rintro k ⟨chosen, hchosen, hspaced, hlength⟩
  exact ⟨chosen, hchosen.trans hsub, hspaced, hlength⟩

/-- How many readings there are if each of them is chosen as soon as a period has passed. -/
def earliest (since : τ) : List τ → ℕ
  | [] => 0
  | t :: rest => if Clock.periodPassed since t then earliest t rest + 1 else earliest since rest

theorem lookAll_of_zero (h : c.value = 0) (readings : List τ) : (c.lookAll readings).value = 0 := by
  induction readings generalizing c with
  | nil => exact h
  | cons t rest ih => exact ih (value_tick_of_zero h t)

/-- A countdown is lowered at every reading that is chosen so, until it stands at zero. -/
theorem value_lookAll (c : Countdown τ) (readings : List τ) :
    (c.lookAll readings).value.toNat = c.value.toNat - earliest c.since readings := by
  induction readings generalizing c with
  | nil => rfl
  | cons t rest ih =>
    by_cases hzero : c.value = 0
    · rw [lookAll_of_zero hzero, hzero]
      exact (Nat.zero_sub _).symm
    · rw [lookAll_cons, ih, tick, if_neg hzero, earliest]
      split
      · have := toNat_sub_one hzero
        simp only
        omega
      · rfl

theorem earliest_mem_choices (since : τ) (readings : List τ) :
    earliest since readings ∈ choices since readings := by
  induction readings generalizing since with
  | nil => exact ⟨[], List.Sublist.refl _, spaced_nil since, rfl⟩
  | cons t rest ih =>
    rw [earliest]
    split
    case isTrue hpassed =>
      obtain ⟨chosen, hchosen, hspaced, hlength⟩ := ih t
      exact ⟨t :: chosen, hchosen.cons_cons t, spaced_cons_iff.mpr ⟨hpassed, hspaced⟩,
        congrArg (· + 1) hlength⟩
    case isFalse =>
      obtain ⟨chosen, hchosen, hspaced, hlength⟩ := ih since
      exact ⟨chosen, hchosen.cons t, hspaced, hlength⟩

theorem tick_since (hself : Clock.periodPassed t t = false) (value : Byte) :
    tick ⟨value, t⟩ t = ⟨value, t⟩ := by
  by_cases hzero : value = 0
  · rw [tick, if_pos hzero, hzero]
  · rw [tick, if_neg hzero, hself]
    rfl

theorem tick_tick (hself : Clock.periodPassed t t = false) (c : Countdown τ) :
    (c.tick t).tick t = c.tick t := by
  rcases c.tick_cases t with h | ⟨-, h⟩ | ⟨-, -, h⟩
  · rw [h, h]
  · rw [h, tick_since hself]
  · rw [h, tick_since hself]

variable [Preorder τ] [MonotoneClock τ]

/-- Starting earlier does no harm. -/
theorem Spaced.of_le (h : Spaced since chosen) (hle : earlier ≤ since) : Spaced earlier chosen := by
  cases chosen with
  | nil => exact spaced_nil earlier
  | cons t rest =>
    obtain ⟨hpassed, hrest⟩ := spaced_cons_iff.mp h
    exact spaced_cons_iff.mpr ⟨MonotoneClock.periodPassed_mono hle le_rfl hpassed, hrest⟩

/-- No choice among readings in order is longer than that of the earliest ones. -/
theorem length_le_earliest (hsorted : readings.Pairwise (· ≤ ·)) (hchosen : chosen.Sublist readings)
    (hspaced : Spaced since chosen) : chosen.length ≤ earliest since readings := by
  induction readings generalizing since chosen with
  | nil => simp [List.eq_nil_of_sublist_nil hchosen]
  | cons t rest ih =>
    obtain ⟨hfirst, hrest⟩ := List.pairwise_cons.mp hsorted
    rw [earliest]
    cases hchosen with
    | cons _ hlater =>
      split
      case isTrue =>
        -- the first one that is chosen can be exchanged for `t`
        cases chosen with
        | nil => simp
        | cons u chosen =>
          have hu : t ≤ u := hfirst u (hlater.subset List.mem_cons_self)
          have hafter := ((spaced_cons_iff.mp hspaced).2).of_le hu
          exact Nat.succ_le_succ (ih hrest (List.sublist_of_cons_sublist hlater) hafter)
      case isFalse => exact ih hrest hlater hspaced
    | cons_cons _ hlater =>
      obtain ⟨hpassed, hafter⟩ := spaced_cons_iff.mp hspaced
      rw [if_pos hpassed]
      exact Nat.succ_le_succ (ih hrest hlater hafter)

theorem isGreatest_earliest (hsorted : readings.Pairwise (· ≤ ·)) (since : τ) :
    IsGreatest (choices since readings) (earliest since readings) := by
  refine ⟨earliest_mem_choices since readings, ?_⟩
  rintro k ⟨chosen, hchosen, hspaced, rfl⟩
  exact length_le_earliest hsorted hchosen hspaced

/-- Looking more often. The readings are in order, and some of them are left out. Then the countdown
is left no higher by looks at all of them than by looks at the others. How far it goes down is the
largest number of readings that can be chosen a period apart. If no time is a period, a second look at
the same reading changes nothing. -/
theorem looking_more_often (hself : ∀ t : τ, Clock.periodPassed t t = false)
    (hsub : fewer.Sublist more) (hsorted : more.Pairwise (· ≤ ·)) (c : Countdown τ) :
    (c.lookAll more).value ≤ (c.lookAll fewer).value ∧
    (∃ k, IsGreatest (choices c.since more) k ∧
      (c.lookAll more).value.toNat = c.value.toNat - k) ∧
    ∀ (before after : List τ) (t : τ),
      c.lookAll (before ++ t :: t :: after) = c.lookAll (before ++ t :: after) := by
  have hmore := isGreatest_earliest hsorted c.since
  have hfewer := isGreatest_earliest (hsorted.sublist hsub) c.since
  refine ⟨?_, ⟨_, hmore, value_lookAll c more⟩, fun before after t => ?_⟩
  · have hle : earliest c.since fewer ≤ earliest c.since more :=
      hmore.2 (choices_mono hsub hfewer.1)
    rw [BitVec.le_def, value_lookAll, value_lookAll]
    exact Nat.sub_le_sub_left hle _
  · simp only [lookAll_append, lookAll_cons, tick_tick (hself t)]

/-- With two looks in between the countdown is lowered at 1/60 and 1/30 instead of at 1/50. -/
theorem looking_more_often_between :
    let c : Countdown ℚ := ⟨9, 0⟩
    let fewer : List ℚ := [1 / 50, 1 / 30]
    let more : List ℚ := [1 / 60, 1 / 50, 1 / 30, 1 / 30]
    (∀ t : ℚ, Clock.periodPassed t t = false) ∧ fewer.Sublist more ∧ more.Pairwise (· ≤ ·) ∧
    (c.lookAll more).value = 7 ∧ (c.lookAll fewer).value = 8 ∧
    (c.lookAll more).value ≤ (c.lookAll fewer).value ∧
    c.lookAll more = c.lookAll [1 / 60, 1 / 50, 1 / 30] := by
  intro c fewer more
  have hself : ∀ t : ℚ, Clock.periodPassed t t = false := by
    intro t
    simp [Clock.periodPassed]
  have hsub : fewer.Sublist more :=
    .cons _ (.cons_cons _ (.cons_cons _ (List.nil_sublist _)))
  have hsorted : more.Pairwise (· ≤ ·) := by decide +kernel
  have hseven : (c.lookAll more).value = 7 := by decide +kernel
  have height : (c.lookAll fewer).value = 8 := by decide +kernel
  obtain ⟨hle, -, hrepeat⟩ := looking_more_often hself hsub hsorted c
  exact ⟨hself, hsub, hsorted, hseven, height, hle, hrepeat [1 / 60, 1 / 50] [] (1 / 30)⟩

end ChipEight.Countdown
