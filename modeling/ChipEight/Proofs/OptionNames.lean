import ChipEight.CommandLine.Words
import ChipEight.Proofs.DecimalIntegers
import Mathlib.Data.Fintype.Basic
import Mathlib.Data.List.Infix

/-!
# Names of options

A long option may be cut short as long as no other long option begins like it. Every such name stands
for its option, alone or with a value behind an equals sign. A word that does not begin with a dash
stands for an argument, and so does an integer, even one below zero.
-/
namespace ChipEight.CommandLine

namespace Flag

instance : Fintype Flag where
  elems := {.help, .file, .hires, .speed, .scale}
  complete flag := by cases flag <;> decide

def long : Flag → String
  | .help => "--help"
  | .file => "--file"
  | .hires => "--hires"
  | .speed => "--speed"
  | .scale => "--scale"

/-- A way to name an option: the one short name, or the beginning of its long name and of no other. -/
def Named (flag : Flag) (name : List Char) : Prop :=
  flag = .file ∧ name = "-f".toList ∨
    name <+: flag.long.toList ∧ ∀ other : Flag, name <+: other.long.toList → other = flag

instance (flag : Flag) (name : List Char) : Decidable (flag.Named name) :=
  inferInstanceAs (Decidable (_ ∨ _))

end Flag

variable {name value s : List Char} {flag : Flag} {a : Attached}

def Attached.value? : Attached → Option (List Char)
  | .none => .none
  | .afterEquals value | .joined value => some value

/-! ## Names and values in one word -/

theorem splitValue_append (h : '=' ∉ name) (value : List Char) :
    splitValue (name ++ '=' :: value) = (name, .afterEquals value) := by
  have hname : ∀ c ∈ name, decide (c ≠ '=') = true := fun c hc =>
    decide_eq_true fun heq => h (heq ▸ hc)
  rw [splitValue, List.span_eq_takeWhile_dropWhile, List.takeWhile_append_of_pos hname,
    List.dropWhile_append_of_pos hname, List.takeWhile_cons_of_neg (by decide),
    List.dropWhile_cons_of_neg (by decide), List.append_nil]

theorem splitValue_of_not_mem (h : '=' ∉ s) : splitValue s = (s, .none) := by
  have hs : ∀ c ∈ s, decide (c ≠ '=') = true := fun c hc => decide_eq_true fun heq => h (heq ▸ hc)
  have hspan : s.span (· ≠ '=') = ((s ++ []).takeWhile (· ≠ '='), (s ++ []).dropWhile (· ≠ '=')) := by
    rw [List.append_nil, List.span_eq_takeWhile_dropWhile]
  rw [splitValue, hspan, List.takeWhile_append_of_pos hs, List.dropWhile_append_of_pos hs,
    List.takeWhile_nil, List.dropWhile_nil, List.append_nil]

theorem ofSpelling?_eq_none (h : '=' ∈ s) : Flag.ofSpelling? s = none := by
  have hspellings : ∀ p ∈ Flag.spellings, '=' ∉ p.1.toList := by decide
  rw [Flag.ofSpelling?, Option.map_eq_none_iff, List.find?_eq_none]
  exact fun p hp heq => hspellings p hp (eq_of_beq heq ▸ h)

theorem exists_of_classify (h : classify s = .ok (.option flag a)) :
    ∃ c rest, s = '-' :: c :: rest := by
  unfold classify at h
  split at h
  case h_1 c rest => exact ⟨c, rest, rfl⟩
  case h_2 => cases h

theorem guess_eq_option_iff :
    guess s = .ok (.option flag a) ↔ ∃ spelling, candidates s = [(spelling, flag, a)] := by
  unfold guess
  constructor
  case mp =>
    intro h
    split at h
    case h_1 spelling f b heq =>
      cases h
      exact ⟨spelling, heq⟩
    case h_2 => split at h <;> cases h
    case h_3 => cases h
  case mpr =>
    rintro ⟨spelling, heq⟩
    rw [heq]

/-- What a name is guessed to mean does not depend on a value behind an equals sign. -/
theorem guess_append (hname : guess name = .ok (.option flag .none)) (hsign : '=' ∉ name)
    (value : List Char) : guess (name ++ '=' :: value) = .ok (.option flag (.afterEquals value)) := by
  rw [guess_eq_option_iff] at hname ⊢
  obtain ⟨spelling, hname⟩ := hname
  refine ⟨spelling, ?_⟩
  unfold candidates at hname
  split at hname
  case h_1 rest =>
    rw [splitValue_of_not_mem hsign] at hname
    rw [List.cons_append, List.cons_append, candidates, ← List.cons_append, ← List.cons_append,
      splitValue_append hsign]
    obtain ⟨p, hfilter, heq⟩ := List.map_eq_singleton_iff.mp hname
    obtain ⟨rfl, rfl⟩ : p.1 = spelling ∧ p.2 = flag := by simpa using heq
    simp only [hfilter, List.map_cons, List.map_nil]
  case h_2 =>
    -- a short option has the letters behind it as its value, so it is never guessed alone
    obtain ⟨p, -, heq⟩ := List.map_eq_singleton_iff.mp hname
    cases heq
  case h_3 => cases hname

/-- A name with a value behind an equals sign stands for the option that it stands for alone. -/
theorem classify_append (hname : classify name = .ok (.option flag .none)) (hsign : '=' ∉ name)
    (value : List Char) :
    ∃ a : Attached, a.value? = some value ∧
      classify (name ++ '=' :: value) = .ok (.option flag a) := by
  obtain ⟨c, rest, rfl⟩ := exists_of_classify hname
  have hnone := ofSpelling?_eq_none (s := '-' :: c :: rest ++ '=' :: value) (by simp)
  have hsplit := splitValue_append hsign value
  rw [List.cons_append, List.cons_append] at hnone hsplit ⊢
  simp only [classify, splitValue_of_not_mem hsign] at hname
  simp only [classify, hnone, hsplit]
  cases hspelling : Flag.ofSpelling? ('-' :: c :: rest) with
  | some f =>
    rw [hspelling] at hname
    cases hname
    refine ⟨_, ?_, rfl⟩
    split <;> rfl
  | none =>
    rw [hspelling] at hname
    exact ⟨.afterEquals value, rfl, guess_append hname hsign value⟩

namespace Flag.Named

theorem classify (h : flag.Named name) : classify name = .ok (.option flag .none) := by
  have hlong : ∀ flag : Flag, ∀ name ∈ flag.long.toList.inits,
      (∀ other : Flag, name <+: other.long.toList → other = flag) →
        CommandLine.classify name = .ok (.option flag .none) := by decide
  rcases h with ⟨rfl, rfl⟩ | ⟨hbegins, hunique⟩
  · decide
  · exact hlong flag name ((List.mem_inits _ _).mpr hbegins) hunique

theorem equals_notMem (h : flag.Named name) : '=' ∉ name := by
  have hlong : ∀ flag : Flag, '=' ∉ flag.long.toList := by decide
  rcases h with ⟨-, rfl⟩ | ⟨hbegins, -⟩
  · decide
  · exact fun hc => hlong flag (hbegins.subset hc)

end Flag.Named

/-! ## Arguments -/

theorem classify_of_head (h : s.head? ≠ some '-') : classify s = .ok .argument := by
  unfold classify
  split
  case h_1 => exact absurd rfl h
  case h_2 => rfl

theorem isNegativeNumber_of_isDigit (hne : s ≠ []) (h : ∀ c ∈ s, c.isDigit = true) :
    isNegativeNumber ('-' :: s) = true := by
  have hdigits : isDigits s = true := by
    simp only [isDigits, Bool.and_eq_true, Bool.not_eq_true', List.isEmpty_eq_false_iff,
      List.all_eq_true]
    exact ⟨hne, fun c hc => by rw [Text.digitValue?_of_isDigit (h c hc)]; rfl⟩
  simp [isNegativeNumber, isUnsigned, hdigits]

theorem ne_of_isDigit {c : Char} (hc : c.isDigit = true) (hmem : c ∈ s) :
    ∀ p ∈ Flag.spellings, ¬(p.1.toList == s) = true := by
  have hspellings : ∀ p ∈ Flag.spellings, p.1.toList.any Char.isDigit = false := by decide
  intro p hp heq
  rw [← eq_of_beq heq] at hmem
  exact List.any_eq_false.mp (hspellings p hp) c hmem hc

/-- A negative number is no option, since options have no digits in their names. -/
theorem classify_negative (hne : s ≠ []) (h : ∀ c ∈ s, c.isDigit = true) :
    classify ('-' :: s) = .ok .argument := by
  have hnumber := isNegativeNumber_of_isDigit hne h
  obtain ⟨d, rest, rfl⟩ := List.exists_cons_of_ne_nil hne
  have hd := h d List.mem_cons_self
  have hnone : Flag.ofSpelling? ('-' :: d :: rest) = none := by
    rw [Flag.ofSpelling?, Option.map_eq_none_iff, List.find?_eq_none]
    exact ne_of_isDigit hd (by simp)
  have hsign : '=' ∉ '-' :: d :: rest := fun hc => by
    rcases List.mem_cons.mp hc with hc | hc
    · exact absurd hc (by decide)
    · exact absurd (h '=' hc) (by decide)
  have hcandidates : candidates ('-' :: d :: rest) = [] := by
    unfold candidates
    split
    case h_1 heq =>
      obtain ⟨rfl, -⟩ := List.cons.inj (List.cons.inj heq).2
      exact absurd hd (by decide)
    case h_2 heq =>
      cases heq
      rw [List.map_eq_nil_iff, List.filter_eq_nil_iff]
      exact ne_of_isDigit hd (by simp)
    case h_3 => rfl
  simp only [classify, hnone, splitValue_of_not_mem hsign, guess, hcandidates, hnumber, Bool.true_or,
    if_true]

theorem classify_integer (n : ℤ) : classify (toString n).toList = .ok .argument := by
  have hdigit : ∀ c ∈ (toString n.natAbs).toList, c.isDigit = true := fun c hc =>
    Text.isDigit_of_mem_repr hc
  rw [Text.toList_toString]
  split
  · exact classify_negative (Text.toString_ne_nil _) hdigit
  · refine classify_of_head fun h => ?_
    exact absurd (hdigit '-' (List.mem_of_mem_head? h)) (by decide)

end ChipEight.CommandLine
