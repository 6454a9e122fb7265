import ChipEight.CommandLine.Parser
import ChipEight.Proofs.OptionNames

/-!
# Groups of options

A command line made of groups, each of which is one option with the value that it needs, is read for
the last value of every option. A file must be among them, and the order of groups that set different
options does not matter.
-/
namespace ChipEight.CommandLine

/-- What one group of words sets. -/
inductive Setting where
  | file (path : String)
  | hires
  | speed (n : ℤ)
  | scale (n : ℤ)
deriving DecidableEq

namespace Setting

def flag : Setting → Flag
  | file _ => .file
  | hires => .hires
  | speed _ => .speed
  | scale _ => .scale

def value? : Setting → Option String
  | file path => some path
  | hires => none
  | speed n | scale n => some (toString n)

/-- Two dashes are no path, and a path in a word of its own does not begin with a dash. An integer
has no more digits than are read. -/
def Permitted (attached : Bool) : Setting → Prop
  | file path => path ≠ "--" ∧ (attached = false → path.toList.head? ≠ some '-')
  | hires => True
  | speed n | scale n => (Nat.toDigits 10 n.natAbs).length ≤ 4300

instance (attached : Bool) : (s : Setting) → Decidable (s.Permitted attached)
  | file _ => inferInstanceAs (Decidable (_ ∧ (_ → _)))
  | hires => .isTrue trivial
  | speed _ | scale _ => inferInstanceAs (Decidable (_ ≤ _))

def file? : Setting → Option String
  | file path => some path
  | _ => none

def speed? : Setting → Option ℤ
  | speed n => some n
  | _ => none

def scale? : Setting → Option ℤ
  | scale n => some n
  | _ => none

end Setting

/-- An option with its value, in the same word behind an equals sign or in the next word. -/
structure OptionGroup where
  setting : Setting
  name : String
  attached : Bool
  named : setting.flag.Named name.toList
  permitted : setting.Permitted attached

def OptionGroup.words (g : OptionGroup) : List String :=
  match g.setting.value? with
  | none => [g.name]
  | some value => if g.attached then [g.name ++ "=" ++ value] else [g.name, value]

def wordsOf (gs : List OptionGroup) : List String := gs.flatMap OptionGroup.words

def settingsOf (gs : List OptionGroup) : List Setting := gs.map OptionGroup.setting

def lastOf {α : Type} (pick : Setting → Option α) (ss : List Setting) : Option α :=
  (ss.filterMap pick).getLast?

variable {α : Type} {pick : Setting → Option α} {s : Setting} {ss : List Setting} {flag : Flag}
  {p : Progress} {attached : Bool} {value : String} {g : OptionGroup}

theorem Setting.takesValue (h : s.value? = some value) : s.flag.takesValue = true := by
  cases s with
  | hires => cases h
  | file | speed | scale => rfl

theorem lastOf_cons : lastOf pick (s :: ss) = (lastOf pick ss).or (pick s) := by
  cases hpick : pick s with
  | none => simp [lastOf, hpick]
  | some v => simp [lastOf, hpick, List.getLast?_cons]

/-- The settings of every option are the same and in the same order. -/
def SameByOption (ss ts : List Setting) : Prop :=
  ∀ flag, ss.filter (fun s => s.flag = flag) = ts.filter (fun s => s.flag = flag)

/-- Settings of different options that stand side by side may change places. -/
theorem SameByOption.swap {s t : Setting} (h : s.flag ≠ t.flag) (before rest : List Setting) :
    SameByOption (before ++ s :: t :: rest) (before ++ t :: s :: rest) := by
  intro flag
  by_cases hs : s.flag = flag
  · have ht : t.flag ≠ flag := fun ht => h (hs.trans ht.symm)
    simp [hs, ht]
  · simp [List.filter_cons, hs]

/-- The last value of an option is found among the settings of this option. -/
theorem lastOf_filter (h : ∀ s v, pick s = some v → s.flag = flag) (ss : List Setting) :
    lastOf pick (ss.filter fun s => s.flag = flag) = lastOf pick ss := by
  rw [lastOf, lastOf, List.filterMap_filter]
  refine congrArg List.getLast? (List.filterMap_congr fun s _ => ?_)
  split
  case isTrue => rfl
  case isFalse hflag =>
    rw [decide_eq_true_eq] at hflag
    exact (Option.eq_none_iff_forall_ne_some.mpr fun v hv => hflag (h s v hv)).symm

theorem SameByOption.lastOf_eq {ts : List Setting} (hsame : SameByOption ss ts) (flag : Flag)
    (h : ∀ s v, pick s = some v → s.flag = flag) : lastOf pick ss = lastOf pick ts := by
  rw [← lastOf_filter h, hsame, lastOf_filter h]

theorem SameByOption.mem_hires {ts : List Setting} (hsame : SameByOption ss ts) :
    Setting.hires ∈ ss ↔ Setting.hires ∈ ts := by
  have hmem (us : List Setting) :
      Setting.hires ∈ us ↔ Setting.hires ∈ us.filter fun s => s.flag = .hires := by
    simp [Setting.flag]
  rw [hmem ss, hsame, ← hmem ts]

namespace Progress

def after (p : Progress) : Setting → Progress
  | .file path => { p with file := some (some path) }
  | .hires => { p with hires := true }
  | .speed n => { p with speed := some n }
  | .scale n => { p with scale := some n }

theorem valueOf_eq_some (h : value ≠ "--") : valueOf value.toList = some value.toList := by
  rw [valueOf, if_neg fun heq => h (String.toList_inj.mp (heq.trans rfl))]

theorem setInteger_toString {n : ℤ} (h : (Nat.toDigits 10 n.natAbs).length ≤ 4300)
    (set : Option ℤ → Progress) :
    setInteger flag (toString n).toList set = .ok (set (some n)) := by
  have hread := Text.integer?_toString h
  have hdashes : toString n ≠ "--" := fun heq => by
    have hnone : Text.integer? "--".toList = none := by decide
    rw [heq, hnone] at hread
    cases hread
  simp only [setInteger, valueOf_eq_some hdashes, hread]

theorem setValue_eq_after (hvalue : s.value? = some value) (h : s.Permitted attached) :
    p.setValue s.flag value.toList = .ok (p.after s) := by
  cases s with
  | file path =>
    obtain rfl := Option.some.inj hvalue
    simp [setValue, Setting.flag, after, valueOf_eq_some h.1]
  | hires => cases hvalue
  | speed n =>
    obtain rfl := Option.some.inj hvalue
    exact setInteger_toString h fun speed => { p with speed }
  | scale n =>
    obtain rfl := Option.some.inj hvalue
    exact setInteger_toString h fun scale => { p with scale }

/-- A setting after all groups is the last one that is given, or else the one before. -/
theorem foldl_after {β : Type} (get : Progress → Option β) (f : α → β)
    (h : ∀ p s, get (p.after s) = ((pick s).map f).or (get p)) (p : Progress) (ss : List Setting) :
    get (ss.foldl after p) = ((lastOf pick ss).map f).or (get p) := by
  induction ss generalizing p with
  | nil => rfl
  | cons s ss ih => rw [List.foldl_cons, ih, h, lastOf_cons, Option.map_or, Option.or_assoc]

theorem hires_foldl_after (p : Progress) (ss : List Setting) :
    (ss.foldl after p).hires = (p.hires || decide (Setting.hires ∈ ss)) := by
  induction ss generalizing p with
  | nil => simp
  | cons s ss ih =>
    rw [List.foldl_cons, ih]
    cases s <;> simp [after]

theorem extras_foldl_after (p : Progress) (ss : List Setting) :
    (ss.foldl after p).extras = p.extras := by
  induction ss generalizing p with
  | nil => rfl
  | cons s ss ih =>
    rw [List.foldl_cons, ih]
    cases s <;> rfl

theorem options_foldl_after (ss : List Setting) :
    (ss.foldl after {}).options =
      match lastOf Setting.file? ss with
      | some path => .ok {
          file := some path
          hires := decide (Setting.hires ∈ ss)
          speed := some ((lastOf Setting.speed? ss).getD 500)
          scale := some ((lastOf Setting.scale? ss).getD 15) }
      | none => .error (.usage .fileRequired) := by
  have hfile : (ss.foldl after {}).file = ((lastOf Setting.file? ss).map some).or none :=
    foldl_after Progress.file some (fun p s => by cases s <;> rfl) {} ss
  have hspeed : (ss.foldl after {}).speed = ((lastOf Setting.speed? ss).map id).or (some 500) :=
    foldl_after Progress.speed id (fun p s => by cases s <;> rfl) {} ss
  have hscale : (ss.foldl after {}).scale = ((lastOf Setting.scale? ss).map id).or (some 15) :=
    foldl_after Progress.scale id (fun p s => by cases s <;> rfl) {} ss
  have hhires := hires_foldl_after {} ss
  have hextras := extras_foldl_after {} ss
  rw [Option.map_id, id, Option.or_some] at hspeed hscale
  rw [Bool.false_or] at hhires
  rw [options, hfile, hspeed, hscale, hhires, hextras]
  cases lastOf Setting.file? ss <;> rfl

end Progress

/-! ## Reading the words -/

theorem classifyAll_cons {word : String} {words : List String} {w : Word} {ws : List (String × Word)}
    (hword : classify word.toList = .ok w) (hwords : classifyAll words = .ok ws) :
    classifyAll (word :: words) = .ok ((word, w) :: ws) := by
  have hdashes : word ≠ "--" := by
    rintro rfl
    have hambiguous : (classify "--".toList).isOk = false := by decide
    rw [hword] at hambiguous
    cases hambiguous
  rw [classifyAll, hword, hwords]
  · rfl
  · exact hdashes

theorem take_attached {a : Attached} {word : String} {rest : List (String × Word)}
    (hvalue : s.value? = some value) (h : s.Permitted attached) (ha : a.value? = some value.toList) :
    take p ((word, .option s.flag a) :: rest) = take (p.after s) rest := by
  have htakes := Setting.takesValue hvalue
  have hset := Progress.setValue_eq_after (p := p) hvalue h
  cases a with
  | none => cases ha
  | afterEquals v | joined v =>
    obtain rfl := Option.some.inj ha
    simp only [take, htakes, hset]
    rfl

theorem take_separate {word : String} {rest : List (String × Word)}
    (hvalue : s.value? = some value) (h : s.Permitted attached) :
    take p ((word, .option s.flag .none) :: (value, .argument) :: rest) = take (p.after s) rest := by
  have htakes := Setting.takesValue hvalue
  have hset := Progress.setValue_eq_after (p := p) hvalue h
  simp only [take, htakes, hset, if_true]
  rfl

theorem take_hires {word : String} {rest : List (String × Word)} :
    take p ((word, .option .hires .none) :: rest) = take (p.after .hires) rest := by
  rcases rest with - | ⟨⟨v, - | - | - | -⟩, rest⟩ <;> rfl

theorem Setting.classify_value (hvalue : s.value? = some value) (h : s.Permitted false) :
    classify value.toList = .ok .argument := by
  cases s with
  | file path =>
    obtain rfl := Option.some.inj hvalue
    exact classify_of_head (h.2 rfl)
  | hires => cases hvalue
  | speed n | scale n =>
    obtain rfl := Option.some.inj hvalue
    exact classify_integer n

namespace OptionGroup

/-- A group is classified word by word, and taking its words sets its option. -/
theorem exists_classified (g : OptionGroup) :
    ∃ ws : List (String × Word),
      (∀ words rest, classifyAll words = .ok rest →
        classifyAll (g.words ++ words) = .ok (ws ++ rest)) ∧
      ∀ p rest, take p (ws ++ rest) = take (p.after g.setting) rest := by
  have hname := g.named.classify
  rw [OptionGroup.words]
  cases hvalue : g.setting.value? with
  | none =>
    have hhires : g.setting = .hires := by cases hs : g.setting <;> simp_all [Setting.value?]
    rw [hhires] at hname ⊢
    exact ⟨[(g.name, .option .hires .none)], fun _ _ => classifyAll_cons hname,
      fun _ _ => take_hires⟩
  | some value =>
    cases hattached : g.attached with
    | true =>
      obtain ⟨a, ha, hword⟩ := classify_append hname g.named.equals_notMem value.toList
      have hlist : (g.name ++ "=" ++ value).toList = g.name.toList ++ '=' :: value.toList := by
        rw [String.toList_append, String.toList_append, List.append_assoc]
        rfl
      rw [← hlist] at hword
      exact ⟨[(g.name ++ "=" ++ value, .option g.setting.flag a)],
        fun _ _ => classifyAll_cons hword, fun _ _ => take_attached hvalue g.permitted ha⟩
    | false =>
      have hargument := Setting.classify_value hvalue (hattached ▸ g.permitted)
      exact ⟨[(g.name, .option g.setting.flag .none), (value, .argument)],
        fun _ _ h => classifyAll_cons hname (classifyAll_cons hargument h),
        fun _ _ => take_separate hvalue g.permitted⟩

end OptionGroup

theorem exists_classified_wordsOf (gs : List OptionGroup) :
    ∃ ws, classifyAll (wordsOf gs) = .ok ws ∧
      ∀ p, take p ws = .ok ((settingsOf gs).foldl Progress.after p) := by
  induction gs with
  | nil => exact ⟨[], rfl, fun _ => rfl⟩
  | cons g gs ih =>
    obtain ⟨rest, hrest, htake⟩ := ih
    obtain ⟨ws, hclassify, hgroup⟩ := g.exists_classified
    exact ⟨ws ++ rest, hclassify _ _ hrest, fun p => (hgroup p rest).trans (htake _)⟩

theorem parse_wordsOf (gs : List OptionGroup) :
    parse (wordsOf gs) = ((settingsOf gs).foldl Progress.after {}).options := by
  obtain ⟨ws, hclassify, htake⟩ := exists_classified_wordsOf gs
  rw [parse, hclassify]
  simp only [Except.mapError, htake, bind, Except.bind]

/-- A command line made of groups sets every option to the last value that it is given. It fails with
exit code 2 if no file is given, and the order of groups that set different options is of no
account. -/
theorem parse_groups (gs : List OptionGroup) :
    parse (wordsOf gs) =
      (match lastOf Setting.file? (settingsOf gs) with
        | some path => .ok {
            file := some path
            hires := decide (Setting.hires ∈ settingsOf gs)
            speed := some ((lastOf Setting.speed? (settingsOf gs)).getD 500)
            scale := some ((lastOf Setting.scale? (settingsOf gs)).getD 15) }
        | none => .error (.usage .fileRequired)) ∧
    Stop.exitCode (.usage .fileRequired) = 2 ∧
    ∀ hs : List OptionGroup, SameByOption (settingsOf gs) (settingsOf hs) →
      parse (wordsOf gs) = parse (wordsOf hs) := by
  refine ⟨?_, rfl, fun hs hsame => ?_⟩
  · rw [parse_wordsOf, Progress.options_foldl_after]
  · have hfile : lastOf Setting.file? (settingsOf gs) = lastOf Setting.file? (settingsOf hs) :=
      hsame.lastOf_eq .file fun s v h => by cases s <;> first | rfl | cases h
    have hspeed : lastOf Setting.speed? (settingsOf gs) = lastOf Setting.speed? (settingsOf hs) :=
      hsame.lastOf_eq .speed fun s v h => by cases s <;> first | rfl | cases h
    have hscale : lastOf Setting.scale? (settingsOf gs) = lastOf Setting.scale? (settingsOf hs) :=
      hsame.lastOf_eq .scale fun s v h => by cases s <;> first | rfl | cases h
    rw [parse_wordsOf, parse_wordsOf, Progress.options_foldl_after, Progress.options_foldl_after,
      hfile, hspeed, hscale]
    simp only [hsame.mem_hires]

def shortenedGroups : List OptionGroup := [
  ⟨.speed (-5), "--sp", false, by decide, by decide⟩,
  ⟨.hires, "--hi", false, by decide, by decide⟩,
  ⟨.file "a.rom", "-f", false, by decide, by decide⟩,
  ⟨.file "-b=c", "--f", true, by decide, by decide⟩,
  ⟨.speed 700, "--speed", true, by decide, by decide⟩]

/-- Shortened names, a negative number and options that are given twice, read in two orders. -/
theorem parse_groups_shortened :
    let gs := shortenedGroups
    let hs := gs.set 0 gs[1] |>.set 1 gs[0]
    wordsOf gs = ["--sp", "-5", "--hi", "-f", "a.rom", "--f=-b=c", "--speed=700"] ∧
      SameByOption (settingsOf gs) (settingsOf hs) ∧
      parse (wordsOf hs) = .ok ⟨some "-b=c", true, some 700, some 15⟩ := by
  intro gs hs
  have hsame : SameByOption (settingsOf gs) (settingsOf hs) := .swap (by decide) [] _
  refine ⟨by decide, hsame, ?_⟩
  rw [← (parse_groups gs).2.2 hs hsame, (parse_groups gs).1]
  rfl

end ChipEight.CommandLine
