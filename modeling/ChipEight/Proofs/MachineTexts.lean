import ChipEight.Machine.Report
import ChipEight.Proofs.Numerals
import ChipEight.Proofs.SeparatedTexts
import ChipEight.Proofs.WellFormedMachines

/-!
# What the text of a machine tells

The text of a machine is a row of labels with a value after each. No value holds the character with
which the next label begins, so the values can be told apart. They are the program counter, the index,
the registers, the addresses in use on the stack, the countdowns, the redraw mark and the resolution;
nothing else shows, in particular no stale address.
-/
namespace ChipEight

namespace Text

/-- A value with the label before it, of which the first character stands apart. -/
@[ext] structure Labelled where
  first : Char
  label : String
  value : String

namespace Labelled

def chars (f : Labelled) : List Char := f.first :: (f.label.toList ++ f.value.toList)

/-- The value of `f` ends where the label of `g` begins. -/
def EndsBefore (f g : Labelled) : Prop := g.first ∉ f.value.toList

/-- A value can be told from the labels and values after it. -/
theorem value_inj {f g : Labelled} {fs gs : List Labelled} (hfirst : fs.map first = gs.map first)
    (hf : (f :: fs).IsChain EndsBefore) (hg : (g :: gs).IsChain EndsBefore)
    (h : f.value.toList ++ fs.flatMap chars = g.value.toList ++ gs.flatMap chars) :
    f.value = g.value := by
  rcases fs with - | ⟨f', fs⟩ <;> rcases gs with - | ⟨g', gs⟩
  · simpa [String.toList_inj] using h
  · cases hfirst
  · cases hfirst
  · simp only [List.flatMap_cons, chars, List.cons_append, ← (List.cons.inj hfirst).1] at h
    have hnext := (List.isChain_cons_cons.mp hg).1
    rw [EndsBefore, ← (List.cons.inj hfirst).1] at hnext
    exact String.toList_inj.mp (append_cons_inj (List.isChain_cons_cons.mp hf).1 hnext h).1

/-- Rows of labels and values with the same labels and the same text have the same values. -/
theorem flatMap_chars_inj {fs gs : List Labelled} (hfirst : fs.map first = gs.map first)
    (hlabel : fs.map label = gs.map label) (hf : fs.IsChain EndsBefore) (hg : gs.IsChain EndsBefore)
    (h : fs.flatMap chars = gs.flatMap chars) : fs = gs := by
  induction fs generalizing gs with
  | nil => exact (List.map_eq_nil_iff.mp hlabel.symm).symm
  | cons f fs ih => cases gs with
    | nil => cases hlabel
    | cons g gs =>
      obtain ⟨hf1, hfirst⟩ := List.cons.inj hfirst
      obtain ⟨hl1, hlabel⟩ := List.cons.inj hlabel
      simp only [List.flatMap_cons, chars, List.cons_append, List.append_assoc, hl1] at h
      have hrest := List.append_cancel_left (List.cons.inj h).2
      have hvalue := value_inj hfirst hf hg hrest
      rw [hvalue] at hrest
      rw [ih hfirst hlabel hf.of_cons hg.of_cons (List.append_cancel_left hrest),
        Labelled.ext hf1 hl1 hvalue]

end Labelled

/-- An integer that stands between the commas and brackets of a list and can be read back. -/
structure IsItem (write : Int → String) (read : List Char → Int) (a : Int) : Prop where
  read_write : read (write a).toList = a
  ne_nil : (write a).toList ≠ []
  comma : ',' ∉ (write a).toList
  bracket : ']' ∉ (write a).toList

section Items
variable {write : Int → String} {read : List Char → Int} {as bs : List Int}

theorem bracket_not_mem_list (h : ∀ a ∈ as, IsItem write read a) :
    ']' ∉ (", ".intercalate (as.map write)).toList := by
  rw [String.toList_intercalate, List.map_map]
  intro hc
  rcases mem_of_mem_intercalate hc with hc | ⟨w, hw, hc⟩
  · exact absurd hc (by decide)
  · obtain ⟨a, ha, rfl⟩ := List.mem_map.mp hw
    exact (h a ha).bracket hc

theorem list_inj (ha : ∀ a ∈ as, IsItem write read a) (hb : ∀ b ∈ bs, IsItem write read b)
    (h : ", ".intercalate (as.map write) = ", ".intercalate (bs.map write)) : as = bs := by
  have hread {cs : List Int} (hc : ∀ c ∈ cs, IsItem write read c) :
      ((cs.map write).map String.toList).map read = cs := by
    rw [List.map_map, List.map_map]
    exact (List.map_congr_left fun c hmem => (hc c hmem).read_write).trans (List.map_id cs)
  have hitem {cs : List Int} (hc : ∀ c ∈ cs, IsItem write read c) :
      ∀ w ∈ (cs.map write).map String.toList, w ≠ [] ∧ ',' ∉ w := by
    simp only [List.mem_map, forall_exists_index, and_imp, forall_apply_eq_imp_iff₂]
    exact fun c hmem => ⟨(hc c hmem).ne_nil, (hc c hmem).comma⟩
  have hlist := congrArg String.toList h
  rw [String.toList_intercalate, String.toList_intercalate] at hlist
  rw [← hread ha, ← hread hb, items_inj (hitem ha) (hitem hb) hlist]

end Items

end Text

open Text

namespace Registers

/-- The value of a register, written in decimal digits. -/
def readItem (digits : List Char) : Int := Nat.ofDigitChars 10 digits 0

theorem isItem {v : Int} (h : IsByte v) : IsItem toString readItem v := by
  obtain ⟨n, -, rfl⟩ := h.exists_nat
  exact {
    read_write := congrArg Nat.cast (ofDigitChars_toString n)
    ne_nil := toString_ne_nil n
    comma := not_mem_toString (n := n) (by decide)
    bracket := not_mem_toString (n := n) (by decide) }

end Registers

namespace CallStack

def item (a : Int) : String := "'0x" ++ hex 3 a ++ "'"

/-- The address in an item, after its quote and its prefix. -/
def readItem (w : List Char) : Int := ofHex ((w.drop 3).take 3)

theorem text_eq (s : CallStack) : s.text = bracketed (s.toList.map item) := rfl

theorem isItem {a : Int} (h : IsAddress a) : IsItem item readItem a := by
  obtain ⟨n, hn, rfl⟩ := h.exists_nat
  have hitem : (item n).toList = "'0x".toList ++ ((hex 3 n).toList ++ "'".toList) := by
    rw [item, String.toList_append, String.toList_append, List.append_assoc]
  have hmem {c : Char} (hc : c ∉ hexDigits) (hends : c ∉ "'0x".toList) : c ∉ (item n).toList := by
    have hquote : c ∉ "'".toList := fun hq => hends (List.mem_of_mem_take (i := 1) hq)
    rw [hitem, List.mem_append, List.mem_append]
    exact not_or.mpr ⟨hends, not_or.mpr ⟨not_mem_hex hc, hquote⟩⟩
  refine ⟨?_, ?_, hmem (by decide) (by decide), hmem (by decide) (by decide)⟩
  · rw [readItem, hitem, take_drop_append (by decide) (length_hex hn (by decide)), ofHex_hex]
  · rw [hitem]
    exact List.cons_ne_nil _ _

end CallStack

theorem Resolution.width_inj {r s : Resolution} (h : r.width = s.width) : r = s := by
  cases r <;> cases s <;> simp_all [width]

namespace Machine
variable {τ : Type} {m n : Machine τ}

def fields (m : Machine τ) : List Labelled := [
  ⟨'P', "C_REGISTER:0x", hex 4 m.pc⟩,
  ⟨' ', "| IDX_REGISTER:0x", hex 4 m.index⟩,
  ⟨' ', "| VARIABLE_REGISTERS:[", ", ".intercalate (m.registers.values.toList.map toString)⟩,
  ⟨']', "\nSTACK:[", ", ".intercalate (m.stack.toList.map CallStack.item)⟩,
  ⟨']', " | SP:", toString m.stack.depth⟩,
  ⟨'\n', "DELAY_TIMER:", toString m.delay.value.toNat⟩,
  ⟨' ', "| SOUND_TIMER:", toString m.sound.value.toNat⟩,
  ⟨'\n', "DRAW: ", truth m.redraw⟩,
  ⟨' ', "| DISPLAY:", toString m.display.width⟩,
  ⟨'x', "", toString m.display.height⟩]

theorem toList_text (m : Machine τ) : m.text.toList = m.fields.flatMap Labelled.chars := by
  unfold Machine.text registersText
  simp [stackText, timersText, displayText, CallStack.text_eq, bracketed, fields, Labelled.chars]

theorem WellFormed.isItem_register (h : m.WellFormed) :
    ∀ v ∈ m.registers.values.toList, IsItem toString Registers.readItem v :=
  fun _ hv => Registers.isItem (h.registers.of_mem hv)

theorem WellFormed.isItem_address (h : m.WellFormed) :
    ∀ a ∈ m.stack.toList, IsItem CallStack.item CallStack.readItem a :=
  fun a ha => CallStack.isItem (h.slots a (Vector.mem_toList_iff.mp (List.mem_of_mem_take ha)))

theorem isChain_fields (h : m.WellFormed) : m.fields.IsChain Labelled.EndsBefore := by
  have hhex {k : ℕ} {n : Int} (hn : 0 ≤ n) : ' ' ∉ (hex k n).toList := by
    obtain ⟨n, rfl⟩ := Int.eq_ofNat_of_zero_le hn
    exact not_mem_hex (by decide)
  have hdraw : ' ' ∉ (truth m.redraw).toList := by cases m.redraw <;> decide
  simp only [fields, List.isChain_cons_cons, List.IsChain.singleton, and_true, Labelled.EndsBefore]
  exact ⟨hhex h.pc.1, hhex h.index.1, bracket_not_mem_list h.isItem_register,
    bracket_not_mem_list h.isItem_address, not_mem_toString (by decide),
    not_mem_toString (by decide), not_mem_toString (by decide), hdraw, not_mem_toString (by decide)⟩

/-- Two machines have the same text exactly if they agree on everything that the text shows. -/
theorem text_eq_iff (hm : m.WellFormed) (hn : n.WellFormed) :
    m.text = n.text ↔
      m.pc = n.pc ∧ m.index = n.index ∧ m.registers = n.registers ∧
        m.stack.toList = n.stack.toList ∧ m.delay.value = n.delay.value ∧
        m.sound.value = n.sound.value ∧ m.redraw = n.redraw ∧
        m.display.resolution = n.display.resolution := by
  constructor
  case mp =>
    intro h
    have hfields : m.fields = n.fields := by
      refine Labelled.flatMap_chars_inj rfl rfl (isChain_fields hm) (isChain_fields hn) ?_
      rw [← toList_text, ← toList_text, h]
    simp only [fields, List.cons.injEq, Labelled.mk.injEq, true_and, and_true] at hfields
    obtain ⟨hpc, hindex, hregisters, hstack, -, hdelay, hsound, hredraw, hwidth, -⟩ := hfields
    refine ⟨hex_inj hm.pc.1 hn.pc.1 hpc, hex_inj hm.index.1 hn.index.1 hindex, ?_,
      list_inj hm.isItem_address hn.isItem_address hstack,
      BitVec.eq_of_toNat_eq (toString_inj.mp hdelay), BitVec.eq_of_toNat_eq (toString_inj.mp hsound),
      truth_inj hredraw, Resolution.width_inj (toString_inj.mp hwidth)⟩
    have hvalues := list_inj hm.isItem_register hn.isItem_register hregisters
    exact congrArg Registers.mk (Vector.toList_inj.mp hvalues)
  case mpr =>
    rintro ⟨hpc, hindex, hregisters, hstack, hdelay, hsound, hredraw, hresolution⟩
    have hdepth : m.stack.depth = n.stack.depth := by
      rw [← CallStack.length_toList, ← CallStack.length_toList, hstack]
    rw [← String.toList_inj, toList_text, toList_text]
    simp only [fields, hpc, hindex, hregisters, hstack, hdepth, hdelay, hsound, hredraw,
      Display.width, Display.height, hresolution]

/-- A stale address and the bytes in memory do not show, and a register does. -/
theorem text_eq_iff_stale :
    let m := initial .low ⟨fun _ => 0, 0⟩ 0
    let n := { m with
      memory := m.memory.writeBytes 0 [0]
      stack := ⟨m.stack.slots.set 0 0x234, 0, by decide⟩ }
    let o := m.setRegister 1 0x20
    m.WellFormed ∧ n.WellFormed ∧ o.WellFormed ∧ m.stack ≠ n.stack ∧ m.text = n.text ∧
      m.text ≠ o.text := by
  intro m n o
  have hm : m.WellFormed := wellFormed_initial _ _ _
  have hn : n.WellFormed := by
    refine { hm.writeBytes 0 [0] with slots := fun a ha => ?_ }
    have hset : a ∈ m.stack.slots.set 0 0x234 := ha
    rcases Vector.mem_or_eq_of_mem_set hset with hold | rfl
    · exact hm.slots a hold
    · exact ⟨by decide, by decide⟩
  have ho : o.WellFormed := hm.setRegister 1 ⟨by decide, by decide⟩
  refine ⟨hm, hn, ho, by decide, (text_eq_iff hm hn).mpr ?_, fun h => ?_⟩
  · exact ⟨rfl, rfl, rfl, rfl, rfl, rfl, rfl, rfl⟩
  · have hregisters : m.registers = o.registers := ((text_eq_iff hm ho).mp h).2.2.1
    exact absurd hregisters (by decide)

end Machine

end ChipEight
