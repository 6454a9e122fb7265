import ChipEight.Instruction.Text
import ChipEight.Proofs.Numerals
import ChipEight.Proofs.SeparatedTexts

/-!
# Assembling the text of an instruction

The text of an instruction is its name and its operands, apart by blanks and with a comma after every
operand but the last. Names and operands hold neither blanks nor commas, so they can be told apart
again, and an assembler that reads them gets the instruction back. Hence no two instructions have the
same text.
-/
namespace ChipEight

/-- The operands that stand for a fixed place. -/
inductive Place where
  | delay | sound | key | index | atIndex | glyph | decimal
deriving DecidableEq

namespace Place

def text : Place → String
  | delay => "DT"
  | sound => "ST"
  | key => "K"
  | index => "I"
  | atIndex => "[I]"
  | glyph => "F"
  | decimal => "B"

def all : List Place := [delay, sound, key, index, atIndex, glyph, decimal]

end Place

inductive Operand where
  | register (x : Register)
  | number (n : ℕ)
  | address (nnn : BitVec 12)
  | mask (kk : Byte)
  | place (p : Place)

namespace Operand
open Text

def text : Operand → String
  | register x => Instruction.registerText x
  | number n => toString n
  | address nnn => Instruction.addressText nnn
  | mask kk => "0x" ++ hex 2 kk.toNat
  | place p => p.text

/-- The operand with a text: digits only are a number, four hexadecimal digits an address and fewer
a mask. -/
def read (cs : List Char) : Operand :=
  if cs.all Char.isDigit then number (Nat.ofDigitChars 10 cs 0)
  else match cs with
    | 'V' :: digits => register (BitVec.ofNat 4 (Nat.ofDigitChars 10 digits 0))
    | '0' :: 'x' :: digits =>
      if digits.length = 4 then address (BitVec.ofNat 12 (ofHex digits))
      else mask (BitVec.ofNat 8 (ofHex digits))
    | cs => place ((Place.all.find? fun p => p.text.toList == cs).getD .delay)

theorem read_text (o : Operand) : read o.text.toList = o := by
  cases o with
  | register x => simp [text, Instruction.registerText, read]
  | number n =>
    have hdigits : (Nat.toDigits 10 n).all Char.isDigit = true :=
      List.all_eq_true.mpr fun c hc => Nat.isDigit_of_mem_toDigits (by decide) (by decide) hc
    simp [text, read, hdigits]
  | address nnn =>
    have hlength : (hex 4 nnn.toNat).toList.length = 4 := length_hex (by omega) (by decide)
    simp [text, Instruction.addressText, read, hlength, ofHex_hex]
  | mask kk =>
    have hlength : (hex 2 kk.toNat).toList.length = 2 := length_hex (by omega) (by decide)
    simp [text, read, hlength, ofHex_hex]
  | place p => cases p <;> rfl

/-- The characters that keep words and lines apart. -/
def separators : List Char := [' ', ',', '\n']

theorem not_mem_separators {c : Char} (h : c.isAlphanum = true) : c ∉ separators := by
  have hnone : ∀ s ∈ separators, s.isAlphanum = false := by simp [separators]
  intro hc
  rw [hnone c hc] at h
  cases h

theorem not_mem_separators_of_mem_repr {n : ℕ} {c : Char} (h : c ∈ n.repr.toList) :
    c ∉ separators := by
  exact not_mem_separators (by simp [Char.isAlphanum, isDigit_of_mem_repr h])

theorem not_mem_separators_of_mem {o : Operand} {c : Char} (h : c ∈ o.text.toList) :
    c ∉ separators := by
  have hregister : ∀ c ∈ "V".toList, c ∉ separators := by simp [separators]
  have hnumeral : ∀ c ∈ "0x".toList, c ∉ separators := by simp [separators]
  cases o with
  | register x =>
    simp only [text, Instruction.registerText, String.toList_append, List.mem_append] at h
    rcases h with h | h
    · exact hregister c h
    · exact not_mem_separators_of_mem_repr h
  | number n => exact not_mem_separators_of_mem_repr h
  | address nnn =>
    simp only [text, Instruction.addressText, String.toList_append, List.mem_append] at h
    rcases h with h | h
    · exact hnumeral c h
    · exact not_mem_separators (isAlphanum_of_mem_hex h)
  | mask kk =>
    simp only [text, String.toList_append, List.mem_append] at h
    rcases h with h | h
    · exact hnumeral c h
    · exact not_mem_separators (isAlphanum_of_mem_hex h)
  | place p =>
    have hplaces : ∀ c ∈ p.text.toList, c ∉ separators := by
      cases p <;> simp [Place.text, separators]
    exact hplaces c h

end Operand

/-! ## Words -/

/-- Words with a comma after each of them but the last. -/
def withCommas : List (List Char) → List (List Char)
  | [] => []
  | [w] => [w]
  | w :: rest => (w ++ [',']) :: withCommas rest

theorem filter_withCommas {ws : List (List Char)} (h : ∀ w ∈ ws, ',' ∉ w) :
    (withCommas ws).map (List.filter fun c => c ≠ ',') = ws := by
  have hfilter {w : List Char} (hw : ',' ∉ w) : w.filter (fun c => c ≠ ',') = w := by
    refine List.filter_eq_self.mpr fun c hc => ?_
    exact decide_eq_true fun heq => hw (heq ▸ hc)
  induction ws using withCommas.induct with
  | case1 => rfl
  | case2 w => simp only [withCommas, List.map_cons, List.map_nil, hfilter (h w (by simp))]
  | case3 w rest hrest ih =>
    have hrest' := ih fun v hv => h v (List.mem_cons_of_mem _ hv)
    rw [withCommas.eq_3 w rest hrest, List.map_cons, hrest', List.filter_append,
      hfilter (h w List.mem_cons_self)]
    simp

theorem mem_of_mem_withCommas {ws : List (List Char)} {w : List Char} {c : Char}
    (hw : w ∈ withCommas ws) (hc : c ∈ w) : c = ',' ∨ ∃ v ∈ ws, c ∈ v := by
  induction ws using withCommas.induct with
  | case1 => cases hw
  | case2 v => exact .inr ⟨w, hw, hc⟩
  | case3 v rest hrest ih =>
    rw [withCommas.eq_3 v rest hrest] at hw
    rcases List.mem_cons.mp hw with rfl | hw
    · rcases List.mem_append.mp hc with hc | hc
      · exact .inr ⟨v, List.mem_cons_self, hc⟩
      · exact .inl (List.mem_singleton.mp hc)
    · rcases ih hw with rfl | ⟨u, hu, hc⟩
      · exact .inl rfl
      · exact .inr ⟨u, List.mem_cons_of_mem _ hu, hc⟩

/-- The names of the instructions. -/
inductive Mnemonic where
  | sys | cls | ret | jp | call | se | sne | ld | add | or | and | xor | sub | subn | shr | shl | rnd
  | drw | skp | sknp
deriving DecidableEq

namespace Mnemonic

def all : List Mnemonic :=
  [sys, cls, ret, jp, call, se, sne, ld, add, or, and, xor, sub, subn, shr, shl, rnd, drw, skp, sknp]

def text : Mnemonic → String
  | sys => "SYS"
  | cls => "CLS"
  | ret => "RET"
  | jp => "JP"
  | call => "CALL"
  | se => "SE"
  | sne => "SNE"
  | ld => "LD"
  | add => "ADD"
  | or => "OR"
  | and => "AND"
  | xor => "XOR"
  | sub => "SUB"
  | subn => "SUBN"
  | shr => "SHR"
  | shl => "SHL"
  | rnd => "RND"
  | drw => "DRW"
  | skp => "SKP"
  | sknp => "SKNP"

def read? (cs : List Char) : Option Mnemonic := all.find? fun n => n.text.toList == cs

theorem read?_text (n : Mnemonic) : read? n.text.toList = some n := by
  cases n <;> rfl

theorem not_mem_separators_of_mem {n : Mnemonic} {c : Char} (h : c ∈ n.text.toList) :
    c ∉ Operand.separators := by
  have hnames : ∀ c ∈ n.text.toList, c ∉ Operand.separators := by
    cases n <;> simp [text, Operand.separators]
  exact hnames c h

end Mnemonic

namespace Instruction
open Operand

def mnemonic : Instruction → Mnemonic
  | system _ => .sys
  | clearScreen => .cls
  | ret => .ret
  | jump _ | jumpOffset _ => .jp
  | call _ => .call
  | skipEqByte .. | skipEq .. => .se
  | skipNeByte .. | skipNe .. => .sne
  | addByte .. | add .. | addIndex _ => .add
  | or .. => .or
  | and .. => .and
  | xor .. => .xor
  | sub .. => .sub
  | subFrom .. => .subn
  | shiftRight _ => .shr
  | shiftLeft _ => .shl
  | random .. => .rnd
  | draw .. => .drw
  | skipKey _ => .skp
  | skipNoKey _ => .sknp
  | loadByte .. | copy .. | loadIndex _ | loadDelay _ | waitKey _ | setDelay _ | setSound _
  | selectGlyph _ | decimal _ | save _ | restore _ => .ld

def operandList : Instruction → List Operand
  | clearScreen | ret => []
  | system nnn | jump nnn | call nnn => [address nnn]
  | skipEqByte x kk | skipNeByte x kk | loadByte x kk | addByte x kk => [register x, number kk.toNat]
  | skipEq x y | skipNe x y | copy x y | or x y | and x y | xor x y | add x y | sub x y
  | subFrom x y => [register x, register y]
  | shiftRight x | shiftLeft x | skipKey x | skipNoKey x => [register x]
  | loadIndex nnn => [place .index, address nnn]
  | jumpOffset nnn => [register 0, address nnn]
  | random x kk => [register x, mask kk]
  | draw x y n => [register x, register y, number n.toNat]
  | loadDelay x => [register x, place .delay]
  | waitKey x => [register x, place .key]
  | setDelay x => [place .delay, register x]
  | setSound x => [place .sound, register x]
  | addIndex x => [place .index, register x]
  | selectGlyph x => [place .glyph, register x]
  | decimal x => [place .decimal, register x]
  | save x => [place .atIndex, register x]
  | restore x => [register x, place .atIndex]

def assemble : Mnemonic → List Operand → Option Instruction
  | .sys, [.address nnn] => some (system nnn)
  | .cls, [] => some clearScreen
  | .ret, [] => some ret
  | .jp, [.address nnn] => some (jump nnn)
  | .jp, [.register _, .address nnn] => some (jumpOffset nnn)
  | .call, [.address nnn] => some (call nnn)
  | .se, [.register x, .number n] => some (skipEqByte x (BitVec.ofNat 8 n))
  | .se, [.register x, .register y] => some (skipEq x y)
  | .sne, [.register x, .number n] => some (skipNeByte x (BitVec.ofNat 8 n))
  | .sne, [.register x, .register y] => some (skipNe x y)
  | .add, [.register x, .number n] => some (addByte x (BitVec.ofNat 8 n))
  | .add, [.register x, .register y] => some (add x y)
  | .add, [.place .index, .register x] => some (addIndex x)
  | .or, [.register x, .register y] => some (or x y)
  | .and, [.register x, .register y] => some (and x y)
  | .xor, [.register x, .register y] => some (xor x y)
  | .sub, [.register x, .register y] => some (sub x y)
  | .subn, [.register x, .register y] => some (subFrom x y)
  | .shr, [.register x] => some (shiftRight x)
  | .shl, [.register x] => some (shiftLeft x)
  | .rnd, [.register x, .mask kk] => some (random x kk)
  | .drw, [.register x, .register y, .number n] => some (draw x y (BitVec.ofNat 4 n))
  | .skp, [.register x] => some (skipKey x)
  | .sknp, [.register x] => some (skipNoKey x)
  | .ld, [.register x, .number n] => some (loadByte x (BitVec.ofNat 8 n))
  | .ld, [.register x, .register y] => some (copy x y)
  | .ld, [.place .index, .address nnn] => some (loadIndex nnn)
  | .ld, [.register x, .place .delay] => some (loadDelay x)
  | .ld, [.register x, .place .key] => some (waitKey x)
  | .ld, [.place .delay, .register x] => some (setDelay x)
  | .ld, [.place .sound, .register x] => some (setSound x)
  | .ld, [.place .glyph, .register x] => some (selectGlyph x)
  | .ld, [.place .decimal, .register x] => some (decimal x)
  | .ld, [.place .atIndex, .register x] => some (save x)
  | .ld, [.register x, .place .atIndex] => some (restore x)
  | _, _ => none

theorem assemble_operands (i : Instruction) : assemble i.mnemonic i.operandList = some i := by
  have hbyte (kk : Byte) : BitVec.ofNat 8 kk.toNat = kk := by simp
  have hrows (n : BitVec 4) : BitVec.ofNat 4 n.toNat = n := by simp
  cases i with
  | skipEqByte x kk => exact congrArg (fun b => some (skipEqByte x b)) (hbyte kk)
  | skipNeByte x kk => exact congrArg (fun b => some (skipNeByte x b)) (hbyte kk)
  | loadByte x kk => exact congrArg (fun b => some (loadByte x b)) (hbyte kk)
  | addByte x kk => exact congrArg (fun b => some (addByte x b)) (hbyte kk)
  | draw x y n => exact congrArg (fun r => some (draw x y r)) (hrows n)
  | _ => rfl

/-- The words of a text: its name and its operands, with a comma after each operand but the last. -/
def words (i : Instruction) : List (List Char) :=
  i.mnemonic.text.toList :: withCommas (i.operandList.map fun o => o.text.toList)

theorem toList_text (i : Instruction) : i.text.toList = [' '].intercalate i.words := by
  cases i <;> simp [text, words, mnemonic, Mnemonic.text, operandList, withCommas, unary, binary,
    Operand.text, Place.text, registerText, byteText, List.intercalate]

/-- The words of a text hold neither blanks nor line breaks. -/
theorem not_mem_of_mem_words {i : Instruction} {w : List Char} (hw : w ∈ i.words) :
    ' ' ∉ w ∧ '\n' ∉ w := by
  have hchars : ∀ c ∈ w, c = ',' ∨ c ∉ separators := by
    intro c hc
    rcases List.mem_cons.mp hw with rfl | hw
    · exact .inr (Mnemonic.not_mem_separators_of_mem hc)
    · rcases mem_of_mem_withCommas hw hc with rfl | ⟨v, hv, hc⟩
      · exact .inl rfl
      · obtain ⟨o, -, rfl⟩ := List.mem_map.mp hv
        exact .inr (Operand.not_mem_separators_of_mem hc)
  constructor <;> intro hc <;> rcases hchars _ hc with h | h <;> simp [separators] at h

/-- Reads an instruction from its text. -/
def ofText? (text : String) : Option Instruction :=
  match text.toList.splitOn ' ' with
  | [] => none
  | name :: rest => (Mnemonic.read? name).bind fun n =>
      assemble n (rest.map fun w => Operand.read (w.filter fun c => c ≠ ','))

/-- An instruction can be assembled from its text. -/
theorem ofText?_text (i : Instruction) : ofText? i.text = some i := by
  have hwords : i.text.toList.splitOn ' ' = i.words := by
    rw [toList_text]
    exact List.splitOn_intercalate ' ' (fun w hw => (not_mem_of_mem_words hw).1) (List.cons_ne_nil _ _)
  have hcommas : ∀ w ∈ i.operandList.map (fun o => o.text.toList), ',' ∉ w := by
    intro w hw hc
    obtain ⟨o, -, rfl⟩ := List.mem_map.mp hw
    exact Operand.not_mem_separators_of_mem hc (by decide)
  have hoperands : (withCommas (i.operandList.map fun o => o.text.toList)).map
      (fun w => Operand.read (w.filter fun c => c ≠ ',')) = i.operandList := by
    rw [← Function.comp_def Operand.read, ← List.map_map, filter_withCommas hcommas, List.map_map]
    exact List.map_id'' read_text i.operandList
  rw [ofText?, hwords, words]
  simp only [Mnemonic.read?_text, Option.bind_some, hoperands, assemble_operands]

theorem text_injective : Function.Injective text := by
  intro i j h
  have hread := congrArg ofText? h
  rw [ofText?_text, ofText?_text] at hread
  exact Option.some.inj hread

theorem newline_not_mem_text (i : Instruction) : '\n' ∉ i.text.toList := by
  rw [toList_text]
  intro hc
  rcases Text.mem_of_mem_intercalate hc with hc | ⟨w, hw, hc⟩
  · exact absurd hc (by decide)
  · exact (not_mem_of_mem_words hw).2 hc

end Instruction

end ChipEight
