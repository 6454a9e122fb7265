import ChipEight.Machine.Report
import ChipEight.Text.Integer

/-! # Tracing
A traced instruction runs between two steps of its own: its address is taken before it, and after it a
template is filled with the values that the instruction has worked with, which it keeps under names. A
template cannot be filled if it asks for a name that is not kept, for a numeral of something that is no
integer, or for too many decimal digits. -/
namespace ChipEight

/-- A value that an instruction keeps under a name. -/
inductive Kept where
  | integer (n : Int)
  | truth (b : Bool)
  | absent
  | bytes (bytes : List Byte)
  | machine (text : String)
deriving DecidableEq, Repr

/-- A piece of a template: fixed text, or the place of a value, which is written as it is or as a
hexadecimal numeral of some width. -/
inductive Piece where
  | fixed (text : String)
  | value (name : String)
  | numeral (name : String) (width : Nat)
deriving DecidableEq, Repr

inductive TemplateFault where
  | nothingKept (name : String)
  | notAnInteger (name : String)
  | tooManyDigits (name : String)
deriving DecidableEq, Repr

abbrev Template := List Piece

namespace Template
open Text

def writePlain (name : String) : Kept → Except TemplateFault String
  | .integer n =>
    if (Nat.toDigits 10 n.natAbs).length ≤ maxDigits then .ok (toString n)
    else .error (.tooManyDigits name)
  | .truth b => .ok (truth b)
  | .absent => .ok "None"
  | .bytes bytes => .ok (bracketed (bytes.map fun b => toString b.toNat))
  | .machine text => .ok text

/-- Truth values are written as the integers 0 and 1. -/
def writeNumeral (name : String) (width : Nat) : Kept → Except TemplateFault String
  | .integer n => .ok (hex width n)
  | .truth b => .ok (hex width b.toNat)
  | .absent | .bytes _ | .machine _ => .error (.notAnInteger name)

def find (kept : List (String × Kept)) (name : String) : Except TemplateFault Kept :=
  match kept.lookup name with
  | some value => .ok value
  | none => .error (.nothingKept name)

def fillPiece (kept : List (String × Kept)) : Piece → Except TemplateFault String
  | .fixed text => .ok text
  | .value name => (find kept name).bind (writePlain name)
  | .numeral name width => (find kept name).bind (writeNumeral name width)

/-- The text of a template with a value in each of its places. -/
def fill (kept : List (String × Kept)) : Template → Except TemplateFault String
  | [] => .ok ""
  | piece :: rest => do return (← fillPiece kept piece) ++ (← fill kept rest)

def unary (name operand : String) : Template := [.fixed (name ++ " V"), .value operand]

def immediate (name operand : String) : Template :=
  unary name "x" ++ [.fixed ", ", .value operand]

def binary (name : String) : Template := unary name "x" ++ [.fixed ", V", .value "y"]

def addressed (name operand : String) : Template :=
  [.fixed (name ++ " 0x"), .numeral operand 4]

def ofInstruction : Instruction → Template
  | .system _ => addressed "SYS" "address"
  | .clearScreen => [.fixed "CLS"]
  | .ret => [.fixed "RET"]
  | .jump _ => addressed "JP" "address"
  | .call _ => addressed "CALL" "address"
  | .skipEqByte .. => immediate "SE" "comparison_value"
  | .skipNeByte .. => immediate "SNE" "comparison_value"
  | .skipEq .. => binary "SE"
  | .skipNe .. => binary "SNE"
  | .loadByte .. => immediate "LD" "value"
  | .addByte .. => immediate "ADD" "value"
  | .copy .. => binary "LD"
  | .or .. => binary "OR"
  | .and .. => binary "AND"
  | .xor .. => binary "XOR"
  | .add .. => binary "ADD"
  | .sub .. => binary "SUB"
  | .subFrom .. => binary "SUBN"
  | .shiftRight _ => unary "SHR" "x"
  | .shiftLeft _ => unary "SHL" "x"
  | .loadIndex _ => addressed "LD I," "value"
  | .jumpOffset _ => addressed "JP V0," "address"
  | .random .. => unary "RND" "x" ++ [.fixed ", 0x", .numeral "kk" 2]
  | .draw .. => binary "DRW" ++ [.fixed ", ", .value "n_bytes"]
  | .skipKey _ => unary "SKP" "x"
  | .skipNoKey _ => unary "SKNP" "x"
  | .loadDelay _ => unary "LD" "x" ++ [.fixed ", DT"]
  | .waitKey _ => unary "LD" "x" ++ [.fixed ", K"]
  | .setDelay _ => unary "LD DT," "x"
  | .setSound _ => unary "LD ST," "register"
  | .addIndex _ => unary "ADD I," "register"
  | .selectGlyph _ => unary "LD F," "register"
  | .decimal _ => unary "LD B," "x"
  | .save _ => unary "LD [I]," "x"
  | .restore _ => unary "LD" "x" ++ [.fixed ", [I]"]

def line (i : Instruction) : Template :=
  [.fixed "mem_addr: 0x", .numeral "mem_addr" 4, .fixed "    instruction: "] ++ ofInstruction i

end Template

/-- Why a traced cycle ends early. -/
inductive TracedFault where
  | fault (f : Fault)
  | template (f : TemplateFault)
deriving DecidableEq, Repr

namespace Machine
variable {τ : Type}

/-- The operands and intermediate values of an instruction that starts from `m`. -/
def operands (m : Machine τ) : Instruction → List (String × Kept)
  | .clearScreen | .ret => []
  | .system nnn | .jump nnn | .call nnn => [("address", .integer nnn.toNat)]
  | .loadIndex nnn => [("value", .integer nnn.toNat)]
  | .jumpOffset nnn => [("address", .integer nnn.toNat), ("v0", .integer (m.register 0))]
  | .skipEqByte x kk | .skipNeByte x kk =>
    [("x", .integer x.toNat), ("comparison_value", .integer kk.toNat)]
  | .loadByte x kk | .addByte x kk => [("x", .integer x.toNat), ("value", .integer kk.toNat)]
  | .random x kk =>
    [("x", .integer x.toNat), ("kk", .integer kk.toNat), ("rnd", .integer m.noise.next.toNat)]
  | .skipEq x y | .skipNe x y | .copy x y | .or x y | .and x y | .xor x y =>
    [("x", .integer x.toNat), ("y", .integer y.toNat)]
  | .add x y =>
    [("x", .integer x.toNat), ("y", .integer y.toNat),
      ("sum", .integer (m.register x + m.register y))]
  | .sub x y | .subFrom x y =>
    [("x", .integer x.toNat), ("y", .integer y.toNat),
      ("vx", .integer (m.register x)), ("vy", .integer (m.register y))]
  | .shiftRight x | .shiftLeft x => [("x", .integer x.toNat), ("vx", .integer (m.register x))]
  | .draw x y n =>
    let rows := m.memory.readBytes m.index n.toNat
    [("x", .integer x.toNat), ("y", .integer y.toNat), ("n_bytes", .integer n.toNat),
      ("sprite", .bytes rows),
      ("collision", .truth (m.display.drawSprite (m.register x) (m.register y) rows).2)]
  | .skipKey x | .skipNoKey x => [("x", .integer x.toNat), ("key", .integer (m.register x))]
  | .waitKey x =>
    [("x", .integer x.toNat), ("key", m.keys.first?.elim .absent fun k => .integer k)]
  | .loadDelay x | .setDelay x | .save x | .restore x => [("x", .integer x.toNat)]
  | .setSound x | .addIndex x | .selectGlyph x => [("register", .integer x.toNat)]
  | .decimal x =>
    let v := m.register x
    [("x", .integer x.toNat), ("ones", .integer (v % 10)), ("tens", .integer (v / 10 % 10)),
      ("hundreds", .integer (v / 100))]

/-- Everything that an instruction from `m` to `after` has kept, with its address. -/
def kept (m after : Machine τ) (address opcode : Int) (i : Instruction) : List (String × Kept) :=
  ("mem_addr", .integer address) :: ("self", .machine after.text) :: ("opcode", .integer opcode) ::
    m.operands i

def cycleTraced (m : Machine τ) (now : τ) (tracing : Bool) :
    Machine τ × Except TracedFault Bool × String :=
  let f := m.fetched
  let opcode : Int := m.fetch.toNat
  let printed := if tracing then opcodeTrace opcode else ""
  match f.decode opcode with
  | .error fault => (f, .error (.fault fault), printed)
  | .ok i =>
    let address := f.opcodeAddress
    match f.execute now i with
    | (after, .error fault) => (after, .error (.fault fault), printed)
    | (after, .ok ()) =>
      if tracing then
        match Template.fill (f.kept after address opcode i) (Template.line i) with
        | .ok line => (after, .ok after.redraw, printed ++ line ++ "\n")
        | .error fault => (after, .error (.template fault), printed)
      else (after, .ok after.redraw, printed)

end Machine

end ChipEight
