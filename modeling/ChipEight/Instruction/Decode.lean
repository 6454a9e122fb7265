import ChipEight.Bitwise
import ChipEight.Instruction.Basic

/-! # Decoding
The bits of an opcode under a mask are its key if they are among the keys of that mask. The masks are
tried in order, those with the fewest free bits first, so that clearing the screen and returning are
not taken for calls of system routines. The handler for the key cuts the operands out of the opcode. -/
namespace ChipEight

namespace Opcode

def ofInt (n : Int) : Opcode := BitVec.ofInt 16 n

def x (w : Opcode) : Register := (w >>> 8).setWidth 4
def y (w : Opcode) : Register := (w >>> 4).setWidth 4
def n (w : Opcode) : BitVec 4 := w.setWidth 4
def kk (w : Opcode) : Byte := w.setWidth 8
def nnn (w : Opcode) : BitVec 12 := w.setWidth 12

/-- Keys of opcodes without operands. -/
def plain : List Int := [0x00e0, 0x00ee]

/-- Keys of opcodes with one register, told apart by the first digit and the last two. -/
def oneRegister : List Int :=
  [0xe09e, 0xe0a1, 0xf007, 0xf00a, 0xf015, 0xf018, 0xf01e, 0xf029, 0xf033, 0xf055, 0xf065]

/-- Keys of opcodes with two registers, told apart by the first digit and the last. -/
def twoRegisters : List Int :=
  [0x5000, 0x8000, 0x8001, 0x8002, 0x8003, 0x8004, 0x8005, 0x8006, 0x8007, 0x800e, 0x9000]

/-- Keys of opcodes that the first digit alone determines. -/
def oneDigit : List Int :=
  [0x0000, 0x1000, 0x2000, 0x3000, 0x4000, 0x6000, 0x7000, 0xa000, 0xb000, 0xc000, 0xd000]

/-- The masks in the order in which they are tried, each with its keys. -/
def masks : List (Int × List Int) :=
  [(0xffff, plain), (0xf0ff, oneRegister), (0xf00f, twoRegisters), (0xf000, oneDigit)]

/-- The bits of an opcode under a mask, if they are one of its keys. -/
def keyUnder? (opcode : Int) (entry : Int × List Int) : Option Int :=
  let bits := Bitwise.and opcode entry.1
  if bits ∈ entry.2 then some bits else none

/-- The key of an opcode under the first mask where it has one. -/
def firstKey? (entries : List (Int × List Int)) (opcode : Int) : Option Int :=
  entries.findSome? (keyUnder? opcode)

/-- The key of an opcode, an integer of any size and sign. -/
def key? (opcode : Int) : Option Int := firstKey? masks opcode

/-- The handlers by their keys. -/
def handlers : List (Int × (Opcode → Instruction)) := [
  (0x0000, fun w => .system (nnn w)),
  (0x00e0, fun _ => .clearScreen),
  (0x00ee, fun _ => .ret),
  (0x1000, fun w => .jump (nnn w)),
  (0x2000, fun w => .call (nnn w)),
  (0x3000, fun w => .skipEqByte (x w) (kk w)),
  (0x4000, fun w => .skipNeByte (x w) (kk w)),
  (0x5000, fun w => .skipEq (x w) (y w)),
  (0x6000, fun w => .loadByte (x w) (kk w)),
  (0x7000, fun w => .addByte (x w) (kk w)),
  (0x8000, fun w => .copy (x w) (y w)),
  (0x8001, fun w => .or (x w) (y w)),
  (0x8002, fun w => .and (x w) (y w)),
  (0x8003, fun w => .xor (x w) (y w)),
  (0x8004, fun w => .add (x w) (y w)),
  (0x8005, fun w => .sub (x w) (y w)),
  (0x8006, fun w => .shiftRight (x w)),
  (0x8007, fun w => .subFrom (x w) (y w)),
  (0x800e, fun w => .shiftLeft (x w)),
  (0x9000, fun w => .skipNe (x w) (y w)),
  (0xa000, fun w => .loadIndex (nnn w)),
  (0xb000, fun w => .jumpOffset (nnn w)),
  (0xc000, fun w => .random (x w) (kk w)),
  (0xd000, fun w => .draw (x w) (y w) (n w)),
  (0xe09e, fun w => .skipKey (x w)),
  (0xe0a1, fun w => .skipNoKey (x w)),
  (0xf007, fun w => .loadDelay (x w)),
  (0xf00a, fun w => .waitKey (x w)),
  (0xf015, fun w => .setDelay (x w)),
  (0xf018, fun w => .setSound (x w)),
  (0xf01e, fun w => .addIndex (x w)),
  (0xf029, fun w => .selectGlyph (x w)),
  (0xf033, fun w => .decimal (x w)),
  (0xf055, fun w => .save (x w)),
  (0xf065, fun w => .restore (x w))]

def handler? (key : Int) : Option (Opcode → Instruction) := handlers.lookup key

end Opcode

def Instruction.ofOpcode? (w : Opcode) : Option Instruction := do
  let key ← Opcode.key? w.toNat
  let handler ← Opcode.handler? key
  return handler w

end ChipEight
