import ChipEight.Byte

/-! # Instructions
The thirty-five instructions of the machine with their operands: a register is numbered by four bits,
an immediate byte is `kk`, an address `nnn` has twelve bits. -/
namespace ChipEight

abbrev Opcode := BitVec 16
abbrev Register := BitVec 4

inductive Instruction where
  | system (nnn : BitVec 12)
  | clearScreen
  | ret
  | jump (nnn : BitVec 12)
  | call (nnn : BitVec 12)
  | skipEqByte (x : Register) (kk : Byte)
  | skipNeByte (x : Register) (kk : Byte)
  | skipEq (x y : Register)
  | skipNe (x y : Register)
  | loadByte (x : Register) (kk : Byte)
  | addByte (x : Register) (kk : Byte)
  | copy (x y : Register)
  | or (x y : Register)
  | and (x y : Register)
  | xor (x y : Register)
  | add (x y : Register)
  | sub (x y : Register)
  | subFrom (x y : Register)
  | shiftRight (x : Register)
  | shiftLeft (x : Register)
  | loadIndex (nnn : BitVec 12)
  | jumpOffset (nnn : BitVec 12)
  | random (x : Register) (kk : Byte)
  | draw (x y : Register) (n : BitVec 4)
  | skipKey (x : Register)
  | skipNoKey (x : Register)
  | loadDelay (x : Register)
  | waitKey (x : Register)
  | setDelay (x : Register)
  | setSound (x : Register)
  | addIndex (x : Register)
  | selectGlyph (x : Register)
  | decimal (x : Register)
  | save (x : Register)
  | restore (x : Register)
deriving DecidableEq, Repr

end ChipEight
