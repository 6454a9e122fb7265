import ChipEight.Instruction.Basic
import ChipEight.Text.Numeral

/-! # Assembly text
Registers and immediate bytes are written in decimal, addresses and random masks in hexadecimal. -/
namespace ChipEight.Instruction
open Text

def registerText (x : Register) : String := "V" ++ toString x.toNat

def addressText (nnn : BitVec 12) : String := "0x" ++ hex 4 nnn.toNat

def byteText (kk : Byte) : String := toString kk.toNat

def unary (name : String) (x : Register) : String := name ++ " " ++ registerText x

def binary (name : String) (x : Register) (operand : String) : String :=
  name ++ " " ++ registerText x ++ ", " ++ operand

def text : Instruction → String
  | system nnn => "SYS " ++ addressText nnn
  | clearScreen => "CLS"
  | ret => "RET"
  | jump nnn => "JP " ++ addressText nnn
  | call nnn => "CALL " ++ addressText nnn
  | skipEqByte x kk => binary "SE" x (byteText kk)
  | skipNeByte x kk => binary "SNE" x (byteText kk)
  | skipEq x y => binary "SE" x (registerText y)
  | skipNe x y => binary "SNE" x (registerText y)
  | loadByte x kk => binary "LD" x (byteText kk)
  | addByte x kk => binary "ADD" x (byteText kk)
  | copy x y => binary "LD" x (registerText y)
  | or x y => binary "OR" x (registerText y)
  | and x y => binary "AND" x (registerText y)
  | xor x y => binary "XOR" x (registerText y)
  | add x y => binary "ADD" x (registerText y)
  | sub x y => binary "SUB" x (registerText y)
  | subFrom x y => binary "SUBN" x (registerText y)
  | shiftRight x => unary "SHR" x
  | shiftLeft x => unary "SHL" x
  | loadIndex nnn => "LD I, " ++ addressText nnn
  | jumpOffset nnn => "JP V0, " ++ addressText nnn
  | random x kk => binary "RND" x ("0x" ++ hex 2 kk.toNat)
  | draw x y n => binary "DRW" x (registerText y ++ ", " ++ toString n.toNat)
  | skipKey x => unary "SKP" x
  | skipNoKey x => unary "SKNP" x
  | loadDelay x => binary "LD" x "DT"
  | waitKey x => binary "LD" x "K"
  | setDelay x => "LD DT, " ++ registerText x
  | setSound x => "LD ST, " ++ registerText x
  | addIndex x => "ADD I, " ++ registerText x
  | selectGlyph x => "LD F, " ++ registerText x
  | decimal x => "LD B, " ++ registerText x
  | save x => "LD [I], " ++ registerText x
  | restore x => binary "LD" x "[I]"

end ChipEight.Instruction
