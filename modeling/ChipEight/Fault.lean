import ChipEight.Glyph

/-! # Faults
Every condition that stops the machine or makes it refuse an operation, and its wording. The machine
announces all of them but the last, which would be a mistake in its own tables. -/
namespace ChipEight

/-- Why the machine stopped or refused an operation. -/
inductive Fault where
  | unsupportedInstruction (opcode address : Int)
  | glyphOutOfRange (name : GlyphName)
  | stackOverflow
  | stackUnderflow
  | programTooLarge (length : Nat) (address : Int)
  | missingHandler (key : Int)
deriving DecidableEq, Repr

namespace Fault
open Text

def message : Fault → String
  | .unsupportedInstruction opcode address =>
    "Unsupported instruction 0x" ++ hex 4 opcode ++ " at address 0x" ++ hex 4 address
  | .glyphOutOfRange name => "Glyphs exist only for digits 0x0 through 0xF, got " ++ name.written
  | .stackOverflow => "The CHIP-8 stack can contain at most 16 addresses. Limit exceeded"
  | .stackUnderflow => "Return without a matching call, the CHIP-8 stack is empty"
  | .programTooLarge length address =>
    "The program is " ++ toString length ++ " bytes long, only " ++ toString (4096 - address) ++
      " fit from 0x" ++ hex 3 address
  | .missingHandler key => toString key

def isAnnounced : Fault → Bool
  | .missingHandler _ => false
  | _ => true

end Fault

end ChipEight
