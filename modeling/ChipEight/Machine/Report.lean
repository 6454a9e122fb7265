import ChipEight.Instruction.Text
import ChipEight.Machine.Execute

/-! # Reports
The registers of a machine as text, and the trace of a cycle: the opcode, and once the instruction has
run, its address and assembly text. -/
namespace ChipEight.Machine
open Text
variable {τ : Type}

def registersText (m : Machine τ) : String :=
  "PC_REGISTER:0x" ++ hex 4 m.pc ++ " | IDX_REGISTER:0x" ++ hex 4 m.index ++
    " | VARIABLE_REGISTERS:" ++
    bracketed (m.registers.values.toList.map toString)

def stackText (m : Machine τ) : String :=
  "STACK:" ++ m.stack.text ++ " | SP:" ++ toString m.stack.depth

def timersText (m : Machine τ) : String :=
  "DELAY_TIMER:" ++ toString m.delay.value.toNat ++ " | SOUND_TIMER:" ++
    toString m.sound.value.toNat

def displayText (m : Machine τ) : String :=
  "DRAW: " ++ truth m.redraw ++ " | DISPLAY:" ++ toString m.display.width ++ "x" ++
    toString m.display.height

/-- The whole machine except memory, keys and pixels, in four lines. -/
def text (m : Machine τ) : String :=
  "\n".intercalate [m.registersText, m.stackText, m.timersText, m.displayText]

/-- What decoding an opcode adds to the trace. -/
def opcodeTrace (opcode : Int) : String := "opcode: 0x" ++ hex 4 opcode ++ "    "

/-- What a completed instruction adds to the trace. -/
def instructionTrace (address : Int) (i : Instruction) : String :=
  "mem_addr: 0x" ++ hex 4 address ++ "    instruction: " ++ i.text ++ "\n"

/-- The trace of the cycle that starts from `m` and ends with `result`. -/
def trace (m : Machine τ) (result : Except Fault Bool) : String :=
  opcodeTrace m.fetch.toNat ++
    match result, Instruction.ofOpcode? m.fetch with
    | .ok _, some i => instructionTrace m.pc i
    | _, _ => ""

end ChipEight.Machine
