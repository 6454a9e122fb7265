import ChipEight.Bitwise
import ChipEight.Instruction.Decode
import ChipEight.Machine.Basic

/-! # Execution
A cycle fetches the two bytes at the program counter, moves on, decodes and executes. What an
instruction has done before it faults stays done. -/
namespace ChipEight.Machine
variable {τ : Type}

def drawSprite (m : Machine τ) (x y : Register) (n : BitVec 4) : Machine τ :=
  let rows := m.memory.readBytes m.index n.toNat
  let (display, erased) := m.display.drawSprite (m.register x) (m.register y) rows
  { m with display, registers := m.registers.set 0xf (if erased then 1 else 0), redraw := true }

/-- Keeps the lowest key that is down, or goes back to wait at the same instruction. -/
def waitKey (m : Machine τ) (x : Register) : Machine τ :=
  match m.keys.first? with
  | some k => m.setRegister x k
  | none => { m with pc := (m.pc - 2) % memorySize }

/-- The hundreds, tens and ones of an integer, the hundreds cut down to a byte. -/
def decimalDigits (v : Int) : List Byte := [v / 100, v / 10 % 10, v % 10].map Byte.ofInt

/-- The machine after an instruction, and whether the instruction has run to its end. The program
counter has already moved on. -/
def execute (m : Machine τ) (now : τ) : Instruction → Machine τ × Except Fault Unit
  | .system _ => (m, .ok ())
  | .clearScreen => ({ m with display := m.display.clear }, .ok ())
  | .ret => match m.stack.pop with
    | (stack, .ok address) => ({ m with stack, pc := address }, .ok ())
    | (stack, .error fault) => ({ m with stack }, .error fault)
  | .jump nnn => ({ m with pc := nnn.toNat }, .ok ())
  | .call nnn => match m.stack.push m.pc with
    | (stack, .ok ()) => ({ m with stack, pc := nnn.toNat }, .ok ())
    | (stack, .error fault) => ({ m with stack }, .error fault)
  | .skipEqByte x kk => (m.skipIf (m.register x == kk.toNat), .ok ())
  | .skipNeByte x kk => (m.skipIf (m.register x != kk.toNat), .ok ())
  | .skipEq x y => (m.skipIf (m.register x == m.register y), .ok ())
  | .skipNe x y => (m.skipIf (m.register x != m.register y), .ok ())
  | .loadByte x kk => (m.setRegister x kk.toNat, .ok ())
  | .addByte x kk => (m.setRegister x ((m.register x + kk.toNat) % 256), .ok ())
  | .copy x y => (m.setRegister x (m.register y), .ok ())
  | .or x y => (m.setRegister x (Bitwise.or (m.register x) (m.register y)), .ok ())
  | .and x y => (m.setRegister x (Bitwise.and (m.register x) (m.register y)), .ok ())
  | .xor x y => (m.setRegister x (Bitwise.xor (m.register x) (m.register y)), .ok ())
  | .add x y =>
    let a := m.register x
    let b := m.register y
    (m.setWithFlag x (decide (255 < a + b)) ((a + b) % 256), .ok ())
  | .sub x y =>
    let a := m.register x
    let b := m.register y
    (m.setWithFlag x (decide (b < a)) ((a - b) % 256), .ok ())
  | .subFrom x y =>
    let a := m.register x
    let b := m.register y
    (m.setWithFlag x (decide (a < b)) ((b - a) % 256), .ok ())
  | .shiftRight x =>
    let a := m.register x
    (m.setWithFlag x (decide (a % 2 = 1)) (a / 2), .ok ())
  | .shiftLeft x =>
    let a := m.register x
    (m.setWithFlag x (decide (a / 128 % 2 = 1)) (2 * a % 256), .ok ())
  | .loadIndex nnn => ({ m with index := nnn.toNat }, .ok ())
  | .jumpOffset nnn => ({ m with pc := (nnn.toNat + m.register 0) % memorySize }, .ok ())
  | .random x kk =>
    ({ m.setRegister x (m.noise.next &&& kk).toNat with noise := m.noise.advance }, .ok ())
  | .draw x y n => (m.drawSprite x y n, .ok ())
  | .skipKey x => (m.skipIf (m.keys.isDown (m.register x)), .ok ())
  | .skipNoKey x => (m.skipIf (!m.keys.isDown (m.register x)), .ok ())
  | .loadDelay x => (m.setRegister x m.delay.value.toNat, .ok ())
  | .waitKey x => (m.waitKey x, .ok ())
  | .setDelay x => ({ m with delay := Countdown.load (Byte.ofInt (m.register x)) now }, .ok ())
  | .setSound x => ({ m with sound := Countdown.load (Byte.ofInt (m.register x)) now }, .ok ())
  | .addIndex x => ({ m with index := (m.index + m.register x) % 0x10000 }, .ok ())
  | .selectGlyph x => ({ m with index := m.register x * glyphRows }, .ok ())
  | .decimal x =>
    ({ m with memory := m.memory.writeBytes m.index (decimalDigits (m.register x)) }, .ok ())
  | .save x =>
    let bytes := (m.registers.upTo x).map Byte.ofInt
    ({ m with memory := m.memory.writeBytes m.index bytes }, .ok ())
  | .restore x =>
    let values := (m.memory.readBytes m.index (x.toNat + 1)).map fun b : Byte => (b.toNat : Int)
    ({ m with registers := m.registers.setUpTo x values (by simp [values]) }, .ok ())

/-- The opcode at the program counter, its high byte first. -/
def fetch (m : Machine τ) : Opcode := m.memory.read m.pc ++ m.memory.read (m.pc + 1)

def fetched (m : Machine τ) : Machine τ :=
  { m with redraw := false, opcodeAddress := m.pc, pc := (m.pc + 2) % memorySize }

def decode (m : Machine τ) (opcode : Int) : Except Fault Instruction :=
  match Opcode.key? opcode with
  | none => .error (.unsupportedInstruction opcode m.opcodeAddress)
  | some key => match Opcode.handler? key with
    | none => .error (.missingHandler key)
    | some handler => .ok (handler (.ofInt opcode))

/-- Runs one instruction and tells whether the screen needs a redraw. -/
def cycle (m : Machine τ) (now : τ) : Machine τ × Except Fault Bool :=
  let f := m.fetched
  match f.decode m.fetch.toNat with
  | .error fault => (f, .error fault)
  | .ok i => match f.execute now i with
    | (after, .ok ()) => (after, .ok after.redraw)
    | (after, .error fault) => (after, .error fault)

end ChipEight.Machine
