import ChipEight.CallStack
import ChipEight.Countdown
import ChipEight.Display
import ChipEight.Instruction.Basic
import ChipEight.Keys
import ChipEight.Memory.Basic
import ChipEight.Noise

/-! # The machine
Everything that instructions read and write. The clock stays outside: whoever runs the machine hands
it a reading. Random bytes come from an endless stream of which the machine keeps the place. -/
namespace ChipEight

/-- Sixteen integers. Instructions on bytes give bytes, but a machine may be set up with others. -/
structure Registers where
  values : Vector Int 16
deriving DecidableEq

namespace Registers

def zeros : Registers := ⟨Vector.replicate 16 0⟩

def get (r : Registers) (x : Register) : Int := r.values[x.toFin]

def set (r : Registers) (x : Register) (v : Int) : Registers :=
  ⟨r.values.set x.toFin v⟩

def upTo (r : Registers) (x : Register) : List Int := r.values.toList.take (x.toNat + 1)

/-- Replaces the registers up to and including `x` by as many values. -/
def setUpTo (r : Registers) (x : Register) (values : List Int) (h : values.length = x.toNat + 1) :
    Registers where
  values := ⟨values.toArray ++ r.values.toArray.extract (x.toNat + 1) 16, by
    have hx := x.isLt
    simp only [Array.size_append, List.size_toArray, Array.size_extract, Vector.size_toArray, h]
    omega⟩

end Registers

structure Machine (τ : Type) where
  memory : Memory
  stack : CallStack
  registers : Registers
  /-- The address of the next instruction. -/
  pc : Int
  /-- The address of the instruction being executed. -/
  opcodeAddress : Int
  index : Int
  delay : Countdown τ
  sound : Countdown τ
  display : Display
  keys : Keys
  noise : Noise
  /-- Whether the last instruction drew a sprite. -/
  redraw : Bool

namespace Machine
variable {τ : Type}

/-- A machine that has just been switched on. -/
def initial (resolution : Resolution) (noise : Noise) (now : τ) : Machine τ where
  memory := Memory.initial
  stack := CallStack.empty
  registers := Registers.zeros
  pc := programStart
  opcodeAddress := programStart
  index := 0
  delay := Countdown.stopped now
  sound := Countdown.stopped now
  display := Display.blank resolution
  keys := Keys.released
  noise := noise
  redraw := false

def register (m : Machine τ) (x : Register) : Int := m.registers.get x

def setRegister (m : Machine τ) (x : Register) (v : Int) : Machine τ :=
  { m with registers := m.registers.set x v }

/-- Sets the flag register and then `x`, so when `x` is the flag register its value stands. -/
def setWithFlag (m : Machine τ) (x : Register) (flag : Bool) (v : Int) : Machine τ :=
  { m with registers := (m.registers.set 0xf (if flag then 1 else 0)).set x v }

def advance (m : Machine τ) : Machine τ :=
  { m with pc := (m.pc + 2) % memorySize }

def skipIf (m : Machine τ) (condition : Bool) : Machine τ :=
  if condition then m.advance else m

def load (m : Machine τ) (program : List Byte) (address : Int) : Machine τ × Except Fault Unit :=
  let (memory, result) := m.memory.load program address
  ({ m with memory }, result)

def tickTimers [Clock τ] (m : Machine τ) (delayNow soundNow : τ) : Machine τ :=
  { m with delay := m.delay.tick delayNow, sound := m.sound.tick soundNow }

/-- Lets both countdowns look at a clock that stands still meanwhile. -/
def updateTimers [Clock τ] (m : Machine τ) (now : τ) : Machine τ := m.tickTimers now now

end Machine

end ChipEight
