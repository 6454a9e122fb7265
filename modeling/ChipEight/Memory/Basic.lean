import ChipEight.Fault

/-! # Memory
4096 bytes that every integer addresses: addresses count modulo 4096, so a range of addresses may run
past either end and wrap around. Loading a program instead replaces a range of cells. -/
namespace ChipEight

def memorySize : Nat := 4096

/-- Where programs are loaded and where execution starts. -/
def programStart : Int := 0x200

structure Memory where
  cells : Array Byte
  size_le : memorySize ≤ cells.size
deriving DecidableEq

namespace Memory

/-- The cell that an address reaches. -/
def slot (address : Int) : Nat := (address % memorySize).toNat

theorem slot_lt (address : Int) : slot address < memorySize := by
  simp only [slot, memorySize]
  omega

theorem slot_lt_size (m : Memory) (address : Int) : slot address < m.cells.size :=
  Nat.lt_of_lt_of_le (slot_lt address) m.size_le

def read (m : Memory) (address : Int) : Byte :=
  have := m.slot_lt_size address
  m.cells[slot address]

def write (m : Memory) (address : Int) (b : Byte) : Memory where
  cells := m.cells.set (slot address) b (m.slot_lt_size address)
  size_le := by simpa using m.size_le

def readBytes (m : Memory) (address : Int) (count : Nat) : List Byte :=
  (List.range count).map fun i : Nat => m.read (address + i)

@[simp] theorem length_readBytes (m : Memory) (address : Int) (count : Nat) :
    (m.readBytes address count).length = count := by
  simp [readBytes]

/-- Writes bytes one after the other from `address` on; a later one may overwrite an earlier one. -/
def writeBytes (m : Memory) (address : Int) : List Byte → Memory
  | [] => m
  | b :: rest => (m.write address b).writeBytes (address + 1) rest

/-- The bytes at the addresses from `start` up to `stop`, by default the whole memory. -/
def readRange (m : Memory) (start stop : Option Int) : List Byte :=
  let first := start.getD 0
  m.readBytes first (stop.getD memorySize - first).toNat

/-- Writes bytes at the addresses from `start` up to `stop`, as many as both sides have. -/
def writeRange (m : Memory) (start stop : Option Int) (bytes : List Byte) : Memory :=
  let first := start.getD 0
  m.writeBytes first (bytes.take (stop.getD memorySize - first).toNat)

/-- The position in a list of `size` cells that a bound denotes: a bound below zero counts from the
end, and one that lies outside stops at the nearer end. -/
def position (size : Nat) (bound : Int) : Nat :=
  if bound < 0 then (bound + size).toNat else min bound.toNat size

/-- Replaces the cells between two bounds, `bytes.length` apart, by the bytes. Bounds on both sides of
zero enclose no cell, and then the bytes come in between. -/
def place (m : Memory) (address : Int) (bytes : List Byte) : Memory where
  cells :=
    let first := position m.cells.size address
    let last := max first (position m.cells.size (address + bytes.length))
    m.cells.extract 0 first ++ bytes.toArray ++ m.cells.extract last m.cells.size
  size_le := by
    have h := m.size_le
    simp only [position, Array.size_append, Array.size_extract, List.size_toArray]
    split <;> split <;> omega

def zeros : Memory where
  cells := Array.replicate memorySize 0
  size_le := by simp

def withGlyphs (m : Memory) : Memory := m.place 0 glyphTable

def initial : Memory := zeros.withGlyphs

def checkLength (length : Nat) (address : Int) : Except Fault Unit :=
  if memorySize < address + length then .error (.programTooLarge length address) else .ok ()

def load (m : Memory) (program : List Byte) (address : Int) : Memory × Except Fault Unit :=
  match checkLength program.length address with
  | .ok () => (m.place address program, .ok ())
  | .error fault => (m, .error fault)

def glyphAddress (name : GlyphName) : Except Fault Nat :=
  match name.digit? with
  | some d => .ok (d * glyphRows)
  | none => .error (.glyphOutOfRange name)

def glyph (m : Memory) (name : GlyphName) : Except Fault (List Byte) :=
  (glyphAddress name).map fun a => m.readBytes a glyphRows

end Memory

end ChipEight
