import ChipEight.Memory.Basic

/-! # Memory dumps
The memory as rows of two-digit bytes, each row after its address. -/
namespace ChipEight.Memory
open Text

/-- A dump needs rows of some width. -/
inductive DumpError where
  | zeroWidth
deriving DecidableEq, Repr

def DumpError.message : DumpError → String
  | .zeroWidth => "range() arg 3 must not be zero"

def byteText (b : Byte) : String := hex 2 b.toNat

def dumpRow (m : Memory) (width address : Nat) : String :=
  "0x" ++ hex 3 address ++ ": " ++
    " ".intercalate ((m.cells.extract address (address + width)).toList.map byteText)

/-- The rows of a dump, the last one as long as the memory allows. -/
def dumpRows (m : Memory) (width : Nat) : List String :=
  (List.range ((memorySize + width - 1) / width)).map fun i => m.dumpRow width (i * width)

/-- The whole dump. Rows of negative width are none at all. -/
def dump (m : Memory) (width : Int) : Except DumpError String :=
  if width = 0 then .error .zeroWidth
  else if width < 0 then .ok ""
  else .ok ("\n".intercalate (m.dumpRows width.toNat))

end ChipEight.Memory
