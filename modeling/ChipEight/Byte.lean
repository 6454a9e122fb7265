/-! # Bytes
Eight bits. An integer is cut down to its lowest eight. -/
namespace ChipEight

abbrev Byte := BitVec 8

def Byte.ofInt (n : Int) : Byte := BitVec.ofInt 8 n

end ChipEight
