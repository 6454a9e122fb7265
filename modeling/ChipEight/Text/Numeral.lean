/-! # Numerals and lists in text
Hexadecimal numerals padded with zeros, lists between brackets and the two truth words. A minus sign
takes one place of the width, so every numeral of a fixed width lines up. -/
namespace ChipEight.Text

def zeroPadded (width : Nat) (digits : List Char) : List Char :=
  List.replicate (width - digits.length) '0' ++ digits

/-- Lower-case hexadecimal numeral of at least `width` characters, sign included. -/
def hex (width : Nat) (n : Int) : String :=
  if n < 0 then "-" ++ String.ofList (zeroPadded (width - 1) (Nat.toDigits 16 n.natAbs))
  else String.ofList (zeroPadded width (Nat.toDigits 16 n.natAbs))

def bracketed (items : List String) : String :=
  "[" ++ ", ".intercalate items ++ "]"

def truth (b : Bool) : String :=
  if b then "True" else "False"

end ChipEight.Text
