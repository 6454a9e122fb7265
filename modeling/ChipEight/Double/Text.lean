import ChipEight.Double.Basic
import ChipEight.Text.Integer
import ChipEight.Text.Numeral

/-! # Reals in text
A real is read from decimal digits of any script with a point and an exponent, or from one of the words
for infinity and for no number. It is written with the fewest digits that read back, of these with the
nearest; from 0.0001 to below 10 ^ 16 positionally and otherwise with an exponent. -/
namespace ChipEight.Double
open Text

/-- The digits of a part of a numeral that may be left out. -/
def optionalDigits? (s : List Char) : Option (List Nat) :=
  if s.isEmpty then some [] else digits? s

/-- An exponent of ten with or without its sign. -/
def exponent? : List Char → Option Int
  | '-' :: s => (digits? s).map fun ds => -(ofDigits ds : Int)
  | '+' :: s => (digits? s).map fun ds => (ofDigits ds : Int)
  | s => (digits? s).map fun ds => (ofDigits ds : Int)

/-- The part before the first character of a kind, and the part after it if there is one. -/
def splitFirst (p : Char → Bool) (s : List Char) : List Char × Option (List Char) :=
  match s.span (!p ·) with
  | (before, []) => (before, none)
  | (before, _ :: after) => (before, some after)

def ofNumeral? (negative : Bool) (s : List Char) : Option Double := do
  let (significand, exponent) := splitFirst (fun c => c = 'e' || c = 'E') s
  let (whole, fraction) := splitFirst (· = '.') significand
  let whole ← optionalDigits? whole
  let fraction ← optionalDigits? (fraction.getD [])
  let exponent ← exponent.elim (some 0) exponent?
  if whole.isEmpty && fraction.isEmpty then none
  else return ofDecimal negative (ofDigits (whole ++ fraction)) (exponent - fraction.length)

def ofUnsigned? (negative : Bool) (s : List Char) : Option Double :=
  let word := String.ofList (s.map Char.toLower)
  if word = "inf" ∨ word = "infinity" then some (.infinite negative)
  else if word = "nan" then some .notANumber
  else ofNumeral? negative s

def ofText? (s : List Char) : Option Double :=
  match trimBlanks s with
  | '-' :: rest => ofUnsigned? true rest
  | '+' :: rest => ofUnsigned? false rest
  | rest => ofUnsigned? false rest

/-- The least `k` with `num / den < 10 ^ k`. -/
def pointPlace (num den : Nat) : Int :=
  if den ≤ num then (Nat.toDigits 10 (num / den)).length
  else 1 - (((List.range decimalLimit.toNat).find? fun k => den ≤ num * Nat.pow 10 k).getD 0 : Nat)

/-- Whether `n / 10 ^ places` is read as `m`. -/
def readsBack (m : Magnitude) (n : Nat) (places : Int) : Bool :=
  Magnitude.nearest? (n * Nat.pow 10 (-places).toNat) (Nat.pow 10 places.toNat) == some m

/-- The multiple of a power of ten next to `m` that is read as `m`, the nearer one if both are. -/
def atPlaces? (m : Magnitude) (places : Int) : Option Nat :=
  let num := m.numerator * Nat.pow 10 places.toNat
  let den := m.denominator * Nat.pow 10 (-places).toNat
  let below := num / den
  let nearer := Magnitude.roundedQuotient num den
  [nearer, if nearer = below then below + 1 else below].find? fun n => readsBack m n places

/-- Seventeen digits tell any two magnitudes apart. -/
def maxDigitCount : Nat := 17

/-- The shortest decimal that is read as `m`: the digits, and how many of them come after the point. -/
def shortest (m : Magnitude) : Nat × Int :=
  let point := pointPlace m.numerator m.denominator
  ((List.range maxDigitCount).findSome? fun count : Nat =>
    let places := count + 1 - point
    (atPlaces? m places).map fun n => (n, places)).getD (0, 0)

def positional (ds : List Char) (point : Int) : List Char :=
  if point ≤ 0 then '0' :: '.' :: (List.replicate (-point).toNat '0' ++ ds)
  else
    let whole := ds.take point.toNat ++ List.replicate (point.toNat - ds.length) '0'
    let fraction := ds.drop point.toNat
    whole ++ '.' :: (if fraction.isEmpty then ['0'] else fraction)

/-- A digit before the point, the others after it, and an exponent of at least two digits. -/
def withExponent (ds : List Char) (exponent : Int) : List Char :=
  let fraction := ds.drop 1
  ds.take 1 ++ (if fraction.isEmpty then [] else '.' :: fraction) ++
    'e' :: (if exponent < 0 then '-' else '+') ::
      zeroPadded 2 (Nat.toDigits 10 exponent.natAbs)

def magnitudeText (m : Magnitude) : List Char :=
  if m.significand = 0 then ['0', '.', '0']
  else
    let (n, places) := shortest m
    let all := Nat.toDigits 10 n
    let point := all.length - places
    let ds := (all.reverse.dropWhile (· = '0')).reverse
    if -4 < point ∧ point ≤ 16 then positional ds point else withExponent ds (point - 1)

def text : Double → String
  | .notANumber => "nan"
  | .infinite negative => if negative then "-inf" else "inf"
  | .finite negative m =>
    String.ofList (if negative then '-' :: magnitudeText m else magnitudeText m)

end ChipEight.Double
