import ChipEight.CommandLine.Options

/-! # Words of the command line
Every word is first told apart by itself: a long option may be shortened as far as it stays unique, a
value may be attached to it, and a negative number or a word with a space is no option. After a word
of two dashes all words are arguments. The letter of a short option is followed by its value with or
without an equals sign between them. -/
namespace ChipEight.CommandLine

/-- The value written in the same word as an option. -/
inductive Attached where
  | none
  | afterEquals (value : List Char)
  | joined (value : List Char)
deriving DecidableEq, Repr

inductive Word where
  | argument
  | separator
  | option (flag : Flag) (attached : Attached)
  | unknown
deriving DecidableEq, Repr

def isDigits (s : List Char) : Bool := !s.isEmpty && s.all fun c => (Text.digitValue? c).isSome

/-- Digits, perhaps with a point before the last of them. -/
def isUnsigned (s : List Char) : Bool :=
  isDigits s ||
    match s.dropWhile fun c => (Text.digitValue? c).isSome with
    | '.' :: fraction => isDigits fraction
    | _ => false

/-- Whether a word reads as a negative number, a line break at its end left aside. -/
def isNegativeNumber : List Char → Bool
  | '-' :: rest => isUnsigned rest || (rest.getLast? == some '\n' && isUnsigned rest.dropLast)
  | _ => false

/-- The part before the first equals sign and the value after it. -/
def splitValue (s : List Char) : List Char × Attached :=
  match s.span (· ≠ '=') with
  | (name, _ :: value) => (name, .afterEquals value)
  | (name, []) => (name, .none)

/-- The options that a word may mean which spells none in full. -/
def candidates (s : List Char) : List (String × Flag × Attached) :=
  match s with
  | '-' :: '-' :: _ =>
    let (name, attached) := splitValue s
    (Flag.spellings.filter fun p => name.isPrefixOf p.1.toList).map fun p => (p.1, p.2, attached)
  | a :: b :: value =>
    (Flag.spellings.filter fun p => p.1.toList == [a, b]).map fun p => (p.1, p.2, .joined value)
  | _ => []

/-- What a word is that begins with a dash and spells no option in full. -/
def guess (s : List Char) : Except UsageError Word :=
  match candidates s with
  | [(_, flag, attached)] => .ok (.option flag attached)
  | [] => .ok (if isNegativeNumber s || s.contains ' ' then .argument else .unknown)
  | several => .error (.ambiguous (String.ofList s) (several.map Prod.fst))

def classify (s : List Char) : Except UsageError Word :=
  match s with
  | '-' :: _ :: _ =>
    match Flag.ofSpelling? s, splitValue s with
    | some flag, _ => .ok (.option flag .none)
    | none, (name, .afterEquals value) =>
      match Flag.ofSpelling? name with
      | some flag =>
        .ok (.option flag (if name.length = 2 then .joined value else .afterEquals value))
      | none => guess s
    | none, _ => guess s
  | _ => .ok .argument

def classifyAll : List String → Except UsageError (List (String × Word))
  | [] => .ok []
  | "--" :: rest => .ok (("--", .separator) :: rest.map fun s => (s, .argument))
  | s :: rest => do
    let word ← classify s.toList
    let words ← classifyAll rest
    return (s, word) :: words

end ChipEight.CommandLine
