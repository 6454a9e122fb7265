import ChipEight.Text.Integer
import ChipEight.Text.Quoted

/-! # Options
The options of the command line, what they set, and everything that can be wrong with them. -/
namespace ChipEight.CommandLine

inductive Flag where
  | help | file | hires | speed | scale
deriving DecidableEq, Repr

namespace Flag

def takesValue : Flag → Bool
  | .help | .hires => false
  | .file | .speed | .scale => true

def title : Flag → String
  | .help => "-h/--help"
  | .file => "-f/--file"
  | .hires => "--hires"
  | .speed => "--speed"
  | .scale => "--scale"

/-- Every way to write an option in full. -/
def spellings : List (String × Flag) := [
  ("-h", .help), ("--help", .help), ("-f", .file), ("--file", .file),
  ("--hires", .hires), ("--speed", .speed), ("--scale", .scale)]

def ofSpelling? (s : List Char) : Option Flag :=
  (spellings.find? fun p => p.1.toList == s).map Prod.snd

end Flag

/-- What the options set. An option that got an empty value is set to none. -/
structure Options where
  file : Option String
  hires : Bool := false
  speed : Option Int := some 500
  scale : Option Int := some 15
deriving DecidableEq, Repr

inductive UsageError where
  | ambiguous (written : String) (candidates : List String)
  | missingValue (flag : Flag)
  | unwantedValue (flag : Flag) (value : String)
  | notAnInteger (flag : Flag) (value : String)
  | fileRequired
  | unrecognized (words : List String)
deriving DecidableEq, Repr

def UsageError.message : UsageError → String
  | ambiguous written candidates =>
    "ambiguous option: " ++ written ++ " could match " ++ ", ".intercalate candidates
  | missingValue flag => "argument " ++ flag.title ++ ": expected one argument"
  | unwantedValue flag value =>
    "argument " ++ flag.title ++ ": ignored explicit argument " ++ Text.quoted value
  | notAnInteger flag value =>
    "argument " ++ flag.title ++ ": invalid int value: " ++ Text.quoted value
  | fileRequired => "the following arguments are required: -f/--file"
  | unrecognized words => "unrecognized arguments: " ++ " ".intercalate words

/-- Why reading the options stops the program. -/
inductive Stop where
  | help
  | usage (e : UsageError)
deriving DecidableEq, Repr

namespace Stop

def usageLine : String :=
  "usage: chip8 [-h] -f FILE [--hires] [--speed SPEED] [--scale SCALE]\n"

def helpText : String :=
  usageLine ++ "\nCHIP-8 interpreter\n\noptions:\n" ++
  "  -h, --help            show this help message and exit\n" ++
  "  -f FILE, --file FILE  input rom file\n" ++
  "  --hires               use the 128x64 display instead of 64x32\n" ++
  "  --speed SPEED         instructions per second (default 500)\n" ++
  "  --scale SCALE         size in pixels of a CHIP-8 pixel (default 15)\n"

def exitCode : Stop → Nat
  | .help => 0
  | .usage _ => 2

def stdout : Stop → String
  | .help => helpText
  | .usage _ => ""

def stderr : Stop → String
  | .help => ""
  | .usage e => usageLine ++ "chip8: error: " ++ e.message ++ "\n"

end Stop

end ChipEight.CommandLine
