/-!
# Options of the command line

An option either stands for itself or takes one value. Every option has a long
name; most have a letter as well.
-/

namespace ChartParser.Arguments

/-- An option that stands for itself. -/
inductive Flag where
  | parseTree
  | verbose
  | help
  | version
deriving DecidableEq, Repr

/-- An option that takes a value. -/
inductive Parameter where
  | start
  | budget
  | generate
  | seed
  | maxDepth
deriving DecidableEq, Repr

/-- An option of either kind. -/
inductive Switch where
  | flag (flag : Flag)
  | parameter (parameter : Parameter)
deriving DecidableEq, Repr

/-- The option with a long name. Names are not abbreviated. -/
def Switch.ofName : String → Option Switch
  | "parse-tree" => some (flag .parseTree)
  | "verbose" => some (flag .verbose)
  | "help" => some (flag .help)
  | "version" => some (flag .version)
  | "start" => some (parameter .start)
  | "budget" => some (parameter .budget)
  | "generate" => some (parameter .generate)
  | "seed" => some (parameter .seed)
  | "max-depth" => some (parameter .maxDepth)
  | _ => none

/-- The option with a letter. -/
def Switch.ofLetter : Char → Option Switch
  | 'p' => some (flag .parseTree)
  | 'v' => some (flag .verbose)
  | 'h' => some (flag .help)
  | 'V' => some (flag .version)
  | 's' => some (parameter .start)
  | 'b' => some (parameter .budget)
  | 'n' => some (parameter .generate)
  | _ => none

/-- Why arguments do not lead to a run of the program. A value is invalid where it is missing, or
empty and must not be; it fails validation where it is not a number in range. -/
inductive Refusal where
  | unknownArgument
  | invalidValue
  | valueValidation
  | argumentConflict
  | tooManyValues
  | missingRequiredArgument
  | helpAsked
  | versionAsked
deriving DecidableEq, Repr

/-- The exit code: asking for a text is no mistake. -/
def Refusal.exitCode : Refusal → Nat
  | helpAsked | versionAsked => 0
  | _ => 2

/-- What the version option shows. -/
def versionText : String :=
  "cky 0.1.0\n"

/-- What the help option shows. -/
def helpText : String :=
  "Parse sentences with a CNF grammar using the CKY algorithm\n" ++
  "\n" ++
  "Usage: cky [OPTIONS] <GRAMMAR> [SENTENCE]...\n" ++
  "\n" ++
  "Arguments:\n" ++
  "  <GRAMMAR>      File containing the grammar in Chomsky normal form\n" ++
  "  [SENTENCE]...  Sentence to parse once instead of starting the interactive prompt\n" ++
  "\n" ++
  "Options:\n" ++
  "  -p, --parse-tree         Print parses as indented trees instead of on one line\n" ++
  "  -s, --start <SYMBOL>     Start symbol (default: S)\n" ++
  "  -b, --budget <ENTRIES>   Give up on a sentence after creating this many chart entries\n" ++
  "  -n, --generate <AMOUNT>  Generate this many random sentences instead of parsing\n" ++
  "      --seed <SEED>        Seed for sentence generation\n" ++
  "      --max-depth <DEPTH>  Deepest derivation to generate [default: 32]\n" ++
  "  -v, --verbose...         Log more (-v for debug, -vv for trace)\n" ++
  "  -h, --help               Print help\n" ++
  "  -V, --version            Print version\n"

/-- The text that was asked for. -/
def Refusal.text : Refusal → String
  | helpAsked => helpText
  | versionAsked => versionText
  | _ => ""

end ChartParser.Arguments
