import FlatCrate.CommandLine.Option
import FlatCrate.Text.Digit
import FlatCrate.Text.Quoted

/-!
# Reading the command line

Every word of the command line is first classified: it is an option, an argument, or the mark behind
which everything is an argument. A word that begins with a dash is an option unless it is the dash
alone, a negative number, or holds a space and no known option. Then the options take their
arguments in turn; what no option takes is refused at the end.

Readers of command lines differ in corners of this. Here the custom is that of the versions before
3.11.9: if the mark is attached to an option, as in `--file=--`, it is dropped and the option is given
nothing. In `-vo=x` the equals sign belongs to the value of the second option, and in `-v=ox` it is
passed over. Later versions take the mark as the value, leave the sign out of `-vo=x` and refuse
`-v=ox`.
-/

namespace FlatCrate.CommandLine

/-- Why a command line is refused; asking for help is answered in the same way. -/
inductive ArgumentFault
  | help
  | ambiguous (word : String) (spellings : List String)
  | missing (opt : Opt)
  | ignored (opt : Opt) (value : String)
  | badInteger (opt : Opt) (value : String)
  | badChoice (opt : Opt) (value : String)
  | conflict (opt other : Opt)
  | unrecognized (words : List String)
  deriving DecidableEq, Repr

namespace ArgumentFault

/-- An error about an option. -/
def about (opt : Opt) (text : String) : String := "argument " ++ opt.name ++ ": " ++ text

/-- The message of a fault. -/
def message : ArgumentFault → String
  | help => ""
  | ambiguous word spellings =>
    "ambiguous option: " ++ word ++ " could match " ++ String.intercalate ", " spellings
  | missing opt =>
    about opt (if opt.arity = .several then "expected at least one argument"
      else "expected one argument")
  | ignored opt value => about opt ("ignored explicit argument " ++ Text.quoted value)
  | badInteger opt value => about opt ("invalid int value: " ++ Text.quoted value)
  | badChoice opt value =>
    about opt ("invalid choice: " ++ Text.quoted value ++ " (choose from " ++
      String.intercalate ", " (opt.choices.map Text.quoted) ++ ")")
  | conflict opt other => about opt ("not allowed with argument " ++ other.name)
  | unrecognized words => "unrecognized arguments: " ++ String.intercalate " " words

end ArgumentFault

/-- What a word of the command line is. A value may be attached to an option in the same word. -/
inductive Word
  | argument
  | unknown
  | option (opt : Opt) (isShort : Bool) (attached : Option (List Char))

/-- The part of a word in front of its first equals sign, and the part behind it. -/
def splitEquals (word : List Char) : List Char × Option (List Char) :=
  match word.span (· != '=') with
  | (before, _ :: behind) => (before, some behind)
  | (before, []) => (before, none)

/-- The option with a given spelling. -/
def spelled? (word : List Char) : Option Opt := Opt.spellings.lookup (String.ofList word)

/-- Whether digits of any script make up a text; there has to be one. -/
def isDigits (cs : List Char) : Bool :=
  !cs.isEmpty && cs.all fun c => (Text.decimalDigit? c).isSome

/-- Whether a word is a negative number; one line feed may end it. -/
def isNegativeNumber (word : List Char) : Bool :=
  let body := if word.getLast? = some '\n' then word.dropLast else word
  match body with
  | '-' :: rest =>
    isDigits rest ||
      match rest.span (· != '.') with
      | (whole, '.' :: fraction) => (whole.isEmpty || isDigits whole) && isDigits fraction
      | _ => false
  | _ => false

/-- What a word is that is no spelling of an option. -/
def classifyUnspelled (word : List Char) : Word :=
  if isNegativeNumber word || word.contains ' ' then .argument else .unknown

/-- What a word is that begins with two dashes: the one option that it shortens, if any. -/
def classifyLong (word : List Char) : Except ArgumentFault Word :=
  let (start, value) := splitEquals word
  let found := Opt.spellings.filter fun spelling => start.isPrefixOf spelling.1.toList
  match found with
  | [] => .ok (classifyUnspelled word)
  | [(_, opt)] => .ok (.option opt false value)
  | _ => .error (.ambiguous (String.ofList word) (found.map (·.1)))

/-- What a word is that begins with a dash. -/
def classifyDashed (word : List Char) : Except ArgumentFault Word :=
  match spelled? word with
  | some opt => .ok (.option opt (word[1]? != some '-') none)
  | none =>
    match splitEquals word with
    | (start, some value) =>
      match spelled? start with
      | some opt => .ok (.option opt (word[1]? != some '-') (some value))
      | none => classifyRest word
    | (_, none) => classifyRest word
where
  /-- A word without a complete spelling in it. -/
  classifyRest (word : List Char) : Except ArgumentFault Word :=
    if word[1]? = some '-' then classifyLong word
    else match spelled? (word.take 2) with
      | some opt => .ok (.option opt true (some (word.drop 2)))
      | none => .ok (classifyUnspelled word)

/-- What a word is in front of the mark. -/
def classify (word : String) : Except ArgumentFault Word :=
  match word.toList with
  | [] | ['-'] => .ok .argument
  | '-' :: rest => classifyDashed ('-' :: rest)
  | _ => .ok .argument

/-- The words with what they are; behind the mark everything is an argument. The mark itself is no
option, and no option takes it as an argument. -/
def classifyAll : List String → Except ArgumentFault (List (String × Word))
  | [] => .ok []
  | word :: rest =>
    if word = "--" then .ok ((word, .unknown) :: rest.map fun other => (other, .argument))
    else do return (word, ← classify word) :: (← classifyAll rest)

/-- What a word full of options asks for. -/
structure Request where
  /-- The options without an argument in it. -/
  flags : List Opt := []
  /-- The last option, if it takes arguments, and the argument in the same word. -/
  last : Option (Opt × Option String) := none

/-- The options of a word with a value attached to its first option. A short option that takes no
argument leaves the value to further short options. -/
def requestOf (flags : List Opt) (opt : Opt) (isShort : Bool) :
    List Char → Except ArgumentFault Request
  | [] =>
    if opt.arity = .none then .error (.ignored opt "")
    else .ok { flags, last := some (opt, some "") }
  | c :: rest =>
    if opt.arity ≠ .none then .ok { flags, last := some (opt, some (String.ofList (c :: rest))) }
    else match (if isShort then spelled? ['-', c] else none) with
      | none => .error (.ignored opt (String.ofList (c :: rest)))
      | some next =>
        if !rest.isEmpty then requestOf (flags ++ [opt]) next true rest
        else if next.arity = .none then .ok { flags := flags ++ [opt, next] }
        else .ok { flags := flags ++ [opt], last := some (next, none) }

/-- What a word asks for that begins with an option. -/
def request (opt : Opt) (isShort : Bool) : Option (List Char) → Except ArgumentFault Request
  | some value => requestOf [] opt isShort value
  | none =>
    if opt.arity = .none then .ok { flags := [opt] } else .ok { last := some (opt, none) }

/-- The form of a report. -/
inductive ReportForm
  | drawing
  | document
  deriving DecidableEq, Repr

/-- The cells of a drawing. -/
inductive DrawingStyle
  | lines
  | ascii
  deriving DecidableEq, Repr

/-- What an option was given. -/
inductive Given (α : Type)
  | value (a : α)
  /-- No value: the mark was attached to the option in the place of one. -/
  | nothing
  deriving DecidableEq, Repr

/-- What an option was given, read as a value of another type. -/
def Given.read {α β : Type} (how : α → Except ArgumentFault β) :
    Given α → Except ArgumentFault (Given β)
  | value a => (how a).map .value
  | nothing => .ok nothing

/-- The command line once it has been read. -/
structure Arguments where
  sysroot : Option (Given String) := none
  compiler : Option (Given String) := none
  outputDir : Option (Given String) := none
  components : Option (List String) := none
  noManifest : Bool := false
  config : Option (Given String) := none
  file : Option (Given String) := none
  output : Option (Given String) := none
  budget : Option (Given Int) := none
  stubbing : Bool := false
  report : Option (Given ReportForm) := none
  drawing : Given DrawingStyle := .value .lines
  verbose : Bool := false
  quiet : Bool := false
  deriving DecidableEq, Repr

/-- The whole number that an option is given. -/
def readInteger (opt : Opt) (value : String) : Except ArgumentFault Int :=
  match Text.integer? 10 value.toList with
  | some n => .ok n
  | none => .error (.badInteger opt value)

/-- The form of a report that an option is given. -/
def readForm (opt : Opt) (value : String) : Except ArgumentFault ReportForm :=
  if value = "ascii" then .ok .drawing
  else if value = "json" then .ok .document
  else .error (.badChoice opt value)

/-- The cells of a drawing that an option is given. -/
def readStyle (opt : Opt) (value : String) : Except ArgumentFault DrawingStyle :=
  if value = "tree" then .ok .lines
  else if value = "ascii" then .ok .ascii
  else .error (.badChoice opt value)

namespace Arguments

/-- The arguments with an option that takes no argument. -/
def setFlag (arguments : Arguments) : Opt → Except ArgumentFault Arguments
  | .noManifest => .ok { arguments with noManifest := true }
  | .stubbing => .ok { arguments with stubbing := true }
  | .verbose =>
    if arguments.quiet then .error (.conflict .verbose .quiet)
    else .ok { arguments with verbose := true }
  | .quiet =>
    if arguments.verbose then .error (.conflict .quiet .verbose)
    else .ok { arguments with quiet := true }
  | .help => .error .help
  | _ => .ok arguments

/-- The arguments with an option and what it was given. -/
def setGiven (arguments : Arguments) (opt : Opt) (given : Given String) :
    Except ArgumentFault Arguments :=
  match opt with
  | .sysroot => .ok { arguments with sysroot := some given }
  | .compiler => .ok { arguments with compiler := some given }
  | .outputDir => .ok { arguments with outputDir := some given }
  | .config => .ok { arguments with config := some given }
  | .file => .ok { arguments with file := some given }
  | .output => .ok { arguments with output := some given }
  | .budget => do return { arguments with budget := some (← given.read (readInteger opt)) }
  | .report => do return { arguments with report := some (← given.read (readForm opt)) }
  | .drawing => do return { arguments with drawing := ← given.read (readStyle opt) }
  | _ => .ok arguments

/-- The arguments with an option and the values it took. -/
def setValues (arguments : Arguments) (opt : Opt) (values : List String) :
    Except ArgumentFault Arguments :=
  match opt, values with
  | .components, values => .ok { arguments with components := some values }
  | opt, value :: _ => arguments.setGiven opt (.value value)
  | opt, [] => arguments.setGiven opt .nothing

/-- How many of the following words an option takes. -/
def taken (opt : Opt) (following : List (String × Word)) : Nat :=
  let available := (following.takeWhile fun word => word.2 matches .argument).length
  match opt.arity with
  | .none => 0
  | .one => min 1 available
  | .several => available

/-- The values of the option of a request, and how many of the following words they are. The mark
attached to an option is no value. -/
def valuesOf (request : Request) (following : List (String × Word)) :
    Except ArgumentFault (Option (Opt × List String) × Nat) :=
  match request.last with
  | none => .ok (none, 0)
  | some (opt, some value) => .ok (some (opt, if value = "--" then [] else [value]), 0)
  | some (opt, none) =>
    let count := taken opt following
    if count = 0 then .error (.missing opt)
    else .ok (some (opt, (following.take count).map (·.1)), count)

/-- Takes the words one after the other; `extras` holds those that no option has taken. -/
def take (arguments : Arguments) (extras : List String) :
    List (String × Word) → Except ArgumentFault (Arguments × List String)
  | [] => .ok (arguments, extras)
  | (_, .option opt isShort attached) :: following => do
    let asked ← request opt isShort attached
    let (values, count) ← valuesOf asked following
    let arguments ← asked.flags.foldlM setFlag arguments
    let arguments ← match values with
      | none => .ok arguments
      | some (opt, values) => arguments.setValues opt values
    take arguments extras (following.drop count)
  | (word, _) :: following => take arguments (extras ++ [word]) following
termination_by words => words.length
decreasing_by
  · simp only [List.length_drop, List.length_cons]
    omega
  · simp

/-- The arguments that a command line gives. -/
def parse (words : List String) : Except ArgumentFault Arguments := do
  let (arguments, extras) ← take {} [] (← classifyAll words)
  if extras.isEmpty then .ok arguments else .error (.unrecognized extras)

end Arguments

end FlatCrate.CommandLine
