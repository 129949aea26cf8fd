import Formulary.Number.Reading
import Formulary.Symbols
import Formulary.Text.Quoted

/-!
# Arguments of the command line

The command line takes one formula and some options. An option may be shortened as long as it stays
unambiguous, and its value may follow after an equals sign. A word that looks like a negative
number, or that holds a space and starts no option, is no option. After `--` there are no options
any more; as the value of an option it is no value, and the option stands there without one.

Words are classified first, all of them; then they are consumed from left to right; then what is
missing or left over is reported.
-/

namespace Formulary.CommandLine

/-- The options. -/
inductive Flag
  | help
  | argument
  | constant
  | complex
  | tolerance
  | point
  deriving DecidableEq, Repr

/-- The spellings of the options. -/
def spellings : List (String × Flag) :=
  [("-h", .help), ("--help", .help), ("--arg", .argument), ("--const", .constant),
    ("--complex", .complex), ("--eps", .tolerance), ("--at", .point)]

/-- The name of an option in messages. -/
def Flag.name : Flag → String
  | help => "-h/--help"
  | argument => "--arg"
  | constant => "--const"
  | complex => "--complex"
  | tolerance => "--eps"
  | point => "--at"

/-- Whether an option takes a value. -/
def Flag.takesValue : Flag → Bool
  | help => false
  | complex => false
  | _ => true

/-- Why the arguments are refused. -/
inductive UsageError
  | ambiguous (word : String) (candidates : List String)
  | expectedValue (flag : Flag)
  | ignoredValue (flag : Flag) (value : String)
  | malformedArgument (text : String)
  | malformedConstant (text : String)
  | notANumber (text : String)
  | notAFloat (text : String)
  | malformedPoint (text : String)
  | missingSource
  | unrecognized (words : List String)

/-- The message about arguments that are refused. -/
def UsageError.message : UsageError → String
  | ambiguous word candidates =>
    s!"ambiguous option: {word} could match " ++ ", ".intercalate candidates
  | expectedValue flag => s!"argument {flag.name}: expected one argument"
  | ignoredValue flag value =>
    s!"argument {flag.name}: ignored explicit argument {Text.quoted value}"
  | malformedArgument text =>
    s!"argument --arg: expected name=slot[:width], got {Text.quoted text}"
  | malformedConstant text => s!"argument --const: expected name=value, got {Text.quoted text}"
  | notANumber text => s!"argument --const: not a number: {Text.quoted text}"
  | notAFloat text => s!"argument --eps: invalid float value: {Text.quoted text}"
  | malformedPoint text =>
    s!"argument --at: expected comma-separated numbers, got {Text.quoted text}"
  | missingSource => "the following arguments are required: source"
  | unrecognized words => "unrecognized arguments: " ++ " ".intercalate words

/-- An argument that a user registers. -/
structure Registered where
  name : String
  slot : Int
  width : Int

/-- What the arguments ask for. -/
structure Request where
  source : Option String := none
  /-- The arguments to register, none for an option without a value. -/
  arguments : List (Option Registered) := []
  /-- The constants to define, none for an option without a value. -/
  constants : List (Option (String × Number)) := []
  complex : Bool := false
  /-- The tolerance, if its option is there, and none in it if that has no value. -/
  tolerance : Option (Option Float) := none
  point : Option (List Cartesian) := none
  /-- Whether help is asked for; nothing after it counts. -/
  help : Bool := false
  /-- The words that nothing takes. -/
  extras : List String := []

/-- A text cut at the first occurrence of a mark, if it is there. -/
def cut (mark : Char) : List Char → List Char × Option (List Char)
  | [] => ([], none)
  | character :: rest =>
    if character = mark then ([], some rest)
    else
      let (before, after) := cut mark rest
      (character :: before, after)

/-- The parts of a text between separators. -/
def splitAll (separator : Char) : List Char → List (List Char)
  | [] => [[]]
  | character :: rest =>
    if character = separator then [] :: splitAll separator rest
    else
      match splitAll separator rest with
      | [] => [[character]]
      | part :: parts => (character :: part) :: parts

/-- An argument from `name=slot[:width]`. -/
def readRegistered (text : String) : Except UsageError Registered :=
  match cut '=' text.toList with
  | ([], _) => .error (.malformedArgument text)
  | (_, none) => .error (.malformedArgument text)
  | (name, some rest) =>
    let (slot, width) := cut ':' rest
    let width := match width.getD [] with
      | [] => ['1']
      | digits => digits
    match Reading.integer? (String.ofList slot), Reading.integer? (String.ofList width) with
    | some slot, some width => .ok ⟨String.ofList name, slot, width⟩
    | _, _ => .error (.malformedArgument text)

/-- A constant from `name=value`: a double if the value is one, or else a complex number. -/
def readConstant (text : String) : Except UsageError (String × Number) :=
  match cut '=' text.toList with
  | ([], _) => .error (.malformedConstant text)
  | (_, none) => .error (.malformedConstant text)
  | (name, some value) =>
    let value := String.ofList value
    match Reading.float? value, Reading.complex? value with
    | some found, _ => .ok (String.ofList name, .real found)
    | none, some found => .ok (String.ofList name, .complex found)
    | none, none => .error (.notANumber value)

/-- A point from numbers between commas; blank parts are left out. -/
def readPoint (text : String) : Except UsageError (List Cartesian) :=
  let parts := (splitAll ',' text.toList).filter fun part => !(Text.trimBlanks part).isEmpty
  match parts.mapM fun part => Reading.complex? (String.ofList part) with
  | some point => .ok point
  | none => .error (.malformedPoint text)

/-- A tolerance. -/
def readTolerance (text : String) : Except UsageError Float :=
  match Reading.float? text with
  | some value => .ok value
  | none => .error (.notAFloat text)

/-- The request after an option that stands there without a value. -/
def Request.takeNothing (request : Request) : Flag → Request
  | .argument => { request with arguments := request.arguments ++ [none] }
  | .constant => { request with constants := request.constants ++ [none] }
  | .tolerance => { request with tolerance := some none }
  | .point => { request with point := some [] }
  | .complex => { request with complex := true }
  | .help => { request with help := true }

/-- The request after an option with its value. -/
def Request.take (request : Request) (flag : Flag) (value : String) :
    Except UsageError Request := do
  if value = "--" then return request.takeNothing flag
  match flag with
  | .argument =>
    let registered ← readRegistered value
    return { request with arguments := request.arguments ++ [some registered] }
  | .constant =>
    let constant ← readConstant value
    return { request with constants := request.constants ++ [some constant] }
  | .tolerance =>
    let tolerance ← readTolerance value
    return { request with tolerance := some (some tolerance) }
  | .point =>
    let point ← readPoint value
    return { request with point := some point }
  | flag => return request.takeNothing flag

/-- What a word is before it is consumed. -/
inductive Word
  | plain (text : String)
  | option (flag : Flag) (spelling : String) (value : Option String)
  | unknown (text : String)
  | separator

/-- Whether a word looks like a negative number: a minus and digits, with at most one point, which
has digits after it. A line end at the end does not count. -/
def looksNegative (text : List Char) : Bool :=
  let isDecimal := fun character => (Text.decimalValue? character).isSome
  match text with
  | '-' :: rest =>
    let rest := if rest.getLast? = some '\n' then rest.dropLast else rest
    let (whole, fraction) := cut '.' rest
    match fraction with
    | none => !whole.isEmpty && whole.all isDecimal
    | some digits => whole.all isDecimal && !digits.isEmpty && digits.all isDecimal
  | _ => false

/-- The options that a word may be short for, each with the value that the word gives it. A word
that starts with a single minus may hold a one-letter option with a value. -/
def candidates (word : List Char) : List (String × Flag × Option String) :=
  match word with
  | '-' :: '-' :: _ =>
    let (stem, value) := cut '=' word
    (spellings.filter fun entry => stem.isPrefixOf entry.1.toList).map fun entry =>
      (entry.1, entry.2, value.map String.ofList)
  | _ =>
    spellings.filterMap fun entry =>
      if entry.1.toList = word.take 2 then
        some (entry.1, entry.2, some (String.ofList (word.drop 2)))
      else if word.isPrefixOf entry.1.toList then some (entry.1, entry.2, none)
      else none

/-- Classifies a word that comes before any separator. -/
def classify (text : String) : Except UsageError Word :=
  let word := text.toList
  if word.head? ≠ some '-' then .ok (.plain text)
  else
    match spellings.find? fun entry => entry.1 = text with
    | some entry => .ok (.option entry.2 entry.1 none)
    | none =>
      if word.length = 1 then .ok (.plain text)
      else
        let (stem, value) := cut '=' word
        let exact := spellings.find? fun entry => entry.1.toList = stem
        match exact, value with
        | some entry, some value =>
          .ok (.option entry.2 entry.1 (some (String.ofList value)))
        | _, _ =>
          match candidates word with
          | [(spelling, flag, value)] => .ok (.option flag spelling value)
          | [] =>
            if looksNegative word || word.contains ' ' then .ok (.plain text)
            else .ok (.unknown text)
          | several => .error (.ambiguous text (several.map fun entry => entry.1))

/-- Classifies all words. After the first separator every word is plain. -/
def classifyAll : List String → Except UsageError (List Word)
  | [] => .ok []
  | text :: rest =>
    if text = "--" then .ok (.separator :: rest.map .plain)
    else do
      let word ← classify text
      let words ← classifyAll rest
      return word :: words

/-- Consumes an option; the words after it may hold its value. Returns how many of them it took. -/
def consumeOption (request : Request) (flag : Flag) (spelling : String) (value : Option String)
    (rest : List Word) : Except UsageError (Request × Nat) :=
  match value with
  | some value =>
    if flag.takesValue then (request.take flag value).map fun request => (request, 0)
    else if flag = .help ∧ spelling = "-h" ∧ value ≠ "" then
      if String.ofList (value.toList.take 1) = "h" then
        let more := value.toList.drop 1
        if more.all (· = 'h') then .ok ({ request with help := true }, 0)
        else .error (.ignoredValue .help (String.ofList (more.dropWhile (· = 'h'))))
      else .error (.ignoredValue .help value)
    else .error (.ignoredValue flag value)
  | none =>
    if flag.takesValue then
      match rest with
      | .plain value :: _ => (request.take flag value).map fun request => (request, 1)
      | _ => .error (.expectedValue flag)
    else .ok (request.takeNothing flag, 0)

/-- How many separators words start with: there is one at most. -/
def leadingSeparators : List Word → Nat
  | .separator :: _ => 1
  | _ => 0

/-- Consumes the words from left to right. The first plain word is the formula, also when it
follows the separator; a separator right after the formula belongs to it. -/
def consume (request : Request) : List Word → Except UsageError Request
  | [] => .ok request
  | word :: rest =>
    if request.help then .ok request
    else
      match word with
      | .option flag spelling value => do
        let (next, count) ← consumeOption request flag spelling value rest
        consume next (rest.drop count)
      | .unknown text => consume { request with extras := request.extras ++ [text] } rest
      | .plain text =>
        if request.source.isNone then
          consume { request with source := some text } (rest.drop (leadingSeparators rest))
        else consume { request with extras := request.extras ++ [text] } rest
      | .separator =>
        match request.source, rest.head? with
        | none, some (.plain text) => consume { request with source := some text } (rest.drop 1)
        | _, _ => consume { request with extras := request.extras ++ ["--"] } rest
termination_by words => words.length
decreasing_by
  all_goals simp only [List.length_cons, List.length_drop]; omega

/-- Reads the arguments. -/
def readArguments (texts : List String) : Except UsageError Request := do
  let words ← classifyAll texts
  let request ← consume {} words
  if request.help then return request
  if request.source.isNone then .error .missingSource
  if request.extras ≠ [] then .error (.unrecognized request.extras)
  return request

end Formulary.CommandLine
