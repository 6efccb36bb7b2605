import NodeShader.Text.Basic
import NodeShader.Text.Quoted
import NodeShader.Text.Scalar

/-!
# Flags

Flags have a name after two dashes and some a letter after one. The value stands behind an equals sign
or is the next argument; a switch needs none. Flags and other arguments may come in any order, and two
dashes alone end the flags.
-/

namespace NodeShader.Command

/-- What values a flag takes. -/
inductive FlagKind where
  | switch
  | text
  | texts
  | integer
  | single
  /-- A switch of the log. -/
  | logSwitch
  /-- A verbosity. -/
  | level
  /-- A number of megabytes. -/
  | megabytes
  /-- The name or number of a severity. -/
  | severity
  /-- A file and a line of it. -/
  | location
  /-- Verbosities by file. -/
  | levels
  deriving DecidableEq, Repr

structure Flag where
  name : String
  letter : Option Char := none
  kind : FlagKind
  deriving DecidableEq, Repr

inductive FlagValue where
  | bool (value : Bool)
  | int (value : Int)
  | single (bits : UInt32)
  | text (value : String)
  deriving DecidableEq, Repr

/-! ### Values -/

/-- The reason why a text is no value, as told by a reader of that name. -/
def told {α : Type} (reader text : String) (r : Except Text.ScalarFault α) : Except String α :=
  r.mapError fun f => f.message reader text

/-- The reason why a text is no value, in the words of the log. -/
def toldShort {α : Type} (r : Except Text.ScalarFault α) : Except String α :=
  r.mapError fun
    | .invalid => "parse error"
    | .outOfRange => "value out of range"

/-- The severities by name. -/
def severities : List String := ["INFO", "WARNING", "ERROR", "FATAL"]

/-- Checks a file and a line number joined by a colon. -/
def checkLocation (s : String) : Except String Unit :=
  let malformed := "syntax error: expect file.go:234"
  if s = "" then .ok ()
  else
    match s.splitOn ":" with
    | [file, line] =>
      if !file.toList.contains '.' then .error malformed
      else
        match Text.readInt 64 line with
        | .error _ => .error malformed
        | .ok n => if n ≤ 0 then .error "negative or zero value for level" else .ok ()
    | _ => .error malformed

/-- Checks a list of files with verbosities. -/
def checkLevels (s : String) : Except String Unit :=
  let malformed := "syntax error: expect comma-separated list of filename=N"
  (s.splitOn ",").forM fun part =>
    if part = "" then .ok ()
    else
      match part.splitOn "=" with
      | [file, level] =>
        if file = "" ∨ level = "" then .error malformed
        else
          match Text.readInt 32 level with
          | .error _ => .error malformed
          | .ok n => if n < 0 then .error "negative value for vmodule level" else .ok ()
      | _ => .error malformed

/-- An unsigned number in the base that its first characters tell. -/
def readMegabytes (s : String) : Except Text.ScalarFault Int :=
  match s.toList with
  | '-' :: _ | '+' :: _ => .error .invalid
  | _ => Text.readMarkedInt 65 s

namespace FlagKind

/-- Whether the flag may stand without a value. -/
def isSwitch : FlagKind → Bool
  | switch | logSwitch => true
  | _ => false

/-- Reads a value, or tells why it is none. -/
def read (k : FlagKind) (s : String) : Except String FlagValue :=
  match k with
  | switch => (told "ParseBool" s (Text.readBool s)).map .bool
  | text | texts => .ok (.text s)
  | integer => (told "ParseInt" s (Text.readMarkedInt 64 s)).map .int
  | single =>
    (told "ParseFloat" s (Text.readFloat .binary32 s)).map fun bits => .single bits.toUInt32
  | logSwitch => (toldShort (Text.readBool s)).map .bool
  | level => (told "ParseInt" s (Text.readInt 32 s)).map .int
  | megabytes => (toldShort (readMegabytes s)).map .int
  | severity =>
    let name := String.ofList (s.toList.map Char.toUpper)
    match severities.idxOf? name with
    | some i => .ok (.int i)
    | none => (told "ParseInt" s (Text.readInt 32 s)).map .int
  | location => (checkLocation s).map fun _ => .text s
  | levels => (checkLevels s).map fun _ => .text s

end FlagKind

/-! ### Arguments -/

/-- Why a command line is refused. -/
inductive UsageError where
  | malformedFlag (arg : String)
  | unknownFlag (name : String)
  | unknownLetter (byte : Char) (letters : String)
  | missingValue (arg : String)
  | missingLetterValue (letter : Char) (letters : String)
  | invalidValue (value : String) (flag : Flag) (reason : String)
  | unknownCommand (name : String) (suggestions : List String)
  | argumentCount (want got : Nat)

/-- A flag as messages name it. -/
def Flag.shown (f : Flag) : String :=
  match f.letter with
  | some c => s!"-{c}, --{f.name}"
  | none => s!"--{f.name}"

/-- The program's name in messages. -/
def programName : String := "shadergraph"

def UsageError.message : UsageError → String
  | malformedFlag arg => s!"bad flag syntax: {arg}"
  | unknownFlag name => s!"unknown flag: --{name}"
  | unknownLetter c letters => s!"unknown shorthand flag: {Text.quoteSingle c} in -{letters}"
  | missingValue arg => s!"flag needs an argument: {arg}"
  | missingLetterValue c letters => s!"flag needs an argument: {Text.quoteSingle c} in -{letters}"
  | invalidValue value flag reason =>
    s!"invalid argument {Text.quote value} for {Text.quote flag.shown} flag: {reason}"
  | unknownCommand name suggestions =>
    let hints :=
      if suggestions.isEmpty then ""
      else "\n\nDid you mean this?\n" ++ String.join (suggestions.map fun s => s!"\t{s}\n")
    s!"unknown command {Text.quote name} for {Text.quote programName}{hints}"
  | argumentCount want got => s!"accepts {want} arg(s), received {got}"

/-- The flags that were set, the latest first, and the other arguments. -/
structure Arguments where
  settings : List (String × FlagValue)
  others : List String
  deriving Inhabited

namespace Arguments

def set (a : Arguments) (f : Flag) (value : String) : Except UsageError Arguments :=
  match f.kind.read value with
  | .ok v => .ok { a with settings := (f.name, v) :: a.settings }
  | .error reason => .error (.invalidValue value f reason)

/-- All values of a flag in the order they were given. -/
def valuesOf (a : Arguments) (name : String) : List FlagValue :=
  (a.settings.reverse.filter fun s => s.1 == name).map (·.2)

/-- The last value of a flag. -/
def value? (a : Arguments) (name : String) : Option FlagValue := a.settings.lookup name

def isOn (a : Arguments) (name : String) : Bool := a.value? name = some (.bool true)

def textOf (a : Arguments) (name : String) : String :=
  match a.value? name with
  | some (.text s) => s
  | _ => ""

end Arguments

/-- The flag of a name. -/
def named? (flags : List Flag) (name : String) : Option Flag := flags.find? fun f => f.name == name

/-- The flag of a letter. -/
def lettered? (flags : List Flag) (letter : Char) : Option Flag :=
  flags.find? fun f => f.letter == some letter

/-- Splits a text at its first equals sign. -/
def splitValue (cs : List Char) : String × Option String :=
  match cs.dropWhile (· != '=') with
  | [] => (String.ofList cs, none)
  | _ :: value => (String.ofList (cs.takeWhile (· != '=')), some (String.ofList value))

/-- A flag by name: what it sets, and how many of the arguments after it it takes. -/
def longFlag (flags : List Flag) (arg : String) (next : Option String) (a : Arguments) :
    Except UsageError (Arguments × Bool) := do
  let body := arg.toList.drop 2
  if body.head? = some '-' ∨ body.head? = some '=' then throw (.malformedFlag arg)
  let (name, value) := splitValue body
  match named? flags name with
  | none => throw (.unknownFlag name)
  | some f =>
    match value, next with
    | some value, _ => return (← a.set f value, false)
    | none, next =>
      if f.kind.isSwitch then return (← a.set f "true", false)
      else
        match next with
        | some value => return (← a.set f value, true)
        | none => throw (.missingValue arg)

/-- The first byte of a character, as a character. -/
def firstByte (c : Char) : Char := Char.ofNat ((String.utf8EncodeChar c).headD 0).toNat

/-- Flags by letter, several in one argument; whether the argument after it is taken as a value. -/
def shortFlags (flags : List Flag) (next : Option String) :
    List Char → Arguments → Except UsageError (Arguments × Bool)
  | [], a => .ok (a, false)
  | c :: cs, a =>
    let letters := String.ofList (c :: cs)
    match lettered? flags c with
    | none => .error (.unknownLetter (firstByte c) letters)
    | some f =>
      match cs with
      | '=' :: d :: ds => (a.set f (String.ofList (d :: ds))).map fun a => (a, false)
      | cs =>
        if f.kind.isSwitch then
          match a.set f "true" with
          | .ok a => shortFlags flags next cs a
          | .error e => .error e
        else if !cs.isEmpty then (a.set f (String.ofList cs)).map fun a => (a, false)
        else
          match next with
          | some value => (a.set f value).map fun a => (a, true)
          | none => .error (.missingLetterValue c letters)

/-- Reads all arguments from the left. -/
def readArguments (flags : List Flag) : List String → Arguments → Except UsageError Arguments
  | [], a => .ok a
  | arg :: rest, a =>
    match arg.toList with
    | ['-', '-'] => .ok { a with others := a.others ++ rest }
    | '-' :: '-' :: _ =>
      match longFlag flags arg rest.head? a with
      | .error e => .error e
      | .ok (a, took) => readArguments flags (if took then rest.drop 1 else rest) a
    | '-' :: c :: cs =>
      match shortFlags flags rest.head? (c :: cs) a with
      | .error e => .error e
      | .ok (a, took) => readArguments flags (if took then rest.drop 1 else rest) a
    | _ => readArguments flags rest { a with others := a.others ++ [arg] }
termination_by args => args.length
decreasing_by
  all_goals
    simp only [List.length_cons]
    try split
    all_goals (try simp only [List.length_drop]); omega

end NodeShader.Command

/-!
## Command lines

A command line names one of two commands, `compile` and `wedge`, and gives it flags and the path of a
graph file. Flags may stand before the command too; what follows a flag that takes a value is then not
taken for the command.
-/

namespace NodeShader.Command

/-- The commands that work on a graph file. -/
inductive Verb where
  | compile
  | wedge
  deriving DecidableEq, Repr

def Verb.name : Verb → String
  | compile => "compile"
  | wedge => "wedge"

/-- The flags of the log. -/
def logFlags : List Flag :=
  [⟨"add_dir_header", none, .logSwitch⟩, ⟨"alsologtostderr", none, .logSwitch⟩,
    ⟨"log_backtrace_at", none, .location⟩, ⟨"log_dir", none, .text⟩, ⟨"log_file", none, .text⟩,
    ⟨"log_file_max_size", none, .megabytes⟩, ⟨"logtostderr", none, .logSwitch⟩,
    ⟨"one_output", none, .logSwitch⟩, ⟨"skip_headers", none, .logSwitch⟩,
    ⟨"skip_log_headers", none, .logSwitch⟩, ⟨"stderrthreshold", none, .severity⟩,
    ⟨"v", some 'v', .level⟩, ⟨"vmodule", none, .levels⟩]

/-- The flags of every command. -/
def globalFlags : List Flag := ⟨"no_color", none, .switch⟩ :: logFlags

/-- The flag that asks for help. -/
def helpFlag : Flag := ⟨"help", some 'h', .switch⟩

/-- The flags of the commands that compile. -/
def compileFlags : List Flag :=
  [⟨"output", none, .text⟩, ⟨"fold_constants", none, .switch⟩, ⟨"max_search_nodes", none, .integer⟩]

def Verb.flags (v : Verb) : List Flag :=
  let own : List Flag :=
    match v with
    | compile =>
      [⟨"spirv", none, .switch⟩, ⟨"msl", none, .switch⟩, ⟨"all", none, .switch⟩,
        ⟨"out_dir", none, .text⟩]
    | wedge =>
      [⟨"time", none, .single⟩, ⟨"model", none, .text⟩, ⟨"arg", none, .texts⟩,
        ⟨"progress", none, .switch⟩, ⟨"parallelism", none, .integer⟩]
  compileFlags ++ own ++ globalFlags ++ [helpFlag]

/-! ### The command -/

/-- Whether an argument is a flag that takes the next one as its value. -/
def takesNext (arg : String) : Bool :=
  match arg.toList with
  | '-' :: '-' :: name =>
    !name.contains '=' && !(named? globalFlags (String.ofList name)).any fun f => f.kind.isSwitch
  | ['-', c] => c != '=' && !(lettered? globalFlags c).any fun f => f.kind.isSwitch
  | _ => false

/-- The arguments that are neither flags nor their values, up to two dashes. -/
def words : List String → List String
  | [] => []
  | arg :: rest =>
    if arg = "--" then []
    else if takesNext arg then
      match rest with
      | _ :: next :: others => words (next :: others)
      | _ => []
    else if arg = "" ∨ arg.startsWith "-" then words rest
    else arg :: words rest

/-- The arguments without the first that is the given word. -/
def withoutWord (word : String) : List String → List String
  | [] => []
  | arg :: rest =>
    if arg = "--" then arg :: rest
    else if takesNext arg then
      match rest with
      | value :: others => arg :: value :: withoutWord word others
      | [] => [arg]
    else if arg = word then rest
    else arg :: withoutWord word rest

/-- The number of insertions, deletions and replacements that turn one list into another. The row holds
the distances from the front of `xs` read so far to each front of `ys`. -/
def nextRow (x : UInt8) (ys : List UInt8) (row : List Nat) : List Nat :=
  match row with
  | [] => []
  | first :: _ =>
    let cells := (ys.zip (row.zip (row.drop 1))).foldl
      (fun acc (y, diagonal, above) =>
        let left := acc.headD 0
        min (min (left + 1) (above + 1)) (diagonal + if x = y then 0 else 1) :: acc) [first + 1]
    cells.reverse

def editDistance (xs ys : List UInt8) : Nat :=
  (xs.foldl (fun row x => nextRow x ys row) (List.range (ys.length + 1))).getLastD 0

/-- The commands that may be suggested. -/
def commandNames : List String := ["compile", "wedge", "completion"]

/-- The commands that a mistyped one is close to. -/
def suggestions (typed : String) : List String :=
  let small (s : String) : String := String.ofList (s.toList.map Char.toLower)
  commandNames.filter fun name =>
    editDistance (Text.bytes (small typed)) (Text.bytes name) ≤ 2 || name.startsWith (small typed)

/-- What a command line asks for. -/
inductive Request where
  | help
  | run (verb : Verb) (path : String) (arguments : Arguments)

/-- Reads a command line. -/
def Request.parse (args : List String) : Except UsageError Request :=
  let forVerb (v : Verb) : Except UsageError Request := do
    let a ← readArguments v.flags (withoutWord v.name args) ⟨[], []⟩
    if a.isOn "help" then return .help
    match a.others with
    | [path] => return .run v path a
    | others => throw (.argumentCount 1 others.length)
  match words args with
  | [] => (readArguments (globalFlags ++ [helpFlag]) args ⟨[], []⟩).map fun _ => .help
  | "compile" :: _ => forVerb .compile
  | "wedge" :: _ => forVerb .wedge
  | "help" :: _ | "completion" :: _ => .ok .help
  | name :: _ => .error (.unknownCommand name (suggestions name))

end NodeShader.Command
