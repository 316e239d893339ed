import FheSolidity.Config
import FheSolidity.Text.Pieces

/-!
# Options

A command line is a list of words, each of them an option or the value of the option before it.
Words are read from the left and each takes effect at once, so the first word that asks for
something else than a run, or is wrong, ends the reading. An option is written `--name`, or `-x`
for its letter; letters may share a word. A value stands in the next word, or in the same word
after `=` or right after the letter.
-/

namespace FheSolidity.CommandLine

/-- The options without a value. -/
inductive Switch where
  | noTypedSeal
  | sequential
  | dryRun
  | json
  /-- Asks for more log lines. They are no part of the result, so it changes nothing. -/
  | verbose
  | version
  | help
  deriving DecidableEq

/-- The options with a value. -/
inductive Parameter where
  | catalog
  | out
  | config
  /-- A list of operations, separated by commas. -/
  | bench
  deriving DecidableEq

/-- An option of either kind. -/
inductive Name where
  | switch (s : Switch)
  | parameter (p : Parameter)
  deriving DecidableEq

namespace Name

/-- Every option. -/
def all : List Name :=
  [.parameter .catalog, .parameter .out, .parameter .config, .parameter .bench,
    .switch .noTypedSeal, .switch .sequential, .switch .dryRun, .switch .json, .switch .verbose,
    .switch .help, .switch .version]

/-- The name of an option. -/
def long : Name → String
  | .parameter .catalog => "catalog"
  | .parameter .out => "out"
  | .parameter .config => "config"
  | .parameter .bench => "bench"
  | .switch .noTypedSeal => "no-typed-seal"
  | .switch .sequential => "sequential"
  | .switch .dryRun => "dry-run"
  | .switch .json => "json"
  | .switch .verbose => "verbose"
  | .switch .version => "version"
  | .switch .help => "help"

/-- The letter of an option, if it has one. -/
def letter? : Name → Option Char
  | .parameter .catalog => some 'c'
  | .parameter .out => some 'o'
  | .switch .verbose => some 'v'
  | .switch .version => some 'V'
  | .switch .help => some 'h'
  | _ => none

/-- The option of a given name. -/
def ofLong? (n : String) : Option Name :=
  all.find? (·.long == n)

/-- The option of a given letter. -/
def ofLetter? (c : Char) : Option Name :=
  all.find? (·.letter? == some c)

theorem ofLong?_long (n : Name) : ofLong? n.long = some n := by
  rcases n with s | p
  · cases s <;> decide
  · cases p <;> decide

end Name

/-- What can be wrong with a command line. -/
inductive UsageError where
  /-- A word that is no option, where no value is due. -/
  | unexpected (word : String)
  | missingValue (p : Parameter)
  | emptyValue (p : Parameter)
  | needlessValue (s : Switch)
  | repeated (n : Name)
  deriving DecidableEq

/-- The error in words. -/
def UsageError.message : UsageError → String
  | .unexpected word => "unexpected argument '" ++ word ++ "'"
  | .missingValue p => "--" ++ (Name.parameter p).long ++ " needs a value"
  | .emptyValue p => "--" ++ (Name.parameter p).long ++ " needs a value that is not empty"
  | .needlessValue s => "--" ++ (Name.switch s).long ++ " takes no value"
  | .repeated n => "--" ++ n.long ++ " cannot be given twice"

/-- Why no run follows from a command line. -/
inductive Stop where
  | version
  | help
  | misuse (e : UsageError)
  deriving DecidableEq

/-- What a command line asks of a run. -/
structure Options where
  catalog : Option Path := none
  out : Option Path := none
  config : Option Path := none
  bench : Option (List String) := none
  noTypedSeal : Bool := false
  sequential : Bool := false
  dryRun : Bool := false
  json : Bool := false
  deriving DecidableEq

namespace Options

/-- Fails for an option that was given before. -/
def once (given : Bool) (n : Name) (o : Options) : Except Stop Options :=
  if given then .error (.misuse (.repeated n)) else .ok o

/-- The options after a switch. -/
def turnOn (o : Options) (s : Switch) : Except Stop Options :=
  match s with
  | .noTypedSeal => once o.noTypedSeal (.switch s) { o with noTypedSeal := true }
  | .sequential => once o.sequential (.switch s) { o with sequential := true }
  | .dryRun => once o.dryRun (.switch s) { o with dryRun := true }
  | .json => once o.json (.switch s) { o with json := true }
  | .verbose => .ok o
  | .version => .error .version
  | .help => .error .help

/-- The options after a value for a path. -/
def givePath (given : Option Path) (p : Parameter) (value : String) (o : Path → Options) :
    Except Stop Options :=
  if value = "" then .error (.misuse (.emptyValue p))
  else once given.isSome (.parameter p) (o ⟨value⟩)

/-- The options after a value. Lists of operations add up. -/
def give (o : Options) (p : Parameter) (value : String) : Except Stop Options :=
  match p with
  | .catalog => givePath o.catalog p value fun path => { o with catalog := some path }
  | .out => givePath o.out p value fun path => { o with out := some path }
  | .config => givePath o.config p value fun path => { o with config := some path }
  | .bench =>
    let operations := (Text.pieces ',' value.toList).map String.ofList
    .ok { o with bench := some (o.bench.getD [] ++ operations) }

/-- What a word leaves: the options so far, and the one that still needs its value. -/
abbrev Progress := Options × Option Parameter

/-- Reads the word of an option by name, without its dashes. -/
def readName (o : Options) (word : List Char) : Except Stop Progress :=
  let long := String.ofList (word.takeWhile (· ≠ '='))
  match Name.ofLong? long, word.dropWhile (· ≠ '=') with
  | some (.switch s), [] => return (← o.turnOn s, none)
  | some (.switch s), _ :: _ => .error (.misuse (.needlessValue s))
  | some (.parameter p), [] => .ok (o, some p)
  | some (.parameter p), _ :: value => return (← o.give p (String.ofList value), none)
  | none, _ => .error (.misuse (.unexpected (String.ofList ('-' :: '-' :: word))))

/-- Reads the letters of a word, without its dash. -/
def readLetters (o : Options) : List Char → Except Stop Progress
  | [] => .ok (o, none)
  | c :: rest =>
    match Name.ofLetter? c, rest with
    | some (.switch s), _ => do readLetters (← o.turnOn s) rest
    | some (.parameter p), [] => .ok (o, some p)
    | some (.parameter p), '=' :: value => return (← o.give p (String.ofList value), none)
    | some (.parameter p), value => return (← o.give p (String.ofList value), none)
    | none, _ => .error (.misuse (.unexpected (String.ofList ['-', c])))

/-- Reads a word where no value is due. -/
def readWord (o : Options) (word : String) : Except Stop Progress :=
  match word.toList with
  | '-' :: '-' :: cs => o.readName cs
  | '-' :: c :: cs => o.readLetters (c :: cs)
  | _ => .error (.misuse (.unexpected word))

/-- Whether a word can be a value: it has no leading dash, or is a dash. -/
def isValue (word : String) : Bool :=
  match word.toList with
  | '-' :: _ :: _ => false
  | _ => true

/-- Reads words after others. Nothing but the end may follow `--`. -/
def readWords (o : Options) (due : Option Parameter) : List String → Except Stop Options
  | [] =>
    match due with
    | none => .ok o
    | some p => .error (.misuse (.missingValue p))
  | word :: rest =>
    match due with
    | some p =>
      if isValue word then do readWords (← o.give p word) none rest
      else .error (.misuse (.missingValue p))
    | none =>
      if word = "--" then
        match rest with
        | [] => .ok o
        | extra :: _ => .error (.misuse (.unexpected extra))
      else do
        let (o, due) ← o.readWord word
        readWords o due rest

/-- Reads a command line. -/
def read (words : List String) : Except Stop Options :=
  readWords {} none words

/-- The settings that the options make. -/
def settings (o : Options) : List Setting :=
  (o.catalog.map Setting.catalogPath).toList
    ++ (o.out.map Setting.outputDir).toList
    ++ (o.bench.map fun operations => Setting.benchOperations (some operations)).toList
    ++ (if o.noTypedSeal then [.typedSeal false] else [])
    ++ (if o.sequential then [.parallel false] else [])

end Options

end FheSolidity.CommandLine
