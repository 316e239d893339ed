import FheSolidity.Disk

/-!
# Errors

Every error ends a run, and each kind belongs to one stage of it. An error is its cause;
`message` puts it into words and `underlying?` gives the failed file operation behind it.
Combinations of types that the rules exclude are no errors.
-/

namespace FheSolidity

/-- What can be wrong with a catalog. -/
inductive CatalogError where
  | noOperations
  /-- An annotation names a type or kind that does not exist. -/
  | unknownType (operation name : String)
  /-- An arity or a position that no operation can have. -/
  | invalidArity (operation : String) (arity : Nat)
  | unreadable (path : Path) (cause : FileError)
  deriving DecidableEq

/-- What can be wrong between an operation and its annotations. -/
inductive ExpansionError where
  /-- A result in the clear of an operation that does not have one input. -/
  | plainReturnArity (operation : String) (arity : Nat)
  /-- A result in the clear of an operation whose only input is not encrypted. -/
  | plainReturnInput (operation input : String)
  /-- An encrypted result without an input that determines its type. -/
  | unresolvableReturn (operation : String)
  deriving DecidableEq

/-- Why a signature has no body. -/
inductive TemplateError where
  | unsupportedShape (symbol : String) (arity : Nat) (inputs returns : String)
  | unknownFunctionId (operation : String)
  deriving DecidableEq

/-- What can fail while files are written. -/
inductive EmitError where
  | createDir (path : Path) (cause : FileError)
  | write (path : Path) (cause : FileError)
  deriving DecidableEq

/-- Why a configuration cannot be used. -/
inductive ConfigFault where
  | empty (field : String)
  | notFileName (field value : String)
  | described (reason : String)
  deriving DecidableEq

/-- What can be wrong with a configuration. -/
inductive ConfigError where
  | unreadable (path : Path) (cause : FileError)
  | malformed (path : Path)
  | invalid (fault : ConfigFault)
  deriving DecidableEq

/-- The error that ends a run. -/
inductive GeneratorError where
  | catalog (e : CatalogError)
  | expansion (e : ExpansionError)
  | template (e : TemplateError)
  | emit (e : EmitError)
  | config (e : ConfigError)
  /-- Two signatures are one Solidity overload. -/
  | duplicateSignature (symbol : String) (inputs : List String)
  deriving DecidableEq

/-- The stages of a run. -/
inductive Stage where
  | catalog
  | expansion
  | template
  | emit
  | config
  deriving DecidableEq

/-- The name of a stage. -/
def Stage.name : Stage → String
  | .catalog => "catalog"
  | .expansion => "expansion"
  | .template => "template"
  | .emit => "emit"
  | .config => "config"

def CatalogError.message : CatalogError → String
  | .noOperations => "no operations recognized in catalog"
  | .unknownType operation name =>
    "operation " ++ operation ++ ": unknown type or kind '" ++ name ++ "'"
  | .invalidArity operation arity =>
    "operation " ++ operation ++ ": arity or input position " ++ toString arity ++
      " out of range (max 3)"
  | .unreadable path cause =>
    "failed to read catalog " ++ path.spelling ++ ": " ++ cause.message

def ExpansionError.message : ExpansionError → String
  | .plainReturnArity operation arity =>
    "operation " ++ operation ++ ": plaintext return requires arity 1, found " ++ toString arity
  | .plainReturnInput operation input =>
    "operation " ++ operation ++ ": plaintext return requires an encrypted input, found " ++ input
  | .unresolvableReturn operation =>
    "operation " ++ operation ++ ": cannot resolve an encrypted return type"

def TemplateError.message : TemplateError → String
  | .unsupportedShape symbol arity inputs returns =>
    "no template for " ++ symbol ++ ": arity " ++ toString arity ++ " with inputs (" ++ inputs ++
      ") -> " ++ returns
  | .unknownFunctionId operation => "operation " ++ operation ++ " has no function id"

def EmitError.message : EmitError → String
  | .createDir path cause => "failed to create directory " ++ path.spelling ++ ": " ++ cause.message
  | .write path cause => "failed to write " ++ path.spelling ++ ": " ++ cause.message

def ConfigFault.message : ConfigFault → String
  | .empty field => field ++ " cannot be empty"
  | .notFileName field value => field ++ " must be a file name, got '" ++ value ++ "'"
  | .described reason => reason

def ConfigError.message : ConfigError → String
  | .unreadable path cause => "failed to read config " ++ path.spelling ++ ": " ++ cause.message
  | .malformed path => "failed to parse config " ++ path.spelling
  | .invalid fault => "invalid configuration: " ++ fault.message

namespace GeneratorError

/-- The error in words. -/
def message : GeneratorError → String
  | .catalog e => e.message
  | .expansion e => e.message
  | .template e => e.message
  | .emit e => e.message
  | .config e => e.message
  | .duplicateSignature symbol inputs =>
    "duplicate overload " ++ symbol ++ "(" ++ ",".intercalate inputs ++ ")"

/-- The stage that the error comes from. -/
def stage : GeneratorError → Stage
  | .catalog _ => .catalog
  | .expansion _ | .duplicateSignature _ _ => .expansion
  | .template _ => .template
  | .emit _ => .emit
  | .config _ => .config

/-- The failed file operation behind the error. -/
def underlying? : GeneratorError → Option FileError
  | .catalog (.unreadable _ cause) => some cause
  | .emit (.createDir _ cause) => some cause
  | .emit (.write _ cause) => some cause
  | .config (.unreadable _ cause) => some cause
  | _ => none

end GeneratorError

end FheSolidity
