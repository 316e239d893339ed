import FheSolidity.Error
import FheSolidity.Text.Pieces

/-!
# Failures

A failed run is told by its causes, the outermost first. One cause stands alone, several are
numbered, and the later lines of a cause are set under its first.
-/

namespace FheSolidity

/-- An error with what is behind it. -/
def GeneratorError.causes (e : GeneratorError) : List String :=
  e.message :: (e.underlying?.map FileError.message).toList

namespace CommandLine

/-- A text with blanks before every line but the first. -/
def hang (width : Nat) (text : String) : String :=
  let margin := '\n' :: List.replicate width ' '
  String.ofList (margin.intercalate (Text.pieces '\n' text.toList))

/-- The width that the number of a cause is set to. -/
def numberWidth : Nat := 5

/-- A cause after its number. -/
def numbered (cause : String) (n : Nat) : String :=
  let digits := toString n
  "".pushn ' ' (numberWidth - digits.length) ++ digits ++ ": " ++ hang (numberWidth + 2) cause

/-- The causes, each on lines of its own. -/
def causeLines : List String → List String
  | [cause] => ["    " ++ hang 4 cause]
  | causes => causes.mapIdx fun n cause => numbered cause n

/-- The text that tells of a failed run. -/
def failureText (causes : List String) : String :=
  "Error: Generation failed\n\nCaused by:\n" ++ "\n".intercalate (causeLines causes) ++ "\n"

end CommandLine

end FheSolidity
