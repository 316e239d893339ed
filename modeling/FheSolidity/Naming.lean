import FheSolidity.ValueType

/-!
# Names of generated declarations

Every generated function, library and contract takes its name from an operation, an encrypted
type or both.
-/

namespace FheSolidity

namespace Scalar

/-- The conversion to an encrypted type: `asEuint8`. -/
def castFunction (s : Scalar) : String :=
  "as" ++ s.encryptedTitle

/-- The library of the methods of an encrypted type: `BindingsEuint8`. -/
def bindingLibrary (s : Scalar) : String :=
  "Bindings" ++ s.encryptedTitle

/-- The constant that holds the tag of an encrypted type: `EUINT8_TFHE`. -/
def tagIdent (s : Scalar) : String :=
  s.encryptedConstant ++ "_TFHE"

/-- The tag constant as seen from outside its library: `Common.EUINT8_TFHE`. -/
def tagConstant (s : Scalar) : String :=
  "Common." ++ s.tagIdent

/-- The conversion of a raw result to a scalar: `bigIntToUint8`. -/
def fromWordFunction (s : Scalar) : String :=
  "bigIntTo" ++ s.title

/-- The conversion of a raw result as seen from outside its library. -/
def fromWord (s : Scalar) : String :=
  "Common." ++ s.fromWordFunction

end Scalar

namespace Naming

/-- The free function behind a user-defined operator: `operatorAddEuint8`. -/
def operatorFunction (operation : String) (s : Scalar) : String :=
  "operator" ++ Text.capitalize operation ++ s.encryptedTitle

/-- The test contract of an operation: `AddTest`. -/
def testContract (operation : String) : String :=
  Text.capitalize operation ++ "Test"

/-- The benchmark contract of an operation: `AddBench`. -/
def benchContract (operation : String) : String :=
  Text.capitalize operation ++ "Bench"

end Naming

end FheSolidity
