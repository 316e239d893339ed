import FheSolidity.Json.Token

/-!
# JSON values

`read?` builds a value from JSON text with a machine that takes one token at a time and keeps the
containers that are still open on a stack, so that values may be nested to any depth.
-/

namespace FheSolidity.Json

/-- A JSON value. Members keep their order and may repeat a key. -/
inductive Value where
  | null
  | bool (b : Bool)
  | number
  | text (units : List TextUnit)
  | array (items : List Value)
  | object (members : List (List TextUnit × Value))

/-- A container that is still open, with its parts so far, the last one first. -/
inductive Frame where
  | array (items : List Value)
  | object (members : List (List TextUnit × Value))
  /-- An object that waits for the value of a key. -/
  | member (members : List (List TextUnit × Value)) (key : List TextUnit)

/-- What may come next. -/
inductive Expect where
  | value
  | itemOrClose
  | key
  | keyOrClose
  | colon
  | commaOrClose
  | nothing (v : Value)

/-- The machine: the open containers, the innermost first, and what may come next. -/
structure Reader where
  stack : List Frame
  expect : Expect

namespace Reader

/-- Nothing read yet. -/
def start : Reader := ⟨[], .value⟩

/-- The machine after a complete value. -/
def complete? : List Frame → Value → Option Reader
  | [], v => some ⟨[], .nothing v⟩
  | .array items :: stack, v => some ⟨.array (v :: items) :: stack, .commaOrClose⟩
  | .member members key :: stack, v => some ⟨.object ((key, v) :: members) :: stack, .commaOrClose⟩
  | .object _ :: _, _ => none

/-- The machine after a token where a value may start. -/
def begin? (stack : List Frame) : Token → Option Reader
  | .null => complete? stack .null
  | .bool b => complete? stack (.bool b)
  | .number => complete? stack .number
  | .text units => complete? stack (.text units)
  | .openBracket => some ⟨.array [] :: stack, .itemOrClose⟩
  | .openBrace => some ⟨.object [] :: stack, .keyOrClose⟩
  | _ => none

/-- The machine after a token that may close the innermost container. -/
def close? : List Frame → Token → Option Reader
  | .array items :: stack, .closeBracket => complete? stack (.array items.reverse)
  | .object members :: stack, .closeBrace => complete? stack (.object members.reverse)
  | _, _ => none

/-- The machine after a token where a key has to come. -/
def key? : List Frame → Token → Option Reader
  | .object members :: stack, .text key => some ⟨.member members key :: stack, .colon⟩
  | _, _ => none

/-- The machine after one more token. -/
def step? (r : Reader) (t : Token) : Option Reader :=
  match r.expect with
  | .value => begin? r.stack t
  | .itemOrClose => if t = .closeBracket then close? r.stack t else begin? r.stack t
  | .key => key? r.stack t
  | .keyOrClose => if t = .closeBrace then close? r.stack t else key? r.stack t
  | .colon => if t = .colon then some ⟨r.stack, .value⟩ else none
  | .commaOrClose =>
    match r.stack, t with
    | .array _ :: _, .comma => some ⟨r.stack, .value⟩
    | .object _ :: _, .comma => some ⟨r.stack, .key⟩
    | stack, t => close? stack t
  | .nothing _ => none

/-- The value at the end of a text. -/
def finish? (r : Reader) : Option Value :=
  match r.expect with
  | .nothing v => some v
  | _ => none

end Reader

/-- The value that tokens stand for. -/
def ofTokens? (ts : List Token) : Option Value :=
  (ts.foldlM Reader.step? Reader.start).bind Reader.finish?

/-- The value that a JSON text stands for. -/
def read? (text : String) : Option Value :=
  (tokens? text.toList).bind ofTokens?

end FheSolidity.Json
