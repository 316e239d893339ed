/-!
# The tokens of JSON text

`tokens?` cuts a JSON text into tokens with a machine that takes one character at a time. A text
is kept as it is written, in units: an escape may stand for half of a surrogate pair, which is no
character, and only `decode?` asks that the halves come in pairs.
-/

namespace FheSolidity.Json

/-- A unit of a text: a character, or an escaped half of a surrogate pair. -/
inductive TextUnit where
  | char (c : Char)
  | surrogate (n : Nat)
  deriving DecidableEq

/-- Whether a code unit is the first half of a surrogate pair. -/
def isHighSurrogate (n : Nat) : Bool :=
  decide (0xD800 ≤ n) && decide (n < 0xDC00)

/-- Whether a code unit is the second half of a surrogate pair. -/
def isLowSurrogate (n : Nat) : Bool :=
  decide (0xDC00 ≤ n) && decide (n < 0xE000)

/-- The unit that an escaped code unit is. -/
def TextUnit.ofCode (n : Nat) : TextUnit :=
  if isHighSurrogate n || isLowSurrogate n then .surrogate n else .char (Char.ofNat n)

/-- The character that a surrogate pair stands for. -/
def pairedChar (high low : Nat) : Char :=
  Char.ofNat (0x10000 + (high - 0xD800) * 0x400 + (low - 0xDC00))

/-- The characters of a text, if every surrogate is part of a pair. -/
def decode? : List TextUnit → Option (List Char)
  | [] => some []
  | .char c :: rest => (decode? rest).map (c :: ·)
  | .surrogate high :: .surrogate low :: rest =>
    if isHighSurrogate high && isLowSurrogate low then
      (decode? rest).map (pairedChar high low :: ·)
    else none
  | .surrogate _ :: _ => none

/-- A token of JSON text. The value of a number plays no part. -/
inductive Token where
  | openBrace
  | closeBrace
  | openBracket
  | closeBracket
  | colon
  | comma
  | null
  | bool (b : Bool)
  | number
  | text (units : List TextUnit)
  deriving DecidableEq

/-- How far a number has been read. -/
inductive NumberPhase where
  | minus
  | zero
  | integer
  | point
  | fraction
  | exponent
  | exponentSign
  | exponentDigits
  deriving DecidableEq

namespace NumberPhase

/-- The phase after one more character, if the number goes on. -/
def next? (p : NumberPhase) (c : Char) : Option NumberPhase :=
  let mark : Option NumberPhase :=
    if c = '.' then some .point else if c = 'e' || c = 'E' then some .exponent else none
  match p with
  | .minus => if c = '0' then some .zero else if c.isDigit then some .integer else none
  | .zero => mark
  | .integer => if c.isDigit then some .integer else mark
  | .point => if c.isDigit then some .fraction else none
  | .fraction =>
    if c.isDigit then some .fraction
    else if c = 'e' || c = 'E' then some .exponent
    else none
  | .exponent =>
    if c = '+' || c = '-' then some .exponentSign
    else if c.isDigit then some .exponentDigits
    else none
  | .exponentSign | .exponentDigits => if c.isDigit then some .exponentDigits else none

/-- Whether a number may end here. -/
def isComplete : NumberPhase → Bool
  | .zero | .integer | .fraction | .exponentDigits => true
  | _ => false

end NumberPhase

/-- What the machine is reading. -/
inductive Mode where
  | between
  /-- A text, with the units read so far, the last one first. -/
  | text (units : List TextUnit)
  /-- An escape, after its backslash. -/
  | escape (units : List TextUnit)
  /-- The hexadecimal digits of an escape. -/
  | code (units : List TextUnit) (digits value : Nat)
  | number (p : NumberPhase)
  /-- A word, with what it still lacks. -/
  | word (rest : List Char) (t : Token)
  deriving DecidableEq

/-- The machine: the tokens read so far, the last one first, and what it is reading. -/
structure Lexer where
  tokens : List Token
  mode : Mode
  deriving DecidableEq

/-- The value of a hexadecimal digit. -/
def hexValue? (c : Char) : Option Nat :=
  if c.isDigit then some (c.toNat - '0'.toNat)
  else if 'a' ≤ c ∧ c ≤ 'f' then some (c.toNat - 'a'.toNat + 10)
  else if 'A' ≤ c ∧ c ≤ 'F' then some (c.toNat - 'A'.toNat + 10)
  else none

/-- The character that an escape of one letter stands for. -/
def escaped? : Char → Option Char
  | '"' => some '"'
  | '\\' => some '\\'
  | '/' => some '/'
  | 'b' => some '\x08'
  | 'f' => some '\x0c'
  | 'n' => some '\n'
  | 'r' => some '\r'
  | 't' => some '\t'
  | _ => none

/-- Whether a character may stand between tokens. -/
def isSpace (c : Char) : Bool :=
  c = ' ' || c = '\t' || c = '\n' || c = '\r'

namespace Lexer

/-- Nothing read yet. -/
def start : Lexer := ⟨[], .between⟩

/-- The machine after a complete token. -/
def push (ts : List Token) (t : Token) : Lexer := ⟨t :: ts, .between⟩

/-- The machine after a character between tokens. -/
def begin? (ts : List Token) (c : Char) : Option Lexer :=
  match c with
  | '{' => some (push ts .openBrace)
  | '}' => some (push ts .closeBrace)
  | '[' => some (push ts .openBracket)
  | ']' => some (push ts .closeBracket)
  | ':' => some (push ts .colon)
  | ',' => some (push ts .comma)
  | '"' => some ⟨ts, .text []⟩
  | '-' => some ⟨ts, .number .minus⟩
  | 'n' => some ⟨ts, .word ['u', 'l', 'l'] .null⟩
  | 't' => some ⟨ts, .word ['r', 'u', 'e'] (.bool true)⟩
  | 'f' => some ⟨ts, .word ['a', 'l', 's', 'e'] (.bool false)⟩
  | _ =>
    if isSpace c then some ⟨ts, .between⟩
    else if c = '0' then some ⟨ts, .number .zero⟩
    else if c.isDigit then some ⟨ts, .number .integer⟩
    else none

/-- The machine after one more character. -/
def step? (l : Lexer) (c : Char) : Option Lexer :=
  match l.mode with
  | .between => begin? l.tokens c
  | .text units =>
    if c = '"' then some (push l.tokens (.text units.reverse))
    else if c = '\\' then some ⟨l.tokens, .escape units⟩
    else if c.toNat < 0x20 then none
    else some ⟨l.tokens, .text (.char c :: units)⟩
  | .escape units =>
    if c = 'u' then some ⟨l.tokens, .code units 0 0⟩
    else (escaped? c).map fun e => ⟨l.tokens, .text (.char e :: units)⟩
  | .code units digits value =>
    (hexValue? c).map fun d =>
      let value := 16 * value + d
      if digits = 3 then ⟨l.tokens, .text (TextUnit.ofCode value :: units)⟩
      else ⟨l.tokens, .code units (digits + 1) value⟩
  | .number p =>
    match p.next? c with
    | some p => some ⟨l.tokens, .number p⟩
    | none => if p.isComplete then begin? (.number :: l.tokens) c else none
  | .word [] t => begin? (t :: l.tokens) c
  | .word (w :: rest) t =>
    if c = w then
      if rest = [] then some (push l.tokens t) else some ⟨l.tokens, .word rest t⟩
    else none

/-- The tokens at the end of a text. -/
def finish? (l : Lexer) : Option (List Token) :=
  match l.mode with
  | .between => some l.tokens.reverse
  | .number p => if p.isComplete then some (.number :: l.tokens).reverse else none
  | _ => none

end Lexer

/-- The tokens of a text. -/
def tokens? (cs : List Char) : Option (List Token) :=
  (cs.foldlM Lexer.step? Lexer.start).bind Lexer.finish?

theorem decode?_map_char (cs : List Char) : decode? (cs.map .char) = some cs := by
  induction cs with
  | nil => rfl
  | cons c cs ih => simp [decode?, ih]

end FheSolidity.Json
