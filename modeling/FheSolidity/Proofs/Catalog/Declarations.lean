import FheSolidity.Catalog.Declaration
import FheSolidity.Proofs.Text

/-!
# Functions written as source

`functionLines` writes a function as it stands in a catalog: its comments line by line, then a
header, the end of an empty body and a blank line. Such a function is read with its name and with
exactly these comments, and what stands behind it is read as if nothing stood before it:
`declarations_functionLines_append`. The reading of a function therefore leaves no comment and no
brace to the next one.
-/

namespace FheSolidity.Catalog

open Text (trimStart)
open Unicode (isBlank isWord)

/-- The two parameters that every operation has. -/
def plumbing : List Char :=
  "utype byte, tp *TxParams".toList

/-- What stands behind the opening parenthesis of a function. -/
def headerRest : List Char :=
  plumbing ++ ") \x7b".toList

/-- The line that a function starts with. -/
def headerLine (name : List Char) : Line :=
  "func ".toList ++ (name ++ '(' :: headerRest)

/-- The lines of a function without a body. -/
def functionLines (name : List Char) (comments : List (List Char)) : List Line :=
  comments.map ("//".toList ++ ·) ++ [headerLine name, "\x7d".toList, []]

/-- The name of a function, as far as catalogs have them. -/
structure IsFunctionName (name : List Char) : Prop where
  starts : ∃ c cs, name = c :: cs ∧ startsName c = true
  word : ∀ c ∈ name, isWord c = true

variable {name : List Char}

theorem IsFunctionName.not_mem (h : IsFunctionName name) {c : Char} (hc : isWord c = false) :
    c ∉ name := by
  intro mem
  rw [h.word c mem] at hc
  cases hc

/-- What is no word character stands in a header only where it stands in every header. -/
theorem IsFunctionName.not_mem_headerLine (h : IsFunctionName name) {c : Char}
    (hc : isWord c = false) (fixed : c ∉ headerLine []) : c ∉ headerLine name := by
  intro mem
  rcases List.mem_append.1 mem with keyword | mem
  · exact fixed (List.mem_append_left _ keyword)
  · rcases List.mem_append.1 mem with inName | tail
    · exact h.not_mem hc inName
    · exact fixed (List.mem_append_right _ tail)

/-- The lines of a function have no line ends inside if its comments have none. -/
theorem IsFunctionName.isLine_of_mem_functionLines (h : IsFunctionName name)
    {comments : List (List Char)} (hc : ∀ comment ∈ comments, Text.IsLine comment) :
    ∀ l ∈ functionLines name comments, Text.IsLine l := by
  intro l hl
  rcases List.mem_append.1 hl with above | body
  · obtain ⟨comment, mem, rfl⟩ := List.mem_map.1 above
    exact Text.IsLine.append (by decide) (hc comment mem)
  · have header : Text.IsLine (headerLine name) := fun c mem =>
      ⟨fun feed => h.not_mem_headerLine (c := '\n') (by decide +kernel) (by decide) (feed ▸ mem),
        fun ret => h.not_mem_headerLine (c := '\r') (by decide +kernel) (by decide) (ret ▸ mem)⟩
    simp only [List.mem_cons, List.not_mem_nil, or_false] at body
    rcases body with rfl | rfl | rfl
    · exact header
    · decide
    · decide

/-! ### Comments -/

theorem wholeComment?_slashes (comment : List Char) :
    wholeComment? ("//".toList ++ comment) = some comment := rfl

/-- Comment lines collect above what follows them. -/
theorem declarationsFrom_comments (comments above : List (List Char)) (rest : List Line) :
    declarationsFrom above (comments.map ("//".toList ++ ·) ++ rest) =
      declarationsFrom (comments.reverse ++ above) rest := by
  induction comments generalizing above with
  | nil => rfl
  | cons comment comments ih =>
    rw [List.map_cons, List.cons_append, declarationsFrom, wholeComment?_slashes]
    simp only
    rw [ih, List.reverse_cons, List.append_assoc, List.singleton_append]

/-- A blank line takes the comments above it away. -/
theorem declarationsFrom_blank (above : List (List Char)) (rest : List Line) :
    declarationsFrom above ([] :: rest) = declarations rest := by
  rw [declarationsFrom]
  rfl

/-! ### The header -/

theorem isBlank_of_startsName {c : Char} (h : startsName c = true) : isBlank c = false := by
  rcases Bool.or_eq_true_iff.1 h with alpha | underscore
  · exact Unicode.isBlank_of_isAlpha alpha
  · rw [eq_of_beq underscore]
    decide

theorem wholeComment?_headerLine (name : List Char) : wholeComment? (headerLine name) = none := rfl

/-- The header declares a function of the name, with the rest after the parenthesis. -/
theorem opening?_headerLine (h : IsFunctionName name) :
    opening? (headerLine name) = some (name, headerRest) := by
  obtain ⟨c, cs, rfl, start⟩ := h.starts
  have keyword : Text.literal? ['f', 'u', 'n', 'c'] (headerLine (c :: cs)) =
      some (' ' :: c :: (cs ++ '(' :: headerRest)) := rfl
  have blanks : Text.blanks1? (' ' :: c :: (cs ++ '(' :: headerRest)) =
      some (c :: (cs ++ '(' :: headerRest)) :=
    congrArg some (Text.trimStart_cons_of_not_blank (isBlank_of_startsName start))
  have tail : (cs ++ '(' :: headerRest).span isWord = (cs, '(' :: headerRest) := by
    refine Text.span_append (fun x hx => h.word x (List.mem_cons_of_mem c hx)) ?_
    rintro _ ⟨⟩
    decide +kernel
  have parenthesis : trimStart ('(' :: headerRest) = '(' :: headerRest := rfl
  simp only [opening?, keyword, blanks, start, tail, parenthesis, Option.bind_eq_bind,
    Option.bind_some, Bool.not_true, Bool.false_eq_true, if_false]

theorem paramText_headerRest (rest : List Line) : paramText 1 headerRest rest = plumbing := by
  cases rest <;> rfl

/-! ### The body -/

/-- A text without a slash is code, and the line goes on behind it. -/
theorem splitComment_append_of_slash_not_mem {start : Line} (h : '/' ∉ start) (line : Line) :
    splitComment (start ++ line) = (start ++ (splitComment line).1, (splitComment line).2) := by
  induction start with
  | nil => rfl
  | cons c cs ih =>
    have hc : c ≠ '/' := fun slash => h (slash ▸ List.mem_cons_self)
    have hcs : '/' ∉ cs := fun slash => h (List.mem_cons_of_mem c slash)
    rw [List.cons_append, splitComment, ih hcs, List.cons_append]
    exact fun _ slash _ => hc slash

theorem splitComment_of_slash_not_mem {line : Line} (h : '/' ∉ line) :
    splitComment line = (line, none) := by
  simpa [splitComment] using splitComment_append_of_slash_not_mem h []

/-- Characters that are no braces keep the balance. -/
theorem foldl_step_of_braceless {cs : List Char} (h : ∀ c ∈ cs, c ≠ '{' ∧ c ≠ '}') (b : Balance) :
    cs.foldl Balance.step b = b := by
  induction cs with
  | nil => rfl
  | cons c cs ih =>
    obtain ⟨noOpening, noClosing⟩ := h c List.mem_cons_self
    rw [List.foldl_cons, Balance.step, if_neg noOpening, if_neg noClosing]
    exact ih fun x hx => h x (List.mem_cons_of_mem c hx)

theorem splitComment_headerLine (h : IsFunctionName name) :
    splitComment (headerLine name) = (headerLine name, none) := by
  have noWord : isWord '/' = false := by decide +kernel
  exact splitComment_of_slash_not_mem (h.not_mem_headerLine noWord (by decide))

/-- The header opens one brace. -/
theorem afterLine_headerLine (h : IsFunctionName name) :
    Balance.afterLine ⟨0, false⟩ (headerLine name) = ⟨1, true⟩ := by
  have noOpening : '{' ∉ name := h.not_mem (by decide +kernel)
  have noClosing : '}' ∉ name := h.not_mem (by decide +kernel)
  have braceless : ∀ c ∈ name, c ≠ '{' ∧ c ≠ '}' := fun c hc =>
    ⟨fun eq => noOpening (eq ▸ hc), fun eq => noClosing (eq ▸ hc)⟩
  have tail (b : Balance) : List.foldl Balance.step b (name ++ '(' :: headerRest) =
      List.foldl Balance.step b ('(' :: headerRest) := by
    rw [List.foldl_append, foldl_step_of_braceless braceless]
  rw [Balance.afterLine, splitComment_headerLine h]
  exact (List.foldl_append ..).trans (tail _)

/-- The body of a function ends with the brace on the line after the header. -/
theorem splitBody_headerLine (h : IsFunctionName name) (rest : List Line) :
    splitBody ⟨0, false⟩ (headerLine name :: "\x7d".toList :: rest) =
      ([headerLine name, "\x7d".toList], rest) := by
  have closed : (Balance.afterLine ⟨1, true⟩ "\x7d".toList).isClosed = true := rfl
  have unclosed : Balance.isClosed ⟨1, true⟩ = false := rfl
  simp only [splitBody, afterLine_headerLine h, closed, unclosed, if_true, Bool.false_eq_true,
    if_false]

/-- The body of a written function holds no comment. -/
theorem filterMap_splitComment_body (h : IsFunctionName name) :
    [headerLine name, "\x7d".toList].filterMap (fun l => (splitComment l).2) = [] := by
  simp only [List.filterMap_cons, splitComment_headerLine h]
  rfl

/-- A written function is read with its name and its comments, and the rest on its own. -/
theorem declarations_functionLines_append (h : IsFunctionName name)
    (comments : List (List Char)) (rest : List Line) :
    declarations (functionLines name comments ++ rest) =
      ⟨name, plumbing, comments⟩ :: declarations rest := by
  rw [functionLines, List.append_assoc, declarations, declarationsFrom_comments]
  simp only [List.cons_append, List.nil_append]
  rw [declarationsFrom, wholeComment?_headerLine, opening?_headerLine h]
  simp only [splitBody_headerLine h, paramText_headerRest, declarationsFrom_blank,
    filterMap_splitComment_body h, List.append_nil, List.reverse_reverse]

end FheSolidity.Catalog
