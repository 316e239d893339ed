import FheSolidity.Proofs.Catalog.Declarations
import FheSolidity.Proofs.Catalog.Extraction
import Mathlib.Data.List.TakeWhile

/-!
# Reading a catalog in parts

Reading goes over a catalog from the top, with a block of comments in hand and jumping from the
start of a function to the end of its body. Lines that hold the whole of every function they start
(`IsWhole`) leave nothing of this to the lines below but the comments that stand at their end
(`commentsAtEnd`): `declarationsFrom_append`. So a catalog that is cut between two functions, and
not behind a comment, is read part by part: `extract_in_parts`.
-/

namespace FheSolidity.Catalog

open Unicode (isBlank)

variable {line : Line} {lines more rest : List Line} {b : Balance} {depth : Nat}

/-! ### Whole functions -/

/-- How many of the parentheses that lines open are still open behind them, where `depth` were open
before. -/
def openParens (depth : Nat) (lines : List Line) : Nat :=
  lines.foldl (fun depth line => (upToClose depth line).2) depth

/-- Whether one of the lines completes a body, where `b` is the balance before them. -/
def closesBody (b : Balance) : List Line → Bool
  | [] => false
  | line :: rest => (b.afterLine line).isClosed || closesBody (b.afterLine line) rest

/-- Lines that hold the whole of every function they start: the parenthesis that closes its
parameters and the line that closes its body. -/
inductive IsWhole : List Line → Prop where
  | nil : IsWhole []
  | comment {line : Line} {rest : List Line} {comment : List Char}
      (whole : wholeComment? line = some comment) (later : IsWhole rest) : IsWhole (line :: rest)
  | other {line : Line} {rest : List Line} (code : wholeComment? line = none)
      (starts : opening? line = none) (later : IsWhole rest) : IsWhole (line :: rest)
  | function {line : Line} {rest : List Line} {name tail : List Char}
      (code : wholeComment? line = none) (starts : opening? line = some (name, tail))
      (params : openParens 1 (tail :: rest) = 0)
      (body : closesBody ⟨0, false⟩ (line :: rest) = true)
      (later : IsWhole (splitBody ⟨0, false⟩ (line :: rest)).2) : IsWhole (line :: rest)

/-- The comments in hand behind lines, the nearest first, where `above` were in hand before. -/
def commentsAtEnd (above : List (List Char)) (lines : List Line) : List (List Char) :=
  lines.foldl (fun above line =>
    match wholeComment? line with
    | some comment => comment :: above
    | none => []) above

/-! ### Parameters -/

/-- A text with one more behind it is read up to where the parentheses close in the first, or else
on in the second. -/
theorem upToClose_append (depth : Nat) (cs more : List Char) : upToClose depth (cs ++ more) =
    if (upToClose depth cs).2 = 0 then upToClose depth cs
    else ((upToClose depth cs).1 ++ (upToClose (upToClose depth cs).2 more).1,
      (upToClose (upToClose depth cs).2 more).2) := by
  induction cs generalizing depth with
  | nil => cases depth <;> simp [upToClose]
  | cons c cs ih =>
    -- Behind a character the reading goes on with another depth, unless it is at its end.
    have onward (inner : Nat) : (c :: (upToClose inner (cs ++ more)).1,
        (upToClose inner (cs ++ more)).2) =
          if (upToClose inner cs).2 = 0 then (c :: (upToClose inner cs).1, (upToClose inner cs).2)
          else (c :: (upToClose inner cs).1 ++ (upToClose (upToClose inner cs).2 more).1,
            (upToClose (upToClose inner cs).2 more).2) := by
      rw [ih]
      split <;> rfl
    cases depth with
    | zero => simp [upToClose]
    | succ depth =>
      rw [List.cons_append, upToClose, upToClose]
      by_cases closes : c = ')'
      · by_cases last : depth = 0
        · simp [closes, last]
        · simpa only [if_pos closes, if_neg last] using onward depth
      · simpa only [if_neg closes] using onward _

/-- Parameters are read off the lines as off one text, with a blank for every line end. -/
theorem upToClose_joinWith (depth : Nat) (line : Line) (rest : List Line) :
    upToClose depth (Text.joinWith ' ' (line :: rest)) =
      (paramText depth line rest, openParens depth (line :: rest)) := by
  induction rest generalizing depth line with
  | nil => rfl
  | cons next rest ih =>
    have later : openParens depth (line :: next :: rest) =
        openParens (upToClose depth line).2 (next :: rest) := rfl
    rw [Text.joinWith, upToClose_append, paramText, later]
    obtain ⟨text, unclosed⟩ := upToClose depth line
    cases unclosed with
    | zero =>
      have nothing : openParens 0 (next :: rest) = 0 := by
        simpa [upToClose] using (congrArg Prod.snd (ih 0 next)).symm
      rw [if_pos rfl, nothing]
    | succ unclosed =>
      have blank (cs : List Char) : upToClose (unclosed + 1) (' ' :: cs) =
          (' ' :: (upToClose (unclosed + 1) cs).1, (upToClose (unclosed + 1) cs).2) := rfl
      rw [if_neg (Nat.succ_ne_zero _), blank, ih]

/-- Parameters that are closed do not depend on what follows. -/
theorem paramText_of_isPrefix {line' : Line} {rest' : List Line}
    (closed : openParens depth (line :: rest) = 0)
    (goesOn : Text.joinWith ' ' (line :: rest) <+: Text.joinWith ' ' (line' :: rest')) :
    paramText depth line' rest' = paramText depth line rest := by
  obtain ⟨more, text⟩ := goesOn
  have read := upToClose_append depth (Text.joinWith ' ' (line :: rest)) more
  rw [text, upToClose_joinWith, upToClose_joinWith, if_pos closed] at read
  exact congrArg Prod.fst read

/-! ### Bodies -/

/-- A body that is complete does not depend on the lines below. -/
theorem splitBody_append_of_closes (closed : closesBody b lines = true) (more : List Line) :
    splitBody b (lines ++ more) = ((splitBody b lines).1, (splitBody b lines).2 ++ more) := by
  induction lines generalizing b with
  | nil => cases closed
  | cons line rest ih =>
    rw [List.cons_append, splitBody, splitBody]
    cases here : (b.afterLine line).isClosed with
    | true => rfl
    | false =>
      rw [closesBody, here, Bool.false_or] at closed
      simp only [Bool.false_eq_true, if_false, ih closed]

/-- A line that is nothing but a comment has no braces. -/
theorem afterLine_of_wholeComment {comment : List Char} (h : wholeComment? line = some comment)
    (b : Balance) : b.afterLine line = b := by
  have text : line = line.takeWhile isBlank ++ '/' :: '/' :: comment := by
    have rest : Text.trimStart line = '/' :: '/' :: comment := Text.literal?_eq_some_iff.1 h
    rw [← rest, Text.trimStart, List.takeWhile_append_dropWhile]
  have solid (c : Char) (hc : isBlank c = false) : c ∉ line.takeWhile isBlank := fun mem =>
    Bool.false_ne_true (hc.symm.trans (List.mem_takeWhile_imp mem))
  have noSlash := solid '/' (by decide)
  have noOpening := solid '{' (by decide)
  have noClosing := solid '}' (by decide)
  rw [text, Balance.afterLine, splitComment_append_of_slash_not_mem noSlash, List.foldl_append]
  exact foldl_step_of_braceless
    (fun c mem => ⟨fun same => noOpening (same ▸ mem), fun same => noClosing (same ▸ mem)⟩) b

/-- The line that completes a body is no comment. -/
theorem exists_last_of_closesBody (closed : closesBody b lines = true)
    (unclosed : b.isClosed = false) :
    ∃ init last, (splitBody b lines).1 = init ++ [last] ∧ wholeComment? last = none := by
  induction lines generalizing b with
  | nil => cases closed
  | cons line rest ih =>
    rw [splitBody]
    cases here : (b.afterLine line).isClosed with
    | true =>
      refine ⟨[], line, rfl, ?_⟩
      cases comment : wholeComment? line with
      | none => rfl
      | some text =>
        rw [afterLine_of_wholeComment comment, unclosed] at here
        cases here
    | false =>
      rw [closesBody, here, Bool.false_or] at closed
      obtain ⟨init, last, split, code⟩ := ih closed here
      refine ⟨line :: init, last, ?_, code⟩
      simp only [Bool.false_eq_true, if_false, split, List.cons_append]

/-! ### Comments in hand -/

theorem commentsAtEnd_append (above : List (List Char)) (lines more : List Line) :
    commentsAtEnd above (lines ++ more) = commentsAtEnd (commentsAtEnd above lines) more :=
  List.foldl_append ..

/-- A line that is no comment leaves none in hand. -/
theorem commentsAtEnd_concat (code : wholeComment? line = none) (above : List (List Char))
    (lines : List Line) : commentsAtEnd above (lines ++ [line]) = [] := by
  rw [commentsAtEnd_append]
  simp only [commentsAtEnd, List.foldl_cons, List.foldl_nil, code]

/-- No comment inside a body is in hand behind it. -/
theorem commentsAtEnd_of_closesBody (closed : closesBody ⟨0, false⟩ lines = true)
    (above : List (List Char)) :
    commentsAtEnd above lines = commentsAtEnd [] (splitBody ⟨0, false⟩ lines).2 := by
  obtain ⟨init, last, body, code⟩ := exists_last_of_closesBody closed rfl
  calc commentsAtEnd above lines
      = commentsAtEnd (commentsAtEnd above (init ++ [last])) (splitBody ⟨0, false⟩ lines).2 := by
        rw [← commentsAtEnd_append, ← body, splitBody_append]
    _ = commentsAtEnd [] (splitBody ⟨0, false⟩ lines).2 := by rw [commentsAtEnd_concat code]

/-! ### Declarations -/

/-- Whole functions leave the comments at their end to the lines below, and nothing else. -/
theorem declarationsFrom_append (whole : IsWhole lines) (above : List (List Char))
    (more : List Line) :
    declarationsFrom above (lines ++ more) =
      declarationsFrom above lines ++ declarationsFrom (commentsAtEnd above lines) more := by
  -- The induction goes from function to function, as the reading does.
  induction whole generalizing above with
  | nil =>
    rw [declarationsFrom]
    rfl
  | comment comment _ ih =>
    rw [List.cons_append, declarationsFrom, declarationsFrom, comment]
    simp only [ih, commentsAtEnd, List.foldl_cons, comment]
  | other code starts _ ih =>
    rw [List.cons_append, declarationsFrom, declarationsFrom, code, starts]
    simp only [ih, commentsAtEnd, List.foldl_cons, code]
  | @function line rest name tail code starts params body _ ih =>
    have same : paramText 1 tail (rest ++ more) = paramText 1 tail rest :=
      paramText_of_isPrefix params (Text.joinWith_isPrefix_append ' ' (tail :: rest) more)
    have split := splitBody_append_of_closes body more
    rw [List.cons_append] at split
    rw [List.cons_append, declarationsFrom, declarationsFrom, code, starts,
      commentsAtEnd_of_closesBody body above]
    simp only [split, same, ih, List.cons_append]

theorem declarations_append (whole : IsWhole lines)
    (ends : ∀ last ∈ lines.getLast?, wholeComment? last = none) (more : List Line) :
    declarations (lines ++ more) = declarations lines ++ declarations more := by
  have nothing : commentsAtEnd [] lines = [] := by
    rcases List.eq_nil_or_concat lines with rfl | ⟨init, last, rfl⟩
    · rfl
    · rw [List.concat_eq_append] at ends ⊢
      exact commentsAtEnd_concat (ends last (by simp)) [] init
  rw [declarations, declarationsFrom_append whole, nothing, declarations, declarations]

/-! ### Operations -/

/-- **Locality.** A catalog that is cut behind whole functions, and not behind a comment, is read in
parts: no comment, parameter or brace of the first part reaches the second. The operations of both
are those of the first and then those of the second that have a new name. -/
theorem extract_in_parts (whole : IsWhole lines)
    (ends : ∀ last ∈ lines.getLast?, wholeComment? last = none) :
    (∀ more, declarations (lines ++ more) = declarations lines ++ declarations more) ∧
      ∀ (first second both : String) (ops ops' : List Operation),
        Text.lines first.toList = lines →
        Text.lines both.toList = lines ++ Text.lines second.toList →
        extract first = .ok ops → extract second = .ok ops' →
        extract both = .ok (ops ++ ops'.filter fun op => op.name ∉ ops.map Operation.name) := by
  refine ⟨declarations_append whole ends, ?_⟩
  intro first second both ops ops' hfirst hboth hops hops'
  obtain ⟨found, read, rfl, nonempty⟩ := extract_eq_ok_iff.1 hops
  obtain ⟨found', read', rfl, _⟩ := extract_eq_ok_iff.1 hops'
  rw [hfirst] at read
  refine extract_eq_ok_iff.2 ⟨found ++ found', ?_, ?_, ?_⟩
  · rw [hboth, declarations_append whole ends]
    exact mapM_eq_ok_iff.2 (List.rel_append (mapM_eq_ok_iff.1 read) (mapM_eq_ok_iff.1 read'))
  · rw [List.filterMap_append, firstOfEachName_append]
  · exact List.append_ne_nil_of_left_ne_nil nonempty _

/-- Parameters over several lines, comments above and inside, and a name that comes again. -/
theorem extract_in_parts_max_min :
    let first := "// Same type\nfunc Max(\n\tlhs []byte,\n\trhs []byte, // \x7b\n) \x7b\n" ++
      "\t// Return type: ebool\n\x7d\n"
    let second := "func Max(a []byte) \x7b\x7d\n// Boolean math\nfunc Min(a, b []byte) \x7b\n\x7d\n"
    let max : Operation :=
      { name := "max", inputs := [.encrypted, .encrypted]
        returns := .explicit (.encrypted .bool), sameType := true }
    let min : Operation :=
      { name := "min", inputs := [.encrypted, .encrypted], boolean := true }
    IsWhole (Text.lines first.toList) ∧
      (∀ last ∈ (Text.lines first.toList).getLast?, wholeComment? last = none) ∧
      extract first = .ok [max] ∧
      extract second = .ok [{ name := "max", inputs := [.encrypted] }, min] ∧
      (∀ more, declarations (Text.lines first.toList ++ more) =
        declarations (Text.lines first.toList) ++ declarations more) ∧
      extract (first ++ second) = .ok [max, min] := by
  intro first second max min
  have lines : Text.lines first.toList = ["// Same type", "func Max(", "\tlhs []byte,",
      "\trhs []byte, // \x7b", ") \x7b", "\t// Return type: ebool", "\x7d"].map String.toList := by
    decide +kernel
  have whole : IsWhole (Text.lines first.toList) := by
    rw [lines]
    have comment : wholeComment? "// Same type".toList = some " Same type".toList := rfl
    have starts : opening? "func Max(".toList = some ("Max".toList, []) := by decide +kernel
    refine .comment comment (.function rfl starts (by decide +kernel) (by decide +kernel) ?_)
    have body : (splitBody ⟨0, false⟩ (["func Max(", "\tlhs []byte,", "\trhs []byte, // \x7b",
        ") \x7b", "\t// Return type: ebool", "\x7d"].map String.toList)).2 = [] := by
      decide +kernel
    exact body ▸ .nil
  have ends : ∀ last ∈ (Text.lines first.toList).getLast?, wholeComment? last = none := by
    decide +kernel
  have read : extract first = .ok [max] := by decide +kernel
  have read' : extract second = .ok [{ name := "max", inputs := [.encrypted] }, min] := by
    decide +kernel
  have parts := extract_in_parts whole ends
  have both : Text.lines (first ++ second).toList =
      Text.lines first.toList ++ Text.lines second.toList := by
    rw [String.toList_append]
    decide +kernel
  refine ⟨whole, ends, read, read', parts.1, ?_⟩
  rw [parts.2 first second (first ++ second) _ _ rfl both read read']
  rfl

end FheSolidity.Catalog
