import FheSolidity.Proofs.Catalog.Locality

/-!
# Braces in literals

Reading takes comments off the code of a body, but no literals: a brace in a literal counts for the
end of the body as any other does. What counts is the surplus of opening braces (`braceSurplus`).
Contents of a literal with the same surplus can stand for each other in every catalog, and for
contents with different ones there is a catalog of two functions in which one of the two hides the
second function: `extract_quoted_iff`.
-/

namespace FheSolidity.Catalog

open Unicode (isBlank isWord)

variable {q : Char} {line left : Line} {init : List Line} {b : Balance} {c c' : List Char}

/-! ### Literals -/

/-- The quotes that literals stand between: double ones, single ones and backquotes. -/
def quotes : List Char :=
  ['"', Char.ofNat 39, Char.ofNat 96]

/-- A literal with its quotes. -/
def quoted (q : Char) (contents : List Char) : List Char :=
  q :: (contents ++ [q])

/-- How many more braces a text opens than it closes. -/
def braceSurplus (cs : List Char) : Int :=
  cs.count '{' - cs.count '}'

/-- Lines that end in code, as far as the reading sees it, and not in a comment: either outside of
functions, on a line that starts none, or in the body of a function whose parameters are closed.
Everything above that function is whole. -/
inductive EndsInCode : List Line → Prop where
  | outside {above : List Line} {last : Line} (whole : IsWhole above)
      (code : wholeComment? last = none) (starts : opening? last = none) :
      EndsInCode (above ++ [last])
  | body {above init : List Line} {last first : Line} {rest : List Line} {name tail : List Char}
      (whole : IsWhole above) (region : init ++ [last] = first :: rest)
      (code : wholeComment? first = none) (starts : opening? first = some (name, tail))
      (params : openParens 1 (tail :: rest) = 0)
      (unclosed : closesBody ⟨0, false⟩ init = false)
      (opened : ((init ++ [last]).foldl Balance.afterLine ⟨0, false⟩).opened = true)
      (uncommented : ¬"//".toList <:+: last) :
      EndsInCode (above ++ (init ++ [last]))

/-- A character that ends whatever is read in front of it. -/
structure IsMark (q : Char) : Prop where
  solid : isBlank q = false
  noWord : isWord q = false
  noStart : startsName q = false
  noSlash : q ≠ '/'
  noParenthesis : q ≠ '('
  noFeed : q ≠ '\n'
  noReturn : q ≠ '\r'
  braceless : braceSurplus [q] = 0

theorem isMark_of_mem_quotes (h : q ∈ quotes) : IsMark q := by
  rw [quotes, List.mem_cons, List.mem_cons, List.mem_singleton] at h
  rcases h with rfl | rfl | rfl <;> constructor <;> decide +kernel

/-! ### The line of a literal -/

/-- Where a line starts a function, and where not, is told before the mark. -/
theorem opening?_append_cons (hq : IsMark q) (line cs : List Char) :
    opening? (line ++ q :: cs) =
      (opening? line).map fun (name, tail) => (name, tail ++ q :: cs) := by
  have letters : ['f', 'u', 'n', 'c'].all Char.isAlphanum = true := rfl
  have keyword : q ∉ ['f', 'u', 'n', 'c'] := fun mem =>
    Bool.false_ne_true (hq.noWord.symm.trans
      (Unicode.isWord_of_isAlphanum (List.all_eq_true.1 letters q mem)))
  simp only [opening?, Text.literal?_append_cons keyword, Option.bind_eq_bind]
  cases Text.literal? ['f', 'u', 'n', 'c'] line with
  | none => rfl
  | some rest =>
    simp only [Option.map_some, Option.bind_some, Text.blanks1?_append_cons hq.solid]
    cases Text.blanks1? rest with
    | none => rfl
    | some rest =>
      simp only [Option.map_some, Option.bind_some]
      cases rest with
      | nil => simp [hq.noStart]
      | cons s rest =>
        simp only [List.cons_append, Text.span_append_cons hq.noWord,
          Text.trimStart_append_cons hq.solid]
        cases startsName s with
        | false => rfl
        | true =>
          cases Text.trimStart (rest.span isWord).2 with
          | nil => simp [hq.noParenthesis]
          | cons d ds =>
            by_cases hd : d = '('
            · simp [hd]
            · simp [hd]

theorem wholeComment?_append_cons (hq : IsMark q) (line cs : List Char) :
    wholeComment? (line ++ q :: cs) = (wholeComment? line).map (· ++ q :: cs) := by
  have slashes : q ∉ ['/', '/'] := by simp [hq.noSlash]
  rw [wholeComment?, Text.trimStart_append_cons hq.solid, Text.literal?_append_cons slashes,
    wholeComment?]

theorem wholeComment?_of_mark (hq : IsMark q) (code : wholeComment? (line ++ [q]) = none)
    (cs : List Char) : wholeComment? (line ++ q :: cs) = none := by
  rw [wholeComment?_append_cons hq, Option.map_eq_none_iff] at code
  rw [wholeComment?_append_cons hq, code, Option.map_none]

theorem opening?_of_mark (hq : IsMark q) (starts : opening? (line ++ [q]) = none)
    (cs : List Char) : opening? (line ++ q :: cs) = none := by
  rw [opening?_append_cons hq, Option.map_eq_none_iff] at starts
  rw [opening?_append_cons hq, starts, Option.map_none]

theorem splitComment_append_cons (noSlash : q ≠ '/') (uncommented : ¬"//".toList <:+: line)
    (cs : List Char) : splitComment (line ++ q :: cs) =
      (line ++ q :: (splitComment cs).1, (splitComment cs).2) := by
  induction line with
  | nil =>
    rw [List.nil_append, splitComment]
    · rfl
    · exact fun _ slash _ => noSlash slash
  | cons x line ih =>
    have later : ¬"//".toList <:+: line := fun h => uncommented (List.infix_cons h)
    rw [List.cons_append, splitComment, ih later]
    · rfl
    · rintro rest rfl slash
      cases line with
      | nil => exact noSlash (List.cons.inj slash).1
      | cons y line =>
        rw [List.cons_append] at slash
        rw [(List.cons.inj slash).1] at uncommented
        exact uncommented ⟨[], line, rfl⟩

/-! ### Braces -/

theorem braceSurplus_append (cs ds : List Char) :
    braceSurplus (cs ++ ds) = braceSurplus cs + braceSurplus ds := by
  simp only [braceSurplus, List.count_append]
  omega

theorem braceSurplus_cons (x : Char) (cs : List Char) :
    braceSurplus (x :: cs) = braceSurplus [x] + braceSurplus cs :=
  braceSurplus_append [x] cs

/-- The balance behind a text. -/
theorem foldl_step (b : Balance) (cs : List Char) : cs.foldl Balance.step b =
    ⟨b.depth + braceSurplus cs, b.opened || decide ('{' ∈ cs)⟩ := by
  induction cs generalizing b with
  | nil => simp [braceSurplus]
  | cons x cs ih =>
    have step : b.step x = ⟨b.depth + braceSurplus [x], b.opened || decide (x = '{')⟩ := by
      rw [Balance.step]
      split
      · next opening => simp [opening, braceSurplus]
      · next noOpening =>
        split
        · next closing => simp [closing, braceSurplus, Int.sub_eq_add_neg]
        · next noClosing => simp [noOpening, noClosing, braceSurplus]
    rw [List.foldl_cons, ih, step, braceSurplus_cons x cs, Balance.mk.injEq]
    refine ⟨Int.add_assoc .., ?_⟩
    simp [Bool.or_assoc, eq_comm]

/-- A literal without a comment leaves the code of its line in one piece. -/
theorem splitComment_quoted (noSlash : q ≠ '/') (uncommented : ¬"//".toList <:+: left)
    (contents : ¬"//".toList <:+: c) (right : List Char) :
    splitComment (left ++ q :: (c ++ q :: right)) =
      (left ++ q :: (c ++ q :: (splitComment right).1), (splitComment right).2) := by
  rw [splitComment_append_cons noSlash uncommented, splitComment_append_cons noSlash contents]

/-- In a body, contents with the same surplus of braces make the same balance. -/
theorem afterLine_quoted (noSlash : q ≠ '/') (uncommented : ¬"//".toList <:+: left)
    (contents : ¬"//".toList <:+: c) (contents' : ¬"//".toList <:+: c')
    (same : braceSurplus c = braceSurplus c') (opened : (b.afterLine (left ++ [q])).opened = true)
    (right : List Char) : b.afterLine (left ++ q :: (c ++ q :: right)) =
      b.afterLine (left ++ q :: (c' ++ q :: right)) := by
  have inside : b.opened = true ∨ '{' ∈ left ++ [q] := by
    rw [Balance.afterLine, splitComment_append_cons noSlash uncommented, splitComment, foldl_step,
      Bool.or_eq_true, decide_eq_true_eq] at opened
    exact opened
  have still (cs : List Char) : b.opened = true ∨ '{' ∈ left ++ q :: cs := by
    refine inside.imp_right fun mem => ?_
    rw [List.append_cons]
    exact List.mem_append_left cs mem
  have code (c : List Char) (contents : ¬"//".toList <:+: c) :
      b.afterLine (left ++ q :: (c ++ q :: right)) =
        ⟨b.depth + (braceSurplus left + (braceSurplus [q] +
          (braceSurplus c + braceSurplus (q :: (splitComment right).1)))), true⟩ := by
    rw [Balance.afterLine, splitComment_quoted noSlash uncommented contents, foldl_step,
      braceSurplus_append, braceSurplus_cons, braceSurplus_append, Balance.mk.injEq,
      Bool.or_eq_true, decide_eq_true_eq]
    exact ⟨rfl, still _⟩
  rw [code c contents, code c' contents', same]

/-! ### Bodies -/

/-- A body that the lines above leave open goes on with the balance behind them. -/
theorem splitBody_append_of_open (unclosed : closesBody b init = false) (lines : List Line) :
    splitBody b (init ++ lines) =
      (init ++ (splitBody (init.foldl Balance.afterLine b) lines).1,
        (splitBody (init.foldl Balance.afterLine b) lines).2) := by
  induction init generalizing b with
  | nil => rfl
  | cons line init ih =>
    rw [closesBody, Bool.or_eq_false_iff] at unclosed
    rw [List.cons_append, splitBody]
    simp only [unclosed.1, Bool.false_eq_true, if_false, ih unclosed.2, List.foldl_cons,
      List.cons_append]

/-- How a body goes on behind a line is told by the balance there. -/
theorem exists_splitBody_cons (b : Balance) (line : Line) (below : List Line) :
    ∃ inner rest, ∀ (b' : Balance) (line' : Line), b'.afterLine line' = b.afterLine line →
      splitBody b' (line' :: below) = (line' :: inner, rest) := by
  cases closed : (b.afterLine line).isClosed with
  | true =>
    refine ⟨[], below, fun b' line' same => ?_⟩
    rw [splitBody, same, closed]
    rfl
  | false =>
    refine ⟨(splitBody (b.afterLine line) below).1, (splitBody (b.afterLine line) below).2,
      fun b' line' same => ?_⟩
    rw [splitBody, same, closed]
    rfl

/-- What is read of a body is told by the balance and by what is read of each line. -/
theorem splitBody_congr {α : Type} (read : Line → Option α) {b' : Balance} {line' : Line}
    (balance : b.afterLine line = b'.afterLine line') (same : read line = read line')
    (below : List Line) :
    (splitBody b (line :: below)).1.filterMap read =
        (splitBody b' (line' :: below)).1.filterMap read ∧
      (splitBody b (line :: below)).2 = (splitBody b' (line' :: below)).2 := by
  obtain ⟨inner, rest, split⟩ := exists_splitBody_cons b line below
  rw [split b line rfl, split b' line' balance.symm, List.filterMap_cons, List.filterMap_cons, same]
  exact ⟨rfl, rfl⟩

/-- A function of which the parameters are closed in front of a mark, read at any rest of the text
behind the mark. -/
theorem declarationsFrom_body (hq : IsMark q) {first : Line} {rest : List Line}
    {name tail : List Char} (region : init ++ [left ++ [q]] = first :: rest)
    (code : wholeComment? first = none) (starts : opening? first = some (name, tail))
    (params : openParens 1 (tail :: rest) = 0) (unclosed : closesBody ⟨0, false⟩ init = false)
    (above : List (List Char)) (cs : List Char) (below : List Line) :
    let body := splitBody (init.foldl Balance.afterLine ⟨0, false⟩) ((left ++ q :: cs) :: below)
    declarationsFrom above (init ++ (left ++ q :: cs) :: below) =
      ⟨name, paramText 1 tail rest,
        above.reverse ++ (init ++ body.1).filterMap fun l => (splitComment l).2⟩ ::
          declarationsFrom [] body.2 := by
  intro body
  have split := splitBody_append_of_open unclosed ((left ++ q :: cs) :: below)
  have longer : left ++ q :: cs = (left ++ [q]) ++ cs := List.append_cons ..
  -- The function starts on the line of the mark or above it.
  cases init with
  | nil =>
    obtain ⟨rfl, rfl⟩ := List.cons.inj region
    rw [opening?_append_cons hq, Option.map_eq_some_iff] at starts
    obtain ⟨⟨name', tail'⟩, starts, same⟩ := starts
    obtain ⟨rfl, rfl⟩ := Prod.mk.inj same
    have text : paramText 1 (tail' ++ q :: cs) below = paramText 1 (tail' ++ [q]) [] := by
      rw [List.append_cons]
      exact paramText_of_isPrefix params (Text.joinWith_isPrefix ' ' [] below (tail' ++ [q]) cs)
    rw [List.nil_append] at split ⊢
    rw [declarationsFrom, wholeComment?_of_mark hq code, opening?_append_cons hq, starts]
    simp only [Option.map_some, text, split]
    rfl
  | cons first' init =>
    obtain ⟨rfl, rfl⟩ := List.cons.inj region
    have text : paramText 1 tail (init ++ (left ++ q :: cs) :: below) =
        paramText 1 tail (init ++ [left ++ [q]]) := by
      rw [longer]
      exact paramText_of_isPrefix params
        (Text.joinWith_isPrefix ' ' (tail :: init) below (left ++ [q]) cs)
    rw [List.cons_append] at split ⊢
    rw [declarationsFrom, code, starts]
    simp only [text, split]
    rfl

/-! ### Catalogs -/

/-- Contents with the same surplus of braces can stand for each other. -/
theorem declarations_quoted (hq : IsMark q) (contents : ¬"//".toList <:+: c)
    (contents' : ¬"//".toList <:+: c') (same : braceSurplus c = braceSurplus c')
    {earlier : List Line} (ends : EndsInCode (earlier ++ [left ++ [q]])) (right : List Char)
    (below : List Line) :
    declarations (earlier ++ (left ++ q :: (c ++ q :: right)) :: below) =
      declarations (earlier ++ (left ++ q :: (c' ++ q :: right)) :: below) := by
  generalize lines : earlier ++ [left ++ [q]] = before at ends
  cases ends with
  | @outside above last whole code starts =>
    obtain ⟨rfl, same⟩ := List.append_inj' lines rfl
    obtain rfl := List.singleton_inj.1 same
    have alone (cs : List Char) (above : List (List Char)) :
        declarationsFrom above ((left ++ q :: cs) :: below) = declarationsFrom [] below := by
      rw [declarationsFrom, wholeComment?_of_mark hq code, opening?_of_mark hq starts]
    rw [declarations, declarations, declarationsFrom_append whole, declarationsFrom_append whole,
      alone, alone]
  | @body above init last first rest name tail whole region code starts params unclosed opened
      uncommented =>
    rw [← List.append_assoc] at lines
    obtain ⟨rfl, last⟩ := List.append_inj' lines rfl
    obtain rfl := List.singleton_inj.1 last
    have uncommented : ¬"//".toList <:+: left := fun h =>
      uncommented (h.trans (List.infix_append [] left [q]))
    rw [List.foldl_append] at opened
    have balance := afterLine_quoted hq.noSlash uncommented contents contents' same opened right
    have comment : (splitComment (left ++ q :: (c ++ q :: right))).2 =
        (splitComment (left ++ q :: (c' ++ q :: right))).2 := by
      rw [splitComment_quoted hq.noSlash uncommented contents,
        splitComment_quoted hq.noSlash uncommented contents']
    obtain ⟨comments, rest⟩ := splitBody_congr (fun l => (splitComment l).2) balance comment below
    have read :=
      declarationsFrom_body hq region code starts params unclosed (commentsAtEnd [] above)
    rw [declarations, declarations, List.append_assoc, List.append_assoc,
      declarationsFrom_append whole, declarationsFrom_append whole, read, read,
      List.filterMap_append, List.filterMap_append, comments, rest]

/-- A catalog with a literal is read line by line. -/
theorem exists_lines_quoted (hq : IsMark q) (before after : List Char) :
    ∃ earlier left right below, Text.lines (before ++ [q]) = earlier ++ [left ++ [q]] ∧
      ∀ c, '\n' ∉ c → Text.lines (before ++ (quoted q c ++ after)) =
        earlier ++ (left ++ q :: (c ++ q :: right)) :: below := by
  obtain ⟨earlier, left, inside, start⟩ := Text.exists_lines_append before
  obtain ⟨right, below, rest⟩ := Text.exists_lines_cons hq.noFeed hq.noReturn after
  have line : '\n' ∉ left ++ [q] := by simpa [inside] using hq.noFeed.symm
  refine ⟨earlier, left, right, below, ?_, fun c hc => ?_⟩
  · rw [start, Text.lines_eq_singleton line (by simp)]
  · have contents : '\n' ∉ left ++ q :: c := by simpa [inside, hc] using hq.noFeed.symm
    have text : left ++ (quoted q c ++ after) = (left ++ q :: c) ++ q :: after := by simp [quoted]
    rw [start, text, rest _ contents, List.append_assoc, List.cons_append]

theorem extract_quoted (hq : IsMark q) (line : '\n' ∉ c) (line' : '\n' ∉ c')
    (contents : ¬"//".toList <:+: c) (contents' : ¬"//".toList <:+: c')
    (same : braceSurplus c = braceSurplus c') {before : List Char}
    (ends : EndsInCode (Text.lines (before ++ [q]))) (after : List Char) :
    extract (String.ofList (before ++ (quoted q c ++ after))) =
      extract (String.ofList (before ++ (quoted q c' ++ after))) := by
  obtain ⟨earlier, left, right, below, start, lines⟩ := exists_lines_quoted hq before after
  rw [start] at ends
  rw [extract, extract, operationsOfLines, operationsOfLines, String.toList_ofList,
    String.toList_ofList, lines c line, lines c' line',
    declarations_quoted hq contents contents' same ends right below]

/-! ### A function that hides the next one -/

/-- As many opening or closing braces as make a surplus. -/
def braces (n : Int) : List Char :=
  List.replicate n.toNat '{' ++ List.replicate (-n).toNat '}'

/-- The start of a function that is written on one line, up to the first of two literals. -/
def callStart : List Char :=
  "func Add(utype byte, tp *TxParams) \x7b trace(".toList

/-- The rest of that line, where the second literal has a given surplus of braces. -/
def callEnd (n : Int) : List Char :=
  ", \"".toList ++ (braces n ++ "\") \x7d".toList)

/-- A function below it. -/
def nextLines : List Line :=
  functionLines "Sub".toList []

/-- An operation with the inputs of a function that declares none. -/
def undeclared (name : String) : Operation where
  name := name
  inputs := List.replicate Operation.maxArity .encrypted

theorem braceSurplus_braces (n : Int) : braceSurplus (braces n) = n := by
  have opening : (braces n).count '{' = n.toNat := by simp [braces, List.count_replicate]
  have closing : (braces n).count '}' = (-n).toNat := by simp [braces, List.count_replicate]
  rw [braceSurplus, opening, closing]
  omega

theorem not_mem_callEnd {x : Char} (fixed : x ∉ callEnd 0) (opening : x ≠ '{') (closing : x ≠ '}')
    (n : Int) : x ∉ callEnd n := by
  have noBrace : x ∉ braces n := by
    simp [braces, List.mem_replicate, opening, closing]
  have start : x ∉ ", \"".toList := fun h => fixed (List.mem_append_left _ h)
  have last : x ∉ "\") \x7d".toList := fun h => fixed (List.mem_append_right _ h)
  rw [callEnd, List.mem_append, List.mem_append]
  exact not_or.2 ⟨start, not_or.2 ⟨noBrace, last⟩⟩

theorem opening?_callStart :
    opening? callStart = some ("Add".toList, plumbing ++ ") \x7b trace(".toList) := by
  decide +kernel

theorem not_mem_callStart : '\n' ∉ callStart ∧ '/' ∉ callStart :=
  ⟨List.count_eq_zero.1 rfl, List.count_eq_zero.1 rfl⟩

theorem splitComment_call (hq : IsMark q) (contents : ¬"//".toList <:+: c) (n : Int) :
    splitComment (callStart ++ q :: (c ++ q :: callEnd n)) =
      (callStart ++ q :: (c ++ q :: callEnd n), none) := by
  have uncommented : ¬"//".toList <:+: callStart := fun sub =>
    not_mem_callStart.2 (sub.subset List.mem_cons_self)
  have noSlash : '/' ∉ callEnd n :=
    not_mem_callEnd (by simp [callEnd, braces]) (by decide) (by decide) n
  rw [splitComment_quoted hq.noSlash uncommented contents, splitComment_of_slash_not_mem noSlash]

/-- The surplus behind the line is that of its two literals. -/
theorem afterLine_call (hq : IsMark q) (contents : ¬"//".toList <:+: c) (n : Int) :
    Balance.afterLine ⟨0, false⟩ (callStart ++ q :: (c ++ q :: callEnd n)) =
      ⟨braceSurplus c + n, true⟩ := by
  have surplus : braceSurplus (callStart ++ q :: (c ++ q :: callEnd n)) = braceSurplus c + n := by
    have start : braceSurplus callStart = 1 := rfl
    have start' : braceSurplus ", \"".toList = 0 := rfl
    have last : braceSurplus "\") \x7d".toList = -1 := rfl
    have end' : braceSurplus (callEnd n) = n - 1 := by
      rw [callEnd, braceSurplus_append, braceSurplus_append, braceSurplus_braces, start', last]
      omega
    rw [braceSurplus_append, braceSurplus_cons q (c ++ q :: callEnd n), braceSurplus_append,
      braceSurplus_cons q (callEnd n), start, end', hq.braceless]
    omega
  have opens : '{' ∈ callStart ++ q :: (c ++ q :: callEnd n) :=
    List.mem_append_left _ (List.elem_iff.1 rfl)
  rw [Balance.afterLine, splitComment_call hq contents, foldl_step, surplus, decide_eq_true opens,
    Int.zero_add, Bool.or_true]

theorem declarations_call (hq : IsMark q) (c : List Char) (n : Int) (rest : List Line) :
    let line := callStart ++ q :: (c ++ q :: callEnd n)
    declarations (line :: rest) =
      ⟨"Add".toList, plumbing,
        (splitBody ⟨0, false⟩ (line :: rest)).1.filterMap fun l => (splitComment l).2⟩ ::
          declarations (splitBody ⟨0, false⟩ (line :: rest)).2 := by
  intro line
  have code : wholeComment? line = none := rfl
  have starts : opening? line = some ("Add".toList,
      plumbing ++ ") \x7b trace(".toList ++ q :: (c ++ q :: callEnd n)) := by
    rw [opening?_append_cons hq, opening?_callStart, Option.map_some]
  have closed : openParens 1 [plumbing ++ ") \x7b trace(".toList] = 0 := rfl
  have text := paramText_of_isPrefix closed (Text.joinWith_isPrefix ' ' [] rest
    (plumbing ++ ") \x7b trace(".toList) (q :: (c ++ q :: callEnd n)))
  have params : paramText 1 (plumbing ++ ") \x7b trace(".toList) [] = plumbing := rfl
  rw [declarations, declarationsFrom, code, starts]
  simp only [text, params, List.reverse_nil, List.nil_append, declarations]

/-- With a closed body, the function below is read. -/
theorem declarations_call_closed (hq : IsMark q) (contents : ¬"//".toList <:+: c) {n : Int}
    (balanced : braceSurplus c + n = 0) :
    declarations ((callStart ++ q :: (c ++ q :: callEnd n)) :: nextLines) =
      [⟨"Add".toList, plumbing, []⟩, ⟨"Sub".toList, plumbing, []⟩] := by
  have body : splitBody ⟨0, false⟩ ((callStart ++ q :: (c ++ q :: callEnd n)) :: nextLines) =
      ([callStart ++ q :: (c ++ q :: callEnd n)], nextLines) := by
    rw [splitBody, afterLine_call hq contents, balanced]
    rfl
  have next : declarations nextLines = [⟨"Sub".toList, plumbing, []⟩] := by decide +kernel
  rw [declarations_call hq, body, next]
  simp only [List.filterMap_cons, splitComment_call hq contents, List.filterMap_nil]

/-- With an open body, the function below is part of it. -/
theorem declarations_call_open (hq : IsMark q) (contents : ¬"//".toList <:+: c) {n : Int}
    (surplus : 0 < braceSurplus c + n) :
    declarations ((callStart ++ q :: (c ++ q :: callEnd n)) :: nextLines) =
      [⟨"Add".toList, plumbing, []⟩] := by
  have header (d : Int) :
      Balance.afterLine ⟨d, true⟩ (headerLine "Sub".toList) = ⟨d + 1, true⟩ := by
    have code : splitComment (headerLine "Sub".toList) = (headerLine "Sub".toList, none) := rfl
    have brace : braceSurplus (headerLine "Sub".toList) = 1 := rfl
    rw [Balance.afterLine, code, foldl_step, brace, Bool.true_or]
  have last (d : Int) : Balance.afterLine ⟨d + 1, true⟩ "\x7d".toList = ⟨d, true⟩ := by
    have brace : braceSurplus "\x7d".toList = -1 := rfl
    have code : splitComment "\x7d".toList = ("\x7d".toList, none) := rfl
    rw [Balance.afterLine, code, foldl_step, brace, Bool.true_or, Balance.mk.injEq]
    exact ⟨Int.add_neg_cancel_right d 1, rfl⟩
  have blank (d : Int) : Balance.afterLine ⟨d, true⟩ [] = ⟨d, true⟩ := rfl
  have lines : nextLines = [headerLine "Sub".toList, "\x7d".toList, []] := rfl
  have unclosed :
      closesBody ⟨0, false⟩ ((callStart ++ q :: (c ++ q :: callEnd n)) :: nextLines) = false := by
    simp only [lines, closesBody, afterLine_call hq contents, header, last, blank,
      Balance.isClosed, Bool.true_and, Bool.or_false, Bool.or_eq_false_iff, decide_eq_false_iff_not]
    omega
  have body := splitBody_append_of_open unclosed []
  have comments : nextLines.filterMap (fun l => (splitComment l).2) = [] := rfl
  rw [List.append_nil] at body
  rw [declarations_call hq, body]
  simp only [splitBody, List.append_nil, List.filterMap_cons, splitComment_call hq contents,
    comments, declarations, declarationsFrom]

/-- The text behind the first literal, with the function below. -/
def callRest (n : Int) : List Char :=
  callEnd n ++ '\n' :: Text.ofLines nextLines

theorem lines_call (hq : IsMark q) (line : '\n' ∉ c) (n : Int) :
    Text.lines (callStart ++ (quoted q c ++ callRest n)) =
      (callStart ++ q :: (c ++ q :: callEnd n)) :: nextLines := by
  have feed : '\n' ∉ callEnd n :=
    not_mem_callEnd (by simp [callEnd, braces]) (by decide) (by decide) n
  have ret : '\r' ∉ callEnd n :=
    not_mem_callEnd (by simp [callEnd, braces]) (by decide) (by decide) n
  have end' : Text.IsLine (callEnd n) := fun x mem =>
    ⟨fun same => feed (same ▸ mem), fun same => ret (same ▸ mem)⟩
  have next : Text.lines (Text.ofLines nextLines) = nextLines := rfl
  have text : callStart ++ (quoted q c ++ callRest n) =
      ((callStart ++ q :: c) ++ q :: callEnd n) ++ '\n' :: Text.ofLines nextLines := by
    simp [quoted, callRest]
  have noFeed : '\n' ∉ (callStart ++ q :: c) ++ q :: callEnd n := by
    simp [not_mem_callStart.1, line, feed, hq.noFeed.symm]
  rw [text, Text.lines_append_cons noFeed, Text.dropReturn_append_cons hq.noReturn,
    Text.dropReturn_eq_self end', next, List.append_assoc, List.cons_append]

theorem endsInCode_callStart (h : q ∈ quotes) : EndsInCode (Text.lines (callStart ++ [q])) := by
  have hq := isMark_of_mem_quotes h
  have lines : Text.lines (callStart ++ [q]) = [] ++ ([] ++ [callStart ++ [q]]) := by
    refine Text.lines_eq_singleton ?_ (by simp)
    simp [not_mem_callStart.1, hq.noFeed.symm]
  have starts : opening? (callStart ++ [q]) =
      some ("Add".toList, plumbing ++ ") \x7b trace(".toList ++ [q]) := by
    rw [opening?_append_cons hq, opening?_callStart, Option.map_some]
  rw [quotes, List.mem_cons, List.mem_cons, List.mem_singleton] at h
  rw [lines]
  refine .body .nil rfl rfl starts ?_ rfl ?_ ?_ <;> rcases h with rfl | rfl | rfl <;>
    decide +kernel

/-- Of two contents with different surpluses, one hides the function below. -/
theorem exists_hidden (h : q ∈ quotes) (line : '\n' ∉ c) (line' : '\n' ∉ c')
    (contents : ¬"//".toList <:+: c) (contents' : ¬"//".toList <:+: c')
    (less : braceSurplus c < braceSurplus c') :
    ∃ before after, EndsInCode (Text.lines (before ++ [q])) ∧
      extract (String.ofList (before ++ (quoted q c ++ after))) ≠
        extract (String.ofList (before ++ (quoted q c' ++ after))) := by
  have hq := isMark_of_mem_quotes h
  refine ⟨callStart, callRest (-braceSurplus c), endsInCode_callStart h, fun same => ?_⟩
  have both : extract (String.ofList (callStart ++ (quoted q c ++ callRest (-braceSurplus c)))) =
      .ok [undeclared "add", undeclared "sub"] := by
    refine extract_eq_ok_iff.2 ⟨[some (undeclared "add"), some (undeclared "sub")], ?_⟩
    rw [String.toList_ofList, lines_call hq line, declarations_call_closed hq contents (by omega)]
    decide +kernel
  have one : extract (String.ofList (callStart ++ (quoted q c' ++ callRest (-braceSurplus c)))) =
      .ok [undeclared "add"] := by
    refine extract_eq_ok_iff.2 ⟨[some (undeclared "add")], ?_⟩
    rw [String.toList_ofList, lines_call hq line', declarations_call_open hq contents' (by omega)]
    decide +kernel
  rw [both, one] at same
  exact absurd (congrArg List.length (Except.ok.inj same)) (by decide)

/-! ### What a literal may hold -/

/-- **Literals.** The contents of a literal, on one line and without a comment, can be replaced by
others in every catalog without a change to its operations exactly if both have the same surplus of
braces. A literal with as many closing as opening braces is as good as an empty one, and with any
other there is a catalog that has lost an operation. -/
theorem extract_quoted_iff (h : q ∈ quotes) (line : '\n' ∉ c) (line' : '\n' ∉ c')
    (contents : ¬"//".toList <:+: c) (contents' : ¬"//".toList <:+: c') :
    (∀ before after, EndsInCode (Text.lines (before ++ [q])) →
      extract (String.ofList (before ++ (quoted q c ++ after))) =
        extract (String.ofList (before ++ (quoted q c' ++ after)))) ↔
      braceSurplus c = braceSurplus c' := by
  constructor
  · intro same
    rcases Int.lt_trichotomy (braceSurplus c) (braceSurplus c') with less | equal | more
    · obtain ⟨before, after, ends, differ⟩ := exists_hidden h line line' contents contents' less
      exact absurd (same before after ends) differ
    · exact equal
    · obtain ⟨before, after, ends, differ⟩ := exists_hidden h line' line contents' contents more
      exact absurd (same before after ends).symm differ
  · intro equal before after ends
    exact extract_quoted (isMark_of_mem_quotes h) line line' contents contents' equal ends after

/-- Braces that close each other. -/
theorem extract_quoted_iff_braces :
    let before := "func Add(a []byte) \x7b\n\ttrace(".toList
    let after := ")\n\x7d\nfunc Sub(a []byte) \x7b\n\x7d\n".toList
    '"' ∈ quotes ∧ '\n' ∉ "a".toList ∧ '\n' ∉ "\x7b\x7d".toList ∧
      ¬"//".toList <:+: "a".toList ∧ ¬"//".toList <:+: "\x7b\x7d".toList ∧
      braceSurplus "a".toList = braceSurplus "\x7b\x7d".toList ∧
      EndsInCode (Text.lines (before ++ ['"'])) ∧
      extract (String.ofList (before ++ (quoted '"' "a".toList ++ after))) =
        extract (String.ofList (before ++ (quoted '"' "\x7b\x7d".toList ++ after))) := by
  intro before after
  have quote : '"' ∈ quotes := List.mem_cons_self
  have line : '\n' ∉ "a".toList := by decide +kernel
  have line' : '\n' ∉ "\x7b\x7d".toList := by decide +kernel
  have contents : ¬"//".toList <:+: "a".toList := by decide +kernel
  have contents' : ¬"//".toList <:+: "\x7b\x7d".toList := by decide +kernel
  have same : braceSurplus "a".toList = braceSurplus "\x7b\x7d".toList := by decide +kernel
  have ends : EndsInCode (Text.lines (before ++ ['"'])) := by
    have lines : Text.lines (before ++ ['"']) =
        [] ++ (["func Add(a []byte) \x7b".toList] ++ ["\ttrace(\"".toList]) := by decide +kernel
    have starts : opening? "func Add(a []byte) \x7b".toList =
        some ("Add".toList, "a []byte) \x7b".toList) := by decide +kernel
    rw [lines]
    exact .body .nil rfl rfl starts (by decide +kernel) (by decide +kernel) (by decide +kernel)
      (by decide +kernel)
  exact ⟨quote, line, line', contents, contents', same, ends,
    (extract_quoted_iff quote line line' contents contents').2 same before after ends⟩

/-- A brace in a literal of a body makes the body take in the function below. -/
theorem brace_in_literal_hides :
    let before := "func Add(lhs, rhs []byte) \x7b\n\ttrace(".toList
    let after := ")\n\x7d\n\nfunc Sub(lhs, rhs []byte) \x7b\n\x7d\n".toList
    let add : Operation := { name := "add", inputs := [.encrypted, .encrypted] }
    let sub : Operation := { name := "sub", inputs := [.encrypted, .encrypted] }
    extract (String.ofList (before ++ (quoted '"' "a".toList ++ after))) = .ok [add, sub] ∧
      extract (String.ofList (before ++ (quoted '"' "\x7b".toList ++ after))) = .ok [add] := by
  decide +kernel

end FheSolidity.Catalog
