import FheSolidity.Proofs.Catalog.Literals
import FheSolidity.Proofs.Catalog.Outcomes

/-!
# Catalogs that are read alike

Lines can stand for others if it makes no difference to any catalog which of them it holds
(`ReadAlike`). A function is told by what stands behind the parenthesis that opens its parameters
(`functionIn`), wherever it stands below whole functions. So two ways of writing one function are
read alike if they make the same operation and leave the same lines below: `ReadAlike.of_function`.
-/

namespace FheSolidity

/-! ### Runs of characters -/

namespace Text

open Unicode (isBlank)

variable {cs : List Char}

/-- A run that ends inside a text ends there whatever follows. -/
theorem span_append_of_rest {p : Char → Bool} (stops : (cs.span p).2 ≠ []) (more : List Char) :
    (cs ++ more).span p = ((cs.span p).1, (cs.span p).2 ++ more) := by
  rw [List.span_eq_takeWhile_dropWhile] at stops ⊢
  rw [List.span_eq_takeWhile_dropWhile, List.takeWhile_append, List.dropWhile_append]
  have inside : (cs.takeWhile p).length ≠ cs.length := by
    intro whole
    have parts := congrArg List.length (List.takeWhile_append_dropWhile (p := p) (l := cs))
    rw [List.length_append, whole] at parts
    exact stops (List.eq_nil_of_length_eq_zero (Nat.add_eq_left.1 parts))
  have remains : (cs.dropWhile p).isEmpty = false := List.isEmpty_eq_false_iff.2 stops
  rw [if_neg inside, remains]
  rfl

theorem trimStart_append_of_rest (solid : trimStart cs ≠ []) (more : List Char) :
    trimStart (cs ++ more) = trimStart cs ++ more := by
  have remains : (cs.dropWhile isBlank).isEmpty = false := List.isEmpty_eq_false_iff.2 solid
  rw [trimStart, List.dropWhile_append, remains]
  rfl

theorem blanks1?_eq_some_iff {rest : List Char} : blanks1? cs = some rest ↔
    ∃ b bs, cs = b :: bs ∧ isBlank b = true ∧ trimStart bs = rest := by
  cases cs with
  | nil => simp [blanks1?]
  | cons b bs => simp [blanks1?]

/-- Any lines are the lines of some text. -/
theorem exists_lines_eq {ls : List (List Char)} (h : ∀ l ∈ ls, '\n' ∉ l) : ∃ cs, lines cs = ls := by
  induction ls with
  | nil => exact ⟨[], rfl⟩
  | cons l ls ih =>
    obtain ⟨cs, rfl⟩ := ih fun l' hl' => h l' (List.mem_cons_of_mem l hl')
    -- A carriage return that belongs to the line stays if another one belongs to the line end.
    have line : '\n' ∉ l ++ ['\r'] := by simpa using h l List.mem_cons_self
    have own : dropReturn (l ++ ['\r']) = l := by
      rw [dropReturn, if_pos List.getLast?_concat, List.dropLast_concat]
    exact ⟨(l ++ ['\r']) ++ '\n' :: cs, by rw [lines_append_cons line, own]⟩

end Text

namespace Catalog

open Text (joinWith trimStart)
open Unicode (isBlank isWord)

/-- Lines that make no difference to a catalog: whoever has the first and whoever has the second
reads the same operations or fails in the same way. -/
def ReadAlike (lines lines' : List Line) : Prop :=
  ∀ text text' : String, Text.lines text.toList = lines → Text.lines text'.toList = lines' →
    extract text = extract text'

variable {lines lines' earlier : List Line} {start : Line} {name tail : List Char}

/-! ### Functions one by one -/

theorem mapM_congr_of_forall₂ {ε α β : Type} {f : α → Except ε β} {as as' : List α}
    (h : List.Forall₂ (fun a a' => f a = f a') as as') : as.mapM f = as'.mapM f := by
  induction h with
  | nil => rfl
  | cons first _ ih => rw [List.mapM_cons, List.mapM_cons, first, ih]

theorem splitBody_singleton (b : Balance) (line : Line) : splitBody b [line] = ([line], []) := by
  rw [splitBody]
  split <;> rfl

theorem forall₂_operation?_refl (ds : List Declaration) :
    List.Forall₂ (fun d d' : Declaration => d.operation? = d'.operation?) ds ds :=
  List.forall₂_same.2 fun _ _ => rfl

/-- Catalogs are read alike if their functions make the same operations. -/
theorem ReadAlike.of_forall₂ (h : List.Forall₂
    (fun d d' : Declaration => d.operation? = d'.operation?) (declarations lines)
      (declarations lines')) : ReadAlike lines lines' := by
  rintro text text' rfl rfl
  rw [extract, extract, operationsOfLines, operationsOfLines, mapM_congr_of_forall₂ h]

/-! ### Inputs that make no difference -/

/-- Inputs that no annotations tell apart. Annotations reach no further than the inputs there may
be, and of more inputs a catalog is told just how many they are. -/
structure SameInputs (inputs inputs' : List InputKind) : Prop where
  length_eq : inputs.length = inputs'.length
  take_eq : inputs.take 3 = inputs'.take 3

/-- Outcomes that differ in nothing but such inputs. -/
inductive SameOutcome : Except CatalogError Operation → Except CatalogError Operation → Prop where
  | ok {op : Operation} {inputs : List InputKind} (same : SameInputs op.inputs inputs) :
      SameOutcome (.ok op) (.ok { op with inputs })
  | error (e : CatalogError) : SameOutcome (.error e) (.error e)

variable {inputs inputs' : List InputKind}

theorem SameInputs.refl (inputs : List InputKind) : SameInputs inputs inputs := ⟨rfl, rfl⟩

theorem SameInputs.eq (h : SameInputs inputs inputs') (few : inputs.length ≤ 3) :
    inputs = inputs' := by
  have all := h.take_eq
  rwa [List.take_of_length_le few, List.take_of_length_le (h.length_eq ▸ few)] at all

theorem SameInputs.resize_eq (h : SameInputs inputs inputs') {n : Nat} (few : n ≤ 3) :
    resize n inputs = resize n inputs' := by
  have shorter (inputs : List InputKind) : inputs.take n = (inputs.take 3).take n := by
    rw [List.take_take, Nat.min_eq_left few]
  rw [resize, resize, shorter inputs, shorter inputs', h.take_eq, h.length_eq]

theorem SameInputs.setInput (h : SameInputs inputs inputs') (position : Nat) (kind : InputKind) :
    SameInputs (setInput position kind inputs) (setInput position kind inputs') where
  length_eq := by rw [length_setInput, length_setInput, h.length_eq]
  take_eq := by
    have filled (inputs : List InputKind) :
        (resize (max position inputs.length) inputs).take 3 = inputs.take 3 ++
          (List.replicate (max position inputs.length - inputs.length) .encrypted).take
            (3 - inputs.length) := by
      rw [resize, List.take_of_length_le (Nat.le_max_right ..), List.take_append]
    rw [Catalog.setInput, Catalog.setInput, List.take_set, List.take_set, filled, filled, h.take_eq,
      h.length_eq]

theorem SameOutcome.bind {α : Type} {x : Except CatalogError α}
    {k k' : α → Except CatalogError Operation}
    (h : ∀ a, x = .ok a → SameOutcome (k a) (k' a)) : SameOutcome (x >>= k) (x >>= k') := by
  cases x with
  | error e => exact .error e
  | ok a => exact h a rfl

/-- One annotation does the same to such inputs. -/
theorem SameOutcome.applyAnnotation {op : Operation} (same : SameInputs op.inputs inputs)
    (a : Annotation) :
    SameOutcome ( applyAnnotation op a) ( applyAnnotation { op with inputs } a) := by
  cases a with
  | returnType word => exact .bind fun kind _ => .ok same
  | inputType position word =>
    exact .bind fun _ _ => .bind fun kind _ => .ok (same.setInput position kind)
  | arity n =>
    refine .bind fun _ count => ?_
    have few : n ≤ 3 := (checkCount_eq_ok_iff.1 count).2
    have equal := same.resize_eq few
    exact .ok ⟨congrArg List.length equal, congrArg (List.take 3) equal⟩
  | plainInput => exact .ok (same.setInput 2 .plain)
  | plainOutput | booleanMath | sameType => exact .ok same

/-- All annotations together do the same to such inputs. -/
theorem SameOutcome.foldlM {op : Operation} (same : SameInputs op.inputs inputs)
    (as : List Annotation) :
    SameOutcome (as.foldlM Catalog.applyAnnotation op)
      (as.foldlM Catalog.applyAnnotation { op with inputs }) := by
  induction as generalizing op inputs with
  | nil => exact .ok same
  | cons a as ih =>
    rw [List.foldlM_cons, List.foldlM_cons]
    have first := SameOutcome.applyAnnotation same a
    generalize Catalog.applyAnnotation op a = x at first ⊢
    generalize Catalog.applyAnnotation { op with inputs } a = x' at first ⊢
    cases first with
    | ok same => exact ih same
    | error e => exact .error e

/-- What a function describes does not depend on inputs that no annotations tell apart. -/
theorem annotated_congr {d d' : Declaration}
    (inputs : SameInputs (declaredInputs d.params) (declaredInputs d'.params))
    (annotations : d.annotations = d'.annotations) (name : String) :
    annotated name d = annotated name d' := by
  let op : Operation := { name, inputs := declaredInputs d.params }
  have outcome : SameOutcome (d.annotations.foldlM applyAnnotation op)
      (d'.annotations.foldlM applyAnnotation { op with inputs := declaredInputs d'.params }) :=
    annotations ▸ .foldlM inputs d.annotations
  change d.annotations.foldlM applyAnnotation op >>= _ =
    d'.annotations.foldlM applyAnnotation { op with inputs := declaredInputs d'.params } >>= _
  generalize d.annotations.foldlM applyAnnotation op = x at outcome ⊢
  generalize
    d'.annotations.foldlM applyAnnotation { op with inputs := declaredInputs d'.params } = x'
    at outcome ⊢
  cases outcome with
  | error e => rfl
  | @ok op inputs same =>
    by_cases few : op.inputs.length ≤ 3
    · rw [← same.eq few]
    · -- Of too many inputs only the number is told.
      have refused {inputs : List InputKind} (many : ¬inputs.length ≤ 3) :
          Operation.ofInputs name inputs = .error (.invalidArity name inputs.length) := if_neg many
      change Operation.ofInputs name op.inputs >>= _ = Operation.ofInputs name inputs >>= _
      rw [refused few, refused (same.length_eq ▸ few), same.length_eq]

/-- Functions of one name make the same operation if they describe the same. -/
theorem Declaration.operation?_congr_of_annotated {d d' : Declaration} (name : d.name = d'.name)
    (described : ∀ name, annotated name d = annotated name d') : d.operation? = d'.operation? := by
  obtain ⟨_, params, comments⟩ := d
  obtain ⟨_, params', comments'⟩ := d'
  cases name
  unfold Declaration.operation?
  simp only [described]
  rfl

/-- Two functions of one name make the same operation if they declare inputs that no annotations
tell apart and have the same annotations. -/
theorem Declaration.operation?_congr {d d' : Declaration} (name : d.name = d'.name)
    (inputs : SameInputs (declaredInputs d.params) (declaredInputs d'.params))
    (annotations : d.annotations = d'.annotations) : d.operation? = d'.operation? :=
  operation?_congr_of_annotated name (annotated_congr inputs annotations)

/-! ### The start of a function -/

/-- A line starts a function exactly if it is read as a keyword, white space, a word and a
parenthesis. -/
theorem opening?_eq_some_iff {line : Line} : opening? line = some (name, tail) ↔
    ∃ keyword c cs, Text.literal? ['f', 'u', 'n', 'c'] line = some keyword ∧
      Text.blanks1? keyword = some (c :: cs) ∧ startsName c = true ∧
      name = c :: (cs.span isWord).1 ∧ trimStart (cs.span isWord).2 = '(' :: tail := by
  constructor
  · intro h
    simp only [opening?, Option.bind_eq_bind, Option.bind_eq_some_iff] at h
    obtain ⟨keyword, hkeyword, rest, hblanks, h⟩ := h
    cases rest with
    | nil => cases h
    | cons c cs =>
      cases starts : startsName c with
      | false => simp [starts] at h
      | true =>
        simp only [starts, Bool.not_true, Bool.false_eq_true, if_false] at h
        split at h
        · next opens =>
          cases h
          exact ⟨keyword, c, cs, hkeyword, hblanks, starts, rfl, opens⟩
        · cases h
  · rintro ⟨keyword, c, cs, hkeyword, hblanks, starts, rfl, opens⟩
    simp only [opening?, hkeyword, hblanks, starts, opens, Option.bind_eq_bind, Option.bind_some,
      Bool.not_true, Bool.false_eq_true, if_false]

/-- The parts of a line that starts a function. -/
theorem exists_of_opening? {line : Line} (h : opening? line = some (name, tail)) :
    ∃ gap space, line = "func".toList ++ (gap ++ (name ++ (space ++ '(' :: tail))) ∧
      (∀ c ∈ gap, isBlank c = true) ∧ (∀ c ∈ space, isBlank c = true) ∧ IsFunctionName name := by
  obtain ⟨keyword, c, cs, hkeyword, hblanks, starts, rfl, opens⟩ := opening?_eq_some_iff.1 h
  obtain ⟨b, bs, rfl, blank, own⟩ := Text.blanks1?_eq_some_iff.1 hblanks
  have blanks (cs : List Char) : ∀ c ∈ cs.takeWhile isBlank, isBlank c = true := fun c hc =>
    List.mem_takeWhile_imp hc
  have trimmed (cs : List Char) : cs.takeWhile isBlank ++ trimStart cs = cs :=
    List.takeWhile_append_dropWhile
  refine ⟨b :: bs.takeWhile isBlank, (cs.span isWord).2.takeWhile isBlank, ?_,
    List.forall_mem_cons.2 ⟨blank, blanks bs⟩, blanks _, ⟨c, _, rfl, starts⟩, ?_⟩
  · have word : (cs.span isWord).1 ++ (cs.span isWord).2 = cs := by
      rw [List.span_eq_takeWhile_dropWhile]
      exact List.takeWhile_append_dropWhile
    rw [← opens, trimmed, List.cons_append, List.cons_append, word, ← own, trimmed]
    exact Text.literal?_eq_some_iff.1 hkeyword
  · refine List.forall_mem_cons.2 ⟨?_, fun x hx => ?_⟩
    · rcases Bool.or_eq_true_iff.1 starts with alpha | underscore
      · exact Unicode.isWord_of_isAlphanum (Bool.or_eq_true_iff.2 (.inl alpha))
      · rw [eq_of_beq underscore]
        exact Unicode.isWord_underscore
    · rw [List.span_eq_takeWhile_dropWhile] at hx
      exact List.mem_takeWhile_imp hx

/-- What a line starts is told by its beginning. -/
theorem opening?_append {line : Line} (h : opening? line = some (name, tail)) (cs : List Char) :
    opening? (line ++ cs) = some (name, tail ++ cs) := by
  obtain ⟨keyword, c, rest, hkeyword, hblanks, starts, rfl, opens⟩ := opening?_eq_some_iff.1 h
  obtain ⟨b, bs, rfl, blank, own⟩ := Text.blanks1?_eq_some_iff.1 hblanks
  have solid : trimStart bs ≠ [] := own ▸ List.cons_ne_nil c rest
  have stops : trimStart (rest.span isWord).2 ≠ [] := opens ▸ List.cons_ne_nil _ _
  have inside : (rest.span isWord).2 ≠ [] := fun empty => stops (by rw [empty]; rfl)
  have word := Text.span_append_of_rest inside cs
  refine opening?_eq_some_iff.2 ⟨b :: bs ++ cs, c, rest ++ cs, ?_, ?_, starts, ?_, ?_⟩
  · rw [Text.literal?_eq_some_iff] at hkeyword ⊢
    rw [hkeyword, List.append_assoc]
  · refine Text.blanks1?_eq_some_iff.2 ⟨b, bs ++ cs, rfl, blank, ?_⟩
    rw [Text.trimStart_append_of_rest solid, own, List.cons_append]
  · rw [word]
  · rw [word, Text.trimStart_append_of_rest stops, opens, List.cons_append]

theorem wholeComment?_of_opening? {line : Line} (h : opening? line = some (name, tail)) :
    wholeComment? line = none := by
  obtain ⟨gap, space, rfl, _⟩ := exists_of_opening? h
  rfl

/-- Up to its parenthesis a function is written without any of the characters that matter in its
code. -/
theorem not_mem_of_opening? (starts : opening? start = some (name, [])) {x : Char}
    (noWord : isWord x = false) (solid : isBlank x = false) (noParenthesis : x ≠ '(') :
    x ∉ start := by
  obtain ⟨gap, space, rfl, blank, blank', named⟩ := exists_of_opening? starts
  have letters : "func".toList.all Char.isAlphanum = true := rfl
  have noBlank {cs : List Char} (h : ∀ c ∈ cs, isBlank c = true) : x ∉ cs := fun mem =>
    Bool.false_ne_true (solid.symm.trans (h x mem))
  simp only [List.mem_append, List.mem_singleton, not_or]
  refine ⟨fun mem => ?_, noBlank blank, named.not_mem noWord, noBlank blank', noParenthesis⟩
  have word := Unicode.isWord_of_isAlphanum (List.all_eq_true.1 letters x mem)
  rw [noWord] at word
  cases word

/-! ### Comments on a line -/

/-- A line is all code exactly if it has no two slashes. -/
theorem splitComment_eq_self_iff {line : Line} :
    splitComment line = (line, none) ↔ ¬"//".toList <:+: line := by
  constructor
  · rintro code ⟨before, after, rfl⟩
    induction before with
    | nil => cases code
    | cons x before ih =>
      rw [List.cons_append, List.cons_append, splitComment] at code
      · obtain ⟨own, comment⟩ := Prod.mk.inj code
        exact ih (Prod.ext (List.cons.inj own).2 comment)
      · rintro rest rfl slash
        rw [slash] at code
        cases code
  · intro uncommented
    induction line with
    | nil => rfl
    | cons x line ih =>
      rw [splitComment, ih fun h => uncommented (List.infix_cons h)]
      rintro rest rfl rfl
      exact uncommented ⟨[], rest, rfl⟩

/-- Two slashes behind code start the comment. -/
theorem splitComment_slashes {line : Line} (code : ¬"//".toList <:+: line ++ ['/'])
    (c : List Char) : splitComment (line ++ '/' :: '/' :: c) = (line, some c) := by
  induction line with
  | nil => rfl
  | cons x line ih =>
    rw [List.cons_append, splitComment, ih fun h => code (List.infix_cons h)]
    rintro rest rfl slash
    -- The next character is a slash only if the code has two of them already.
    cases line with
    | nil => exact code List.infix_rfl
    | cons y line =>
      rw [List.cons_append] at slash
      rw [(List.cons.inj slash).1] at code
      exact code ⟨[], line ++ ['/'], rfl⟩

theorem afterLine_of_uncommented {line : Line} (uncommented : ¬"//".toList <:+: line)
    (b : Balance) : b.afterLine line = line.foldl Balance.step b := by
  rw [Balance.afterLine, splitComment_eq_self_iff.2 uncommented]

/-- A line with a comment has the braces of the line without. -/
theorem afterLine_slashes {line : Line} (code : ¬"//".toList <:+: line ++ ['/']) (c : List Char)
    (b : Balance) : b.afterLine (line ++ '/' :: '/' :: c) = b.afterLine line := by
  have uncommented : ¬"//".toList <:+: line := fun h =>
    code (h.trans (List.infix_append [] line ['/']))
  rw [Balance.afterLine, splitComment_slashes code, afterLine_of_uncommented uncommented]

/-! ### Where a function stands -/

/-- Lines with a text in front of the first. -/
def prepend (start : Line) : List Line → List Line
  | [] => [start]
  | line :: rest => (start ++ line) :: rest

/-- The function of a name that is written on lines, from behind the parenthesis on, below some
comments. -/
def functionIn (above : List (List Char)) (name : List Char) (lines : List Line) : Declaration where
  name := name
  params := (upToClose 1 (joinWith ' ' lines)).1
  comments := above.reverse ++ (splitBody ⟨0, false⟩ lines).1.filterMap fun l => (splitComment l).2

theorem afterLine_append_of_braceless {line : Line} (noSlash : '/' ∉ start)
    (braceless : ∀ c ∈ start, c ≠ '{' ∧ c ≠ '}') (b : Balance) :
    b.afterLine (start ++ line) = b.afterLine line := by
  rw [Balance.afterLine, splitComment_append_of_slash_not_mem noSlash, List.foldl_append,
    foldl_step_of_braceless braceless, Balance.afterLine]

/-- A body is read without what stands in front of its first line, if that has no braces and starts
no comment. -/
theorem splitBody_prepend (noSlash : '/' ∉ start) (braceless : ∀ c ∈ start, c ≠ '{' ∧ c ≠ '}')
    (b : Balance) (lines : List Line) (nonempty : lines ≠ []) :
    (splitBody b (prepend start lines)).1.filterMap (fun l => (splitComment l).2) =
        (splitBody b lines).1.filterMap (fun l => (splitComment l).2) ∧
      (splitBody b (prepend start lines)).2 = (splitBody b lines).2 := by
  cases lines with
  | nil => exact absurd rfl nonempty
  | cons line rest =>
    refine splitBody_congr _ (afterLine_append_of_braceless noSlash braceless b) ?_ rest
    rw [splitComment_append_of_slash_not_mem noSlash]

theorem declarationsFrom_prepend (starts : opening? start = some (name, []))
    (nonempty : lines ≠ []) (above : List (List Char)) :
    declarationsFrom above (prepend start lines) =
      functionIn above name lines :: declarationsFrom [] (splitBody ⟨0, false⟩ lines).2 := by
  have without {x : Char} (noWord : isWord x = false) (solid : isBlank x = false)
      (noParenthesis : x ≠ '(') : x ∉ start := not_mem_of_opening? starts noWord solid noParenthesis
  have noSlash : '/' ∉ start := without (by decide +kernel) (by decide) (by decide)
  have noOpening : '{' ∉ start := without (by decide +kernel) (by decide) (by decide)
  have noClosing : '}' ∉ start := without (by decide +kernel) (by decide) (by decide)
  have braceless : ∀ c ∈ start, c ≠ '{' ∧ c ≠ '}' := fun c hc =>
    ⟨fun same => noOpening (same ▸ hc), fun same => noClosing (same ▸ hc)⟩
  obtain ⟨comments, below⟩ := splitBody_prepend noSlash braceless ⟨0, false⟩ lines nonempty
  cases lines with
  | nil => exact absurd rfl nonempty
  | cons line rest =>
    have own : opening? (start ++ line) = some (name, line) := opening?_append starts line
    have text : paramText 1 line rest = (upToClose 1 (joinWith ' ' (line :: rest))).1 := by
      rw [upToClose_joinWith]
    rw [prepend] at comments below ⊢
    rw [declarationsFrom, wholeComment?_of_opening? own, own]
    simp only [comments, below, text]
    rfl

/-- Two ways of writing a function are read alike, wherever it stands, if they make the same
operation below any comments and leave the same lines. -/
theorem ReadAlike.of_function (whole : IsWhole earlier) (starts : opening? start = some (name, []))
    (nonempty : lines ≠ []) (nonempty' : lines' ≠ [])
    (own : ∀ above,
      (functionIn above name lines).operation? = (functionIn above name lines').operation?)
    (below : (splitBody ⟨0, false⟩ lines).2 = (splitBody ⟨0, false⟩ lines').2) :
    ReadAlike (earlier ++ prepend start lines) (earlier ++ prepend start lines') := by
  refine .of_forall₂ ?_
  rw [declarations, declarations, declarationsFrom_append whole, declarationsFrom_append whole,
    declarationsFrom_prepend starts nonempty, declarationsFrom_prepend starts nonempty', below]
  exact List.rel_append (forall₂_operation?_refl _) (.cons (own _) (forall₂_operation?_refl _))

/-! ### Lists of parameters -/

/-- Lines with a text behind the last. -/
def appendLast (lines : List Line) (tail : List Char) : List Line :=
  lines.dropLast ++ [lines.getLastD [] ++ tail]

/-- Lists of parameters, each written on some lines, that are read alike in every function: below
whole functions, behind any start of a function, and in front of any rest of it. -/
def ListsAlike (list list' : List Line) : Prop :=
  ∀ (earlier : List Line) (start : Line) (name tail : List Char) (below : List Line),
    IsWhole earlier → opening? start = some (name, []) →
    ReadAlike (earlier ++ prepend start (appendLast list (')' :: tail) ++ below))
      (earlier ++ prepend start (appendLast list' (')' :: tail) ++ below))

variable {init below : List Line} {last : Line} {text : List Char} {depth : Nat}

theorem appendLast_concat (init : List Line) (last : Line) (tail : List Char) :
    appendLast (init ++ [last]) tail = init ++ [last ++ tail] := by
  simp [appendLast]

theorem not_mem_of_mem_prepend {x : Char} (first : x ∉ start) (later : ∀ l ∈ lines, x ∉ l) :
    ∀ l ∈ prepend start lines, x ∉ l := by
  cases lines with
  | nil => exact List.forall_mem_singleton.2 first
  | cons line lines =>
    rw [List.forall_mem_cons] at later
    refine List.forall_mem_cons.2 ⟨?_, later.2⟩
    rw [List.mem_append, not_or]
    exact ⟨first, later.1⟩

theorem joinWith_prepend (nonempty : lines ≠ []) (sep : Char) :
    joinWith sep (prepend start lines) = start ++ joinWith sep lines := by
  match lines with
  | [] => exact absurd rfl nonempty
  | [line] => rfl
  | line :: line' :: rest => simp [prepend, joinWith]

theorem depth_append (depth : Nat) (cs ds : List Char) :
    (upToClose depth (cs ++ ds)).2 = (upToClose (upToClose depth cs).2 ds).2 := by
  rw [upToClose_append]
  split
  · next closed =>
    rw [closed]
    simp [upToClose]
  · rfl

theorem depth_of_not_mem {cs : List Char} (opening : '(' ∉ cs) (closing : ')' ∉ cs) (depth : Nat) :
    (upToClose depth cs).2 = depth := by
  induction cs with
  | nil => cases depth <;> rfl
  | cons c cs ih =>
    rw [List.mem_cons, not_or] at opening closing
    cases depth with
    | zero => rfl
    | succ depth =>
      rw [upToClose, if_neg (Ne.symm closing.1), if_neg (Ne.symm opening.1)]
      exact ih opening.2 closing.2

/-- A text in which not all parentheses are closed is read to its end. -/
theorem upToClose_of_open {cs : List Char} (unclosed : (upToClose depth cs).2 ≠ 0) :
    (upToClose depth cs).1 = cs := by
  induction cs generalizing depth with
  | nil => cases depth <;> rfl
  | cons c cs ih =>
    cases depth with
    | zero => simp [upToClose] at unclosed
    | succ depth =>
      rw [upToClose] at unclosed ⊢
      split
      · next closes =>
        rw [if_pos closes] at unclosed
        split
        · next none => simp [none] at unclosed
        · next some' =>
          rw [if_neg some'] at unclosed
          exact congrArg (c :: ·) (ih unclosed)
      · next other =>
        rw [if_neg other] at unclosed
        exact congrArg (c :: ·) (ih unclosed)

/-- A list without a parenthesis left open or closed too early is read up to the one behind it. -/
theorem upToClose_of_matched {cs : List Char} (matched : (upToClose 1 cs).2 = 1) :
    upToClose 1 (cs ++ [')']) = (cs, 0) := by
  have whole : (upToClose 1 cs).1 = cs := upToClose_of_open (by rw [matched]; exact Nat.one_ne_zero)
  rw [upToClose_append, matched, if_neg Nat.one_ne_zero, whole]
  simp [upToClose]

/-- Parameters that are closed on some lines are read off these. -/
theorem params_functionIn_of_closed (closed : (upToClose 1 (joinWith ' ' (init ++ [last]))).2 = 0)
    (above : List (List Char)) (name more : List Char) (below : List Line) :
    (functionIn above name (init ++ (last ++ more) :: below)).params =
      (upToClose 1 (joinWith ' ' (init ++ [last]))).1 := by
  obtain ⟨rest, goesOn⟩ := Text.joinWith_isPrefix ' ' init below last more
  rw [functionIn, ← goesOn, upToClose_append, if_pos closed]

/-- The parameters of a function are its list as far as that goes. -/
theorem params_functionIn
    (closes : upToClose 1 (joinWith ' ' (init ++ [last]) ++ [')']) = (text, 0))
    (above : List (List Char)) (name tail : List Char) (below : List Line) :
    (functionIn above name (init ++ (last ++ ')' :: tail) :: below)).params = text := by
  rw [← Text.joinWith_concat_append] at closes
  have read := params_functionIn_of_closed (congrArg Prod.snd closes) above name tail below
  rwa [List.append_assoc, List.singleton_append, closes] at read

/-! ### What a catalog tells of its functions -/

variable {d d' : Declaration} {ds : List Declaration} {op : Operation}

/-- The first operation of a catalog is that of its first function. -/
theorem operation?_of_extract {text : String} {ops : List Operation}
    (functions : declarations (Text.lines text.toList) = d :: ds)
    (read : extract text = .ok (op :: ops)) (some' : d.operation? ≠ .ok none) :
    d.operation? = .ok (some op) := by
  obtain ⟨found, hfound, kept, _⟩ := extract_eq_ok_iff.1 read
  rw [functions, mapM_eq_ok_iff] at hfound
  cases hfound with
  | @cons _ own _ later first _ =>
    cases own with
    | none => exact absurd first some'
    | some own =>
      have single : firstOfEachName [own] = [own] := rfl
      have head : (some own :: later).filterMap id = [own] ++ later.filterMap id := rfl
      rw [head, firstOfEachName_append, single] at kept
      cases kept
      exact first

/-- A catalog of one function is read as that function. -/
theorem extract_of_single {text : String} {x : Except CatalogError Operation}
    (functions : declarations (Text.lines text.toList) = [d]) (own : d.operation? = some <$> x) :
    extract text = (fun op => [op]) <$> x := by
  cases x with
  | error e =>
    have fails : (declarations (Text.lines text.toList)).mapM Declaration.operation? = .error e :=
      mapM_eq_error_iff.2 ⟨[], d, [], functions, List.forall_mem_nil _, own⟩
    rw [extract, operationsOfLines, fails]
    rfl
  | ok op =>
    refine extract_eq_ok_iff.2 ⟨[some op], ?_, rfl, List.cons_ne_nil op []⟩
    rw [functions]
    exact mapM_eq_ok_iff.2 (.cons own .nil)

/-- The start of a function that is an operation, whatever its name stands for elsewhere. -/
def addStart : Line :=
  "func Add(".toList

theorem opening?_addStart : opening? addStart = some ("Add".toList, []) := by
  decide +kernel

theorem operationName_add (name : d.name = "Add".toList) : d.operationName = "add" := by
  rw [Declaration.operationName, name]
  decide +kernel

theorem operation?_add (name : d.name = "Add".toList) :
    d.operation? = some <$> annotated "add" d := by
  have exported : d.isExported = true := by
    rw [Declaration.isExported, name]
    rfl
  have own := operationName_add name
  have ordinary : Rules.isHandWritten "add" = false := by decide +kernel
  have noAlias : isSealAlias "add" = false := by decide +kernel
  rw [Declaration.operation?, own, exported, ordinary, noAlias]
  rfl

/-- A function without annotations has the inputs that it declares. -/
theorem annotated_add (own : d.annotations = []) :
    annotated "add" d = Operation.ofInputs "add" (declaredInputs d.params) := by
  rw [Declaration.annotations] at own
  rw [annotated, own]
  change Operation.ofInputs "add" (declaredInputs d.params) >>= _ = _
  cases checked : Operation.ofInputs "add" (declaredInputs d.params) with
  | error e => rfl
  | ok op =>
    obtain ⟨_, rfl⟩ := Operation.ofInputs_eq_ok_iff.1 checked
    rfl

/-- A function that says how many inputs it has has so many. -/
theorem annotated_add_arity {n : Nat} (few : n ≤ 3) (own : d.annotations = [.arity n]) :
    annotated "add" d =
      .ok { name := "add", inputs := resize n (declaredInputs d.params) } := by
  have count : checkCount "add" 0 n = .ok () := checkCount_eq_ok_iff.2 ⟨Nat.zero_le n, few⟩
  have checked : Operation.ofInputs "add" (resize n (declaredInputs d.params)) =
      .ok { name := "add", inputs := resize n (declaredInputs d.params) } :=
    Operation.ofInputs_eq_ok_iff.2 ⟨by rwa [length_resize], rfl⟩
  rw [Declaration.annotations] at own
  rw [annotated, own, List.foldlM_cons, applyAnnotation, count]
  change Operation.ofInputs "add" (resize n (declaredInputs d.params)) >>= _ = _
  rw [checked]
  rfl

/-- Catalogs that are read alike make the same operation of their only functions. -/
theorem ReadAlike.annotated_eq (alike : ReadAlike lines lines') (line : ∀ l ∈ lines, '\n' ∉ l)
    (line' : ∀ l ∈ lines', '\n' ∉ l) (own : declarations lines = [d])
    (own' : declarations lines' = [d']) (name : d.name = "Add".toList)
    (name' : d'.name = "Add".toList) : annotated "add" d = annotated "add" d' := by
  obtain ⟨cs, rfl⟩ := Text.exists_lines_eq line
  obtain ⟨cs', rfl⟩ := Text.exists_lines_eq line'
  have same := alike (String.ofList cs) (String.ofList cs') (by rw [String.toList_ofList])
    (by rw [String.toList_ofList])
  rw [extract_of_single (by rw [String.toList_ofList, own]) (operation?_add name),
    extract_of_single (by rw [String.toList_ofList, own']) (operation?_add name')] at same
  generalize annotated "add" d = x at same
  generalize annotated "add" d' = x' at same
  cases x <;> cases x' <;> cases same <;> rfl

/-- The operation of an only function is that of the first function in every catalog that is read
alike. -/
theorem ReadAlike.annotated_eq_ok (alike : ReadAlike lines lines') (line : ∀ l ∈ lines, '\n' ∉ l)
    (line' : ∀ l ∈ lines', '\n' ∉ l) (own : declarations lines = [d])
    (own' : declarations lines' = d' :: ds) (name : d.name = "Add".toList)
    (name' : d'.name = "Add".toList) (h : annotated "add" d = .ok op) :
    annotated "add" d' = .ok op := by
  obtain ⟨cs, rfl⟩ := Text.exists_lines_eq line
  obtain ⟨cs', rfl⟩ := Text.exists_lines_eq line'
  have same := alike (String.ofList cs) (String.ofList cs') (by rw [String.toList_ofList])
    (by rw [String.toList_ofList])
  rw [extract_of_single (by rw [String.toList_ofList, own]) (operation?_add name), h] at same
  have first := operation?_of_extract (by rw [String.toList_ofList, own']) same.symm (by
    rw [operation?_add name']
    cases annotated "add" d' <;> simp [Functor.map, Except.map])
  rw [operation?_add name'] at first
  obtain ⟨_, described, same⟩ := map_eq_ok_iff.1 first
  cases same
  exact described

end Catalog

end FheSolidity
