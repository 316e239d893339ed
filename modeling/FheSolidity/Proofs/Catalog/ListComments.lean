import FheSolidity.Proofs.Catalog.Alike
import FheSolidity.Proofs.Catalog.Parameters

/-!
# Comments in parameter lists

Reading takes comments off the code of a body, but not off a list of parameters: a comment on a line
of the list is read as part of it, with its words, its commas and its parentheses. Only behind the
parenthesis that closes the list it is a comment. So a comment that says nothing makes no difference
on the last line, and on a line above exactly if what is read of the list with it still ends where
the list ends and declares the same inputs: `list_comment_ignored_iff`.
-/

namespace FheSolidity.Catalog

open Text (joinWith)

/-- What the comment of a line says. -/
def annotation? (line : Line) : Option Annotation :=
  (splitComment line).2.bind Annotation.ofComment?

/-- Lines of a list that say nothing of the function and none of which ends its body. -/
structure IsQuiet (lines : List Line) : Prop where
  line : ∀ l ∈ lines, '\n' ∉ l
  quiet : ∀ l ∈ lines, annotation? l = none
  unclosed : closesBody ⟨0, false⟩ lines = false

variable {before after init init' earlier below : List Line} {line last start : Line}
  {c name tail text text' : List Char}

/-! ### What is read of a body -/

theorem foldl_afterLine_comment (code : ¬"//".toList <:+: line ++ ['/']) (b : Balance) :
    (before ++ (line ++ '/' :: '/' :: c) :: after).foldl Balance.afterLine b =
      (before ++ line :: after).foldl Balance.afterLine b := by
  rw [List.foldl_append, List.foldl_append, List.foldl_cons, List.foldl_cons,
    afterLine_slashes code]

theorem closesBody_comment (code : ¬"//".toList <:+: line ++ ['/']) (b : Balance) :
    closesBody b (before ++ (line ++ '/' :: '/' :: c) :: after) =
      closesBody b (before ++ line :: after) := by
  induction before generalizing b with
  | nil => rw [List.nil_append, List.nil_append, closesBody, closesBody, afterLine_slashes code]
  | cons first before ih => rw [List.cons_append, List.cons_append, closesBody, closesBody, ih]

/-- A comment that says nothing leaves the lines of a list quiet. -/
theorem IsQuiet.comment (h : IsQuiet (before ++ line :: after))
    (code : ¬"//".toList <:+: line ++ ['/']) (noFeed : '\n' ∉ c)
    (empty : Annotation.ofComment? c = none) :
    IsQuiet (before ++ (line ++ '/' :: '/' :: c) :: after) where
  line := by
    have others := h.line
    rw [List.forall_mem_append, List.forall_mem_cons] at others ⊢
    exact ⟨others.1, by simp [others.2.1, noFeed], others.2.2⟩
  quiet := by
    have others := h.quiet
    rw [List.forall_mem_append, List.forall_mem_cons] at others ⊢
    exact ⟨others.1, by rw [annotation?, splitComment_slashes code]; exact empty, others.2.2⟩
  unclosed := by rw [closesBody_comment code, h.unclosed]

/-- Quiet lines at the start of a body say nothing of the function. -/
theorem IsQuiet.annotations_functionIn (h : IsQuiet init) (above : List (List Char))
    (name : List Char) (rest : List Line) : (functionIn above name (init ++ rest)).annotations =
      above.reverse.filterMap Annotation.ofComment? ++
        (splitBody (init.foldl Balance.afterLine ⟨0, false⟩) rest).1.filterMap annotation? := by
  have nothing : init.filterMap annotation? = [] := List.filterMap_eq_nil_iff.2 h.quiet
  have own (lines : List Line) :
      (lines.filterMap fun l => (splitComment l).2).filterMap Annotation.ofComment? =
        lines.filterMap annotation? := List.filterMap_filterMap
  rw [Declaration.annotations, functionIn, List.filterMap_append, own,
    splitBody_append_of_open h.unclosed, List.filterMap_append, nothing, List.nil_append]

/-! ### Comments that make no difference -/

/-- Quiet lines with the same braces and with inputs that no annotations tell apart are alike. -/
theorem listsAlike_of_sameInputs (h : IsQuiet init) (h' : IsQuiet init')
    (balance : init.foldl Balance.afterLine ⟨0, false⟩ = init'.foldl Balance.afterLine ⟨0, false⟩)
    (closes : upToClose 1 (joinWith ' ' (init ++ [last]) ++ [')']) = (text, 0))
    (closes' : upToClose 1 (joinWith ' ' (init' ++ [last]) ++ [')']) = (text', 0))
    (same : SameInputs (declaredInputs text) (declaredInputs text')) :
    ListsAlike (init ++ [last]) (init' ++ [last]) := by
  intro earlier start name tail below whole starts
  have lines (init : List Line) : appendLast (init ++ [last]) (')' :: tail) ++ below =
      init ++ (last ++ ')' :: tail) :: below := by
    rw [appendLast_concat, List.append_assoc, List.singleton_append]
  have nonempty (init : List Line) : init ++ (last ++ ')' :: tail) :: below ≠ [] :=
    List.append_ne_nil_of_right_ne_nil init (List.cons_ne_nil _ _)
  rw [lines, lines]
  refine .of_function whole starts (nonempty init) (nonempty init') (fun above => ?_) ?_
  · refine Declaration.operation?_congr rfl ?_ ?_
    · rwa [params_functionIn closes, params_functionIn closes']
    · rw [h.annotations_functionIn, h'.annotations_functionIn, balance]
  · rw [splitBody_append_of_open h.unclosed, splitBody_append_of_open h'.unclosed, balance]

/-- Behind the parenthesis that closes the list, a comment that says nothing makes no difference. -/
theorem readAlike_comment_behind (h : IsQuiet init)
    (closes : upToClose 1 (joinWith ' ' (init ++ [last]) ++ [')']) = (text, 0))
    (empty : Annotation.ofComment? c = none) (whole : IsWhole earlier)
    (starts : opening? start = some (name, []))
    (code : ¬"//".toList <:+: (last ++ ')' :: tail) ++ ['/']) :
    ReadAlike (earlier ++ prepend start (init ++ (last ++ ')' :: tail) :: below))
      (earlier ++ prepend start (init ++ (last ++ ')' :: (tail ++ '/' :: '/' :: c)) :: below)) := by
  have longer : last ++ ')' :: (tail ++ '/' :: '/' :: c) =
      (last ++ ')' :: tail) ++ '/' :: '/' :: c := by simp
  have nothing : annotation? (last ++ ')' :: tail) =
      annotation? ((last ++ ')' :: tail) ++ '/' :: '/' :: c) := by
    have uncommented : ¬"//".toList <:+: last ++ ')' :: tail := fun h =>
      code (h.trans (List.infix_append [] _ ['/']))
    rw [annotation?, splitComment_eq_self_iff.2 uncommented, annotation?, splitComment_slashes code]
    exact empty.symm
  obtain ⟨annotations, rest⟩ := splitBody_congr annotation?
    (afterLine_slashes code c (init.foldl Balance.afterLine ⟨0, false⟩)).symm nothing below
  have nonempty (line : Line) : init ++ line :: below ≠ [] :=
    List.append_ne_nil_of_right_ne_nil init (List.cons_ne_nil _ _)
  refine .of_function whole starts (nonempty _) (nonempty _) (fun above => ?_) ?_
  · refine Declaration.operation?_congr rfl ?_ ?_
    · rw [params_functionIn closes, params_functionIn closes]
      exact .refl _
    · rw [h.annotations_functionIn, h.annotations_functionIn, longer, annotations]
  · rw [splitBody_append_of_open h.unclosed, splitBody_append_of_open h.unclosed, longer, rest]

/-! ### Comments that change the inputs -/

/-- A comment that says that there are three inputs. -/
def threeInputs : Line :=
  "// Arity: 3".toList

/-- Inputs that are the same in a function without annotations and in one with three inputs. -/
theorem SameInputs.of_ofInputs {inputs inputs' : List InputKind}
    (own : Operation.ofInputs "add" inputs = Operation.ofInputs "add" inputs')
    (three : resize 3 inputs = resize 3 inputs') : SameInputs inputs inputs' := by
  unfold Operation.ofInputs at own
  split at own
  · split at own
    · cases own
      exact .refl inputs
    · cases own
  · next many =>
    split at own
    · cases own
    · next many' =>
      have whole {inputs : List InputKind} (many : ¬inputs.length ≤ Operation.maxArity) :
          resize 3 inputs = inputs.take 3 := by
        have noMore : 3 - inputs.length = 0 := Nat.sub_eq_zero_of_le (Nat.le_of_not_le many)
        rw [resize, noMore, List.replicate_zero, List.append_nil]
      rw [whole many, whole many'] at three
      exact ⟨(CatalogError.invalidArity.inj (Except.error.inj own)).2, three⟩

/-- A function on quiet lines, with nothing below its list, is the only one. -/
theorem IsQuiet.declarationsFrom_eq (h : IsQuiet init) (above : List (List Char)) (last : Line) :
    declarationsFrom above (prepend addStart (init ++ [last])) =
      [functionIn above "Add".toList (init ++ [last])] := by
  rw [declarationsFrom_prepend opening?_addStart (by simp), splitBody_append_of_open h.unclosed,
    splitBody_singleton]
  simp only [declarationsFrom]

/-- Such a function says what stands above it. -/
theorem IsQuiet.annotations_eq (h : IsQuiet init) (uncommented : ¬"//".toList <:+: last)
    (above : List (List Char)) : (functionIn above "Add".toList (init ++ [last])).annotations =
      above.reverse.filterMap Annotation.ofComment? := by
  have nothing : annotation? last = none := by
    rw [annotation?, splitComment_eq_self_iff.2 uncommented]
    rfl
  rw [h.annotations_functionIn, splitBody_singleton, List.filterMap_cons_none nothing,
    List.filterMap_nil, List.append_nil]

/-- Lists that are alike declare inputs that no annotations tell apart, whatever is read behind
them. -/
theorem SameInputs.of_listsAlike (h : IsQuiet init) (h' : IsQuiet init')
    (uncommented : ¬"//".toList <:+: last ++ ')' :: tail) (noFeed : '\n' ∉ last ++ ')' :: tail)
    (alike : ListsAlike (init ++ [last]) (init' ++ [last])) :
    SameInputs (declaredInputs (functionIn [] "Add".toList (init ++ [last ++ ')' :: tail])).params)
      (declaredInputs (functionIn [] "Add".toList (init' ++ [last ++ ')' :: tail])).params) := by
  have lines (init : List Line) : appendLast (init ++ [last]) (')' :: tail) ++ [] =
      init ++ [last ++ ')' :: tail] := by
    rw [appendLast_concat, List.append_nil]
  have feeds {init : List Line} (h : IsQuiet init) :
      ∀ l ∈ prepend addStart (init ++ [last ++ ')' :: tail]), '\n' ∉ l := by
    refine not_mem_of_mem_prepend (by decide +kernel) ?_
    exact List.forall_mem_append.2 ⟨h.line, List.forall_mem_singleton.2 noFeed⟩
  have first := alike [] addStart _ tail [] .nil opening?_addStart
  have second := alike [threeInputs] addStart _ tail [] (.comment rfl .nil) opening?_addStart
  rw [lines, lines] at first second
  have own := first.annotated_eq (feeds h) (feeds h') (h.declarationsFrom_eq [] _)
    (h'.declarationsFrom_eq [] _) rfl rfl
  rw [annotated_add (h.annotations_eq uncommented []),
    annotated_add (h'.annotations_eq uncommented [])] at own
  have function {init : List Line} (h : IsQuiet init) :
      declarations ([threeInputs] ++ prepend addStart (init ++ [last ++ ')' :: tail])) =
        [functionIn [" Arity: 3".toList] "Add".toList (init ++ [last ++ ')' :: tail])] := by
    have comment : wholeComment? threeInputs = some " Arity: 3".toList := rfl
    rw [declarations, List.singleton_append, declarationsFrom, comment]
    exact h.declarationsFrom_eq _ _
  have feeds' {init : List Line} (h : IsQuiet init) :
      ∀ l ∈ [threeInputs] ++ prepend addStart (init ++ [last ++ ')' :: tail]), '\n' ∉ l :=
    List.forall_mem_cons.2 ⟨by decide +kernel, feeds h⟩
  have three := second.annotated_eq (feeds' h) (feeds' h') (function h) (function h') rfl rfl
  have arity : [" Arity: 3".toList].reverse.filterMap Annotation.ofComment? = [.arity 3] := by
    decide +kernel
  rw [annotated_add_arity (Nat.le_refl 3) ((h.annotations_eq uncommented _).trans arity),
    annotated_add_arity (Nat.le_refl 3) ((h'.annotations_eq uncommented _).trans arity)] at three
  exact .of_ofInputs own (congrArg Operation.inputs (Except.ok.inj three))

/-! ### Comments that keep the list open -/

/-- Parameters at the end of a list come last, and have no type for those in front but the first
of theirs. -/
theorem foldr_consParam_append (fs : List (List Char)) (ps : List Param)
    (type : Option (List Char)) : fs.foldr consParam (ps, type) =
      ((fs.foldr consParam ([], type)).1 ++ ps, (fs.foldr consParam ([], type)).2) := by
  induction fs with
  | nil => rfl
  | cons f fs ih =>
    rw [List.foldr_cons, List.foldr_cons, ih]
    unfold consParam
    split <;> rfl

/-- A list that goes on behind a comma has the inputs of the rest last. -/
theorem inputKinds_append_cons (cs : List Char) {ds : List Char} {ps : List Param}
    {type : Option (List Char)} (rest : (fields ds).foldr consParam ([], none) = (ps, type)) :
    inputKinds (cs ++ ',' :: ds) =
      ((fields cs).foldr consParam ([], type)).1.filterMap Param.input? ++
        ps.filterMap Param.input? := by
  rw [inputKinds_eq, params_eq, fields_append_cons, List.foldr_append, rest,
    foldr_consParam_append, List.filterMap_append]

/-- Of two lists that go on with one input and with two, the second has one input more. -/
theorem length_declaredInputs_append (cs : List Char) :
    (declaredInputs (cs ++ ",a []byte,b []byte".toList)).length =
      (declaredInputs (cs ++ ",a []byte".toList)).length + 1 := by
  let a : Param := ⟨"a".toList, "[]byte".toList⟩
  let b : Param := ⟨"b".toList, "[]byte".toList⟩
  let front := ((fields cs).foldr consParam ([], some "[]byte".toList)).1.filterMap Param.input?
  have one : (fields "a []byte".toList).foldr consParam ([], none) =
      ([a], some "[]byte".toList) := by decide +kernel
  have two : (fields "a []byte,b []byte".toList).foldr consParam ([], none) =
      ([a, b], some "[]byte".toList) := by decide +kernel
  have first : inputKinds (cs ++ ",a []byte".toList) = front ++ [.encrypted] :=
    inputKinds_append_cons cs one
  have second : inputKinds (cs ++ ",a []byte,b []byte".toList) =
      front ++ [.encrypted, .encrypted] := inputKinds_append_cons cs two
  have own {params : List Char} {kinds : List InputKind} (h : inputKinds params = kinds)
      (some' : kinds ≠ []) : declaredInputs params = kinds := by
    rw [declaredInputs, h]
    split
    · exact absurd rfl some'
    · rfl
  rw [own first (by simp), own second (by simp), List.length_append, List.length_append]
  rfl

/-- A list that is still open behind its parenthesis is not alike with any that is closed. -/
theorem closes_of_listsAlike (h : IsQuiet init) (h' : IsQuiet init')
    (uncommented : ¬"//".toList <:+: last) (noFeed : '\n' ∉ last)
    (closes : upToClose 1 (joinWith ' ' (init ++ [last]) ++ [')']) = (text, 0))
    (alike : ListsAlike (init ++ [last]) (init' ++ [last])) :
    (upToClose 1 (joinWith ' ' (init' ++ [last]) ++ [')'])).2 = 0 := by
  by_contra unclosed
  have inputs (tail : List Char) (noSlash : '/' ∉ tail) (noFeed' : '\n' ∉ tail)
      (opening : '(' ∉ tail) (closing : ')' ∉ tail) :
      SameInputs (declaredInputs text)
        (declaredInputs ((joinWith ' ' (init' ++ [last]) ++ [')']) ++ tail)) := by
    have code : ¬"//".toList <:+: last ++ ')' :: tail := by
      rw [← splitComment_eq_self_iff, splitComment_append_cons (by decide) uncommented,
        splitComment_of_slash_not_mem noSlash]
    have feeds : '\n' ∉ last ++ ')' :: tail := by simp [noFeed, noFeed']
    have same := SameInputs.of_listsAlike h h' code feeds alike
    -- What is open is read to the end of the catalog.
    have still : (upToClose 1 ((joinWith ' ' (init' ++ [last]) ++ [')']) ++ tail)).2 ≠ 0 := by
      rwa [depth_append, depth_of_not_mem opening closing]
    have list : joinWith ' ' (init' ++ [last ++ ')' :: tail]) =
        joinWith ' ' (init' ++ [last]) ++ [')'] ++ tail := by
      rw [Text.joinWith_concat_append, List.append_assoc, List.singleton_append]
    have whole : (functionIn [] "Add".toList (init' ++ [last ++ ')' :: tail])).params =
        joinWith ' ' (init' ++ [last]) ++ [')'] ++ tail := by
      rw [functionIn, list, upToClose_of_open still]
    rwa [params_functionIn closes, whole] at same
  have one := inputs ",a []byte".toList (by decide) (by decide) (by decide) (by decide)
  have two := inputs ",a []byte,b []byte".toList (by decide) (by decide) (by decide) (by decide)
  have more := length_declaredInputs_append (joinWith ' ' (init' ++ [last]) ++ [')'])
  have same := one.length_eq.symm.trans two.length_eq
  omega

/-! ### What a comment in a list can change -/

/-- **Comments in lists.** Take a list over several lines with a comment that says nothing. On a
line above the last, the list is read as without the comment in every function exactly if what is
read of it with the comment is complete at the parenthesis behind the list and declares inputs that
no annotations tell apart from those without. Behind that parenthesis, the comment makes no
difference to any function. -/
theorem list_comment_ignored_iff (h : IsQuiet (before ++ line :: after))
    (closes : upToClose 1 (joinWith ' ' (before ++ line :: after ++ [last]) ++ [')']) = (text, 0))
    (code : ¬"//".toList <:+: line ++ ['/']) (code' : ¬"//".toList <:+: last)
    (noFeed : '\n' ∉ last) (noFeed' : '\n' ∉ c) (empty : Annotation.ofComment? c = none) :
    (ListsAlike (before ++ line :: after ++ [last])
        (before ++ (line ++ '/' :: '/' :: c) :: after ++ [last]) ↔
      ∃ text', upToClose 1 (joinWith ' ' (before ++ (line ++ '/' :: '/' :: c) :: after ++ [last]) ++
          [')']) = (text', 0) ∧ SameInputs (declaredInputs text) (declaredInputs text')) ∧
    ∀ (earlier : List Line) (start : Line) (name tail : List Char) (below : List Line),
      IsWhole earlier → opening? start = some (name, []) →
      ¬"//".toList <:+: (last ++ ')' :: tail) ++ ['/'] →
      ReadAlike
        (earlier ++ prepend start (before ++ line :: after ++ (last ++ ')' :: tail) :: below))
        (earlier ++ prepend start
          (before ++ line :: after ++ (last ++ ')' :: (tail ++ '/' :: '/' :: c)) :: below)) := by
  have h' := h.comment code noFeed' empty
  refine ⟨⟨fun alike => ?_, ?_⟩, fun earlier start name tail below whole starts code =>
    readAlike_comment_behind h closes empty whole starts code⟩
  · have closed := closes_of_listsAlike h h' code' noFeed closes alike
    have closes' :
        upToClose 1 (joinWith ' ' (before ++ (line ++ '/' :: '/' :: c) :: after ++ [last]) ++
          [')']) = (_, 0) := Prod.ext rfl closed
    have behind : ¬"//".toList <:+: last ++ [')'] := by
      rw [← splitComment_eq_self_iff, splitComment_append_cons (by decide) code']
      rfl
    have same := SameInputs.of_listsAlike h h' behind (by simp [noFeed]) alike
    rw [params_functionIn closes, params_functionIn closes'] at same
    exact ⟨_, closes', same⟩
  · rintro ⟨text', closes', same⟩
    exact listsAlike_of_sameInputs h h' (foldl_afterLine_comment code ⟨0, false⟩).symm closes
      closes' same

/-- A comment behind the last parameter is as good as none. -/
theorem list_comment_ignored_iff_rhs :
    let before := ["", "\tlhs []byte,"].map String.toList
    let line := "\trhs []byte,".toList
    let c := " right operand".toList
    let text := " \tlhs []byte, \trhs []byte, ".toList
    IsQuiet (before ++ [line]) ∧
      upToClose 1 (joinWith ' ' (before ++ [line] ++ [[]]) ++ [')']) = (text, 0) ∧
      ¬"//".toList <:+: line ++ ['/'] ∧ ¬"//".toList <:+: ([] : Line) ∧ '\n' ∉ ([] : Line) ∧
      '\n' ∉ c ∧ Annotation.ofComment? c = none ∧
      ListsAlike (before ++ [line] ++ [[]]) (before ++ [line ++ '/' :: '/' :: c] ++ [[]]) := by
  intro before line c text
  have quiet : IsQuiet (before ++ [line]) :=
    ⟨by decide +kernel, by decide +kernel, by decide +kernel⟩
  have closes : upToClose 1 (joinWith ' ' (before ++ [line] ++ [[]]) ++ [')']) = (text, 0) := by
    decide +kernel
  have code : ¬"//".toList <:+: line ++ ['/'] := by decide +kernel
  have empty : Annotation.ofComment? c = none := by decide +kernel
  have noFeed : '\n' ∉ c := by decide +kernel
  have ignored := list_comment_ignored_iff quiet closes code (by decide) (by decide) noFeed empty
  refine ⟨quiet, closes, code, by decide, by decide, noFeed, empty,
    ignored.1.2 ⟨_, Prod.ext rfl ?_, ?_⟩⟩
  · decide +kernel
  · exact ⟨by decide +kernel, by decide +kernel⟩

/-- A comment behind a parameter takes the place of the next one. -/
theorem list_comment_drops_input :
    let plain := "func Max(\n\tlhs []byte,\n\trhs []byte,\n) ([]byte, error) \x7b\n\x7d\n"
    let commented := "func Max(\n\tlhs []byte, // left operand\n\trhs []byte,\n) " ++
      "([]byte, error) \x7b\n\x7d\n"
    Annotation.ofComment? " left operand".toList = none ∧
      extract plain = .ok [{ name := "max", inputs := [.encrypted, .encrypted] }] ∧
      extract commented = .ok [{ name := "max", inputs := [.encrypted] }] := by
  decide +kernel

end FheSolidity.Catalog
