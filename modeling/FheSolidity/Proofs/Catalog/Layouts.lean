import FheSolidity.Proofs.Catalog.Alike
import FheSolidity.Proofs.Catalog.Parameters

/-!
# Layouts of parameter lists

A list of parameters may be broken over several lines: behind the parenthesis that opens it, behind
commas, and in front of the parenthesis that closes it, with a comma behind the last parameter
(`IsLayout`). All layouts of a list declare the same inputs. What can tell them apart is the body: a
type such as `interface{}` has braces, and where a line ends behind braces that close each other,
the body of the function is taken to end with that line. Without such a line a layout is as good as
the list on one line, and with one there is a function that loses its annotations:
`layout_ignored_iff`.
-/

namespace FheSolidity.Catalog

open Text (joinWith)
open Unicode (isBlank)

/-! ### Lists on several lines -/

/-- Whether a line of a list can end behind a text: in front of the first parameter or behind a
comma. -/
def EndsParameter (cs : List Char) : Prop :=
  ∃ ds bs, (∀ c ∈ bs, isBlank c = true) ∧ (cs = bs ∨ cs = ds ++ ',' :: bs)

/-- The lines that a list on one line can be broken into. Where a line ends, the white space of the
list gives way to that in front of the next line. -/
inductive IsLayout : List Char → List Line → Prop where
  | whole (text : List Char) : IsLayout text [text]
  | lastComma {text indent : List Char} (blank : ∀ c ∈ indent, isBlank c = true) :
      IsLayout text [text ++ [','], indent]
  | break {cs gap indent rest : List Char} {lines : List Line} (place : EndsParameter cs)
      (blank : ∀ c ∈ gap, isBlank c = true) (blank' : ∀ c ∈ indent, isBlank c = true)
      (later : IsLayout rest lines) : IsLayout (cs ++ (gap ++ rest)) (cs :: prepend indent lines)

variable {text cs bs : List Char} {lines init : List Line} {last : Line} {b : Balance}

theorem prepend_ne_nil (start : Line) (lines : List Line) : prepend start lines ≠ [] := by
  cases lines <;> simp [prepend]

theorem IsLayout.ne_nil (h : IsLayout text lines) : lines ≠ [] := by
  cases h <;> simp

theorem joinWith_cons_of_ne_nil (nonempty : lines ≠ []) (sep : Char) (line : Line) :
    joinWith sep (line :: lines) = line ++ sep :: joinWith sep lines := by
  cases lines with
  | nil => exact absurd rfl nonempty
  | cons line' lines => rfl

theorem not_mem_of_blank {x : Char} (solid : isBlank x = false) (h : ∀ c ∈ bs, isBlank c = true) :
    x ∉ bs := fun mem =>
  Bool.false_ne_true (solid.symm.trans (h x mem))

/-! ### The parameters -/

theorem EndsParameter.fields_append (place : EndsParameter cs) (more : List Char) :
    fields (cs ++ more) = fields cs ++ fields more := by
  obtain ⟨ds, bs, blank, rfl | rfl⟩ := place
  · rw [fields_append_of_blank blank, fields_of_blank blank, List.nil_append]
  · rw [List.append_assoc, List.cons_append, fields_append_cons, fields_append_cons,
      fields_append_of_blank blank, fields_of_blank blank, List.append_nil]

/-- Every layout has the parameters of the list. -/
theorem IsLayout.fields_eq (h : IsLayout text lines) :
    fields (joinWith ' ' lines) = fields text := by
  induction h with
  | whole => rfl
  | @lastComma text indent blank =>
    have list : joinWith ' ' [text ++ [','], indent] = text ++ ',' :: ([' '] ++ indent) := by
      simp [joinWith]
    rw [list, fields_append_cons, fields_append_of_blank blank_space, fields_of_blank blank,
      List.append_nil]
  | @«break» cs gap indent rest lines place blank blank' later ih =>
    rw [joinWith_cons_of_ne_nil (prepend_ne_nil _ _), joinWith_prepend later.ne_nil,
      ← List.singleton_append, place.fields_append, place.fields_append,
      fields_append_of_blank blank_space, fields_append_of_blank blank',
      fields_append_of_blank blank, ih]

theorem declaredInputs_congr {params params' : List Char} (same : fields params = fields params') :
    declaredInputs params = declaredInputs params' := by
  rw [declaredInputs, declaredInputs, inputKinds_eq, inputKinds_eq, params_eq, params_eq, same]

theorem depth_of_blank (blank : ∀ c ∈ bs, isBlank c = true) (depth : Nat) :
    (upToClose depth bs).2 = depth := by
  refine depth_of_not_mem ?_ ?_ depth
  · exact not_mem_of_blank (by decide) blank
  · exact not_mem_of_blank (by decide) blank

/-- Every layout has the parentheses of the list. -/
theorem IsLayout.depth_eq (h : IsLayout text lines) (depth : Nat) :
    (upToClose depth (joinWith ' ' lines)).2 = (upToClose depth text).2 := by
  have space (depth : Nat) : (upToClose depth [' ']).2 = depth := depth_of_blank blank_space depth
  induction h generalizing depth with
  | whole => rfl
  | @lastComma text indent blank =>
    have list : joinWith ' ' [text ++ [','], indent] = text ++ ([','] ++ ([' '] ++ indent)) := by
      simp [joinWith]
    have comma (depth : Nat) : (upToClose depth [',']).2 = depth := by cases depth <;> rfl
    rw [list, depth_append, depth_append, depth_append, comma, space, depth_of_blank blank]
  | @«break» cs gap indent rest lines place blank blank' later ih =>
    rw [joinWith_cons_of_ne_nil (prepend_ne_nil _ _), joinWith_prepend later.ne_nil,
      ← List.singleton_append, depth_append, depth_append, depth_append, depth_append, depth_append,
      space, depth_of_blank blank, depth_of_blank blank', ih]

/-! ### The braces -/

theorem braceless_of_blank (blank : ∀ c ∈ bs, isBlank c = true) : ∀ c ∈ bs, c ≠ '{' ∧ c ≠ '}' := by
  refine fun c hc => ⟨?_, ?_⟩ <;> rintro rfl
  · exact not_mem_of_blank (by decide) blank hc
  · exact not_mem_of_blank (by decide) blank hc

theorem noSlash_of_blank (blank : ∀ c ∈ bs, isBlank c = true) : '/' ∉ bs :=
  not_mem_of_blank (by decide) blank

/-- A layout of a list without a comment has none. -/
theorem IsLayout.splitComment_eq (h : IsLayout text lines) (uncommented : ¬"//".toList <:+: text) :
    ∀ line ∈ lines, splitComment line = (line, none) := by
  induction h with
  | whole => exact List.forall_mem_singleton.2 (splitComment_eq_self_iff.2 uncommented)
  | @lastComma text indent blank =>
    refine List.forall_mem_cons.2 ⟨?_, List.forall_mem_singleton.2 ?_⟩
    · rw [splitComment_append_cons (by decide) uncommented]
      rfl
    · exact splitComment_of_slash_not_mem (noSlash_of_blank blank)
  | @«break» cs gap indent rest lines place blank blank' later ih =>
    have first : ¬"//".toList <:+: cs := fun h => uncommented (h.trans (List.infix_append' [] cs _))
    have others : ¬"//".toList <:+: rest := fun h => by
      refine uncommented (h.trans (List.IsSuffix.isInfix ?_))
      exact (List.suffix_append gap rest).trans (List.suffix_append cs _)
    have code := ih others
    refine List.forall_mem_cons.2 ⟨splitComment_eq_self_iff.2 first, ?_⟩
    cases lines with
    | nil => exact absurd rfl later.ne_nil
    | cons line lines =>
      obtain ⟨own, below⟩ := List.forall_mem_cons.1 code
      refine List.forall_mem_cons.2 ⟨?_, below⟩
      rw [splitComment_append_of_slash_not_mem (noSlash_of_blank blank'), own]

theorem foldl_afterLine_prepend {start : Line} (noSlash : '/' ∉ start)
    (braceless : ∀ c ∈ start, c ≠ '{' ∧ c ≠ '}') (nonempty : lines ≠ []) (b : Balance) :
    (prepend start lines).foldl Balance.afterLine b = lines.foldl Balance.afterLine b := by
  cases lines with
  | nil => exact absurd rfl nonempty
  | cons line lines =>
    rw [prepend, List.foldl_cons, List.foldl_cons, afterLine_append_of_braceless noSlash braceless]

/-- Every layout has the braces of the list. -/
theorem IsLayout.foldl_afterLine (h : IsLayout text lines) (uncommented : ¬"//".toList <:+: text)
    (b : Balance) : lines.foldl Balance.afterLine b = text.foldl Balance.step b := by
  induction h generalizing b with
  | whole => exact afterLine_of_uncommented uncommented b
  | @lastComma text indent blank =>
    have comma : splitComment (text ++ [',']) = (text ++ [','], none) := by
      rw [splitComment_append_cons (by decide) uncommented]
      rfl
    have nothing : splitComment indent = (indent, none) :=
      splitComment_of_slash_not_mem (noSlash_of_blank blank)
    rw [List.foldl_cons, List.foldl_cons, List.foldl_nil, Balance.afterLine, Balance.afterLine,
      comma, nothing, List.foldl_append, foldl_step_of_braceless (braceless_of_blank blank)]
    exact foldl_step_of_braceless (List.forall_mem_singleton.2 (by decide)) _
  | @«break» cs gap indent rest lines place blank blank' later ih =>
    have first : ¬"//".toList <:+: cs := fun h => uncommented (h.trans (List.infix_append' [] cs _))
    have others : ¬"//".toList <:+: rest := fun h => by
      refine uncommented (h.trans (List.IsSuffix.isInfix ?_))
      exact (List.suffix_append gap rest).trans (List.suffix_append cs _)
    rw [List.foldl_cons, foldl_afterLine_prepend (noSlash_of_blank blank')
      (braceless_of_blank blank') later.ne_nil, ih others, afterLine_of_uncommented first,
      List.foldl_append, List.foldl_append, foldl_step_of_braceless (braceless_of_blank blank)]

/-! ### Layouts without a line that ends the body -/

/-- Lines without a comment. -/
theorem filterMap_comments_eq_nil {ls : List Line} (h : ∀ l ∈ ls, splitComment l = (l, none)) :
    ls.filterMap (fun l => (splitComment l).2) = [] :=
  List.filterMap_eq_nil_iff.2 fun l hl => congrArg Prod.snd (h l hl)

/-- A layout of which no line ends the body has the body of the list. -/
theorem IsLayout.splitBody_eq (h : IsLayout text (init ++ [last]))
    (uncommented : ¬"//".toList <:+: text) (unclosed : closesBody ⟨0, false⟩ init = false)
    (tail : List Char) (below : List Line) :
    (splitBody ⟨0, false⟩ ((text ++ ')' :: tail) :: below)).1.filterMap
          (fun l => (splitComment l).2) =
        (splitBody ⟨0, false⟩ (init ++ (last ++ ')' :: tail) :: below)).1.filterMap
          (fun l => (splitComment l).2) ∧
      (splitBody ⟨0, false⟩ ((text ++ ')' :: tail) :: below)).2 =
        (splitBody ⟨0, false⟩ (init ++ (last ++ ')' :: tail) :: below)).2 := by
  obtain ⟨others, own⟩ := List.forall_mem_append.1 (h.splitComment_eq uncommented)
  have uncommented' : ¬"//".toList <:+: last :=
    splitComment_eq_self_iff.1 (own last List.mem_cons_self)
  have behind {line : Line} (code : ¬"//".toList <:+: line) :
      splitComment (line ++ ')' :: tail) =
        (line ++ ')' :: (splitComment tail).1, (splitComment tail).2) :=
    splitComment_append_cons (by decide) code tail
  have balance : Balance.afterLine ⟨0, false⟩ (text ++ ')' :: tail) =
      (init.foldl Balance.afterLine ⟨0, false⟩).afterLine (last ++ ')' :: tail) := by
    have same := h.foldl_afterLine uncommented ⟨0, false⟩
    rw [List.foldl_append, List.foldl_cons, List.foldl_nil,
      afterLine_of_uncommented uncommented'] at same
    rw [Balance.afterLine, Balance.afterLine, behind uncommented, behind uncommented',
      List.foldl_append, List.foldl_append, same]
  obtain ⟨comments, rest⟩ := splitBody_congr (fun l => (splitComment l).2) balance
    (by rw [behind uncommented, behind uncommented']) below
  rw [splitBody_append_of_open unclosed, List.filterMap_append, filterMap_comments_eq_nil others,
    List.nil_append]
  exact ⟨comments, rest⟩

theorem IsLayout.declaredInputs_eq (h : IsLayout text (init ++ [last]))
    (matched : (upToClose 1 text).2 = 1) (above : List (List Char)) (name tail : List Char)
    (below : List Line) :
    declaredInputs (functionIn above name ((text ++ ')' :: tail) :: below)).params =
      declaredInputs (functionIn above name (init ++ (last ++ ')' :: tail) :: below)).params := by
  have closes : upToClose 1 (joinWith ' ' ([] ++ [text]) ++ [')']) = (text, 0) :=
    upToClose_of_matched matched
  have closes' := upToClose_of_matched ((h.depth_eq 1).trans matched)
  have whole := params_functionIn closes above name tail below
  rw [List.nil_append] at whole
  rw [whole, params_functionIn closes' above name tail below]
  exact declaredInputs_congr h.fields_eq.symm

theorem IsLayout.listsAlike (h : IsLayout text (init ++ [last]))
    (matched : (upToClose 1 text).2 = 1) (uncommented : ¬"//".toList <:+: text)
    (unclosed : closesBody ⟨0, false⟩ init = false) : ListsAlike [text] (init ++ [last]) := by
  intro earlier start name tail below whole starts
  have single : appendLast [text] (')' :: tail) = [text ++ ')' :: tail] :=
    appendLast_concat [] text (')' :: tail)
  have lines : appendLast (init ++ [last]) (')' :: tail) ++ below =
      init ++ (last ++ ')' :: tail) :: below := by
    rw [appendLast_concat, List.append_assoc, List.singleton_append]
  rw [single, lines, List.singleton_append]
  obtain ⟨comments, rest⟩ := h.splitBody_eq uncommented unclosed tail below
  refine .of_function whole starts (List.cons_ne_nil _ _)
    (List.append_ne_nil_of_right_ne_nil init (List.cons_ne_nil _ _)) (fun above => ?_) rest
  have inputs := h.declaredInputs_eq matched above name tail below
  refine Declaration.operation?_congr rfl (inputs ▸ .refl _) ?_
  simp only [Declaration.annotations, functionIn, comments]

/-! ### A line that ends the body -/

/-- A comment that says that there are no inputs. -/
def noInputs : Line :=
  "// Arity: 0".toList

theorem declaredInputs_ne_nil (params : List Char) : declaredInputs params ≠ [] := by
  unfold declaredInputs
  split
  · exact List.cons_ne_nil _ _
  · next some' => exact some'

/-- Behind the list on one line a body can be opened that takes in the comment below. -/
theorem exists_open_body (uncommented : ¬"//".toList <:+: text) :
    ∃ tail, '\n' ∉ tail ∧ (splitBody ⟨0, false⟩ [text ++ ')' :: tail, noInputs]).2 = [] ∧
      annotated "add" (functionIn [] "Add".toList [text ++ ')' :: tail, noInputs]) =
        .ok { name := "add", inputs := [] } := by
  have without {x : Char} (opening : x ≠ '{') (closing : x ≠ '}') :
      x ∉ braces (1 - braceSurplus text) := by
    simp [braces, List.mem_replicate, opening, closing]
  refine ⟨braces (1 - braceSurplus text), without (by decide) (by decide), ?_⟩
  have code : splitComment (text ++ ')' :: braces (1 - braceSurplus text)) =
      (text ++ ')' :: braces (1 - braceSurplus text), none) := by
    have noSlash : '/' ∉ braces (1 - braceSurplus text) := without (by decide) (by decide)
    rw [splitComment_append_cons (by decide) uncommented, splitComment_of_slash_not_mem noSlash]
  have comment : splitComment noInputs = ([], some " Arity: 0".toList) := rfl
  have surplus : braceSurplus (text ++ ')' :: braces (1 - braceSurplus text)) = 1 := by
    have parenthesis : braceSurplus [')'] = 0 := by decide
    rw [braceSurplus_append, braceSurplus_cons, braceSurplus_braces, parenthesis]
    omega
  have balance (b : Balance) : b.afterLine noInputs = b := by
    rw [Balance.afterLine, comment, List.foldl_nil]
  have opened : closesBody ⟨0, false⟩
      [text ++ ')' :: braces (1 - braceSurplus text), noInputs] = false := by
    rw [closesBody, Balance.afterLine, code, foldl_step, surplus, closesBody, closesBody, balance]
    simp [Balance.isClosed]
  have body := splitBody_append_of_open opened []
  rw [List.append_nil, splitBody, List.append_nil] at body
  refine ⟨congrArg Prod.snd body, ?_⟩
  have none (inputs : List InputKind) : resize 0 inputs = [] :=
    List.eq_nil_of_length_eq_zero (length_resize 0 inputs)
  rw [annotated_add_arity (Nat.zero_le 3), none]
  simp only [Declaration.annotations, functionIn, body, List.filterMap_cons, code, comment]
  decide +kernel

/-- The function of a layout with a line that ends the body has no annotations. -/
theorem IsLayout.annotations_eq_nil (h : IsLayout text (init ++ [last]))
    (uncommented : ¬"//".toList <:+: text) (closes : closesBody ⟨0, false⟩ init = true)
    (name : List Char) (more : List Line) :
    (functionIn [] name (init ++ more)).annotations = [] := by
  have inside : ∀ l ∈ (splitBody ⟨0, false⟩ init).1, splitComment l = (l, none) := fun l hl => by
    refine h.splitComment_eq uncommented l (List.mem_append_left _ ?_)
    rw [← splitBody_append ⟨0, false⟩ init]
    exact List.mem_append_left _ hl
  simp only [Declaration.annotations, functionIn, splitBody_append_of_closes closes more]
  rw [filterMap_comments_eq_nil inside]
  rfl

/-- With a line that ends the body, there is a function that loses the comment below its list. -/
theorem IsLayout.closesBody_eq_false (h : IsLayout text (init ++ [last]))
    (uncommented : ¬"//".toList <:+: text) (line : '\n' ∉ text)
    (line' : ∀ l ∈ init ++ [last], '\n' ∉ l) (alike : ListsAlike [text] (init ++ [last])) :
    closesBody ⟨0, false⟩ init = false := by
  by_contra closes
  rw [Bool.not_eq_false] at closes
  obtain ⟨tail, noFeed, body, read⟩ := exists_open_body uncommented
  have same := alike [] addStart _ tail [noInputs] .nil opening?_addStart
  have single : appendLast [text] (')' :: tail) ++ [noInputs] = [text ++ ')' :: tail, noInputs] :=
    rfl
  have lines : appendLast (init ++ [last]) (')' :: tail) ++ [noInputs] =
      init ++ [last ++ ')' :: tail, noInputs] := by
    rw [appendLast_concat, List.append_assoc, List.singleton_append]
  rw [single, lines, List.nil_append, List.nil_append] at same
  -- On one line the function has no inputs, as its comment says.
  have function := declarationsFrom_prepend opening?_addStart
    (List.cons_ne_nil (text ++ ')' :: tail) [noInputs]) []
  rw [body, declarationsFrom] at function
  -- In the layout it has no comment, and the inputs of its list.
  have function' := declarationsFrom_prepend opening?_addStart
    (List.append_ne_nil_of_right_ne_nil init (List.cons_ne_nil (last ++ ')' :: tail) [noInputs])) []
  have none := h.annotations_eq_nil uncommented closes "Add".toList [last ++ ')' :: tail, noInputs]
  have noFeed' : '\n' ∉ addStart := by decide +kernel
  have feeds {cs : List Char} (h : '\n' ∉ cs) : '\n' ∉ cs ++ ')' :: tail := by simp [h, noFeed]
  have below : '\n' ∉ noInputs := by decide +kernel
  rw [List.forall_mem_append, List.forall_mem_singleton] at line'
  have lines₁ : ∀ l ∈ [text ++ ')' :: tail, noInputs], '\n' ∉ l :=
    List.forall_mem_cons.2 ⟨feeds line, List.forall_mem_singleton.2 below⟩
  have lines₂ : ∀ l ∈ init ++ [last ++ ')' :: tail, noInputs], '\n' ∉ l :=
    List.forall_mem_append.2 ⟨line'.1,
      List.forall_mem_cons.2 ⟨feeds line'.2, List.forall_mem_singleton.2 below⟩⟩
  have read' := same.annotated_eq_ok (not_mem_of_mem_prepend noFeed' lines₁)
    (not_mem_of_mem_prepend noFeed' lines₂) function function' rfl rfl read
  rw [annotated_add none, Operation.ofInputs_eq_ok_iff] at read'
  exact declaredInputs_ne_nil _ (congrArg Operation.inputs read'.2).symm

/-! ### What a layout can change -/

/-- **Layouts.** A layout of a list of parameters without comments is read as the list on one line
in every function exactly if none of its lines but the last ends the body, as a line does that ends
behind braces that close each other. -/
theorem layout_ignored_iff (h : IsLayout text lines) (matched : (upToClose 1 text).2 = 1)
    (uncommented : ¬"//".toList <:+: text) (line : '\n' ∉ text) (line' : ∀ l ∈ lines, '\n' ∉ l) :
    ListsAlike [text] lines ↔ closesBody ⟨0, false⟩ lines.dropLast = false := by
  obtain ⟨init, last, rfl⟩ : ∃ init last, lines = init ++ [last] :=
    ⟨_, _, (List.dropLast_concat_getLast h.ne_nil).symm⟩
  rw [List.dropLast_concat]
  exact ⟨h.closesBody_eq_false uncommented line line', h.listsAlike matched uncommented⟩

/-- A list without braces, broken at every place. -/
theorem layout_ignored_iff_lhs_rhs :
    let text := "lhs, rhs []byte, f func(int)".toList
    let lines := ["", "\tlhs,", "\trhs []byte,", "\tf func(int),", ""].map String.toList
    IsLayout text lines ∧ (upToClose 1 text).2 = 1 ∧ ¬"//".toList <:+: text ∧ '\n' ∉ text ∧
      (∀ l ∈ lines, '\n' ∉ l) ∧ closesBody ⟨0, false⟩ lines.dropLast = false ∧
      ListsAlike [text] lines := by
  intro text lines
  have layout : IsLayout text lines := by
    have nothing : ∀ c ∈ [], isBlank c = true := List.forall_mem_nil _
    have comma (ds : List Char) : EndsParameter (ds ++ [',']) := ⟨ds, [], nothing, .inr rfl⟩
    have first : EndsParameter [] := ⟨[], [], nothing, .inl rfl⟩
    have f : IsLayout "f func(int)".toList ["f func(int),".toList, []] := .lastComma nothing
    have rhs := IsLayout.break (comma "rhs []byte".toList) blank_space blank_tab f
    have lhs := IsLayout.break (comma "lhs".toList) blank_space blank_tab rhs
    exact .break first nothing blank_tab lhs
  have matched : (upToClose 1 text).2 = 1 := by decide +kernel
  have uncommented : ¬"//".toList <:+: text := by decide +kernel
  have line : '\n' ∉ text := by decide +kernel
  have line' : ∀ l ∈ lines, '\n' ∉ l := by decide +kernel
  have unclosed : closesBody ⟨0, false⟩ lines.dropLast = false := by decide +kernel
  exact ⟨layout, matched, uncommented, line, line', unclosed,
    (layout_ignored_iff layout matched uncommented line line').2 unclosed⟩

/-- Behind `interface{},` at the end of a line the annotation of the body is lost. -/
theorem layout_loses_annotation :
    let oneLine := "func Dec(data interface\x7b\x7d, value []byte) ([]byte, error) \x7b\n" ++
      "\t// Plaintext output\n\x7d\n"
    let broken := "func Dec(\n\tdata interface\x7b\x7d,\n\tvalue []byte,\n) ([]byte, error) " ++
      "\x7b\n\t// Plaintext output\n\x7d\n"
    IsLayout "data interface\x7b\x7d, value []byte".toList
        (["", "\tdata interface\x7b\x7d,", "\tvalue []byte,", ""].map String.toList) ∧
      extract oneLine =
        .ok [{ name := "dec", inputs := [.encrypted], returns := .plain }] ∧
      extract broken = .ok [{ name := "dec", inputs := [.encrypted] }] := by
  intro oneLine broken
  have nothing : ∀ c ∈ [], isBlank c = true := List.forall_mem_nil _
  have comma (ds : List Char) : EndsParameter (ds ++ [',']) := ⟨ds, [], nothing, .inr rfl⟩
  have value : IsLayout "value []byte".toList ["value []byte,".toList, []] := .lastComma nothing
  have data := IsLayout.break (comma "data interface\x7b\x7d".toList) blank_space blank_tab value
  refine ⟨.break ⟨[], [], nothing, .inl rfl⟩ nothing blank_tab data, ?_, ?_⟩
  · decide +kernel
  · decide +kernel

end FheSolidity.Catalog
