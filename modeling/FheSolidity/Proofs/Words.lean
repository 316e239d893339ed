import FheSolidity.Proofs.Selectors
import FheSolidity.Solidity.Stmt

/-!
# Words of generated code

The words of a text are its longest runs of characters that may stand in names: names, keywords and
numbers. Between the texts that the syntax of generated code holds, only other characters are
printed, so the words of the printed code are those of its texts, in their order
(`Stmt.words_renderBlock`). Where a name is mentioned in the code is then told by the syntax.
-/

namespace FheSolidity.Solidity

/-- The longest runs of characters that may stand in names. -/
def runs (cs : List Char) : List (List Char) :=
  (cs.splitOnP fun c => !isNameChar c).filter (· ≠ [])

/-- The words of a text, in their order. -/
def words (text : String) : List String :=
  (runs text.toList).map String.ofList

/-- A text between words: not empty, and without a character that may stand in a name. -/
def IsGap (gap : String) : Prop :=
  gap.toList ≠ [] ∧ ∀ c ∈ gap.toList, isNameChar c = false

instance {gap : String} : Decidable (IsGap gap) :=
  decidable_of_iff (gap.toList ≠ [] ∧ gap.toList.all (fun c => !isNameChar c) = true) (by
    simp only [IsGap, List.all_eq_true, Bool.not_eq_true'])

theorem runs_append_cons {c : Char} (hc : isNameChar c = false) (cs ds : List Char) :
    runs (cs ++ c :: ds) = runs cs ++ runs ds := by
  rw [runs, List.splitOnP_append_cons cs ds (by rw [hc]; rfl), List.filter_append]
  rfl

theorem runs_gap_append {gap : List Char} (h : ∀ c ∈ gap, isNameChar c = false)
    (ds : List Char) : runs (gap ++ ds) = runs ds := by
  induction gap with
  | nil => rfl
  | cons c gap ih =>
    rw [List.forall_mem_cons] at h
    exact (runs_append_cons h.1 [] (gap ++ ds)).trans (ih h.2)

@[simp] theorem words_empty : words "" = [] := by
  decide

/-- A name is a word of its own. -/
theorem IsName.words_eq {x : String} (h : IsName x) : words x = [x] := by
  have whole : x.toList.splitOnP (fun c => !isNameChar c) = [x.toList] :=
    List.splitOnP_eq_singleton fun c hc => by rw [h.chars c hc, Bool.not_true]
  simp [words, runs, whole, h.ne_nil]

section

variable {gap : String} (h : IsGap gap)

include h

theorem IsGap.words_append_append (x y : String) :
    words (x ++ (gap ++ y)) = words x ++ words y := by
  obtain ⟨nonempty, outside⟩ := h
  simp only [words, String.toList_append]
  cases hgap : gap.toList with
  | nil => exact absurd hgap nonempty
  | cons c more =>
    rw [hgap, List.forall_mem_cons] at outside
    rw [List.cons_append, runs_append_cons outside.1, runs_gap_append outside.2, List.map_append]

theorem IsGap.words_append (x : String) : words (x ++ gap) = words x := by
  simpa using h.words_append_append x ""

theorem IsGap.append_words (y : String) : words (gap ++ y) = words y := by
  simpa using h.words_append_append "" y

end

/-! ### The texts that the syntax holds -/

mutual

/-- The texts of an expression that are printed between the signs. -/
@[simp] def Expr.texts : Expr → List String
  | .name s => [s]
  | .number n => [toString n]
  | .member e m => e.texts ++ [m]
  | .call f args => f.texts ++ Expr.allTexts args
  | .struct s fields => s :: Expr.allTexts fields
  | .field m value => m :: value.texts
  | .choice c t e => c.texts ++ (t.texts ++ e.texts)
  | .operator symbol lhs rhs => lhs.texts ++ symbol :: rhs.texts
  | .not e => e.texts

/-- The texts of several expressions. -/
@[simp] def Expr.allTexts : List Expr → List String
  | [] => []
  | e :: es => e.texts ++ Expr.allTexts es

end

/-- The texts of a statement that are printed between the signs. -/
@[simp] def Stmt.texts : Stmt → List String
  | .eval e => e.texts
  | .word name value => "uint256" :: name :: value.texts
  | .assign name value => name :: value.texts
  | .ret value => "return" :: value.texts
  | .ifThen condition body => "if" :: (condition.texts ++ body.texts)

mutual

/-- An expression is printed with gaps between its texts. -/
theorem Expr.words_render : (e : Expr) → words e.render = e.texts.flatMap words
  | .name s => by simp [render, texts]
  | .number n => by simp [render, texts]
  | .member e m => by
    have dot : IsGap "." := by decide
    simp only [render, texts, String.append_assoc, dot.words_append_append, e.words_render,
      List.flatMap_append, List.flatMap_singleton]
  | .call f args => by
    have opening : IsGap "(" := by decide
    have closing : IsGap ")" := by decide
    simp only [render, texts, String.append_assoc, opening.words_append_append,
      closing.words_append, f.words_render, Expr.words_intercalate args, List.flatMap_append]
  | .struct s fields => by
    have opening : IsGap "(\x7b" := by decide
    have closing : IsGap "\x7d)" := by decide
    simp only [render, texts, String.append_assoc, opening.words_append_append,
      closing.words_append, Expr.words_intercalate fields, List.flatMap_cons]
  | .field m value => by
    have colon : IsGap ": " := by decide
    simp only [render, texts, String.append_assoc, colon.words_append_append, value.words_render,
      List.flatMap_cons]
  | .choice c t e => by
    have question : IsGap " ? " := by decide
    have colon : IsGap " : " := by decide
    simp only [render, texts, String.append_assoc, question.words_append_append,
      colon.words_append_append, c.words_render, t.words_render, e.words_render,
      List.flatMap_append]
  | .operator symbol lhs rhs => by
    have blank : IsGap " " := by decide
    simp only [render, texts, String.append_assoc, blank.words_append_append, lhs.words_render,
      rhs.words_render, List.flatMap_append, List.flatMap_cons]
  | .not e => by
    have mark : IsGap "!" := by decide
    simp only [render, texts, mark.append_words, e.words_render]

theorem Expr.words_intercalate : (es : List Expr) →
    words (", ".intercalate (Expr.renderAll es)) = (Expr.allTexts es).flatMap words
  | [] => by simp [renderAll, allTexts]
  | [e] => by
    simp only [renderAll, allTexts, String.intercalate_singleton, e.words_render, List.append_nil]
  | e :: e' :: es => by
    have comma : IsGap ", " := by decide
    have later := Expr.words_intercalate (e' :: es)
    simp only [renderAll, allTexts, String.intercalate_cons_cons, String.append_assoc,
      comma.words_append_append, e.words_render, List.flatMap_append] at later ⊢
    rw [later]

end

variable {indent : String}

theorem words_indent_append (blank : ∀ c ∈ indent.toList, isNameChar c = false) (x : String) :
    words (indent ++ x) = words x := by
  rw [words, String.toList_append, runs_gap_append blank]
  rfl

/-- A statement is printed with gaps between its texts and one at its end. -/
theorem Stmt.words_render_append (st : Stmt) (blank : ∀ c ∈ indent.toList, isNameChar c = false)
    (x : String) : words (st.render indent ++ x) = st.texts.flatMap words ++ words x := by
  have ending : IsGap ";\n" := by decide
  have equals : IsGap " = " := by decide
  have space : IsGap " " := by decide
  induction st generalizing indent x with
  | eval e =>
    simp only [render, texts, String.append_assoc, words_indent_append blank,
      ending.words_append_append, e.words_render]
  | word name value =>
    have keyword : "uint256 " = "uint256" ++ " " := by decide
    simp only [render, texts, keyword, String.append_assoc, words_indent_append blank,
      space.words_append_append, equals.words_append_append, ending.words_append_append,
      value.words_render, List.flatMap_cons, List.append_assoc]
  | assign name value =>
    simp only [render, texts, String.append_assoc, words_indent_append blank,
      equals.words_append_append, ending.words_append_append, value.words_render,
      List.flatMap_cons, List.append_assoc]
  | ret value =>
    have keyword : "return " = "return" ++ " " := by decide
    simp only [render, texts, keyword, String.append_assoc, words_indent_append blank,
      space.words_append_append, ending.words_append_append, value.words_render,
      List.flatMap_cons, List.append_assoc]
  | ifThen condition body ih =>
    have keyword : "if (" = "if" ++ " (" := by decide
    have opening : IsGap " (" := by decide
    have brace : IsGap ") \x7b\n" := by decide
    have closing : IsGap "\x7d\n" := by decide
    have step : IsGap indentStep := by decide
    have deeper : ∀ c ∈ (indent ++ indentStep).toList, isNameChar c = false := by
      intro c hc
      rw [String.toList_append, List.mem_append] at hc
      rcases hc with hc | hc
      · exact blank c hc
      · exact step.2 c hc
    simp only [render, texts, keyword, String.append_assoc, words_indent_append blank,
      opening.words_append_append, brace.words_append_append, ih deeper, closing.append_words,
      condition.words_render, List.flatMap_cons, List.flatMap_append, List.append_assoc]

theorem renderBlock_cons (indent : String) (st : Stmt) (body : List Stmt) :
    renderBlock indent (st :: body) = st.render indent ++ renderBlock indent body := by
  rw [renderBlock, List.map_cons, String.join_cons, renderBlock]

theorem renderBlock_singleton (indent : String) (st : Stmt) :
    renderBlock indent [st] = st.render indent := by
  rw [renderBlock_cons, renderBlock, List.map_nil, String.join_nil, String.append_empty]

theorem renderBlock_append (indent : String) (body more : List Stmt) :
    renderBlock indent (body ++ more) = renderBlock indent body ++ renderBlock indent more := by
  rw [renderBlock, List.map_append, String.join_append, renderBlock, renderBlock]

/-- The words of printed statements are those of the texts that they hold. -/
theorem Stmt.words_renderBlock (blank : ∀ c ∈ indent.toList, isNameChar c = false)
    (body : List Stmt) :
    words (renderBlock indent body) = (body.flatMap Stmt.texts).flatMap words := by
  induction body with
  | nil => rfl
  | cons st body ih =>
    rw [renderBlock_cons, st.words_render_append blank, ih, List.flatMap_cons,
      List.flatMap_append]

end FheSolidity.Solidity
