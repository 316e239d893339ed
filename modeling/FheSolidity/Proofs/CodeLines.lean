import FheSolidity.Proofs.Words

/-!
# Lines of generated code

Statements are printed on full lines of their own, none of which starts left of the indentation of
the block (`Stmt.isBlock_renderBlock`). So the lines of a block can be told from the lines around it
by how they start.
-/

namespace FheSolidity.Solidity

variable {x y indent text more : String}

theorem isLiteral_append : IsLiteral (x ++ y) ↔ IsLiteral x ∧ IsLiteral y := by
  simp only [IsLiteral, String.toList_append, List.forall_mem_append]

theorem isLiteral_join {xs : List String} (h : ∀ x ∈ xs, IsLiteral x) :
    IsLiteral (String.join xs) := by
  induction xs with
  | nil => decide
  | cons x xs ih =>
    obtain ⟨first, later⟩ := List.forall_mem_cons.1 h
    rw [String.join_cons]
    exact first.append (ih later)

/-- What stands for itself in a string literal holds no line end. -/
theorem IsLiteral.isLine (h : IsLiteral x) : Text.IsLine x.toList := by
  intro c hc
  have visible := h c hc
  constructor <;>
    · rintro rfl
      exact absurd visible (by decide)

/-! ### Expressions -/

mutual

/-- An expression is printed on one line if its texts are. -/
theorem Expr.isLiteral_render : (e : Expr) → (∀ x ∈ e.texts, IsLiteral x) → IsLiteral e.render
  | .name s, h => h s (List.mem_singleton_self s)
  | .number n, h => h (toString n) (List.mem_singleton_self _)
  | .member e m, h => by
    have dot : IsLiteral "." := by decide
    simp only [texts, List.forall_mem_append, List.forall_mem_singleton] at h
    simp only [render, isLiteral_append, dot, e.isLiteral_render h.1, h.2, and_self]
  | .call f args, h => by
    have opening : IsLiteral "(" := by decide
    have closing : IsLiteral ")" := by decide
    simp only [texts, List.forall_mem_append] at h
    simp only [render, isLiteral_append, opening, closing, f.isLiteral_render h.1,
      Expr.isLiteral_intercalate args h.2, and_self]
  | .struct s fields, h => by
    have opening : IsLiteral "(\x7b" := by decide
    have closing : IsLiteral "\x7d)" := by decide
    simp only [texts, List.forall_mem_cons] at h
    simp only [render, isLiteral_append, opening, closing, h.1,
      Expr.isLiteral_intercalate fields h.2, and_self]
  | .field m value, h => by
    have colon : IsLiteral ": " := by decide
    simp only [texts, List.forall_mem_cons] at h
    simp only [render, isLiteral_append, colon, h.1, value.isLiteral_render h.2, and_self]
  | .choice c t e, h => by
    have question : IsLiteral " ? " := by decide
    have colon : IsLiteral " : " := by decide
    simp only [texts, List.forall_mem_append] at h
    simp only [render, isLiteral_append, question, colon, c.isLiteral_render h.1,
      t.isLiteral_render h.2.1, e.isLiteral_render h.2.2, and_self]
  | .operator symbol lhs rhs, h => by
    have blank : IsLiteral " " := by decide
    simp only [texts, List.forall_mem_append, List.forall_mem_cons] at h
    simp only [render, isLiteral_append, blank, lhs.isLiteral_render h.1, h.2.1,
      rhs.isLiteral_render h.2.2, and_self]
  | .not e, h => by
    have mark : IsLiteral "!" := by decide
    simp only [render, isLiteral_append, mark, e.isLiteral_render h, and_self]

theorem Expr.isLiteral_intercalate : (es : List Expr) →
    (∀ x ∈ Expr.allTexts es, IsLiteral x) → IsLiteral (", ".intercalate (Expr.renderAll es))
  | [], _ => by decide
  | [e], h => by
    simp only [allTexts, List.append_nil] at h
    simpa only [renderAll, String.intercalate_singleton] using e.isLiteral_render h
  | e :: e' :: es, h => by
    have comma : IsLiteral ", " := by decide
    rw [allTexts, List.forall_mem_append] at h
    have later := Expr.isLiteral_intercalate (e' :: es) h.2
    simp only [renderAll, String.intercalate_cons_cons] at later ⊢
    simp only [isLiteral_append, comma, e.isLiteral_render h.1, later, and_self]

end

theorem Expr.mem_allTexts {es : List Expr} : x ∈ Expr.allTexts es ↔ ∃ e ∈ es, x ∈ e.texts := by
  induction es with
  | nil => simp
  | cons e es ih => simp [ih]

/-! ### Blocks -/

/-- A text of full lines that all start with an indentation. -/
def IsBlock (indent text : String) : Prop :=
  ∃ ls, text.toList = Text.ofLines ls ∧ ∀ l ∈ ls, indent.toList <+: l ∧ Text.IsLine l

theorem IsBlock.empty : IsBlock indent "" :=
  ⟨[], rfl, fun _ hl => absurd hl List.not_mem_nil⟩

theorem IsBlock.line (hindent : IsLiteral indent) (h : IsLiteral x) :
    IsBlock indent (indent ++ x ++ "\n") := by
  refine ⟨[(indent ++ x).toList], by simp [Text.ofLines], ?_⟩
  rintro l hl
  cases List.mem_singleton.1 hl
  refine ⟨?_, (hindent.append h).isLine⟩
  rw [String.toList_append]
  exact List.prefix_append _ _

theorem IsBlock.append (h : IsBlock indent x) (h' : IsBlock indent y) :
    IsBlock indent (x ++ y) := by
  obtain ⟨ls, hx, hls⟩ := h
  obtain ⟨ls', hy, hls'⟩ := h'
  refine ⟨ls ++ ls', ?_, List.forall_mem_append.2 ⟨hls, hls'⟩⟩
  rw [String.toList_append, hx, hy, Text.ofLines, Text.ofLines, Text.ofLines, List.flatMap_append]

/-- What is indented further is indented. -/
theorem IsBlock.of_append (h : IsBlock (indent ++ more) text) : IsBlock indent text := by
  obtain ⟨ls, htext, hls⟩ := h
  refine ⟨ls, htext, fun l hl => ⟨.trans ?_ (hls l hl).1, (hls l hl).2⟩⟩
  rw [String.toList_append]
  exact List.prefix_append _ _

theorem IsBlock.mem_lines (h : IsBlock indent text) {l : List Char}
    (hl : l ∈ Text.lines text.toList) : indent.toList <+: l := by
  obtain ⟨ls, htext, hls⟩ := h
  rw [htext, Text.lines_ofLines fun l hl => (hls l hl).2] at hl
  exact (hls l hl).1

/-- A block ends with a line end, so what follows starts a line. -/
theorem IsBlock.lines_append (h : IsBlock indent text) (cs : List Char) :
    Text.lines (text.toList ++ cs) = Text.lines text.toList ++ Text.lines cs := by
  obtain ⟨ls, htext, hls⟩ := h
  have lines : ∀ l ∈ ls, Text.IsLine l := fun l hl => (hls l hl).2
  rw [htext, Text.lines_ofLines_append lines, Text.lines_ofLines lines]

/-- Every statement but a condition is one line that ends in a semicolon. -/
theorem IsBlock.statement (hindent : IsLiteral indent) (h : IsLiteral x) :
    IsBlock indent (indent ++ (x ++ ";\n")) := by
  have ending : ";\n" = ";" ++ "\n" := by decide
  have line := IsBlock.line hindent (h.append (by decide : IsLiteral ";"))
  simpa only [ending, String.append_assoc] using line

/-- A statement is printed as a block. -/
theorem Stmt.isBlock_render (st : Stmt) (hindent : IsLiteral indent)
    (h : ∀ x ∈ st.texts, IsLiteral x) : IsBlock indent (st.render indent) := by
  induction st generalizing indent with
  | eval e =>
    rw [render, String.append_assoc]
    exact .statement hindent (e.isLiteral_render h)
  | word name value =>
    simp only [texts, List.forall_mem_cons] at h
    have content := value.isLiteral_render h.2.2
    have printed : IsLiteral ("uint256 " ++ name ++ " = " ++ value.render) := by
      simp +decide only [isLiteral_append, h.2.1, content, and_self]
    simpa only [render, String.append_assoc] using IsBlock.statement hindent printed
  | assign name value =>
    simp only [texts, List.forall_mem_cons] at h
    have content := value.isLiteral_render h.2
    have printed : IsLiteral (name ++ " = " ++ value.render) := by
      simp +decide only [isLiteral_append, h.1, content, and_self]
    simpa only [render, String.append_assoc] using IsBlock.statement hindent printed
  | ret value =>
    simp only [texts, List.forall_mem_cons] at h
    have printed : IsLiteral ("return " ++ value.render) :=
      IsLiteral.append (by decide) (value.isLiteral_render h.2)
    simpa only [render, String.append_assoc] using IsBlock.statement hindent printed
  | ifThen condition body ih =>
    simp only [texts, List.forall_mem_cons, List.forall_mem_append] at h
    have content := condition.isLiteral_render h.2.1
    have opening : IsBlock indent (indent ++ ("if (" ++ condition.render ++ ") \x7b") ++ "\n") := by
      refine IsBlock.line hindent ?_
      simp +decide only [isLiteral_append, content, and_self]
    have deeper : IsLiteral (indent ++ indentStep) := hindent.append (by decide)
    have inner := (ih deeper h.2.2).of_append
    have closing := IsBlock.line hindent (by decide : IsLiteral "\x7d")
    have brace : ") \x7b\n" = ") \x7b" ++ "\n" := by decide
    have end' : "\x7d\n" = "\x7d" ++ "\n" := by decide
    have whole := (opening.append inner).append closing
    simpa only [render, brace, end', String.append_assoc] using whole

/-- Statements are printed as a block. -/
theorem Stmt.isBlock_renderBlock (hindent : IsLiteral indent) {body : List Stmt}
    (h : ∀ st ∈ body, ∀ x ∈ st.texts, IsLiteral x) : IsBlock indent (renderBlock indent body) := by
  induction body with
  | nil => exact .empty
  | cons st body ih =>
    obtain ⟨first, later⟩ := List.forall_mem_cons.1 h
    rw [renderBlock_cons]
    exact (st.isBlock_render hindent first).append (ih later)

end FheSolidity.Solidity
