import FheSolidity.Proofs.Guards
import FheSolidity.Proofs.Words

/-!
# Where guards stand

A body that has guards is printed guards first: those of its encrypted parameters, in their order,
and then statements that ask of nothing whether it was ever set (`exists_body_eq_guards`). No guard
mentions another parameter, so the first mention of an encrypted parameter is its own guard.
-/

namespace FheSolidity

open Solidity (Expr IsGap IsName Param Stmt indentStep renderBlock words)

/-! ### Code that asks of nothing whether it was set -/

/-- Whether a name is printed nowhere in a statement. -/
def Solidity.Stmt.Avoids (x : String) (st : Stmt) : Prop :=
  ∀ text ∈ st.texts, x ∉ words text

theorem Solidity.not_mem_words_renderBlock {x indent : String}
    (blank : ∀ c ∈ indent.toList, isNameChar c = false) {body : List Stmt}
    (h : ∀ st ∈ body, st.Avoids x) : x ∉ words (renderBlock indent body) := by
  rw [Stmt.words_renderBlock blank]
  intro hx
  obtain ⟨text, htext, hx⟩ := List.mem_flatMap.1 hx
  obtain ⟨st, hst, htext⟩ := List.mem_flatMap.1 htext
  exact h st hst text htext hx

namespace Shape

section

variable (s : Scalar)

theorem words_encryptedName : words s.encryptedName = [s.encryptedName] :=
  (ValueType.encrypted s).isName_name.words_eq

theorem words_castFunction : words s.castFunction = [s.castFunction] :=
  ((by decide : IsName "as").append s.isName_encryptedTitle).words_eq

/-- The words of a name of the library `Common`, as seen from outside of it. -/
theorem words_common {x : String} (h : IsName x) : words ("Common." ++ x) = ["Common", x] := by
  have dot : IsGap "." := by decide
  have stem : "Common." = "Common" ++ "." := by decide
  rw [stem, String.append_assoc, dot.words_append_append, h.words_eq]
  rfl

theorem words_tagConstant : words s.tagConstant = ["Common", s.tagIdent] :=
  words_common (by cases s <;> decide)

theorem words_fromWord : words s.fromWord = ["Common", s.fromWordFunction] :=
  words_common (by cases s <;> decide)

@[simp] theorem isInitialized_not_mem_words_encryptedName :
    "isInitialized" ∉ words s.encryptedName := by
  rw [words_encryptedName]
  cases s <;> decide

@[simp] theorem isInitialized_not_mem_words_castFunction :
    "isInitialized" ∉ words s.castFunction := by
  rw [words_castFunction]
  cases s <;> decide

@[simp] theorem isInitialized_not_mem_words_tagConstant :
    "isInitialized" ∉ words s.tagConstant := by
  rw [words_tagConstant]
  cases s <;> decide

@[simp] theorem isInitialized_not_mem_words_fromWord :
    "isInitialized" ∉ words s.fromWord := by
  rw [words_fromWord]
  cases s <;> decide

end

theorem words_expr {f : FunctionRef} (known : f.name ∈ Dispatcher.functionIds) :
    words f.expr = ["FunctionId", f.name] := by
  have dot : IsGap "." := by decide
  have stem : "FunctionId." = "FunctionId" ++ "." := by decide
  rw [FunctionRef.expr, stem, String.append_assoc, dot.words_append_append,
    (Dispatcher.isName_of_mem_functionIds known).words_eq]
  rfl

theorem isInitialized_not_mem_words_expr {f : FunctionRef}
    (known : f.name ∈ Dispatcher.functionIds) : "isInitialized" ∉ words f.expr := by
  rw [words_expr known]
  revert known
  generalize f.name = name
  revert name
  decide

@[simp] theorem texts_apply (f : String) (args : List Expr) :
    (Expr.apply f args).texts = f :: Expr.allTexts args :=
  rfl

@[simp] theorem texts_unwrap (s : Scalar) (e : Expr) :
    (unwrap s e).texts = s.encryptedName :: "unwrap" :: e.texts := by
  simp [unwrap]

@[simp] theorem texts_wrap (s : Scalar) (e : Expr) :
    (wrap s e).texts = s.encryptedName :: "wrap" :: e.texts := by
  simp [wrap]

@[simp] theorem texts_tag (s : Scalar) : (tag s).texts = [s.tagConstant] :=
  rfl

@[simp] theorem texts_dispatch (method : String) (args : List Expr) :
    (dispatch method args).texts = ("Impl." ++ method) :: Expr.allTexts args :=
  rfl

theorem isInitialized_not_mem_words_plainWord (s : Scalar) :
    ∀ text ∈ (plainWord s).texts, "isInitialized" ∉ words text := by
  cases s <;> decide

theorem avoids_of_mem_finish {call : Expr} (h : (Stmt.eval call).Avoids "isInitialized")
    (output : Output) : ∀ st ∈ finish call output, st.Avoids "isInitialized" := by
  cases output <;> simp +decide [Stmt.Avoids, finish] at h ⊢ <;> assumption

/-- The guard of a parameter, if it is encrypted. -/
def paramGuard (p : Param) : List Stmt :=
  match p.type with
  | .encrypted s => [guard p.name s]
  | _ => []

theorem avoids_word_operandWord (working : Scalar) (operand : Operand) {x result : String}
    (hx : "isInitialized" ∉ words x) (hresult : "isInitialized" ∉ words result) :
    (Stmt.word result (operandWord working x operand)).Avoids "isInitialized" := by
  unfold operandWord
  split <;> simp +decide [Stmt.Avoids, hx, hresult]

/-- The dispatcher knows the function that a body calls. -/
theorem Plans.mem_functionIds {shape : Shape} {sig : Signature} (h : shape.Plans sig) :
    shape.function.name ∈ Dispatcher.functionIds := by
  rw [← Dispatcher.functionId?_isSome, h.known, Option.isSome_some]

/-- A body that has guards starts with those of its encrypted parameters, in their order. What
follows asks of nothing whether it was set. -/
theorem exists_body_eq_guards (shape : Shape) (operation : String)
    (known : shape.function.name ∈ Dispatcher.functionIds) (untagged : shape.isTagged = false) :
    ∃ rest, shape.body operation =
        (Solidity.paramsOf shape.inputs shape.paramNames).flatMap paramGuard ++ rest ∧
      ∀ st ∈ rest, st.Avoids "isInitialized" := by
  have quiet := isInitialized_not_mem_words_expr known
  cases shape with
  | unary f operand output =>
    refine ⟨.word "unwrappedInput1" (unwrap operand (.name "value")) :: finish _ output, rfl, ?_⟩
    refine List.forall_mem_cons.2 ⟨?_, avoids_of_mem_finish ?_ output⟩
    · simp +decide [Stmt.Avoids]
    · simpa +decide [Stmt.Avoids, function] using quiet
  | binary f lhs rhs output =>
    -- the second guard is there for an encrypted operand alone, so the split depends on it
    have guards : (Solidity.paramsOf [.encrypted lhs, rhs.type] ["lhs", "rhs"]).flatMap paramGuard =
        [guard "lhs" lhs] ++ operandGuard "rhs" rhs := by
      cases rhs <;> rfl
    refine ⟨_, (List.append_assoc _ _ _).trans (congrArg (· ++ _) guards.symm), ?_⟩
    refine List.forall_mem_cons.2 ⟨?_, List.forall_mem_cons.2 ⟨?_, avoids_of_mem_finish ?_ output⟩⟩
    · exact avoids_word_operandWord _ _ (by decide) (by decide)
    · exact avoids_word_operandWord _ _ (by decide) (by decide)
    · simpa +decide [Stmt.Avoids, function] using quiet
  | ternary f value =>
    refine ⟨[.word "unwrappedInput1" _, .word "unwrappedInput2" _, .word "unwrappedInput3" _] ++
      finish _ (.encrypted value), rfl, ?_⟩
    refine List.forall_mem_append.2 ⟨?_, avoids_of_mem_finish ?_ _⟩
    · simp +decide [Stmt.Avoids]
    · simpa +decide [Stmt.Avoids, function] using quiet
  | sealing f operand key typed =>
    cases typed with
    | true => cases untagged
    | false =>
      refine ⟨[.word "unwrapped" _, .ret _], rfl, ?_⟩
      cases key <;> simpa +decide [Stmt.Avoids, KeyType.method, function] using quiet
  | cast f target source =>
    cases source with
    | encrypted s =>
      refine ⟨finish _ (.encrypted target), rfl, avoids_of_mem_finish ?_ _⟩
      simpa +decide [Stmt.Avoids, function] using quiet
    | plain s zoned =>
      refine ⟨castBody f target (.plain s zoned), by cases zoned <;> rfl, ?_⟩
      have word := isInitialized_not_mem_words_plainWord s
      cases zoned <;>
        simpa +decide +contextual [Stmt.Avoids, castBody, or_imp, forall_and, word, function]
          using quiet
    | ciphertext =>
      refine ⟨castBody f target .ciphertext, rfl, ?_⟩
      simpa +decide [Stmt.Avoids, castBody, function] using quiet
    | inputStruct =>
      refine ⟨castBody f target .inputStruct, rfl, ?_⟩
      simp +decide [Stmt.Avoids, castBody]
  | random f target form =>
    refine ⟨randomBody f target form, by cases form <;> rfl, ?_⟩
    unfold randomBody
    refine avoids_of_mem_finish ?_ _
    cases form <;> simpa +decide [Stmt.Avoids, RandomForm.isSeeded, RandomForm.isZoned, function]
      using quiet

/-! ### Guards as printed -/

/-- The condition of the guard of a name, as printed. -/
def checkText (x : String) : String :=
  "if (!isInitialized(" ++ x ++ "))"

/-- The guard of a parameter of an encrypted type, as printed in a body. -/
def guardText (x : String) (s : Scalar) : String :=
  "        " ++ checkText x ++ " \x7b\n" ++
    "            " ++ x ++ " = " ++ s.castFunction ++ "(0);\n" ++
    "        \x7d\n"

theorem checkText_eq (x : String) : checkText x = "if (!isInitialized(" ++ x ++ "))" :=
  rfl

theorem render_guard (indent x : String) (s : Scalar) :
    (guard x s).render indent = indent ++ checkText x ++ " \x7b\n" ++
      (indent ++ indentStep) ++ x ++ " = " ++ s.castFunction ++ "(0);\n" ++
      (indent ++ "\x7d\n") := by
  have condition : "if (!isInitialized(" = "if (" ++ ("!" ++ ("isInitialized" ++ "(")) := by decide
  have closing : "))" = ")" ++ ")" := by decide
  have brace : ") \x7b\n" = ")" ++ " \x7b\n" := by decide
  have zero : "(0);\n" = "(" ++ (toString 0 ++ (")" ++ ";\n")) := by decide
  simp only [guard, Stmt.render, Expr.apply, Expr.render, Expr.renderAll, checkText_eq,
    String.intercalate_singleton, condition, closing, brace, zero, String.append_assoc]

theorem render_guard_eq_guardText (x : String) (s : Scalar) :
    (guard x s).render (indentStep ++ indentStep) = guardText x s := by
  have outer : indentStep ++ indentStep = "        " := by decide
  have inner : "        " ++ indentStep = "            " := by decide
  have closing : "        " ++ "\x7d\n" = "        \x7d\n" := by decide
  rw [render_guard, outer, inner, closing]
  rfl

/-- The words of a guard apart from the name of the parameter. -/
def guardKeywords : List String :=
  ["if", "isInitialized", "0"] ++ Scalar.all.map Scalar.castFunction

/-- The words of the guard of a parameter, if it is encrypted. -/
def guardWords (p : Param) : List String :=
  match p.type with
  | .encrypted s => ["if", "isInitialized", p.name, p.name, s.castFunction, "0"]
  | _ => []

/-- No parameter is called like a word that guards hold. -/
theorem isName_of_mem_paramNames {shape : Shape} {x : String} (h : x ∈ shape.paramNames) :
    IsName x ∧ x ∉ guardKeywords := by
  revert x
  unfold paramNames
  split <;> decide

theorem castFunction_mem_guardKeywords (s : Scalar) : s.castFunction ∈ guardKeywords :=
  List.mem_append_right _ (List.mem_map_of_mem s.mem_all)

theorem eq_or_mem_guardKeywords {p : Param} {x : String} (h : x ∈ guardWords p) :
    x = p.name ∨ x ∈ guardKeywords := by
  unfold guardWords at h
  split at h
  · next s _ =>
    have fixed : ∀ y ∈ ["if", "isInitialized", "0"], y ∈ guardKeywords := fun y hy =>
      List.mem_append_left _ hy
    have cast := castFunction_mem_guardKeywords s
    simp only [List.mem_cons, List.not_mem_nil, or_false] at h
    rcases h with rfl | rfl | rfl | rfl | rfl | rfl <;> simp_all
  · cases h

theorem words_paramGuard {p : Param} (h : IsName p.name) :
    ((paramGuard p).flatMap Stmt.texts).flatMap words = guardWords p := by
  unfold paramGuard guardWords
  split
  · next s _ =>
    have keyword : words "if" = ["if"] := by decide
    have asked : words "isInitialized" = ["isInitialized"] := by decide
    have zero : words (Nat.repr 0) = ["0"] := by decide
    simp [guard, h.words_eq, keyword, asked, words_castFunction, zero]
  · rfl

/-- The words of printed guards. -/
theorem words_renderBlock_paramGuards {indent : String}
    (blank : ∀ c ∈ indent.toList, Solidity.isNameChar c = false) {ps : List Param}
    (names : ∀ p ∈ ps, IsName p.name) :
    words (renderBlock indent (ps.flatMap paramGuard)) = ps.flatMap guardWords := by
  rw [Stmt.words_renderBlock blank]
  induction ps with
  | nil => rfl
  | cons p ps ih =>
    obtain ⟨name, later⟩ := List.forall_mem_cons.1 names
    simp only [List.flatMap_cons, List.flatMap_append, words_paramGuard name, ih later]

theorem words_append_checkText {x : String} (h : IsName x) (before after : String) :
    words (before ++ checkText x ++ after) =
      words (before ++ "if") ++ "isInitialized" :: x :: words after := by
  have condition : "if (!isInitialized(" = "if" ++ (" (!" ++ ("isInitialized" ++ "(")) := by decide
  have mark : IsGap " (!" := by decide
  have opening : IsGap "(" := by decide
  have closing : IsGap "))" := by decide
  have asked : words "isInitialized" = ["isInitialized"] := by decide
  have parts : before ++ checkText x ++ after =
      before ++ "if" ++ (" (!" ++ ("isInitialized" ++ ("(" ++ (x ++ ("))" ++ after))))) := by
    simp only [checkText_eq, condition, String.append_assoc]
  rw [parts, mark.words_append_append, opening.words_append_append, closing.words_append_append,
    asked, h.words_eq]
  rfl

/-- Where the guards of parameters are followed by words that ask of nothing whether it was set,
every question is of the guard of an encrypted parameter, and the zero of its type follows. -/
theorem exists_mem_params_of_check {ps : List Param} {rest before after : List String} {x : String}
    (names : ∀ p ∈ ps, p.name ∉ guardKeywords) (quiet : "isInitialized" ∉ rest)
    (h : before ++ "isInitialized" :: x :: after = ps.flatMap guardWords ++ rest) :
    ∃ s, ⟨.encrypted s, x⟩ ∈ ps ∧ [x, s.castFunction, "0"] <+: after := by
  induction ps generalizing before with
  | nil =>
    rw [List.flatMap_nil, List.nil_append] at h
    simp [← h] at quiet
  | cons p ps ih =>
    obtain ⟨name, later⟩ := List.forall_mem_cons.1 names
    obtain ⟨type, y⟩ := p
    rw [List.flatMap_cons, List.append_assoc] at h
    cases type with
    | plain | fixed =>
      obtain ⟨s, mem, zero⟩ := ih later h
      exact ⟨s, List.mem_cons_of_mem _ mem, zero⟩
    | encrypted s =>
      obtain ⟨between, h⟩ := exists_append_cons_eq_of_not_mem ["if"] (by decide) h
      cases between with
      | nil =>
        obtain ⟨rfl, rfl⟩ := List.cons.inj (List.cons.inj h).2
        exact ⟨s, List.mem_cons_self, List.prefix_append _ _⟩
      | cons _ between =>
        -- the guard asks once, so the question stands behind it
        have once : "isInitialized" ∉ [y, y, s.castFunction, "0"] := by
          have asked : "isInitialized" ∈ guardKeywords := by decide
          have other : "isInitialized" ≠ y := fun same => name (same ▸ asked)
          have cast := isInitialized_not_mem_words_castFunction s
          rw [words_castFunction, List.mem_singleton] at cast
          simp [other, cast]
        obtain ⟨_, h⟩ := exists_append_cons_eq_of_not_mem _ once (List.cons.inj h).2
        obtain ⟨t, mem, zero⟩ := ih later h
        exact ⟨t, List.mem_cons_of_mem _ mem, zero⟩

theorem render_typedSealingBody (indent operation : String) (operand : Scalar) :
    renderBlock indent (typedSealingBody operation operand) =
      indent ++ "return " ++ operand.sealFamily.name ++ "(\x7bdata:" ++ " " ++ operation ++
        "(" ++ "value" ++ ", " ++ "publicKey" ++ ")" ++
        (", utype: " ++ operand.tagConstant ++ "\x7d);\n") := by
  have colon : ": " = ":" ++ " " := by decide
  have data : "(\x7bdata:" = "(\x7b" ++ ("data" ++ ":") := by decide
  have utype : ", utype: " = ", " ++ ("utype" ++ ": ") := by decide
  have closing : "\x7d);\n" = "\x7d)" ++ ";\n" := by decide
  simp only [typedSealingBody, Solidity.renderBlock_singleton, Stmt.render, Expr.render,
    Expr.renderAll, Expr.apply, tag, String.intercalate_cons_cons, String.intercalate_singleton,
    utype, colon, data, closing, String.append_assoc]

/-- The words in front of the call that a body tags the result of. -/
theorem words_before_call (family : SealFamily) :
    words (indentStep ++ indentStep ++ "return " ++ family.name ++ "(\x7bdata:") =
      ["return", family.name, "data"] := by
  cases family <;> decide

/-- The words behind it. -/
theorem words_after_call (s : Scalar) :
    words (", utype: " ++ s.tagConstant ++ "\x7d);\n") = ["utype", "Common", s.tagIdent] := by
  have comma : IsGap ", " := by decide
  have colon : IsGap ": " := by decide
  have closing : IsGap "\x7d);\n" := by decide
  have utype : ", utype: " = ", " ++ ("utype" ++ ": ") := by decide
  have field : words "utype" = ["utype"] := by decide
  rw [utype, String.append_assoc, String.append_assoc, String.append_assoc, comma.append_words,
    colon.words_append_append, closing.words_append, words_tagConstant, field]
  rfl

end Shape

namespace RenderedFunction

variable {f : RenderedFunction}

theorem bodyIndent_blank :
    ∀ c ∈ (indentStep ++ indentStep).toList, Solidity.isNameChar c = false :=
  (by decide : IsGap (indentStep ++ indentStep)).2

/-- The body as printed in the library. -/
def bodyText (f : RenderedFunction) : String :=
  renderBlock (indentStep ++ indentStep) f.decl.body

theorem codeText_eq (f : RenderedFunction) : f.codeText =
    indentStep ++ f.decl.header.render ++ " \x7b\n" ++ f.bodyText ++ indentStep ++ "\x7d\n" :=
  rfl

theorem params_decl (h : f.signature.render = .ok f) :
    f.decl.header.params = Solidity.paramsOf f.shape.inputs f.shape.paramNames := by
  rw [decl_of_render h, Shape.declare, ← (plans_of_render h).inputs]

theorem names_params_decl (h : f.signature.render = .ok f) :
    f.decl.header.params.map Param.name = f.shape.paramNames := by
  rw [params_decl h]
  exact Solidity.map_name_paramsOf f.shape.length_paramNames.le

theorem nodup_names_params_decl (h : f.signature.render = .ok f) :
    (f.decl.header.params.map Param.name).Nodup :=
  names_params_decl h ▸ f.shape.nodup_paramNames

theorem isName_of_mem_params (h : f.signature.render = .ok f) {p : Param}
    (hp : p ∈ f.decl.header.params) : IsName p.name ∧ p.name ∉ Shape.guardKeywords := by
  have name : p.name ∈ f.shape.paramNames := by
    rw [← names_params_decl h]
    exact List.mem_map_of_mem hp
  exact Shape.isName_of_mem_paramNames name

theorem exists_body_eq_guards (h : f.signature.render = .ok f)
    (untagged : f.shape.isTagged = false) :
    ∃ rest, f.decl.body = f.decl.header.params.flatMap Shape.paramGuard ++ rest ∧
      ∀ st ∈ rest, st.Avoids "isInitialized" := by
  have known := (plans_of_render h).mem_functionIds
  rw [params_decl h, decl_of_render h]
  exact f.shape.exists_body_eq_guards f.signature.operation known untagged

/-- The words of a body are those of its guards and of code that asks of nothing whether it was
set. -/
theorem exists_words_bodyText_eq (h : f.signature.render = .ok f)
    (untagged : f.shape.isTagged = false) :
    ∃ rest, words f.bodyText = f.decl.header.params.flatMap Shape.guardWords ++ rest ∧
      "isInitialized" ∉ rest := by
  obtain ⟨rest, body, quiet⟩ := exists_body_eq_guards h untagged
  refine ⟨words (renderBlock (indentStep ++ indentStep) rest), ?_,
    Solidity.not_mem_words_renderBlock bodyIndent_blank quiet⟩
  rw [bodyText, body, Stmt.words_renderBlock bodyIndent_blank, List.flatMap_append,
    List.flatMap_append, ← Stmt.words_renderBlock bodyIndent_blank,
    ← Stmt.words_renderBlock bodyIndent_blank, Shape.words_renderBlock_paramGuards bodyIndent_blank
      fun p hp => (isName_of_mem_params h hp).1]

/-- The guard of an encrypted parameter is printed, and no mention of it stands before. -/
theorem exists_bodyText_eq_guardText (h : f.signature.render = .ok f)
    (untagged : f.shape.isTagged = false) {p : Param} (hp : p ∈ f.decl.header.params) {s : Scalar}
    (encrypted : p.type = .encrypted s) :
    ∃ before after, f.bodyText = before ++ Shape.guardText p.name s ++ after ∧
      p.name ∉ words before := by
  obtain ⟨rest, body, -⟩ := exists_body_eq_guards h untagged
  obtain ⟨earlier, later, params⟩ := List.append_of_mem hp
  have own : Shape.paramGuard p = [Shape.guard p.name s] := by
    rw [Shape.paramGuard, encrypted]
  have printed : f.bodyText =
      renderBlock (indentStep ++ indentStep) (earlier.flatMap Shape.paramGuard) ++
        Shape.guardText p.name s ++
        renderBlock (indentStep ++ indentStep) (later.flatMap Shape.paramGuard ++ rest) := by
    rw [← Shape.render_guard_eq_guardText, bodyText, body, params, List.flatMap_append,
      List.flatMap_cons, own, List.append_assoc, List.append_assoc, Solidity.renderBlock_append,
      List.singleton_append, Solidity.renderBlock_cons, String.append_assoc]
  refine ⟨_, _, printed, ?_⟩
  have distinct := nodup_names_params_decl h
  rw [params, List.map_append, List.map_cons, List.nodup_middle, List.nodup_cons] at distinct
  have mem {q : Param} (hq : q ∈ earlier) : q ∈ f.decl.header.params :=
    params ▸ List.mem_append_left _ hq
  rw [Shape.words_renderBlock_paramGuards bodyIndent_blank fun q hq =>
    (isName_of_mem_params h (mem hq)).1]
  -- what stands before are guards of other parameters, which mention their own alone
  intro mentioned
  obtain ⟨q, hq, mentioned⟩ := List.mem_flatMap.1 mentioned
  rcases Shape.eq_or_mem_guardKeywords mentioned with same | keyword
  · exact distinct.1 (List.mem_append_left _ (same ▸ List.mem_map_of_mem hq))
  · exact (isName_of_mem_params h hp).2 keyword

/-- Wherever a body asks whether a parameter was set, the parameter is encrypted and the zero of its
type follows. -/
theorem exists_type_of_checkText (h : f.signature.render = .ok f)
    (untagged : f.shape.isTagged = false) {p : Param} (hp : p ∈ f.decl.header.params)
    {before after : String} (checked : f.bodyText = before ++ Shape.checkText p.name ++ after) :
    ∃ s, p.type = .encrypted s ∧ [p.name, s.castFunction, "0"] <+: words after := by
  -- the question is told by two words that follow each other, and those only guards have
  obtain ⟨rest, split, quiet⟩ := exists_words_bodyText_eq h untagged
  rw [checked, Shape.words_append_checkText (isName_of_mem_params h hp).1] at split
  obtain ⟨s, mem, zero⟩ := Shape.exists_mem_params_of_check
    (fun q hq => (isName_of_mem_params h hq).2) quiet split
  have same := List.inj_on_of_nodup_map (nodup_names_params_decl h) hp mem rfl
  exact ⟨s, congrArg Param.type same, zero⟩

/-- Tagged sealing mentions its operand as an argument of the call that seals, and nowhere else. -/
theorem exists_bodyText_eq_call (h : f.signature.render = .ok f)
    (tagged : f.shape.isTagged = true) :
    ∃ operand key s before after, f.decl.header.params = [operand, key] ∧
      operand.type = .encrypted s ∧
      f.bodyText = before ++ " " ++ f.signature.operation ++
        "(" ++ operand.name ++ ", " ++ key.name ++ ")" ++ after ∧
      ∀ text ∈ [before, f.signature.operation, after], operand.name ∉ words text := by
  have params := params_decl h
  have printed : f.bodyText =
      renderBlock (indentStep ++ indentStep) (f.shape.body f.signature.operation) := by
    rw [bodyText, decl_of_render h, Shape.declare]
  have plans := plans_of_render h
  generalize f.shape = shape at params printed plans tagged
  cases shape with
  | unary | binary | ternary | cast | random => cases tagged
  | sealing fn s key typed =>
    cases typed with
    | false => cases tagged
    | true =>
      have name : fn.name = f.signature.operation := plans.function
      have known : f.signature.operation ∈ Dispatcher.functionIds := name ▸ plans.mem_functionIds
      refine ⟨⟨.encrypted s, "value"⟩, ⟨.fixed key.type, "publicKey"⟩, s,
        indentStep ++ indentStep ++ "return " ++ s.sealFamily.name ++ "(\x7bdata:",
        ", utype: " ++ s.tagConstant ++ "\x7d);\n", params, rfl,
        printed.trans (Shape.render_typedSealingBody _ _ s), ?_⟩
      simp only [List.forall_mem_cons, List.not_mem_nil, false_imp_iff, implies_true, and_true]
      refine ⟨?_, ?_, ?_⟩
      · rw [Shape.words_before_call]
        cases s <;> decide
      · rw [(Dispatcher.isName_of_mem_functionIds known).words_eq, List.mem_singleton]
        intro same
        revert known
        rw [← same]
        decide
      · rw [Shape.words_after_call]
        cases s <;> decide

end RenderedFunction

namespace Signature

variable {sig : Signature} {shape : Shape}

/-- **Where guards stand.** Every signature with a shape is rendered. Unless it tags what sealing
returns, its body holds the guard of each encrypted parameter, with a zero of the parameter's own
type, and nothing before the guard mentions the parameter; and wherever the body asks whether a
parameter was set, that parameter is encrypted and the zero of its type follows. A body that tags
mentions its operand as the first argument of the call that seals, and nowhere else. -/
theorem guards_of_shape (h : sig.shape = .ok shape) :
    let f := sig.renderAs shape
    sig.render = .ok f ∧ f.decl.header.paramTypes = sig.inputs ∧
      (shape.isTagged = false → ∀ p ∈ f.decl.header.params,
        (∀ s, p.type = .encrypted s → ∃ before after,
          f.bodyText = before ++ Shape.guardText p.name s ++ after ∧ p.name ∉ words before) ∧
        ∀ before after, f.bodyText = before ++ Shape.checkText p.name ++ after →
          ∃ s, p.type = .encrypted s ∧ [p.name, s.castFunction, "0"] <+: words after) ∧
      (shape.isTagged = true → ∃ operand key s before after,
        f.decl.header.params = [operand, key] ∧ operand.type = .encrypted s ∧
        f.bodyText = before ++ " " ++ sig.operation ++
          "(" ++ operand.name ++ ", " ++ key.name ++ ")" ++ after ∧
        ∀ text ∈ [before, sig.operation, after], operand.name ∉ words text) := by
  intro f
  have rendered : sig.render = .ok f := render_eq_ok_iff.2 ⟨shape, h, rfl⟩
  refine ⟨rendered, RenderedFunction.paramTypes_decl rendered, fun untagged p hp => ⟨?_, ?_⟩, ?_⟩
  · intro s encrypted
    exact RenderedFunction.exists_bodyText_eq_guardText rendered untagged hp encrypted
  · intro before after checked
    exact RenderedFunction.exists_type_of_checkText rendered untagged hp checked
  · intro tagged
    exact RenderedFunction.exists_bodyText_eq_call (f := f) rendered tagged

/-- Of an encrypted and a plain operand the encrypted one is guarded, in its own type and not in the
type that the sum is computed in. -/
theorem guards_of_shape_mixed :
    let sig := Signature.ofOperation "add" [.encrypted .uint8, .plain .uint16]
      (some (.encrypted .uint16))
    ∃ shape, sig.shape = .ok shape ∧
      (∃ before after, (sig.renderAs shape).bodyText =
        before ++ Shape.guardText "lhs" .uint8 ++ after ∧ "lhs" ∉ words before) ∧
      ∀ before after, (sig.renderAs shape).bodyText ≠ before ++ Shape.checkText "rhs" ++ after := by
  intro sig
  have planned : sig.shape = .ok _ := rfl
  have guards := (guards_of_shape planned).2.2.1 rfl
  refine ⟨_, planned, ?_, ?_⟩
  · exact (guards ⟨.encrypted .uint8, "lhs"⟩ List.mem_cons_self).1 .uint8 rfl
  · intro before after checked
    obtain ⟨_, encrypted, _⟩ := (guards ⟨.plain .uint16, "rhs"⟩
      (List.mem_cons_of_mem _ List.mem_cons_self)).2 before after checked
    cases encrypted

end Signature

end FheSolidity
