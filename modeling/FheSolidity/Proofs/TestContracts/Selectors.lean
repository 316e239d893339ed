import FheSolidity.Proofs.Selectors
import FheSolidity.Proofs.TestContracts.Dispatch

/-!
# Selectors of a test contract

A test function compares its first argument with the selector of one branch after the other. Every
selector starts with a name, and the character behind the name tells how the branch calls its
function; what is left then tells which function that is. So no branch hides another one:
`selectors_dispatch`.
-/

namespace FheSolidity

open Solidity (Expr IsName IsLiteral Stmt isNameChar renderBlock)

/-- The character behind the first name of a selector. -/
def CallForm.mark : CallForm → Char
  | .direct => '('
  | .method => '.'
  | .operator _ => ' '

theorem CallForm.isNameChar_mark (form : CallForm) : isNameChar form.mark = false := by
  cases form <;> rfl

theorem Operator.isLiteral_symbol {o : Operator} (h : o ∈ Operator.all) : IsLiteral o.symbol := by
  revert o
  decide +kernel

namespace Branch

variable {sig : Signature} {arguments : List Solidity.Expr} {t : ValueType} {rest : List ValueType}

/-- What tells a branch from the other branches of a contract. -/
def key (b : Branch) : CallForm × OverloadKey :=
  (b.form, b.signature.overloadKey)

theorem selector_direct (sig : Signature) (arguments : List Solidity.Expr) :
    (Branch.mk .direct sig arguments).selector = selectorText sig.symbol sig.inputs :=
  rfl

theorem selector_method (inputs : sig.inputs = t :: rest) :
    (Branch.mk .method sig arguments).selector =
      t.name ++ "." ++ selectorText sig.symbol rest := by
  simp [selector, inputs, selectorText, String.append_assoc]

theorem selector_operator {symbol : String} (inputs : sig.inputs = t :: rest) :
    (Branch.mk (.operator symbol) sig arguments).selector =
      t.name ++ " " ++ symbol ++ " " ++ t.name := by
  simp [selector, inputs]

theorem toList_selector_method (inputs : sig.inputs = t :: rest) :
    (Branch.mk .method sig arguments).selector.toList =
      t.name.toList ++ '.' :: (selectorText sig.symbol rest).toList := by
  simp [selector_method inputs]

theorem toList_selector_operator {symbol : String} (inputs : sig.inputs = t :: rest) :
    (Branch.mk (.operator symbol) sig arguments).selector.toList =
      t.name.toList ++ ' ' :: (symbol ++ " " ++ t.name).toList := by
  simp [selector_operator inputs]

end Branch

namespace RenderedFunction

variable {f g : RenderedFunction} {operator : Option Operator} {form form' : CallForm}
  {params : List TestParam} {arguments arguments' : List Solidity.Expr}

/-- A selector is a name, the character that tells the form of the call, and the rest. -/
theorem IsTestedBy.exists_toList_selector (h : f.IsTestedBy operator form)
    (name : IsName f.signature.symbol) (arguments : List Solidity.Expr) :
    ∃ head tail, IsName head ∧
      (Branch.mk form f.signature arguments).selector.toList = head.toList ++ form.mark :: tail := by
  cases h with
  | direct =>
    rw [Branch.selector_direct, toList_selectorText]
    exact ⟨_, _, name, rfl⟩
  | method receiver =>
    exact ⟨_, _, ValueType.isName_name _, Branch.toList_selector_method receiver⟩
  | operator _ _ closed =>
    have operands := (isClosedBinary_iff.1 closed).2.2.1
    exact ⟨_, _, ValueType.isName_name _, Branch.toList_selector_operator operands⟩

theorem IsTestedBy.mark_eq (h : f.IsTestedBy operator form) (h' : g.IsTestedBy operator form')
    (name : IsName f.signature.symbol) (name' : IsName g.signature.symbol)
    (same : (Branch.mk form f.signature arguments).selector =
      (Branch.mk form' g.signature arguments').selector) : form.mark = form'.mark := by
  obtain ⟨head, tail, hhead, htext⟩ := h.exists_toList_selector name arguments
  obtain ⟨head', tail', hhead', htext'⟩ := h'.exists_toList_selector name' arguments'
  rw [same, htext', hhead'.append_cons_inj hhead form'.isNameChar_mark form.isNameChar_mark] at htext
  exact htext.2.1.symm

/-- Functions of one operation that are selected by one text are called in the same way and are
the same overload. -/
theorem IsTestedBy.key_eq (h : f.IsTestedBy operator form) (h' : g.IsTestedBy operator form')
    (name : IsName f.signature.symbol) (name' : IsName g.signature.symbol)
    (operation : f.signature.operation = g.signature.operation)
    (same : (Branch.mk form f.signature arguments).selector =
      (Branch.mk form' g.signature arguments').selector) :
    form = form' ∧ f.signature.overloadKey = g.signature.overloadKey := by
  have mark := h.mark_eq h' name name' same
  -- The mark leaves only the cases where both branches have the same form.
  cases h with
  | direct =>
    cases h' with
    | direct => exact ⟨rfl, Signature.selector_inj.1 same⟩
    | method | operator => exact absurd mark (by simp [CallForm.mark])
  | method receiver =>
    cases h' with
    | method receiver' =>
      rw [← String.toList_inj, Branch.toList_selector_method receiver,
        Branch.toList_selector_method receiver', (ValueType.isName_name _).append_cons_inj
          (ValueType.isName_name _) (by decide) (by decide), String.toList_inj] at same
      obtain ⟨first, _, others⟩ := same
      obtain ⟨symbol, inputs⟩ := selectorText_inj.1 others
      rw [Signature.overloadKey, Signature.overloadKey, symbol, receiver, receiver', List.map_cons,
        List.map_cons, first, inputs]
      exact ⟨rfl, rfl⟩
    | direct | operator => exact absurd mark (by simp [CallForm.mark])
  | operator stands _ closed =>
    cases h' with
    | operator stands' _ closed' =>
      obtain ⟨_, own, operands, _⟩ := isClosedBinary_iff.1 closed
      obtain ⟨_, own', operands', _⟩ := isClosedBinary_iff.1 closed'
      cases stands.symm.trans stands'
      rw [← String.toList_inj, Branch.toList_selector_operator operands,
        Branch.toList_selector_operator operands', (ValueType.isName_name _).append_cons_inj
          (ValueType.isName_name _) (by decide) (by decide)] at same
      refine ⟨rfl, ?_⟩
      rw [Signature.overloadKey, Signature.overloadKey, own, own', operation, operands, operands']
      simp only [List.map_cons, List.map_nil, same.1]
    | direct | method => exact absurd mark (by simp [CallForm.mark])

/-- Selectors need no escapes where they stand in generated code. -/
theorem IsTestedBy.isLiteral_selector (h : f.IsTestedBy operator form)
    (name : IsName f.signature.symbol) (stands : ∀ o, operator = some o → o ∈ Operator.all)
    (arguments : List Solidity.Expr) :
    IsLiteral (Branch.mk form f.signature arguments).selector := by
  cases h with
  | direct => exact isLiteral_selectorText name _
  | @method s rest receiver =>
    have type := (ValueType.isName_name (.encrypted s)).isLiteral
    rw [Branch.selector_method receiver]
    exact (type.append (by decide)).append (isLiteral_selectorText name rest)
  | @operator s o is _ closed =>
    have type := (ValueType.isName_name (.encrypted s)).isLiteral
    have blank : IsLiteral " " := by decide
    rw [Branch.selector_operator (isClosedBinary_iff.1 closed).2.2.1]
    have symbol := Operator.isLiteral_symbol (stands o is)
    exact (((type.append blank).append symbol).append blank).append type

/-- A function is called in different ways. -/
theorem nodup_forms_branches (f : RenderedFunction) (operator : Option Operator)
    (params : List TestParam) : ((f.branches operator params).map Branch.form).Nodup := by
  unfold branches
  split
  · cases operator with
    | none => split <;> simp
    | some o =>
      dsimp only
      split <;> split <;> simp
  · simp

end RenderedFunction

namespace TestContract

variable {op : Operation} {r : Rules} {ro : RenderedOperation} {same : String → String → Bool}

/-- No function is called twice in the same way. -/
theorem nodup_keys (h : op.render r = .ok ro) :
    ((ofOperation ro).branches.map Branch.key).Nodup := by
  have overloads := Operation.nodup_overloads_of_render h
  rw [RenderedOperation.overloads, List.map_map] at overloads
  rw [ofOperation, List.map_flatMap]
  refine nodup_flatMap_of_tells overloads.of_map (fun f _ => ?_) ?_
  · refine .of_map Prod.fst ?_
    rw [List.map_map]
    exact f.nodup_forms_branches _ _
  · intro f hf g hg k hk hk'
    obtain ⟨b, hb, rfl⟩ := List.mem_map.1 hk
    obtain ⟨b', hb', heq⟩ := List.mem_map.1 hk'
    have called := (RenderedFunction.mem_branches_iff.1 hb).2.1
    have called' := (RenderedFunction.mem_branches_iff.1 hb').2.1
    have key : b'.signature.overloadKey = b.signature.overloadKey := congrArg Prod.snd heq
    rw [called, called'] at key
    exact List.inj_on_of_nodup_map overloads hf hg key.symm

theorem isName_symbol_of_mem (h : op.render r = .ok ro) {f : RenderedFunction}
    (hf : f ∈ ro.functions) : IsName f.signature.symbol := by
  obtain ⟨emits, known⟩ := Operation.emits_of_mem_render h hf
  exact emits.hasSymbol.isName known

/-- The selector of a branch tells it from the other branches. -/
theorem key_eq_of_selector_eq (h : op.render r = .ok ro) {b b' : Branch}
    (hb : b ∈ (ofOperation ro).branches) (hb' : b' ∈ (ofOperation ro).branches)
    (selector : b.selector = b'.selector) : b.key = b'.key := by
  obtain ⟨f, hf, tested, called, _⟩ := mem_branches_ofOperation_iff.1 hb
  obtain ⟨g, hg, tested', called', _⟩ := mem_branches_ofOperation_iff.1 hb'
  obtain ⟨form, signature, arguments⟩ := b
  obtain ⟨form', signature', arguments'⟩ := b'
  cases called
  cases called'
  have operation : f.signature.operation = g.signature.operation :=
    (Operation.emits_of_mem_render h hf).1.operation.trans
      (Operation.emits_of_mem_render h hg).1.operation.symm
  exact Prod.ext_iff.2 (tested.key_eq tested' (isName_symbol_of_mem h hf)
    (isName_symbol_of_mem h hg) operation selector)

theorem nodup_selectors (h : op.render r = .ok ro) :
    ((ofOperation ro).branches.map Branch.selector).Nodup := by
  have keys := nodup_keys h
  rw [List.Nodup, List.pairwise_map] at keys ⊢
  exact keys.imp_of_mem fun hb hb' differ selector =>
    differ (key_eq_of_selector_eq h hb hb' selector)

theorem isLiteral_selector_of_mem (h : op.render r = .ok ro) {b : Branch}
    (hb : b ∈ (ofOperation ro).branches) : IsLiteral b.selector := by
  obtain ⟨f, hf, tested, called, _⟩ := mem_branches_ofOperation_iff.1 hb
  obtain ⟨form, signature, arguments⟩ := b
  cases called
  exact tested.isLiteral_selector (isName_symbol_of_mem h hf)
    (fun o stands => (Operator.ofOperation?_eq_some_iff.1 stands).1) arguments

theorem isLiteral_arguments_of_mem (h : op.render r = .ok ro) {b : Branch}
    (hb : b ∈ (ofOperation ro).branches) : ∀ x ∈ Expr.allTexts b.arguments, IsLiteral x := by
  intro x hx
  obtain ⟨e, he, hx⟩ := Expr.mem_allTexts.1 hx
  obtain ⟨i, hi⟩ := List.mem_iff_getElem?.1 he
  have supplied := isSuppliedBy_of_mem_branches h hb
  obtain ⟨inside, _⟩ := List.getElem?_eq_some_iff.1 hi
  rw [supplied.length] at inside
  obtain ⟨p, e', hp, hi', supplies⟩ := supplied.argument i inside
  cases hi.symm.trans hi'
  exact supplies.isLiteral_texts
    (TestParam.isName_name_of_mem_ofKinds (List.mem_of_getElem? hp)) x hx

theorem isPrintable_of_mem (h : op.render r = .ok ro) {b : Branch}
    (hb : b ∈ (ofOperation ro).branches) : IsPrintable b := by
  obtain ⟨f, hf, tested, called, _⟩ := mem_branches_ofOperation_iff.1 hb
  have symbol : IsName b.signature.symbol := called ▸ isName_symbol_of_mem h hf
  have sign : ∀ sign, b.form = .operator sign → IsLiteral sign := by
    intro sign form
    rw [form] at tested
    cases tested with
    | operator stands =>
      exact Operator.isLiteral_symbol (Operator.ofOperation?_eq_some_iff.1 stands).1
  have call := Branch.isLiteral_texts_call symbol sign (isLiteral_arguments_of_mem h hb)
  exact ⟨isLiteral_selector_of_mem h hb,
    Stmt.isBlock_renderBlock (by decide) (Branch.isLiteral_texts_result call _)⟩

/-- **Every branch of a test contract is reached.** The selectors of all branches, whatever way they
call their functions in, are different texts that stand for themselves in the code, and every
function has a branch under its own selector. So the test function, as it is printed behind the line
that declares its first parameter, enters a branch exactly for the selector of that branch and
returns from there, and reverts for a text that is no selector. -/
theorem selectors_dispatch (h : op.render r = .ok ro)
    (compares : ∀ x y, same x y = true ↔ x = y) (config : Config) :
    ((ofOperation ro).branches.map Branch.selector).Nodup ∧
      (∀ b ∈ (ofOperation ro).branches, IsLiteral b.selector) ∧
      (∀ f ∈ ro.functions, ∃ b ∈ (ofOperation ro).branches, b.form = .direct ∧
        b.signature = f.signature ∧ b.selector = f.signature.selector) ∧
      ∃ above more text, IsLiteral more ∧ (ofOperation ro).render config = above ++
          ("    function " ++ op.name ++ "(string calldata test" ++ more ++ " \x7b\n") ++ text ∧
        (∀ b ∈ (ofOperation ro).branches,
          run same b.selector text =
              some (.enters (Text.lines (renderBlock "            " b.body).toList)) ∧
            ∃ value, b.body.getLast? = some (.ret value)) ∧
        ∀ test, test ∉ (ofOperation ro).branches.map Branch.selector →
          run same test text = some (.reverts "TestNotFound(test)") := by
  refine ⟨nodup_selectors h, fun b hb => isLiteral_selector_of_mem h hb, ?_, ?_⟩
  · intro f hf
    have direct : (⟨.direct, f.signature, _⟩ : Branch) ∈ (ofOperation ro).branches :=
      mem_branches_ofOperation_iff.2 ⟨f, hf, .direct, rfl, rfl⟩
    exact ⟨_, direct, rfl, rfl, rfl⟩
  · obtain ⟨above, text⟩ := render_eq (ofOperation ro) config
    have taken (test : String) :
        run same test (renderBranches (ofOperation ro).branches ++ ending) =
          some (outcome ((ofOperation ro).branches.find? fun b => same test b.selector)) :=
      run_renderBranches fun b hb => isPrintable_of_mem h hb
    have name : (ofOperation ro).operation = op.name := by
      rw [ofOperation, (Operation.render_eq_ok_iff.1 h).1]
    rw [signatureLine_eq, name] at text
    refine ⟨above, _, _, isLiteral_headerEnd ro, text, ?_, ?_⟩
    · intro b hb
      rw [taken, find?_eq_some_of_nodup_map compares (nodup_selectors h) hb]
      exact ⟨rfl, b.exists_getLast?_body⟩
    · intro test unknown
      have passed : ((ofOperation ro).branches.find? fun b => same test b.selector) = none := by
        rw [List.find?_eq_none]
        intro b hb matches'
        rw [(compares _ _).1 matches'] at unknown
        exact unknown (List.mem_map_of_mem hb)
      rw [taken, passed]
      rfl

/-- The test function of addition takes the three ways to add two values of a type for three
texts. It enters the sum under the operator, and reverts for a difference. -/
theorem selectors_dispatch_add :
    let add : Operation := { name := "add", inputs := [.encrypted, .encrypted] }
    ∃ ro, add.render .standard = .ok ro ∧
      ((ofOperation ro).branches.map Branch.selector).take 3 =
        ["add(euint8,euint8)", "euint8.add(euint8)", "euint8 + euint8"] ∧
      ∃ above more text, (ofOperation ro).render {} =
          above ++ ("    function add(string calldata test" ++ more ++ " \x7b\n") ++ text ∧
        run (· == ·) "euint8 + euint8" text = some (.enters
          ["            return uint256(FHE.decrypt(FHE.asEuint8(a) + FHE.asEuint8(b)));".toList]) ∧
        run (· == ·) "euint8 - euint8" text = some (.reverts "TestNotFound(test)") := by
  intro add
  have made : add.render .standard = .ok _ := rfl
  have compares (x y : String) : (x == y) = true ↔ x = y := beq_iff_eq
  obtain ⟨_, _, _, above, more, text, _, printed, entered, reverted⟩ :=
    selectors_dispatch made compares {}
  let sum : Branch :=
    { form := .operator "+"
      signature :=
        .ofOperation "add" [.encrypted .uint8, .encrypted .uint8] (some (.encrypted .uint8))
      arguments := [.apply "FHE.asEuint8" [.name "a"], .apply "FHE.asEuint8" [.name "b"]] }
  have selector : sum.selector = "euint8 + euint8" := by decide +kernel
  have statements : Text.lines (renderBlock "            " sum.body).toList =
      ["            return uint256(FHE.decrypt(FHE.asEuint8(a) + FHE.asEuint8(b)));".toList] := by
    decide +kernel
  have taken := (entered sum (List.mem_of_getElem? (i := 2) rfl)).1
  rw [selector, statements] at taken
  exact ⟨_, made, by decide +kernel, above, more, text, printed, taken,
    reverted _ (by decide +kernel)⟩

end TestContract

end FheSolidity
