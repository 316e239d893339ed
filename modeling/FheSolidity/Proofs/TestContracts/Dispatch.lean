import FheSolidity.Proofs.CodeLines
import FheSolidity.Proofs.TestContracts.Branches

/-!
# What a test function does for a selector

`TestContract.run` reads the printed lines of a test function: the conditions of its chain are tried
from the top, the first one that holds leads into the statements below it, and where none holds the
function reverts. So it depends on the text alone which branch is taken. What is printed for some
branches takes the first of them that is selected: `run_renderBranches`.
-/

namespace FheSolidity

open Solidity (Expr IsBlock IsLiteral IsName isLiteralChar isLiteral_append isLiteral_join
  renderBlock)

theorem Solidity.isName_toString (n : Nat) : IsName (toString n) := by
  have digits : (toString n).toList = Text.decimal n := String.toList_ofList
  constructor
  · rw [digits]
    exact (Text.isSolid_decimal n).ne_nil
  · intro c hc
    rw [digits] at hc
    simp [Solidity.isNameChar, Char.isAlphanum, Text.isDigit_of_mem_decimal hc]

theorem Text.intercalate_cons (sep x : String) (xs : List String) :
    sep.intercalate (x :: xs) = x ++ String.join (xs.map (sep ++ ·)) := by
  induction xs generalizing x with
  | nil => simp
  | cons y ys ih =>
    rw [String.intercalate_cons_cons, ih, List.map_cons, String.join_cons, String.append_assoc,
      String.append_assoc]

namespace TestContract

/-! ### Running the lines of a test function -/

/-- What a test function does for a value of its first parameter. -/
inductive Outcome where
  /-- It runs the statements on some lines. -/
  | enters (statements : List (List Char))
  | reverts (error : String)
  deriving DecidableEq

/-- The indentation of the statements of a branch. -/
def inner : String := "            "

/-- Whether a line belongs to the statements of a branch. -/
def isInner (line : List Char) : Bool :=
  inner.toList.isPrefixOf line

/-- How the line of a condition starts: that of the first branch, or that of the next one where a
branch is passed over. -/
def conditionStart : Bool → String
  | false => "        if (Utils.cmp(test, \""
  | true => "        \x7d else if (Utils.cmp(test, \""

/-- How the line of a condition ends. -/
def conditionEnd : String := "\")) \x7b"

/-- The line behind the last branch. -/
def chainEnd : String := "        \x7d"

/-- The text that the condition on a line compares with. -/
def condition? (passing : Bool) (line : List Char) : Option String := do
  let rest ← Text.literal? (conditionStart passing).toList line
  let (selector, rest) := rest.span isLiteralChar
  if rest = conditionEnd.toList then some (String.ofList selector) else none

/-- The error that a line reverts with. -/
def revert? (line : List Char) : Option String := do
  let rest ← Text.literal? "        revert ".toList line
  if rest.getLast? = some ';' then some (String.ofList rest.dropLast) else none

variable (same : String → String → Bool) (test : String)

/-- What the lines of a test function do for the text `test`, where `same` compares two texts and
`passing` tells whether a branch is being passed over. Nothing is known of other lines. -/
def runLines : Bool → List (List Char) → Option Outcome
  | _, [] => none
  | passing, line :: below =>
    match condition? passing line with
    | some selector =>
      if same test selector then some (.enters (below.takeWhile isInner)) else runLines true below
    | none =>
      if passing then
        if isInner line then runLines true below
        else if line = chainEnd.toList then runLines false below
        else none
      else (revert? line).map .reverts

/-- What a test function does for the text `test`, where `text` is printed behind its first line. -/
def run (text : String) : Option Outcome :=
  runLines same test false (Text.lines text.toList)

/-! ### One branch -/

variable {same test} {passing : Bool} {selector body : String} {b : Branch} {bs : List Branch}

theorem condition?_eq_some (literal : IsLiteral selector) :
    condition? passing (conditionStart passing ++ selector ++ conditionEnd).toList =
      some selector := by
  have quote : ∀ c ∈ conditionEnd.toList.head?, isLiteralChar c = false := by
    rintro c hc
    cases hc
    rfl
  have whole : (selector.toList ++ conditionEnd.toList).span isLiteralChar =
      (selector.toList, conditionEnd.toList) :=
    Text.span_append literal quote
  rw [String.toList_append, String.toList_append, List.append_assoc, condition?,
    Text.literal?_append, Option.bind_eq_bind, Option.bind_some, whole]
  simp

theorem condition?_eq_none_of_isInner {line : List Char} (h : isInner line = true) :
    condition? passing line = none := by
  obtain ⟨rest, rfl⟩ := List.isPrefixOf_iff_prefix.1 h
  -- the start of a condition differs from twelve blanks in its ninth character
  cases passing <;> rfl

/-- The statements of a branch that is not taken are passed over. -/
theorem runLines_append_of_isInner {ls : List (List Char)} (h : ∀ l ∈ ls, isInner l = true)
    (below : List (List Char)) :
    runLines same test true (ls ++ below) = runLines same test true below := by
  induction ls with
  | nil => rfl
  | cons l ls ih =>
    obtain ⟨first, later⟩ := List.forall_mem_cons.1 h
    rw [List.cons_append, runLines, condition?_eq_none_of_isInner first]
    simp only [if_true, first, ih later]

theorem isInner_of_isBlock (block : IsBlock inner body) :
    ∀ l ∈ Text.lines body.toList, isInner l = true := fun _ hl =>
  List.isPrefixOf_iff_prefix.2 (block.mem_lines hl)

theorem takeWhile_lines_append (block : IsBlock inner body) {below : List (List Char)}
    (next : ∀ l ∈ below.head?, isInner l = false) :
    (Text.lines body.toList ++ below).takeWhile isInner = Text.lines body.toList := by
  have stop : below.takeWhile isInner = [] := by
    cases below with
    | nil => rfl
    | cons l below => rw [List.takeWhile_cons, next l rfl, if_neg Bool.false_ne_true]
  rw [List.takeWhile_append_of_pos (isInner_of_isBlock block), stop, List.append_nil]

theorem isLine_condition (passing : Bool) (literal : IsLiteral selector) :
    Text.IsLine (conditionStart passing ++ selector ++ conditionEnd).toList := by
  have start : Text.IsLine (conditionStart passing).toList := by cases passing <;> decide
  rw [String.toList_append, String.toList_append]
  exact (start.append literal.isLine).append (by decide)

/-- The condition of a branch and its statements, with what is printed behind them. -/
def link (passing : Bool) (b : Branch) (more : String) : String :=
  conditionStart passing ++ b.selector ++ conditionEnd ++ "\n" ++ renderBlock inner b.body ++ more

/-- A branch is entered if its text is the one that selects it, and passed over if not. -/
theorem runLines_link (literal : IsLiteral b.selector)
    (block : IsBlock inner (renderBlock inner b.body)) {more : String}
    (next : ∀ l ∈ (Text.lines more.toList).head?, isInner l = false) :
    runLines same test passing (Text.lines (link passing b more).toList) =
      if same test b.selector then some (.enters (Text.lines (renderBlock inner b.body).toList))
      else runLines same test true (Text.lines more.toList) := by
  have line := isLine_condition passing literal
  have noFeed : '\n' ∉ (conditionStart passing ++ b.selector ++ conditionEnd).toList :=
    fun feed => (line '\n' feed).1 rfl
  have text : (link passing b more).toList =
      (conditionStart passing ++ b.selector ++ conditionEnd).toList ++
        '\n' :: ((renderBlock inner b.body).toList ++ more.toList) := by
    simp [link]
  rw [text, Text.lines_append_cons noFeed, Text.dropReturn_eq_self line, block.lines_append,
    runLines, condition?_eq_some literal]
  dsimp only
  rw [takeWhile_lines_append block next, runLines_append_of_isInner (isInner_of_isBlock block)]

/-! ### The whole chain -/

/-- The end of a test function and of its contract. -/
def ending : String := "        revert TestNotFound(test);\n    \x7d\n\x7d\n"

/-- What is printed behind the statements of a branch that others follow. -/
def behind (bs : List Branch) : String :=
  chainEnd ++ String.join (bs.map fun b => " else " ++ renderBranch b) ++ "\n" ++ ending

/-- A branch is printed as one link, whatever stands in front of its condition. -/
theorem append_renderBranch {start : String}
    (own : conditionStart passing = start ++ "if (Utils.cmp(test, \"") (b : Branch)
    (more : String) : start ++ (renderBranch b ++ more) = link passing b (chainEnd ++ more) := by
  have stop : "\")) \x7b\n" = conditionEnd ++ "\n" := by decide
  unfold renderBranch
  simp only [link, own, chainEnd, inner, stop, String.append_assoc]

/-- The next branch stands on the line that ends the statements of the last one. -/
theorem behind_cons : behind (b :: bs) = link true b (behind bs) := by
  have own : conditionStart true = chainEnd ++ " else " ++ "if (Utils.cmp(test, \"" := by
    decide +kernel
  have next := append_renderBranch own b
    (String.join (bs.map fun b => " else " ++ renderBranch b) ++ "\n" ++ ending)
  simpa only [behind, List.map_cons, String.join_cons, String.append_assoc] using next

theorem renderBranches_cons_append :
    renderBranches (b :: bs) ++ ending = link false b (behind bs) := by
  have own : conditionStart false = "        " ++ "if (Utils.cmp(test, \"" := by decide +kernel
  have first := append_renderBranch own b
    (String.join (bs.map fun b => " else " ++ renderBranch b) ++ "\n" ++ ending)
  rw [renderBranches, List.isEmpty_cons, if_neg Bool.false_ne_true, List.map_cons,
    Text.intercalate_cons, List.map_map]
  simpa only [behind, Function.comp_def, String.append_assoc] using first

/-- What is done with the branch that was found. -/
def outcome : Option Branch → Outcome
  | some b => .enters (Text.lines (renderBlock inner b.body).toList)
  | none => .reverts "TestNotFound(test)"

/-- A branch that can be told from the lines around it. -/
structure IsPrintable (b : Branch) : Prop where
  selector : IsLiteral b.selector
  body : IsBlock inner (renderBlock inner b.body)

theorem not_isInner_behind (bs : List Branch) :
    ∀ l ∈ (Text.lines (behind bs).toList).head?, isInner l = false := by
  have brace : chainEnd.toList = "        ".toList ++ ['\x7d'] := by decide
  obtain ⟨after, text⟩ : ∃ after, behind bs = chainEnd ++ after :=
    ⟨_, (String.append_assoc ..).trans (String.append_assoc ..)⟩
  obtain ⟨right, below, read⟩ :=
    Text.exists_lines_cons (x := '\x7d') (by decide) (by decide) after.toList
  rw [text, String.toList_append, brace, List.append_assoc, List.singleton_append,
    read _ (by decide)]
  rintro l hl
  cases hl
  rfl

/-- One branch is tried before the branches behind it. -/
theorem runLines_link_behind (first : IsPrintable b)
    (later : runLines same test true (Text.lines (behind bs).toList) =
      some (outcome (bs.find? fun b => same test b.selector))) :
    runLines same test passing (Text.lines (link passing b (behind bs)).toList) =
      some (outcome ((b :: bs).find? fun b => same test b.selector)) := by
  rw [runLines_link first.selector first.body (not_isInner_behind bs), later, List.find?_cons]
  cases same test b.selector <;> rfl

theorem runLines_behind (printable : ∀ b ∈ bs, IsPrintable b) :
    runLines same test true (Text.lines (behind bs).toList) =
      some (outcome (bs.find? fun b => same test b.selector)) := by
  induction bs with
  | nil => rfl
  | cons b bs ih =>
    obtain ⟨first, later⟩ := List.forall_mem_cons.1 printable
    rw [behind_cons]
    exact runLines_link_behind first (ih later)

/-- What is printed for some branches takes the first that is selected, or reverts. -/
theorem run_renderBranches (printable : ∀ b ∈ bs, IsPrintable b) :
    run same test (renderBranches bs ++ ending) =
      some (outcome (bs.find? fun b => same test b.selector)) := by
  cases bs with
  | nil => rfl
  | cons b bs =>
    obtain ⟨first, later⟩ := List.forall_mem_cons.1 printable
    rw [run, renderBranches_cons_append]
    exact runLines_link_behind first (runLines_behind later)

end TestContract

/-! ### The texts of a test contract -/

namespace TestParam

variable {p : TestParam} {t : ValueType} {e : Expr}

theorem isName_name_of_mem_ofKinds {kinds : List InputKind} (h : p ∈ ofKinds kinds) :
    IsName p.name := by
  obtain ⟨i, hi, rfl⟩ := List.mem_mapIdx.1 h
  have operand : IsName (operandName i) := by
    unfold operandName
    split <;> decide
  have input : IsName ("input" ++ toString (i + 1)) :=
    IsName.append (by decide) (Solidity.isName_toString (i + 1))
  unfold ofKind
  split
  · next t _ =>
    cases t with
    | bytes32 => exact (by decide : IsName "pubkey")
    | bytes => exact (by decide : IsName "data")
    | seed => exact (by decide : IsName "seed")
    | zone => exact (by decide : IsName "securityZone")
    | input | sealed => exact input
  · exact operand

theorem isLiteral_declaration (p : TestParam) : IsLiteral p.declaration := by
  have type := p.type.isName_name.isLiteral
  rw [declaration, ValueType.declaredAt]
  split
  · exact (type.append (by decide)).append (by decide)
  · exact type

theorem Supplies.isLiteral_texts (h : p.Supplies t e) (name : IsName p.name) :
    ∀ x ∈ e.texts, IsLiteral x := by
  have own := name.isLiteral
  cases h with
  | encrypted s =>
    have cast : IsLiteral ("FHE.asE" ++ s.name) := by cases s <;> decide
    simp [Expr.apply, cast, own]
  | @narrow s =>
    have type : IsLiteral s.name := by cases s <;> decide
    simp [Expr.apply, type, own]
  | bool | address => simp +decide [Expr.apply, own]
  | uint256 | fixed => simpa using own

end TestParam

namespace Branch

variable {b : Branch}

theorem isLiteral_texts_call (symbol : IsName b.signature.symbol)
    (form : ∀ sign, b.form = .operator sign → IsLiteral sign)
    (arguments : ∀ x ∈ Expr.allTexts b.arguments, IsLiteral x) :
    ∀ x ∈ b.call.texts, IsLiteral x := by
  have own := symbol.isLiteral
  have qualified : IsLiteral ("FHE." ++ b.signature.symbol) := IsLiteral.append (by decide) own
  unfold call
  split <;> simp_all [Expr.apply, Library.qualified, or_imp, forall_and]

/-- Code that hands back a result prints names, numbers and what the call prints. -/
theorem isLiteral_texts_result {e : Expr} (h : ∀ x ∈ e.texts, IsLiteral x)
    (returns : Option ValueType) : ∀ st ∈ result e returns, ∀ x ∈ st.texts, IsLiteral x := by
  unfold result scalarResult
  split <;> (try split) <;> simp_all +decide [Expr.apply, Library.qualified, or_imp]

/-- No branch is left without a result. -/
theorem exists_getLast?_body (b : Branch) : ∃ value, b.body.getLast? = some (.ret value) := by
  unfold body result scalarResult
  split <;> (try split) <;> exact ⟨_, rfl⟩

end Branch

namespace TestContract

/-- What stands in the first line of a test function behind the parameter that selects. -/
def headerEnd (c : TestContract) : String :=
  String.join (c.params.map fun p => ", " ++ (p.declaration ++ " " ++ p.name)) ++ ") public" ++
    (if c.isPure then " pure" else "") ++ " returns (" ++ c.outputDeclaration ++ ")"

theorem isLiteral_headerEnd (ro : RenderedOperation) : IsLiteral (ofOperation ro).headerEnd := by
  have params : IsLiteral (String.join ((ofOperation ro).params.map
      fun p => ", " ++ (p.declaration ++ " " ++ p.name))) := by
    refine isLiteral_join fun x hx => ?_
    obtain ⟨p, hp, rfl⟩ := List.mem_map.1 hx
    have name := TestParam.isName_name_of_mem_ofKinds hp
    simp +decide only [isLiteral_append, p.isLiteral_declaration, name.isLiteral, and_self]
  have mutability : IsLiteral (if (ofOperation ro).isPure then " pure" else "") := by
    split <;> decide
  have output : IsLiteral (ofOperation ro).outputDeclaration := by
    unfold outputDeclaration
    split <;> decide
  simp +decide only [headerEnd, isLiteral_append, params, mutability, output, and_self]

theorem signatureLine_eq (c : TestContract) : c.signatureLine =
    "    function " ++ c.operation ++ "(string calldata test" ++ c.headerEnd ++ " \x7b\n" := by
  have opening : "(" ++ "string calldata test" = "(string calldata test" := by decide
  have closing : ")" ++ " \x7b\n" = ") \x7b\n" := by decide
  unfold signatureLine
  rw [headerEnd, Text.intercalate_cons, List.map_map, ← opening, ← closing]
  simp only [Function.comp_def, String.append_assoc]

theorem render_eq (c : TestContract) (config : Config) : ∃ above, c.render config =
    above ++ c.signatureLine ++ (renderBranches c.branches ++ ending) :=
  ⟨_, String.append_assoc ..⟩

end TestContract

end FheSolidity
