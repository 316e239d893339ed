import FheSolidity.Proofs.MemorySink

/-!
# Last writes to a memory sink

Paths are of one place if they have the same steps, and come in the order of their steps: the root,
a leading `.`, `..`, and then names. After any writes a sink holds, for each place that was written
to and in that order, the contents of the last write there.
-/

namespace FheSolidity

/-! ### The order of steps -/

namespace Component

/-- The kinds of steps in their order. -/
def rank : Component → Nat
  | root => 0
  | here => 1
  | up => 2
  | name _ => 3

/-- The order of steps: by their kinds, and of two names by their characters. -/
inductive Before : Component → Component → Prop where
  | kind {c d : Component} (earlier : c.rank < d.rank) : Before c d
  | name {s t : List Char} (earlier : s < t) : Before (name s) (name t)

end Component

variable {α β : Type}

/-- A view that keeps elements apart and keeps their order also keeps the order of lists. -/
theorem lex_map_iff {R : α → α → Prop} {S : β → β → Prop} {view : α → β}
    (apart : Function.Injective view) (keeps : ∀ a b, S (view a) (view b) ↔ R a b)
    {as bs : List α} : List.Lex S (as.map view) (bs.map view) ↔ List.Lex R as bs := by
  induction as generalizing bs with
  | nil =>
    cases bs with
    | nil => exact ⟨nofun, nofun⟩
    | cons b bs => exact ⟨fun _ => .nil, fun _ => .nil⟩
  | cons a as ih =>
    cases bs with
    | nil => exact ⟨nofun, nofun⟩
    | cons b bs =>
      rw [List.map_cons, List.map_cons, List.cons_lex_cons_iff, List.cons_lex_cons_iff, keeps,
        apart.eq_iff, ih]

/-- The order keys of steps are in the order of the steps. -/
theorem Component.key_lt_iff {c d : Component} : c.key < d.key ↔ c.Before d := by
  have split (c : Component) : c.key = c.rank :: c.key.tail := by cases c <;> rfl
  rw [split c, split d, List.cons_lt_cons_iff]
  constructor
  · rintro (earlier | ⟨same, earlier⟩)
    · exact .kind earlier
    · -- Of one kind, only names can differ.
      cases c with
      | root | here | up => cases d <;> first | cases earlier | cases same
      | name s =>
        cases d with
        | root | here | up => cases same
        | name t =>
          exact .name ((lex_map_iff (fun _ _ => Char.toNat_inj.1) fun _ _ => Iff.rfl).1 earlier)
  · rintro (⟨earlier⟩ | ⟨earlier⟩)
    · exact .inl earlier
    · exact .inr ⟨rfl, (lex_map_iff (fun _ _ => Char.toNat_inj.1) fun _ _ => Iff.rfl).2 earlier⟩

namespace Path

variable {p q : Path} {s t : String}

theorem key_eq_map_iff {steps : List Component} :
    p.key = steps.map Component.key ↔ p.components = steps :=
  (List.map_injective_iff.2 fun _ _ => Component.key_inj.1).eq_iff

/-- Paths come in the order of their steps. -/
theorem before_iff :
    p.before q = true ↔ List.Lex Component.Before p.components q.components := by
  rw [before_iff_key]
  exact lex_map_iff (fun _ _ => Component.key_inj.1) fun _ _ => Component.key_lt_iff

/-! ### Spellings of one place -/

/-- What a path starts with is told before its first separator behind something. -/
theorem lead_congr {cs ds ds' : List Char} (hp : p.spelling.toList = cs ++ '/' :: ds)
    (hq : q.spelling.toList = cs ++ '/' :: ds') : p.lead = q.lead := by
  have absolute : p.isAbsolute = q.isAbsolute := by
    rw [isAbsolute, isAbsolute, hp, hq]
    cases cs <;> rfl
  have first : p.segments.head? = q.segments.head? := by
    obtain ⟨segment, rest, hcs⟩ := List.exists_cons_of_ne_nil (Text.pieces_ne_nil '/' cs)
    rw [segments, segments, hp, hq, Text.pieces_append_sep, Text.pieces_append_sep, hcs]
    rfl
  rw [lead, lead, absolute, first]

/-- Two paths that go on alike behind a separator are of one place. -/
theorem components_congr (cs : List Char) {ds ds' : List Char}
    (hp : p.spelling.toList = cs ++ '/' :: ds)
    (hq : q.spelling.toList = cs ++ '/' :: ds') (same : inner ds = inner ds') :
    p.components = q.components := by
  rw [components_eq, components_eq, lead_congr hp hq, hp, hq, inner_append_sep, inner_append_sep,
    same]

theorem components_sep_end (nonempty : s ≠ "") :
    (⟨s ++ "/"⟩ : Path).components = (⟨s⟩ : Path).components := by
  have spelled : (s ++ "/").toList = s.toList ++ '/' :: [] := by simp
  have chars : s.toList ≠ [] := by simpa using nonempty
  have absolute : (⟨s ++ "/"⟩ : Path).isAbsolute = (⟨s⟩ : Path).isAbsolute := by
    rw [isAbsolute, isAbsolute, spelled, List.head?_append_of_ne_nil _ chars]
  have first : (⟨s ++ "/"⟩ : Path).segments.head? = (⟨s⟩ : Path).segments.head? := by
    rw [segments, segments, spelled, Text.pieces_append_sep,
      List.head?_append_of_ne_nil _ (Text.pieces_ne_nil '/' s.toList)]
  have starts : (⟨s ++ "/"⟩ : Path).lead = (⟨s⟩ : Path).lead := by
    rw [lead, lead, absolute, first]
  rw [components_eq, components_eq, starts, spelled, inner_append_sep_end]

theorem components_here_sep (s : String) :
    (⟨"./" ++ s⟩ : Path).components = .here :: inner s.toList := by
  have spelled : (⟨"./" ++ s⟩ : Path).spelling.toList = ['.'] ++ '/' :: s.toList := by simp
  have alone : (⟨"./"⟩ : Path).spelling.toList = ['.'] ++ '/' :: [] := rfl
  have starts : (⟨"./" ++ s⟩ : Path).lead = (⟨"./"⟩ : Path).lead := lead_congr spelled alone
  rw [components_eq, starts, spelled, inner_append_sep]
  rfl

/-- What plays no part in the spelling of a path, and what does: separators that are repeated or
stand at the end and a `.` behind a separator play none, a leading `.` does. -/
structure IgnoresIdleParts (place : Path → List Component) : Prop where
  repeatedSep (s t : String) : place ⟨s ++ "//" ++ t⟩ = place ⟨s ++ "/" ++ t⟩
  innerDot (s t : String) : place ⟨s ++ "/./" ++ t⟩ = place ⟨s ++ "/" ++ t⟩
  finalDot (s : String) : place ⟨s ++ "/."⟩ = place ⟨s ++ "/"⟩
  finalSep (s : String) : s ≠ "" → place ⟨s ++ "/"⟩ = place ⟨s⟩
  leadingDot (s : String) : (place ⟨s⟩).head? ≠ some .here → place ⟨"./" ++ s⟩ ≠ place ⟨s⟩

theorem ignoresIdleParts_components : IgnoresIdleParts components where
  repeatedSep s t :=
    components_congr s.toList (by simp) (by simp) (inner_sep t.toList)
  innerDot s t :=
    components_congr s.toList (by simp) (by simp) (inner_append_sep ['.'] t.toList)
  finalDot s := by
    have none : inner ['.'] = inner [] := rfl
    exact components_congr s.toList (by simp) (by simp) none
  finalSep _ := components_sep_end
  leadingDot s other same := by
    rw [← same, components_here_sep] at other
    exact other rfl

end Path

/-! ### What a sink holds -/

namespace MemorySink

variable {files : List Artifact} {p : Path} {text : String}

/-- A file is written to the place of a path, and none after it. -/
def IsLastWrite (files : List Artifact) (p : Path) (a : Artifact) : Prop :=
  ∃ before after, files = before ++ a :: after ∧ a.path.components = p.components ∧
    ∀ b ∈ after, b.path.components ≠ p.components

theorem get?_writeAll_empty (files : List Artifact) (p : Path) :
    (empty.writeAll files).get? p =
      (files.reverse.find? fun a => p.same a.path).map Artifact.contents := by
  rw [get?_writeAll]
  exact Option.or_none

theorem get?_writeAll_empty_eq_some_iff : (empty.writeAll files).get? p = some text ↔
    ∃ a, IsLastWrite files p a ∧ a.contents = text := by
  rw [get?_writeAll_empty, Option.map_eq_some_iff]
  refine exists_congr fun a => and_congr_left fun _ => ?_
  rw [List.find?_eq_some_iff_append, Path.same_iff]
  constructor
  · rintro ⟨own, after, before, whole, later⟩
    refine ⟨before.reverse, after.reverse, ?_, own.symm, fun b hb same => ?_⟩
    · rw [← List.reverse_reverse files, whole]
      simp
    · have other := later b (List.mem_reverse.1 hb)
      rw [Path.same_iff.2 same.symm] at other
      cases other
  · rintro ⟨before, after, rfl, own, later⟩
    refine ⟨own.symm, after.reverse, before.reverse, by simp, fun b hb => ?_⟩
    rw [Bool.not_eq_true', Bool.eq_false_iff, ne_eq, Path.same_iff]
    exact fun same => later b (List.mem_reverse.1 hb) same.symm

theorem get?_writeAll_empty_eq_none_iff : (empty.writeAll files).get? p = none ↔
    ∀ a ∈ files, a.path.components ≠ p.components := by
  rw [get?_writeAll_empty, Option.map_eq_none_iff, List.find?_eq_none]
  refine ⟨fun none a ha same => ?_, fun none a ha same => ?_⟩
  · exact none a (List.mem_reverse.2 ha) (Path.same_iff.2 same.symm)
  · exact none a (List.mem_reverse.1 ha) (Path.same_iff.1 same).symm

theorem components_mem_paths_iff {steps : List Component} :
    steps ∈ (empty.writeAll files).paths.map Path.components ↔
      steps ∈ files.map (·.path.components) := by
  have written : (∃ f ∈ (empty.writeAll files).files, f.1.key = steps.map Component.key) ↔ _ :=
    mem_key_writeAll_iff
  simp only [Path.key_eq_map_iff] at written
  simpa [paths, empty] using written

/-- **A sink holds the last write to each place.** After any writes to an empty sink, what it has
for a path is the contents of the last write to a path with the same steps, and nothing if there is
none. Its paths come in the strict order of their steps and are those of the places written to,
which are as many as the sink counts. -/
theorem holds_last_writes (files : List Artifact) :
    (∀ p text, (empty.writeAll files).get? p = some text ↔
      ∃ a, IsLastWrite files p a ∧ a.contents = text) ∧
    (∀ p, (empty.writeAll files).get? p = none ↔
      ∀ a ∈ files, a.path.components ≠ p.components) ∧
    (empty.writeAll files).paths.Pairwise
      (fun p q => List.Lex Component.Before p.components q.components) ∧
    (∀ steps, steps ∈ (empty.writeAll files).paths.map Path.components ↔
      steps ∈ files.map (·.path.components)) ∧
    (empty.writeAll files).size = (files.map (·.path.components)).dedup.length ∧
    Path.IgnoresIdleParts Path.components := by
  refine ⟨fun p text => get?_writeAll_empty_eq_some_iff, fun p => get?_writeAll_empty_eq_none_iff,
    ?_, fun steps => components_mem_paths_iff, size_writeAll_empty files,
    Path.ignoresIdleParts_components⟩
  have sorted : IsSorted (empty.writeAll files).files := isSorted_writeAll List.Pairwise.nil files
  rw [paths, List.pairwise_map]
  exact sorted.imp Path.before_iff.1

/-- The last write replaces the first, whose spelling of the place stays. -/
example : (empty.writeAll [⟨.library, ⟨"a//b/./c/"⟩, "1"⟩, ⟨.library, ⟨"./a/b/c"⟩, "2"⟩,
    ⟨.library, ⟨"a/b/c"⟩, "3"⟩]).files = [(⟨"./a/b/c"⟩, "2"), (⟨"a//b/./c/"⟩, "3")] := by
  decide +kernel

end MemorySink

end FheSolidity
