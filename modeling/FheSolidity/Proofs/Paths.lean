import Mathlib.Data.List.Infix
import Mathlib.Data.List.TakeWhile
import FheSolidity.Path
import FheSolidity.Proofs.Text

/-!
# Steps of paths

The components of a path are what it starts with and then the components of its segments, so a
joined path has the components of both paths, a path of one segment has one component, and the
parent of a path has all of its components but the last.
-/

namespace FheSolidity

theorem Component.key_inj {a b : Component} : a.key = b.key ↔ a = b := by
  constructor
  · intro h
    cases a with
    | root | here | up => cases b <;> simp [Component.key] at h ⊢
    | name s =>
      cases b with
      | root | here | up => simp [Component.key] at h
      | name t =>
        have chars : s.map Char.toNat = t.map Char.toNat := (List.cons.inj h).2
        rw [List.map_injective_iff.2 (fun _ _ => Char.toNat_inj.1) chars]
  · rintro rfl
    rfl

/-- The segment that stands for a step. -/
def Component.segment : Component → List Char
  | .root => []
  | .here => ['.']
  | .up => ['.', '.']
  | .name s => s

namespace Path

variable {p q : Path} {s : String}

/-- The components of a path's segments. Empty segments and `.` have none. -/
def inner (cs : List Char) : List Component :=
  (Text.pieces '/' cs).filterMap innerComponent?

theorem inner_append_sep (cs ds : List Char) : inner (cs ++ '/' :: ds) = inner cs ++ inner ds := by
  rw [inner, Text.pieces_append_sep, List.filterMap_append]
  rfl

@[simp] theorem inner_nil : inner [] = [] := rfl

theorem inner_sep (cs : List Char) : inner ('/' :: cs) = inner cs :=
  inner_append_sep [] cs

theorem inner_append_sep_end (cs : List Char) : inner (cs ++ ['/']) = inner cs := by
  rw [inner_append_sep, inner_nil, List.append_nil]

theorem inner_of_no_sep {cs : List Char} (h : '/' ∉ cs) :
    inner cs = (innerComponent? cs).toList := by
  rw [inner, Text.pieces_eq_singleton h]
  cases own : innerComponent? cs <;> simp [own]

/-- What a path starts with, if that is no segment: the root, or a `.`. -/
def lead (p : Path) : List Component :=
  if p.isAbsolute then [.root]
  else if p.segments.head? = some ['.'] then [.here]
  else []

theorem components_eq (p : Path) : p.components = p.lead ++ inner p.spelling.toList := by
  unfold components lead
  split
  · rfl
  · split
    · next rest h =>
      have dot : inner p.spelling.toList = rest.filterMap innerComponent? := by
        rw [inner, ← segments, h]
        rfl
      rw [h, dot]
      rfl
    · next notDot =>
      have other : p.segments.head? ≠ some ['.'] := by
        intro first
        obtain ⟨rest, h⟩ := List.head?_eq_some_iff.1 first
        exact notDot rest h
      rw [if_neg other]
      rfl

theorem mem_inner {c : Component} {cs : List Char} (h : c ∈ inner cs) :
    c = .up ∨ ∃ s, c = .name s := by
  obtain ⟨segment, _, h⟩ := List.mem_filterMap.1 h
  unfold innerComponent? at h
  split at h
  · cases h
  · cases h
  · cases h
    exact .inl rfl
  · cases h
    exact .inr ⟨segment, rfl⟩

/-! ### Joined paths -/

theorem isAbsolute_eq_false_iff : p.isAbsolute = false ↔ p.spelling.toList.head? ≠ some '/' := by
  simp [isAbsolute]

theorem join_of_absolute (absolute : q.isAbsolute = true) : p.join q = q := by
  rw [join, if_pos absolute]

/-- A relative path is joined to a directory behind one separator, which may be the last of the
directory's. -/
theorem exists_join_eq (relative : q.isAbsolute = false) (nonempty : p.spelling ≠ "") :
    ∃ cs, (p.spelling.toList = cs ∧ cs ≠ [] ∨ p.spelling.toList = cs ++ ['/']) ∧
      (p.join q).spelling.toList = cs ++ '/' :: q.spelling.toList := by
  have chars : p.spelling.toList ≠ [] := by simpa using nonempty
  rw [join, if_neg (by simp [relative])]
  split
  · next h => exact absurd (List.getLast?_eq_none_iff.1 h) chars
  · next h =>
    obtain ⟨cs, hcs⟩ := List.getLast?_eq_some_iff.1 h
    exact ⟨cs, .inr hcs, by simp [hcs]⟩
  · exact ⟨_, .inl ⟨rfl, chars⟩, by simp⟩

theorem join_of_empty (empty : p.spelling = "") : p.join q = q := by
  unfold join
  split
  · rfl
  · rw [empty]
    simp

theorem inner_join (relative : q.isAbsolute = false) :
    inner (p.join q).spelling.toList = inner p.spelling.toList ++ inner q.spelling.toList := by
  by_cases empty : p.spelling = ""
  · rw [join_of_empty empty, empty]
    rfl
  · obtain ⟨cs, own, joined⟩ := exists_join_eq relative empty
    rw [joined, inner_append_sep]
    rcases own with ⟨own, _⟩ | own
    · rw [own]
    · rw [own, inner_append_sep_end]

/-- A joined path starts like its directory. -/
theorem isAbsolute_join (relative : q.isAbsolute = false) :
    (p.join q).isAbsolute = p.isAbsolute := by
  by_cases empty : p.spelling = ""
  · rw [join_of_empty empty, relative, isAbsolute, empty]
    rfl
  · obtain ⟨cs, own, joined⟩ := exists_join_eq relative empty
    rw [isAbsolute, isAbsolute, joined]
    rcases own with ⟨own, nonempty⟩ | own
    · obtain ⟨c, cs, rfl⟩ := List.exists_cons_of_ne_nil nonempty
      rw [own]
      rfl
    · rw [own]
      cases cs <;> rfl

theorem lead_join (relative : q.isAbsolute = false) (nonempty : p.spelling ≠ "") :
    (p.join q).lead = p.lead := by
  obtain ⟨cs, own, joined⟩ := exists_join_eq relative nonempty
  have first : (p.join q).segments.head? = p.segments.head? := by
    obtain ⟨segment, rest, hcs⟩ := List.exists_cons_of_ne_nil (Text.pieces_ne_nil '/' cs)
    rw [segments, segments, joined, Text.pieces_append_sep, hcs]
    rcases own with ⟨own, _⟩ | own
    · rw [own, hcs]
      rfl
    · rw [own, Text.pieces_append_sep, hcs]
      rfl
  rw [lead, lead, isAbsolute_join relative, first]

/-- A path in a directory has the components of both. -/
theorem components_join (relative : q.isAbsolute = false) (nonempty : p.spelling ≠ "") :
    (p.join q).components = p.components ++ inner q.spelling.toList := by
  rw [components_eq, components_eq, lead_join relative nonempty, inner_join relative,
    List.append_assoc]

/-- The components of a path but for a leading `.`, which leads nowhere. -/
def steps (p : Path) : List Component :=
  p.components.filter (· ≠ .here)

theorem steps_eq (p : Path) :
    p.steps = (if p.isAbsolute then [.root] else []) ++ inner p.spelling.toList := by
  have kept : (inner p.spelling.toList).filter (· ≠ .here) = inner p.spelling.toList := by
    rw [List.filter_eq_self]
    intro c hc
    rcases mem_inner hc with rfl | ⟨s, rfl⟩ <;> rfl
  rw [steps, components_eq, List.filter_append, kept, lead]
  congr 1
  split
  · rfl
  · split <;> rfl

/-- The steps to a place in a directory are those to the directory and those from there. -/
theorem steps_join (relative : q.isAbsolute = false) : (p.join q).steps = p.steps ++ q.steps := by
  rw [steps_eq, steps_eq, steps_eq, isAbsolute_join relative, inner_join relative, relative,
    List.append_assoc]
  rfl

/-! ### Paths of one place -/

/-- Two spellings name one place if they have the same components. -/
theorem same_iff : p.same q = true ↔ p.components = q.components := by
  rw [same, beq_iff_eq, key, key]
  exact (List.map_injective_iff.2 fun _ _ => Component.key_inj.1).eq_iff

/-- The first segment of a relative path starts with the path's first character. -/
theorem exists_segments_eq_cons {c : Char} {cs : List Char} (h : p.spelling.toList = c :: cs)
    (notSep : c ≠ '/') : ∃ segment rest, p.segments = (c :: segment) :: rest := by
  rw [segments, h, Text.pieces, if_neg notSep]
  split
  · exact ⟨[], [], rfl⟩
  · next piece pieces _ => exact ⟨piece, pieces, rfl⟩

theorem innerComponent?_eq_none_iff {cs : List Char} :
    innerComponent? cs = none ↔ cs = [] ∨ cs = ['.'] := by
  unfold innerComponent?
  split <;> simp_all

/-- A path that is not empty has a component. -/
theorem components_ne_nil (nonempty : p.spelling ≠ "") : p.components ≠ [] := by
  have chars : p.spelling.toList ≠ [] := by simpa using nonempty
  obtain ⟨c, cs, spelled⟩ := List.exists_cons_of_ne_nil chars
  by_cases sep : c = '/'
  · have absolute : p.isAbsolute = true := by simp [isAbsolute, spelled, sep]
    simp [components, absolute]
  · have relative : p.isAbsolute = false := by simp [isAbsolute, spelled, sep]
    obtain ⟨segment, rest, first⟩ := exists_segments_eq_cons spelled sep
    by_cases dot : c :: segment = ['.']
    · simp [components, relative, first, dot]
    · intro none
      rw [components_eq, List.append_eq_nil_iff, inner, ← segments, first,
        List.filterMap_eq_nil_iff] at none
      have own := none.2 (c :: segment) List.mem_cons_self
      rcases innerComponent?_eq_none_iff.1 own with empty | dot'
      · cases empty
      · exact dot dot'

/-! ### Single segments -/

theorem isAbsolute_of_no_sep (plain : '/' ∉ s.toList) : (⟨s⟩ : Path).isAbsolute = false := by
  rw [isAbsolute_eq_false_iff]
  intro first
  exact plain (List.mem_of_mem_head? first)

theorem innerComponent?_eq_name {cs : List Char} (nonempty : cs ≠ []) (notDot : cs ≠ ['.'])
    (notDots : cs ≠ ['.', '.']) : innerComponent? cs = some (.name cs) := by
  unfold innerComponent?
  split
  · exact absurd rfl nonempty
  · exact absurd rfl notDot
  · exact absurd rfl notDots
  · rfl

/-- A path of one segment has one component, which tells the segment. -/
theorem exists_components_eq_singleton (nonempty : s ≠ "") (plain : '/' ∉ s.toList) :
    ∃ c : Component, (⟨s⟩ : Path).components = [c] ∧ c.segment = s.toList := by
  have chars : s.toList ≠ [] := by simpa using nonempty
  have relative : (⟨s⟩ : Path).isAbsolute = false := isAbsolute_of_no_sep plain
  have single : (⟨s⟩ : Path).segments = [s.toList] := Text.pieces_eq_singleton plain
  have starts : (⟨s⟩ : Path).lead = if s.toList = ['.'] then [.here] else [] := by
    simp [lead, relative, single]
  rw [components_eq, starts, inner_of_no_sep plain]
  by_cases dot : s.toList = ['.']
  · exact ⟨.here, by rw [dot]; rfl, dot.symm⟩
  · by_cases dots : s.toList = ['.', '.']
    · exact ⟨.up, by rw [dots]; rfl, dots.symm⟩
    · refine ⟨.name s.toList, ?_, rfl⟩
      rw [if_neg dot, innerComponent?_eq_name chars dot dots]
      rfl

/-- Paths of one segment name one place only if they are spelled alike. -/
theorem components_inj_of_no_sep {t : String} (nonempty : s ≠ "") (nonempty' : t ≠ "")
    (plain : '/' ∉ s.toList) (plain' : '/' ∉ t.toList) :
    (⟨s⟩ : Path).components = (⟨t⟩ : Path).components ↔ s = t := by
  refine ⟨fun h => ?_, fun h => by rw [h]⟩
  obtain ⟨c, own, segment⟩ := exists_components_eq_singleton nonempty plain
  obtain ⟨d, own', segment'⟩ := exists_components_eq_singleton nonempty' plain'
  rw [own, own', List.singleton_inj] at h
  rw [← String.toList_inj, ← segment, ← segment', h]

/-! ### Parents -/

theorem inner_dropIdleEnd (cs : List Char) :
    inner (dropIdleEnd cs).reverse = inner cs.reverse := by
  fun_induction dropIdleEnd cs with
  | case1 cs ih => rw [ih, List.reverse_cons, inner_append_sep_end]
  | case2 => rfl
  | case3 cs ih =>
    rw [ih, List.reverse_cons, List.reverse_cons, List.append_assoc, List.singleton_append,
      inner_append_sep]
    exact (List.append_nil _).symm
  | case4 => rfl

theorem dropIdleEnd_suffix (cs : List Char) : dropIdleEnd cs <:+ cs := by
  fun_induction dropIdleEnd cs with
  | case1 cs ih => exact ih.trans (List.suffix_cons '/' cs)
  | case2 => exact List.nil_suffix
  | case3 cs ih => exact ih.trans (List.suffix_append ['.', '/'] cs)
  | case4 cs => exact List.suffix_refl cs

/-- Behind its first segment, a spelling ends or has a separator. -/
theorem dropWhile_sep (cs : List Char) :
    cs.dropWhile (· ≠ '/') = [] ∨ ∃ rest, cs.dropWhile (· ≠ '/') = '/' :: rest := by
  cases rest : cs.dropWhile (· ≠ '/') with
  | nil => exact .inl rfl
  | cons c rest' =>
    have nonempty : cs.dropWhile (· ≠ '/') ≠ [] := by
      rw [rest]
      exact List.cons_ne_nil c rest'
    have sep := List.head_dropWhile_not (· ≠ '/') nonempty
    simp only [rest, List.head_cons, decide_eq_false_iff_not, not_not] at sep
    exact .inr ⟨rest', by rw [sep]⟩

/-- What is left ends in a segment that counts. -/
theorem takeWhile_dropIdleEnd_ne (cs : List Char) :
    (dropIdleEnd cs).takeWhile (· ≠ '/') ≠ ['.'] := by
  fun_induction dropIdleEnd cs with
  | case1 _ ih => exact ih
  | case2 => decide
  | case3 _ ih => exact ih
  | case4 cs _ notDot notDotSep =>
    intro dot
    have split : cs = '.' :: cs.dropWhile (· ≠ '/') := by
      have whole : cs.takeWhile (· ≠ '/') ++ cs.dropWhile (· ≠ '/') = cs :=
        List.takeWhile_append_dropWhile
      rw [dot] at whole
      exact whole.symm
    rcases dropWhile_sep cs with none | ⟨rest, more⟩
    · exact notDot (none ▸ split)
    · exact notDotSep rest (more ▸ split)

/-- The components up to the last segment, and then those of that segment. -/
theorem inner_reverse (cs : List Char) : inner cs.reverse =
    inner (cs.dropWhile (· ≠ '/')).reverse ++ inner (cs.takeWhile (· ≠ '/')).reverse := by
  have split : cs.reverse =
      (cs.dropWhile (· ≠ '/')).reverse ++ (cs.takeWhile (· ≠ '/')).reverse := by
    rw [← List.reverse_append, List.takeWhile_append_dropWhile]
  rw [split]
  rcases dropWhile_sep cs with none | ⟨rest, more⟩
  · rw [none]
    rfl
  · rw [more, List.reverse_cons, List.append_assoc, List.singleton_append, inner_append_sep,
      inner_append_sep_end]

/-- The last segment of a spelling without an idle end is one component. -/
theorem exists_inner_reverse_eq {cs : List Char} (nonempty : dropIdleEnd cs ≠ []) :
    ∃ c, inner (dropIdleEnd cs).reverse =
      inner ((dropIdleEnd cs).dropWhile (· ≠ '/')).reverse ++ [c] := by
  have notDot := takeWhile_dropIdleEnd_ne cs
  have first := head?_dropIdleEnd cs
  rw [inner_reverse]
  generalize dropIdleEnd cs = body at nonempty notDot first
  have noSep : '/' ∉ (body.takeWhile (· ≠ '/')).reverse := by
    intro sep
    simpa using List.mem_takeWhile_imp (List.mem_reverse.1 sep)
  have chars : body.takeWhile (· ≠ '/') ≠ [] := by
    obtain ⟨c, rest, rfl⟩ := List.exists_cons_of_ne_nil nonempty
    have notSep : c ≠ '/' := by simpa using first
    simp [notSep]
  rw [inner_of_no_sep noSep]
  by_cases up : (body.takeWhile (· ≠ '/')).reverse = ['.', '.']
  · exact ⟨.up, by rw [up]; rfl⟩
  · refine ⟨.name (body.takeWhile (· ≠ '/')).reverse, ?_⟩
    rw [innerComponent?_eq_name (by simpa using chars) ?_ up]
    · rfl
    · intro dot
      exact notDot (List.reverse_eq_iff.1 dot)

/-- The steps of a path that goes on behind the lead of another. -/
theorem steps_of_splitLead {cs : List Char}
    (first : cs <+: (splitLead p.spelling.toList).2.reverse) :
    (⟨String.ofList ((splitLead p.spelling.toList).1 ++ cs)⟩ : Path).steps =
      (if p.isAbsolute then [.root] else []) ++ inner cs := by
  rw [steps_eq, isAbsolute, isAbsolute, String.toList_ofList]
  generalize p.spelling.toList = whole at first
  revert first
  fun_cases splitLead whole with
  | case1 rest =>
    intro _
    rw [List.singleton_append, inner_sep]
    rfl
  | case2 =>
    intro first
    have none : cs = [] := List.prefix_nil.1 first
    rw [none]
    rfl
  | case3 rest =>
    -- A leading `.` is no step, but the separator behind it ends a segment only if it is kept.
    intro first
    rw [List.reverse_reverse] at first
    rcases List.prefix_cons_iff.1 first with rfl | ⟨more, rfl, _⟩
    · rfl
    · rw [List.singleton_append, inner_sep, ← List.singleton_append, inner_append_sep ['.'] more]
      rfl
  | case4 cs' notSep _ _ =>
    intro first
    rw [List.reverse_reverse] at first
    have relative : ∀ ds : List Char, ds <+: whole → (ds.head? == some '/') = false := by
      intro ds hds
      rw [beq_eq_false_iff_ne]
      intro sep
      obtain ⟨rest, rfl⟩ := List.head?_eq_some_iff.1 sep
      obtain ⟨more, rfl⟩ := hds
      exact notSep (rest ++ more) rfl
    rw [List.nil_append, relative cs first, relative whole (List.prefix_refl whole)]

theorem splitLead_append (p : Path) :
    (splitLead p.spelling.toList).1 ++ (splitLead p.spelling.toList).2.reverse =
      p.spelling.toList := by
  fun_cases splitLead p.spelling.toList <;> simp_all

/-- **The parent of a path is where the last step to the path starts.** -/
theorem steps_of_parent? (h : p.parent? = some q) : q.steps = p.steps.dropLast := by
  have own : p.steps = (if p.isAbsolute then [.root] else []) ++
      inner (splitLead p.spelling.toList).2.reverse := by
    rw [← steps_of_splitLead (List.prefix_refl _), splitLead_append, String.ofList_toList]
  rw [← inner_dropIdleEnd] at own
  unfold parent? at h
  dsimp only at h
  split at h
  · next none =>
    split at h
    · next dot =>
      cases h
      have relative : p.isAbsolute = false := by
        rw [isAbsolute_eq_false_iff, ← splitLead_append, dot]
        simp
      rw [own, none, relative]
      rfl
    · cases h
  · next some =>
    obtain ⟨c, last⟩ := exists_inner_reverse_eq some
    cases h
    have first : (dropIdleEnd ((dropIdleEnd (splitLead p.spelling.toList).2).dropWhile
        (· ≠ '/'))).reverse <+: (splitLead p.spelling.toList).2.reverse := by
      rw [List.reverse_prefix]
      exact (dropIdleEnd_suffix _).trans ((List.dropWhile_suffix _).trans (dropIdleEnd_suffix _))
    rw [steps_of_splitLead first, own, inner_dropIdleEnd, last, ← List.append_assoc,
      List.dropLast_concat]

end Path

end FheSolidity
