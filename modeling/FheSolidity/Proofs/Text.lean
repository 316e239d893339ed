import FheSolidity.Text.Lines
import FheSolidity.Text.Scan
import Mathlib.Data.List.Basic
import Mathlib.Data.List.Induction
import Mathlib.Data.List.TakeDrop

/-!
# Reading what was written

A reader that takes a run of characters off a text stops where the run ends. So a run that was put
in front of something else is read back whole: a word up to the white space after it, a number up to
what is no digit, and a line up to its end.
-/

namespace FheSolidity

/-- No visible ASCII character is white space. -/
theorem Unicode.isBlank_of_visible {c low high : Char} (above : low ≤ c) (below : c ≤ high)
    (first : 0x20 < low.toNat) (last : high.toNat < 0x7F) : isBlank c = false := by
  have least : low.toNat ≤ c.toNat := UInt32.le_iff_toNat_le.1 above
  have greatest : c.toNat ≤ high.toNat := UInt32.le_iff_toNat_le.1 below
  rw [isBlank, ← Bool.not_eq_true, inRanges_iff]
  rintro ⟨range, hrange, fromLow, toHigh⟩
  simp only [blankRanges, List.mem_cons, List.not_mem_nil, or_false] at hrange
  rcases hrange with rfl | rfl | rfl | rfl | rfl | rfl | rfl | rfl | rfl | rfl <;>
    simp only at fromLow toHigh <;> omega

theorem Unicode.isBlank_of_isAlpha {c : Char} (h : c.isAlpha = true) : isBlank c = false := by
  rcases Bool.or_eq_true_iff.1 h with upper | lower
  · have bounds : 'A' ≤ c ∧ c ≤ 'Z' := of_decide_eq_true upper
    exact isBlank_of_visible bounds.1 bounds.2 (by decide) (by decide)
  · have bounds := Bool.and_eq_true_iff.1 lower
    have above : 'a' ≤ c := of_decide_eq_true bounds.1
    have below : c ≤ 'z' := of_decide_eq_true bounds.2
    exact isBlank_of_visible above below (by decide) (by decide)

theorem Unicode.isBlank_of_isDigit {c : Char} (h : c.isDigit = true) : isBlank c = false := by
  have bounds := Bool.and_eq_true_iff.1 h
  have above : '0' ≤ c := of_decide_eq_true bounds.1
  have below : c ≤ '9' := of_decide_eq_true bounds.2
  exact isBlank_of_visible above below (by decide) (by decide)

theorem Unicode.toNat_lt_of_isAlpha {c : Char} (h : c.isAlpha = true) : c.toNat < 128 := by
  rcases Bool.or_eq_true_iff.1 h with upper | lower
  · have bounds : 'A' ≤ c ∧ c ≤ 'Z' := of_decide_eq_true upper
    exact Nat.lt_of_le_of_lt (UInt32.le_iff_toNat_le.1 bounds.2) (by decide)
  · have below : c ≤ 'z' := of_decide_eq_true (Bool.and_eq_true_iff.1 lower).2
    exact Nat.lt_of_le_of_lt (UInt32.le_iff_toNat_le.1 below) (by decide)

namespace Text

open Unicode (isBlank isDecimalDigit)

variable {cs run rest w : List Char}

/-- A run of a class of characters ends where the class does. -/
theorem span_append {p : Char → Bool} (inside : ∀ c ∈ run, p c = true)
    (outside : ∀ c ∈ rest.head?, p c = false) : (run ++ rest).span p = (run, rest) := by
  have stop : rest.takeWhile p = [] ∧ rest.dropWhile p = rest := by
    cases rest with
    | nil => exact ⟨rfl, rfl⟩
    | cons c rest => simp [outside c rfl]
  rw [List.span_eq_takeWhile_dropWhile, List.takeWhile_append_of_pos inside,
    List.dropWhile_append_of_pos inside, stop.1, stop.2, List.append_nil]

/-! ### White space -/

theorem trimStart_eq_self (first : ∀ c ∈ cs.head?, isBlank c = false) : trimStart cs = cs := by
  cases cs with
  | nil => rfl
  | cons c cs => exact trimStart_cons_of_not_blank (first c rfl)

/-- A text that neither starts nor ends with white space is kept. -/
theorem trim_eq_self (first : ∀ c ∈ cs.head?, isBlank c = false)
    (last : ∀ c ∈ cs.getLast?, isBlank c = false) : trim cs = cs := by
  have back : trimStart cs.reverse = cs.reverse := by
    refine trimStart_eq_self fun c hc => last c ?_
    rwa [List.head?_reverse] at hc
  rw [trim, trimStart_eq_self first, back, List.reverse_reverse]

theorem trim_cons_of_blank {c : Char} (h : isBlank c = true) : trim (c :: cs) = trim cs := by
  rw [trim, trimStart_cons_of_blank h, trim]

theorem trim_append_of_blank {bs : List Char} (h : ∀ c ∈ bs, isBlank c = true) :
    trim (bs ++ cs) = trim cs := by
  rw [trim, trimStart_append_of_blank h, trim]

theorem trim_append_blank {bs : List Char} (h : ∀ c ∈ bs, isBlank c = true) :
    trim (cs ++ bs) = trim cs := by
  have nothing : trimStart bs = [] := by
    have read : trimStart (bs ++ []) = [] := trimStart_append_of_blank h
    rwa [List.append_nil] at read
  have behind : trimStart (cs ++ bs) = trimStart cs ∨ trimStart (cs ++ bs) = trimStart cs ++ bs := by
    rw [trimStart, List.dropWhile_append]
    split
    · next empty =>
      left
      rw [← trimStart, nothing, trimStart, List.isEmpty_iff.1 empty]
    · right
      rfl
  rcases behind with same | longer
  · rw [trim, same, trim]
  · rw [trim, longer, List.reverse_append, trimStart_append_of_blank, trim]
    intro c hc
    exact h c (List.mem_reverse.1 hc)

/-- A text that is not empty and holds no white space. -/
structure IsSolid (w : List Char) : Prop where
  ne_nil : w ≠ []
  solid : ∀ c ∈ w, isBlank c = false

instance : Decidable (IsSolid w) :=
  decidable_of_iff (w ≠ [] ∧ w.all (!isBlank ·) = true)
    ⟨fun h => ⟨h.1, by simpa using h.2⟩, fun h => ⟨h.1, by simpa using h.2⟩⟩

theorem IsSolid.head_append (h : IsSolid w) (rest : List Char) :
    ∀ c ∈ (w ++ rest).head?, isBlank c = false := by
  intro c hc
  rw [List.head?_append_of_ne_nil _ h.ne_nil] at hc
  exact h.solid c (List.mem_of_mem_head? hc)

theorem IsSolid.trimStart_append (h : IsSolid w) (rest : List Char) :
    trimStart (w ++ rest) = w ++ rest :=
  trimStart_eq_self (h.head_append rest)

/-- What ends in a word ends in no white space. -/
theorem IsSolid.trim_append (h : IsSolid w) {start : List Char}
    (first : ∀ c ∈ start.head?, isBlank c = false) : trim (start ++ w) = start ++ w := by
  refine trim_eq_self (fun c hc => ?_) fun c hc => ?_
  · cases start with
    | nil => exact h.head_append [] c (by simpa using hc)
    | cons s start => exact first c hc
  · rw [List.getLast?_append_of_ne_nil _ h.ne_nil] at hc
    exact h.solid c (List.mem_of_mem_getLast? hc)

theorem IsSolid.trim_eq_self (h : IsSolid w) : trim w = w := by
  have own : trim ([] ++ w) = [] ++ w := h.trim_append (by simp)
  exact own

theorem IsSolid.word? (h : IsSolid w) : Text.word? w = some (w, []) := by
  have whole : (w ++ []).span (fun c => !isBlank c) = (w, []) :=
    span_append (fun c hc => by simp [h.solid c hc]) (by simp)
  rw [List.append_nil] at whole
  rw [Text.word?, whole]
  cases w with
  | nil => exact absurd rfl h.ne_nil
  | cons c w => rfl

/-! ### Numbers -/

/-- The decimal digits of a number. -/
def decimal (n : Nat) : List Char :=
  Nat.toDigits 10 n

theorem isDigit_of_mem_decimal {n : Nat} {c : Char} (h : c ∈ decimal n) : c.isDigit = true :=
  Nat.isDigit_of_mem_toDigits (by decide) (by decide) h

theorem isSolid_decimal (n : Nat) : IsSolid (decimal n) where
  ne_nil := Nat.toDigits_ne_nil
  solid _ hc := Unicode.isBlank_of_isDigit (isDigit_of_mem_decimal hc)

theorem digits?_decimal_append (n : Nat) (outside : ∀ c ∈ rest.head?, isDecimalDigit c = false) :
    digits? (decimal n ++ rest) = some (decimal n, rest) := by
  have whole : (decimal n ++ rest).span isDecimalDigit = (decimal n, rest) :=
    span_append (fun c hc => Unicode.isDecimalDigit_of_isDigit (isDigit_of_mem_decimal hc)) outside
  rw [digits?, whole]
  cases h : decimal n with
  | nil => exact absurd h (isSolid_decimal n).ne_nil
  | cons d ds => rfl

theorem decimalValue_decimal (n : Nat) : decimalValue (decimal n) = n := by
  rw [decimalValue, ← Nat.ofDigitChars_eq_foldl]
  exact Nat.ofDigitChars_ten_toDigits

/-- A number that is no larger than the largest count reads as itself. -/
theorem countOf_decimal {n : Nat} (h : n ≤ maxCount) : countOf (decimal n) = n := by
  have digits : (decimal n).all Char.isDigit = true :=
    List.all_eq_true.2 fun c hc => isDigit_of_mem_decimal hc
  rw [countOf_eq_min digits, decimalValue_decimal, Nat.min_eq_left h]

/-! ### Lines -/

/-- A text without a line end inside. -/
def IsLine (cs : List Char) : Prop :=
  ∀ c ∈ cs, c ≠ '\n' ∧ c ≠ '\r'

instance : Decidable (IsLine cs) :=
  decidable_of_iff (cs.all (fun c => c != '\n' && c != '\r') = true) (by simp [IsLine])

theorem IsLine.append (h : IsLine cs) (h' : IsLine rest) : IsLine (cs ++ rest) := fun c hc =>
  (List.mem_append.1 hc).elim (h c) (h' c)

/-- Line ends are white space. -/
theorem IsSolid.isLine (h : IsSolid w) : IsLine w := by
  intro c hc
  have solid := h.solid c hc
  constructor <;> rintro rfl <;> exact absurd solid (by decide)

/-- The text of some lines, each with a line feed at its end. -/
def ofLines (lines : List (List Char)) : List Char :=
  lines.flatMap (· ++ ['\n'])

theorem dropReturn_eq_self (h : IsLine cs) : dropReturn cs = cs :=
  if_neg fun last => (h '\r' (List.mem_of_mem_getLast? last)).2 rfl

/-- Lines are read back from their text, whatever follows. -/
theorem lines_ofLines_append {ls : List (List Char)} (h : ∀ l ∈ ls, IsLine l) (cs : List Char) :
    lines (ofLines ls ++ cs) = ls ++ lines cs := by
  induction ls with
  | nil => rfl
  | cons l ls ih =>
    have line : IsLine l := h l List.mem_cons_self
    have noFeed : '\n' ∉ l := fun feed => (line '\n' feed).1 rfl
    have text : ofLines (l :: ls) ++ cs = l ++ '\n' :: (ofLines ls ++ cs) := by simp [ofLines]
    rw [text, lines_append_cons noFeed, dropReturn_eq_self line,
      ih fun l' hl' => h l' (List.mem_cons_of_mem l hl'), List.cons_append]

theorem lines_ofLines {ls : List (List Char)} (h : ∀ l ∈ ls, IsLine l) :
    lines (ofLines ls) = ls := by
  have nothing : lines [] = [] := rfl
  have whole := lines_ofLines_append h []
  rwa [List.append_nil, nothing, List.append_nil] at whole

/-- A line end that a carriage return may belong to stands behind the last other character. -/
theorem dropReturn_append_cons {x : Char} (h : x ≠ '\r') (cs rest : List Char) :
    dropReturn (cs ++ x :: rest) = cs ++ x :: dropReturn rest := by
  have last : (cs ++ x :: rest).getLast? = some '\r' ↔ rest.getLast? = some '\r' := by
    rw [List.getLast?_append_of_ne_nil _ (List.cons_ne_nil x rest), List.getLast?_cons]
    cases rest.getLast? <;> simp [h]
  by_cases ret : rest.getLast? = some '\r'
  · have nonempty : rest ≠ [] := by
      rintro rfl
      cases ret
    rw [dropReturn, if_pos (last.2 ret), dropReturn, if_pos ret,
      List.dropLast_append_of_ne_nil (List.cons_ne_nil x rest),
      List.dropLast_cons_of_ne_nil nonempty]
  · rw [dropReturn, if_neg (mt last.1 ret), dropReturn, if_neg ret]

theorem pieces_eq_singleton {sep : Char} (h : sep ∉ cs) : pieces sep cs = [cs] := by
  induction cs with
  | nil => rfl
  | cons c cs ih =>
    rw [List.mem_cons, not_or] at h
    rw [pieces, if_neg (Ne.symm h.1), ih h.2]

/-- The last line need not end with a line feed. -/
theorem lines_eq_singleton (h : '\n' ∉ cs) (nonempty : cs ≠ []) : lines cs = [cs] := by
  rw [lines, pieces_eq_singleton h, linesOfPieces, if_neg nonempty]

/-- Whatever follows a text, its full lines stand above, and its rest is the start of a line. -/
theorem exists_lines_append (before : List Char) :
    ∃ above left, '\n' ∉ left ∧ ∀ cs, lines (before ++ cs) = above ++ lines (left ++ cs) := by
  induction before using List.reverseRecOn with
  | nil => exact ⟨[], [], List.not_mem_nil, fun cs => rfl⟩
  | append_singleton before c ih =>
    obtain ⟨above, left, inside, same⟩ := ih
    by_cases feed : c = '\n'
    · refine ⟨above ++ [dropReturn left], [], List.not_mem_nil, fun cs => ?_⟩
      rw [List.append_assoc, same, List.singleton_append, feed, lines_append_cons inside,
        List.append_assoc, List.singleton_append, List.nil_append]
    · refine ⟨above, left ++ [c], ?_, fun cs => ?_⟩
      · rw [List.mem_append, List.mem_singleton, not_or]
        exact ⟨inside, Ne.symm feed⟩
      · rw [List.append_assoc, same, List.append_assoc]

/-- Whatever a line starts with, it goes on and ends as the text does behind a character of it. -/
theorem exists_lines_cons {x : Char} (feed : x ≠ '\n') (ret : x ≠ '\r') (after : List Char) :
    ∃ right below, ∀ cs, '\n' ∉ cs → lines (cs ++ x :: after) = (cs ++ x :: right) :: below := by
  by_cases h : '\n' ∈ after
  · obtain ⟨right, rest, rfl, inside⟩ := List.eq_append_cons_of_mem h
    refine ⟨dropReturn right, lines rest, fun cs hcs => ?_⟩
    have line : '\n' ∉ cs ++ x :: right := by
      simpa [hcs, inside] using feed.symm
    have text : cs ++ x :: (right ++ '\n' :: rest) = (cs ++ x :: right) ++ '\n' :: rest := by simp
    rw [text, lines_append_cons line, dropReturn_append_cons ret]
  · refine ⟨after, [], fun cs hcs => lines_eq_singleton ?_ (by simp)⟩
    simpa [hcs, h] using feed.symm

/-! ### Readers in front of a character -/

variable {x : Char}

theorem trimStart_append_cons (solid : isBlank x = false) (cs rest : List Char) :
    trimStart (cs ++ x :: rest) = trimStart cs ++ x :: rest := by
  induction cs with
  | nil => exact trimStart_cons_of_not_blank solid
  | cons c cs ih =>
    cases blank : isBlank c with
    | true =>
      rw [List.cons_append, trimStart_cons_of_blank blank, trimStart_cons_of_blank blank, ih]
    | false =>
      rw [List.cons_append, trimStart_cons_of_not_blank blank, trimStart_cons_of_not_blank blank,
        List.cons_append]

theorem literal?_eq_some_iff : literal? w cs = some rest ↔ cs = w ++ rest := by
  induction w generalizing cs with
  | nil => rw [literal?, Option.some_inj, List.nil_append]
  | cons c w ih =>
    cases cs with
    | nil => simp [literal?]
    | cons d cs =>
      rw [literal?]
      split
      · next same => rw [ih, same, List.cons_append, List.cons_inj_right]
      · next differ => simp [differ]

/-- A text is read without what follows a character that it does not hold. -/
theorem literal?_append_cons (outside : x ∉ w) (cs rest : List Char) :
    literal? w (cs ++ x :: rest) = (literal? w cs).map (· ++ x :: rest) := by
  induction w generalizing cs with
  | nil => rfl
  | cons c w ih =>
    rw [List.mem_cons, not_or] at outside
    cases cs with
    | nil => rw [List.nil_append, literal?, if_neg outside.1, literal?, Option.map_none]
    | cons d cs =>
      rw [List.cons_append, literal?, literal?]
      split
      · exact ih outside.2 cs
      · rfl

theorem blanks1?_append_cons (solid : isBlank x = false) (cs rest : List Char) :
    blanks1? (cs ++ x :: rest) = (blanks1? cs).map (· ++ x :: rest) := by
  cases cs with
  | nil => rw [List.nil_append, blanks1?, solid, blanks1?]; rfl
  | cons c cs =>
    rw [List.cons_append, blanks1?, blanks1?, trimStart_append_cons solid]
    split <;> rfl

theorem span_append_cons {p : Char → Bool} (outside : p x = false) (cs rest : List Char) :
    (cs ++ x :: rest).span p = ((cs.span p).1, (cs.span p).2 ++ x :: rest) := by
  rw [List.span_eq_takeWhile_dropWhile, List.span_eq_takeWhile_dropWhile]
  induction cs with
  | nil => simp [outside]
  | cons c cs ih =>
    cases inside : p c <;> simp_all

/-! ### Separators -/

/-- Two runs of a class that something else follows are told apart by where they end. -/
theorem append_cons_inj {p : Char → Bool} {run' rest' : List Char} {x y : Char}
    (inside : ∀ c ∈ run, p c = true) (inside' : ∀ c ∈ run', p c = true) (hx : p x = false)
    (hy : p y = false) :
    run ++ x :: rest = run' ++ y :: rest' ↔ run = run' ∧ x = y ∧ rest = rest' := by
  constructor
  · intro h
    have whole : (run ++ x :: rest).span p = (run, x :: rest) :=
      span_append inside (by simp [hx])
    have whole' : (run' ++ y :: rest').span p = (run', y :: rest') :=
      span_append inside' (by simp [hy])
    rw [h, whole', Prod.mk.injEq, List.cons.injEq] at whole
    exact ⟨whole.1.symm, whole.2.1.symm, whole.2.2.symm⟩
  · rintro ⟨rfl, rfl, rfl⟩
    rfl

/-- A text is taken apart at the last place where a character stands. -/
theorem append_cons_inj_of_not_mem {run' rest' : List Char} {x : Char} (last : x ∉ rest)
    (last' : x ∉ rest') :
    run ++ x :: rest = run' ++ x :: rest' ↔ run = run' ∧ rest = rest' := by
  -- read from its end, the text starts with a run of other characters
  have other {cs : List Char} (h : x ∉ cs) : ∀ c ∈ cs.reverse, (c != x) = true := by
    intro c hc
    rw [bne_iff_ne]
    rintro rfl
    exact h (List.mem_reverse.1 hc)
  have backward (run rest : List Char) :
      (run ++ x :: rest).reverse = rest.reverse ++ x :: run.reverse := by simp
  rw [← List.reverse_inj, backward, backward,
    append_cons_inj (other last) (other last') (bne_self_eq_false x) (bne_self_eq_false x),
    List.reverse_inj, List.reverse_inj]
  constructor
  · rintro ⟨hrest, _, hrun⟩
    exact ⟨hrun, hrest⟩
  · rintro ⟨hrun, hrest⟩
    exact ⟨hrest, rfl, hrun⟩

variable {sep : Char} {ps qs : List (List Char)}

/-- Cutting at separators goes on after every one of them. -/
theorem pieces_append_sep (sep : Char) (cs ds : List Char) :
    pieces sep (cs ++ sep :: ds) = pieces sep cs ++ pieces sep ds := by
  induction cs with
  | nil => simp [pieces]
  | cons c cs ih =>
    rw [List.cons_append, pieces, pieces]
    split
    · rw [ih, List.cons_append]
    · rw [ih]
      cases h : pieces sep cs with
      | nil => exact absurd h (pieces_ne_nil sep cs)
      | cons p ps => simp

/-- A text without a separator belongs to the piece that follows. -/
theorem pieces_append_of_not_mem {p : List Char} {ds : List Char} (h : sep ∉ cs)
    (pieces' : pieces sep ds = p :: ps) : pieces sep (cs ++ ds) = (cs ++ p) :: ps := by
  induction cs with
  | nil => exact pieces'
  | cons c cs ih =>
    rw [List.mem_cons, not_or] at h
    rw [List.cons_append, pieces, if_neg (Ne.symm h.1), ih h.2]
    rfl

/-- Pieces that hold no separator are found again between separators. -/
theorem pieces_joinWith (h : ∀ p ∈ ps, sep ∉ p) (nonempty : ps ≠ []) :
    pieces sep (joinWith sep ps) = ps := by
  induction ps with
  | nil => exact absurd rfl nonempty
  | cons p ps ih =>
    have first := h p List.mem_cons_self
    cases ps with
    | nil => exact pieces_eq_singleton first
    | cons q ps =>
      rw [joinWith, pieces_append_cons first,
        ih (fun p' hp' => h p' (List.mem_cons_of_mem p hp')) (List.cons_ne_nil q ps)]

theorem mem_joinWith {c : Char} (h : c ∈ joinWith sep ps) : c = sep ∨ ∃ p ∈ ps, c ∈ p := by
  induction ps with
  | nil => cases h
  | cons p ps ih =>
    cases ps with
    | nil => exact .inr ⟨p, List.mem_cons_self, h⟩
    | cons q ps =>
      rw [joinWith, List.mem_append, List.mem_cons] at h
      rcases h with h | rfl | h
      · exact .inr ⟨p, List.mem_cons_self, h⟩
      · exact .inl rfl
      · rcases ih h with rfl | ⟨p', hp', hc⟩
        · exact .inl rfl
        · exact .inr ⟨p', List.mem_cons_of_mem p hp', hc⟩

/-- More pieces stand behind a separator. -/
theorem joinWith_append (hps : ps ≠ []) (hqs : qs ≠ []) :
    joinWith sep (ps ++ qs) = joinWith sep ps ++ sep :: joinWith sep qs := by
  induction ps with
  | nil => exact absurd rfl hps
  | cons p ps ih =>
    cases ps with
    | nil =>
      cases qs with
      | nil => exact absurd rfl hqs
      | cons q qs => rfl
    | cons p' ps =>
      have rest := ih (List.cons_ne_nil p' ps)
      rw [List.cons_append] at rest
      rw [List.cons_append, List.cons_append, joinWith, rest, joinWith, List.append_assoc,
        List.cons_append]

theorem joinWith_concat_append (sep : Char) (ps : List (List Char)) (p x : List Char) :
    joinWith sep (ps ++ [p ++ x]) = joinWith sep (ps ++ [p]) ++ x := by
  cases ps with
  | nil => rfl
  | cons p' ps =>
    rw [joinWith_append (List.cons_ne_nil p' ps) (List.cons_ne_nil _ _),
      joinWith_append (List.cons_ne_nil p' ps) (List.cons_ne_nil _ _), List.append_assoc]
    rfl

/-- Pieces go on where the last one gets longer and others follow. -/
theorem joinWith_isPrefix (sep : Char) (ps qs : List (List Char)) (p x : List Char) :
    joinWith sep (ps ++ [p]) <+: joinWith sep (ps ++ (p ++ x) :: qs) := by
  have last : joinWith sep [p] <+: joinWith sep ((p ++ x) :: qs) := by
    cases qs with
    | nil => exact List.prefix_append p x
    | cons q qs =>
      rw [joinWith, joinWith, List.append_assoc]
      exact List.prefix_append p _
  cases ps with
  | nil => exact last
  | cons p' ps =>
    rw [joinWith_append (List.cons_ne_nil p' ps) (List.cons_ne_nil p []),
      joinWith_append (List.cons_ne_nil p' ps) (List.cons_ne_nil _ qs)]
    exact (List.prefix_append_right_inj _).2 ((List.prefix_append_right_inj [sep]).2 last)

theorem joinWith_isPrefix_append (sep : Char) (ps qs : List (List Char)) :
    joinWith sep ps <+: joinWith sep (ps ++ qs) := by
  rcases List.eq_nil_or_concat ps with rfl | ⟨ps, p, rfl⟩
  · exact List.nil_prefix
  · rw [List.concat_eq_append, List.append_assoc, List.singleton_append]
    simpa using joinWith_isPrefix sep ps qs p []

theorem joinWith_eq_nil_iff (h : ∀ p ∈ ps, p ≠ []) : joinWith sep ps = [] ↔ ps = [] := by
  cases ps with
  | nil => simp [joinWith]
  | cons p ps =>
    have first := h p List.mem_cons_self
    cases ps <;> simp [joinWith, first]

/-- Pieces that are not empty and hold no separator are told by their text. -/
theorem joinWith_inj (hps : ∀ p ∈ ps, p ≠ [] ∧ sep ∉ p) (hqs : ∀ q ∈ qs, q ≠ [] ∧ sep ∉ q) :
    joinWith sep ps = joinWith sep qs ↔ ps = qs := by
  constructor
  · intro h
    by_cases none : ps = []
    · have empty : joinWith sep qs = [] := by rw [← h, none, joinWith]
      rw [none, (joinWith_eq_nil_iff fun q hq => (hqs q hq).1).1 empty]
    · have some' : qs ≠ [] := by
        rintro rfl
        exact none ((joinWith_eq_nil_iff fun p hp => (hps p hp).1).1 h)
      rw [← pieces_joinWith (fun p hp => (hps p hp).2) none, h,
        pieces_joinWith (fun q hq => (hqs q hq).2) some']
  · rintro rfl
    rfl

theorem toList_intercalate {s : String} (h : s.toList = [sep]) (texts : List String) :
    (s.intercalate texts).toList = joinWith sep (texts.map String.toList) := by
  rw [String.toList_intercalate, h]
  induction texts with
  | nil => rfl
  | cons t ts ih =>
    cases ts with
    | nil => simp [joinWith]
    | cons u ts =>
      rw [List.map_cons, List.map_cons, List.intercalate_cons_cons, ← List.map_cons, ih,
        List.map_cons, joinWith, List.append_assoc, List.singleton_append]

end Text

end FheSolidity
