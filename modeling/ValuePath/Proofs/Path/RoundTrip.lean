import ValuePath.Proofs.Path.Acceptance
import ValuePath.Query

/-!
# Written queries read back

The written form of a query is a text of the grammar, in which each step is a segment of its own. So
it is parsed, and the query that is read has the steps and the root marker of the one that was
written.

* `Text.readDecimal_toDigits`: a position is read back from its digits.
* `Grammar.quoted_escape`: a name is read back from its escaped form.
* `Step.segment_chars`: the written form of a step is a segment that stands for the step.
* `Query.parse_text`: a query is read back from its written form.
-/

namespace ValuePath

open Grammar

/-! ## Positions -/

namespace Text

theorem readDecimal_append_singleton (digits : List Char) (c : Char) :
    readDecimal (digits ++ [c]) = 10 * readDecimal digits + (c.toNat - 0x30) := by
  rw [readDecimal, List.foldl_append, List.foldl_cons, List.foldl_nil]
  rfl

theorem toNat_digitChar : ∀ d < 10, (Nat.digitChar d).toNat - 0x30 = d := by
  decide

/-- A number is read back from its digits. -/
theorem readDecimal_toDigits (n : Nat) : readDecimal (Nat.toDigits 10 n) = n := by
  induction n using Nat.strongRecOn with
  | ind n ih =>
    rw [Nat.toDigits_eq_if (by decide)]
    split
    next hlt =>
      have hdigit := toNat_digitChar n hlt
      rw [← List.nil_append [n.digitChar], readDecimal_append_singleton, hdigit]
      exact Nat.zero_add n
    next hle =>
      -- both the digits and their number are built at the last digit
      have hdigit := toNat_digitChar (n % 10) (Nat.mod_lt n (by decide))
      rw [readDecimal_append_singleton, ih (n / 10) (by omega), hdigit]
      omega

/-- Only the number zero is written with a zero in front. -/
theorem eq_zero_of_head?_toDigits {n : Nat} (h : (Nat.toDigits 10 n).head? = some '0') :
    n = 0 := by
  induction n using Nat.strongRecOn with
  | ind n ih =>
    rw [Nat.toDigits_eq_if (by decide)] at h
    split at h
    next hlt =>
      have hdigit : n.digitChar = '0' := by simpa using h
      have hnat := toNat_digitChar n hlt
      rw [hdigit] at hnat
      exact hnat.symm
    next hle =>
      -- the first digit of `n` is that of `n / 10`, which is not zero
      have hfirst := List.head?_eq_some_head (Nat.toDigits_ne_nil (n := n / 10) (b := 10))
      rw [List.head?_append, hfirst, Option.some_or, ← hfirst] at h
      have hdiv := ih (n / 10) (by omega) h
      omega

theorem isAsciiDigit_of_isDigit {c : Char} (h : c.isDigit = true) : isAsciiDigit c = true := by
  simp only [Char.isDigit, Bool.and_eq_true, decide_eq_true_eq, ge_iff_le,
    UInt32.le_iff_toNat_le] at h
  simp only [isAsciiDigit, Bool.and_eq_true, decide_eq_true_eq]
  exact h

end Text

/-- The digits of a number below `2 ^ 64` write a position. -/
theorem Grammar.isPosition_toDigits {n : Nat} (h : n < UInt64.size) :
    IsPosition (Nat.toDigits 10 n) where
  ne_nil := Nat.toDigits_ne_nil
  ascii c hc := by
    have hdigit := Nat.isDigit_of_mem_toDigits (by decide) (by decide) hc
    exact Text.isAsciiDigit_of_isDigit hdigit
  leading hzero := by
    rw [Text.eq_zero_of_head?_toDigits hzero]
    rfl
  lt := by rwa [Text.readDecimal_toDigits]

/-! ## Names -/

/-- The escaped form of a name stands for the name. -/
theorem Grammar.quoted_escape (quote : Char) (name : List Char) :
    Quoted quote (Step.escape quote name) name := by
  induction name with
  | nil => exact .nil
  | cons c name ih =>
    rw [Step.escape, List.flatMap_cons]
    split
    next h => exact .escaped h ih
    next h =>
      rw [not_or] at h
      exact .plain h.1 h.2 ih

/-- A name that needs no quotes is a bare name, and does not begin with a closing bracket. -/
theorem isBareName_of_needsQuotes {name : List Char} (h : Step.needsQuotes name = false) :
    IsBareName name ∧ name.head? ≠ some ']' := by
  simp only [Step.needsQuotes, Bool.or_eq_false_iff, List.isEmpty_eq_false_iff,
    decide_eq_false_iff_not, List.any_eq_false, decide_eq_true_eq] at h
  obtain ⟨⟨hne, hright⟩, hmarks⟩ := h
  refine ⟨⟨hne, ?_, ?_⟩, hright⟩
  · exact fun hperiod => hmarks '.' hperiod (by decide)
  · exact fun hleft => hmarks '[' hleft (by decide)

/-! ## Steps and queries -/

/-- The written form of a step is a segment that stands for the step. -/
theorem Step.segment_chars (step : Step) : Segment step.chars step := by
  cases step with
  | key name =>
    rw [chars]
    split
    next h =>
      have hcontent := Content.name (.inl rfl) (quoted_escape '\'' name.toList)
      rw [String.ofList_toList] at hcontent
      simpa using Segment.bracketed hcontent
    next h =>
      obtain ⟨hbare, hright⟩ := isBareName_of_needsQuotes (by simpa using h)
      have hdotted := Segment.dotted hbare hright
      rwa [String.ofList_toList] at hdotted
  | index position =>
    have hcontent := Content.position (isPosition_toDigits position.toNat_lt_size)
    rw [Text.readDecimal_toDigits, UInt64.ofNat_toNat] at hcontent
    exact .bracketed hcontent

/-- The written forms of steps are a row of segments that stands for these steps. -/
theorem exists_segments_chars (steps : List Step) (pos : Nat) :
    ∃ links, Segments pos (steps.flatMap Step.chars) links ∧
      links.filterMap Link.step? = steps ∧ links.any Link.isRoot = false := by
  induction steps generalizing pos with
  | nil => exact ⟨[], .nil, rfl, rfl⟩
  | cons step steps ih =>
    obtain ⟨links, hsegs, hsteps, hroot⟩ := ih (pos + step.chars.length)
    refine ⟨.step pos step :: links, .cons step.segment_chars hsegs, ?_, ?_⟩
    · rw [List.filterMap_cons, Link.step?, hsteps]
    · rw [List.any_cons, Link.isRoot, hroot]
      rfl

namespace Query

/-- The written form of a query is a path that stands for its steps and its root marker. -/
theorem exists_path_chars (q : Query) :
    ∃ links, Path q.chars links ∧ links.filterMap Link.step? = q.steps ∧
      links.any Link.isRoot = q.root := by
  rw [chars]
  split
  next hroot =>
    -- the segments begin behind the root marker
    obtain ⟨links, hsegs, hsteps, hnone⟩ := exists_segments_chars q.steps (1 + ['$'].length)
    refine ⟨.root 1 :: links, .headed .root hsegs, ?_, ?_⟩
    · rw [List.filterMap_cons, Link.step?, hsteps]
    · rw [List.any_cons, Link.isRoot, hroot]
      rfl
  next hroot =>
    obtain ⟨links, hsegs, hsteps, hnone⟩ := exists_segments_chars q.steps 1
    refine ⟨links, .plain hsegs, hsteps, ?_⟩
    rw [hnone]
    exact (Bool.eq_false_iff.mpr hroot).symm

/-- A query is read back from its written form, with the same steps and the same root marker. -/
theorem parse_text (q : Query) (options : Options) :
    Query.parse q.text options = .ok { q with options } := by
  obtain ⟨links, hpath, hsteps, hroot⟩ := q.exists_path_chars
  have hparse : (Parser.ofString q.text).parse.1 = .ok (Node.ofLinks? links) := by
    rw [Parser.ofString_eq_parser, Scanner.ofString, text, String.toList_ofList]
    exact Scanner.parse_of_path hpath
  have hlinks := hpath.linksOf_ofLinks?
  rw [Query.parse, hparse]
  cases hnode : Node.ofLinks? links with
  | none =>
    rw [hnode, linksOf] at hlinks
    rw [← hlinks] at hsteps hroot
    simp only [new, ← hsteps, ← hroot]
    rfl
  | some node =>
    rw [hnode, linksOf] at hlinks
    simp only [extend, new, hlinks, hsteps, hroot, List.nil_append, Bool.false_or]

end Query

end ValuePath
