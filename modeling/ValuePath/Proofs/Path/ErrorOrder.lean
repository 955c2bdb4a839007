import ValuePath.Proofs.Path.Tiling

/-!
# The order of errors

The errors of a path come in the order of its text. Reading blames no token twice, since it goes on
behind every token that it has looked at, and the places of tokens increase. The end of the text is
the one exception. It is found wherever a token is missing, and behind an opening bracket two can be
missing. A quoted name without an end is reported there as well, but only the end of the text is
read behind it.

* `blamePlaces` are the places that can be blamed: those of some tokens, and the end of the text
  behind them.
* `map_pos_errors_sublist`: the errors of a row of segments are at some of these places, one at
  each.
* `Scanner.inTextOrder_blamePlaces`: the places increase, and only the last one can come twice.
* `Parser.inTextOrder_of_parse` says this of the errors of one call, wherever it begins in a text,
  and `exists_errors_in_order` of those of the first call.
-/

namespace ValuePath

/-! ## Places of tokens -/

/-- Places that increase in a text, of which the end of the text can come twice. -/
def InTextOrder (endPos : Nat) (places : List Nat) : Prop :=
  ∃ before count, places = before ++ List.replicate count endPos ∧ count ≤ 2 ∧
    before.Pairwise (· < ·) ∧ ∀ pos ∈ before, pos < endPos

/-- Some places among those in order are in order. -/
theorem InTextOrder.sublist {endPos : Nat} {places chosen : List Nat}
    (h : InTextOrder endPos places) (hchosen : chosen.Sublist places) :
    InTextOrder endPos chosen := by
  obtain ⟨before, count, rfl, hcount, hordered, hbound⟩ := h
  obtain ⟨first, second, rfl, hfirst, hsecond⟩ := List.sublist_append_iff.mp hchosen
  obtain ⟨count', hle, rfl⟩ := List.sublist_replicate_iff.mp hsecond
  refine ⟨first, count', rfl, Nat.le_trans hle hcount, hordered.sublist hfirst, ?_⟩
  exact fun pos hpos => hbound pos (hfirst.subset hpos)

/-- A place before all others, and before the end of the text, can stand in front of them. -/
theorem InTextOrder.cons {endPos pos : Nat} {places : List Nat} (h : InTextOrder endPos places)
    (hend : pos < endPos) (hall : ∀ other ∈ places, pos < other) :
    InTextOrder endPos (pos :: places) := by
  obtain ⟨before, count, rfl, hcount, hordered, hbound⟩ := h
  have hbefore : ∀ other ∈ before, pos < other :=
    fun other hother => hall other (List.mem_append_left _ hother)
  exact ⟨pos :: before, count, rfl, hcount, List.pairwise_cons.mpr ⟨hbefore, hordered⟩,
    List.forall_mem_cons.mpr ⟨hend, hbound⟩⟩

/-- No place in order is behind the end of the text. -/
theorem InTextOrder.le_endPos {endPos pos : Nat} {places : List Nat}
    (h : InTextOrder endPos places) (hpos : pos ∈ places) : pos ≤ endPos := by
  obtain ⟨before, count, rfl, -, -, hbound⟩ := h
  rcases List.mem_append.mp hpos with hmem | hmem
  · exact Nat.le_of_lt (hbound pos hmem)
  · exact Nat.le_of_eq (List.eq_of_mem_replicate hmem)

/-- The places of some tokens and of the end of the text behind them. It comes twice behind an
opening bracket, where two tokens are missing. -/
def blamePlaces (endPos : Nat) (lexemes : List Lexeme) : List Nat :=
  lexemes.map (·.pos) ++
    if lexemes.getLast?.map (·.token) = some .leftBracket then [endPos, endPos] else [endPos]

/-- Places at a token and then places behind it are places from the token on. -/
theorem append_sublist_blamePlaces {endPos : Nat} {lexeme : Lexeme} {rest : List Lexeme}
    {here more : List Nat} (hhere : here.Sublist [lexeme.pos])
    (hmore : more.Sublist (blamePlaces endPos rest)) :
    (here ++ more).Sublist (blamePlaces endPos (lexeme :: rest)) := by
  have hcons : (lexeme.pos :: blamePlaces endPos rest).Sublist
      (blamePlaces endPos (lexeme :: rest)) := by
    cases rest with
    | nil =>
      -- behind the last token the end of the text comes once or twice
      rw [blamePlaces, blamePlaces]
      split <;> split <;> simp_all
    | cons next rest => exact List.Sublist.refl _
  exact (hhere.append hmore).trans hcons

theorem sublist_blamePlaces_cons {endPos : Nat} {lexeme : Lexeme} {rest : List Lexeme}
    {more : List Nat} (h : more.Sublist (blamePlaces endPos rest)) :
    more.Sublist (blamePlaces endPos (lexeme :: rest)) :=
  append_sublist_blamePlaces (List.nil_sublist [lexeme.pos]) h

/-- The places behind some of the tokens are among all places. -/
theorem blamePlaces_sublist_of_suffix {endPos : Nat} {tail lexemes : List Lexeme}
    (h : tail <:+ lexemes) : (blamePlaces endPos tail).Sublist (blamePlaces endPos lexemes) := by
  obtain ⟨before, rfl⟩ := h
  induction before with
  | nil => exact List.Sublist.refl _
  | cons lexeme before ih => exact sublist_blamePlaces_cons ih

/-! ## Places of errors -/

/-- A token that is not expected is blamed once. -/
theorem map_pos_expect_sublist (expected : List TokenKind) (found : Lexeme) :
    ((expect expected found).map (·.pos)).Sublist [found.pos] := by
  rw [expect]
  split
  · exact List.nil_sublist _
  · exact List.Sublist.refl _

/-- What stands between two brackets is blamed once. -/
theorem map_pos_readContent_sublist (content : Lexeme) :
    ((readContent content).2.map (·.pos)).Sublist [content.pos] := by
  obtain ⟨pos, token⟩ := content
  cases token with
  | string name => exact List.nil_sublist _
  | int digits =>
    simp only [readContent]
    split
    · exact List.nil_sublist _
    · exact List.Sublist.refl _
  | _ =>
    simp only [readContent]
    exact map_pos_expect_sublist _ _

/-- Errors are at the places of tokens or at the end of the text, and no token is blamed twice. -/
theorem map_pos_errors_sublist (endPos : Nat) (lexemes : List Lexeme) :
    ((readSegments endPos lexemes).errors.map (·.pos)).Sublist (blamePlaces endPos lexemes) := by
  -- one case for each way in which a segment can begin and the text can end within it
  induction lexemes using readSegments.induct endPos with
  | case1 => exact List.nil_sublist _
  | case2 pos =>
    show ((expect [.string] ⟨endPos, .eof⟩).map (·.pos)).Sublist [pos, endPos]
    exact (map_pos_expect_sublist _ _).trans (List.sublist_cons_self _ _)
  | case3 pos name rest ih =>
    rw [readSegments, Reading.push, List.map_append]
    apply sublist_blamePlaces_cons
    exact append_sublist_blamePlaces (map_pos_expect_sublist [.string] name) ih
  | case4 pos => exact List.sublist_cons_self pos [endPos, endPos]
  | case5 pos content =>
    have hend : ((expect [.rightBracket] ⟨endPos, .eof⟩).map (·.pos)).Sublist
        (blamePlaces endPos []) := map_pos_expect_sublist _ _
    rw [readSegments, List.map_append]
    apply sublist_blamePlaces_cons
    exact append_sublist_blamePlaces (map_pos_readContent_sublist content) hend
  | case6 pos content close rest ih =>
    rw [readSegments, Reading.push, List.map_append, List.map_append, List.append_assoc]
    apply sublist_blamePlaces_cons
    apply append_sublist_blamePlaces (map_pos_readContent_sublist content)
    exact append_sublist_blamePlaces (map_pos_expect_sublist [.rightBracket] close) ih
  | case7 other rest hperiod hperiod' hleft hleft' hleft'' ih =>
    rw [readSegments, List.map_append]
    · exact append_sublist_blamePlaces (map_pos_expect_sublist _ other) ih
    all_goals assumption

/-! ## Places in a text -/

namespace Scanner

/-- Behind a token the scanner stands further on than the token, unless this is reported at the end
of the text. -/
theorem pos_next_lt {s : Scanner} (hne : s.rest ≠ [])
    (h : s.next.1.token ≠ .illegal "" ∨ s.next.2.rest ≠ []) :
    s.next.1.pos < s.next.2.pos := by
  have hreads := reads_next s
  have hlength := length_next_lt hne
  have hend := endPos_next s
  rw [endPos, endPos] at hend
  by_cases htoken : s.next.1.token = .illegal ""
  · -- a bad escape is reported at its backslash, which is taken
    rcases hreads.of_illegal htoken with ⟨-, hrest, -⟩ | ⟨skipped, more, hsplit, hpos, -, hnext⟩
    · exact absurd hrest (h.resolve_left (not_not_intro htoken))
    · rw [endPos, hsplit, List.length_append, List.length_cons] at hnext
      omega
  · obtain ⟨slice, -, hpos, -, -⟩ := hreads.exists_slice (hreads.token_ne_eof hne) htoken
    omega

theorem pos_le_endPos (s : Scanner) : s.pos ≤ s.endPos :=
  Nat.le_add_right _ _

/-- All tokens stand between the place where reading begins and the end of the text. -/
theorem pos_of_mem_lexemes {s : Scanner} {lexeme : Lexeme} (h : lexeme ∈ s.lexemes) :
    s.pos ≤ lexeme.pos ∧ lexeme.pos ≤ s.endPos := by
  fun_induction lexemes s with
  | case1 => simp at h
  | case2 s hrest ih =>
    have hreads := (reads_next s).pos_le
    have hend := pos_le_endPos s.next.2
    rw [endPos_next] at ih hend
    obtain rfl | h := List.mem_cons.mp h
    · omega
    · have hbehind := ih h
      omega

theorem pos_le_of_mem_blamePlaces {s : Scanner} {pos : Nat}
    (h : pos ∈ blamePlaces s.endPos s.lexemes) : s.pos ≤ pos := by
  rcases List.mem_append.mp h with hmem | hmem
  · obtain ⟨lexeme, hlexeme, rfl⟩ := List.mem_map.mp hmem
    exact (pos_of_mem_lexemes hlexeme).1
  · have hend : pos = s.endPos := by
      split at hmem <;> simpa using hmem
    rw [hend]
    exact pos_le_endPos s

/-- Tokens come in the order of the text, and the end of the text comes twice at most. -/
theorem inTextOrder_blamePlaces (s : Scanner) :
    InTextOrder s.endPos (blamePlaces s.endPos s.lexemes) := by
  fun_induction lexemes s with
  | case1 s hrest => exact ⟨[], 1, rfl, by omega, .nil, by simp⟩
  | case2 s hrest ih =>
    have hend := pos_le_endPos s.next.2
    have hpos := (reads_next s).pos_le.2
    rw [endPos_next] at ih hend
    by_cases hlast : s.next.2.rest = []
    · rw [lexemes_of_rest_eq_nil hlast, blamePlaces]
      split
      next hbracket =>
        -- two tokens are missing behind the bracket, which stands before the end of the text
        have htoken : s.next.1.token = .leftBracket := by simpa using hbracket
        have hlt := pos_next_lt hrest (.inl (by simp [htoken]))
        refine ⟨[s.next.1.pos], 2, rfl, Nat.le_refl _, List.pairwise_singleton _ _, ?_⟩
        exact List.forall_mem_singleton.mpr (Nat.lt_of_lt_of_le hlt hend)
      next =>
        -- the last token may itself be reported at the end of the text
        rcases Nat.lt_or_eq_of_le (Nat.le_trans hpos hend) with hlt | heq
        · exact ⟨[s.next.1.pos], 1, rfl, by omega, List.pairwise_singleton _ _,
            List.forall_mem_singleton.mpr hlt⟩
        · exact ⟨[], 2, by simp [heq], Nat.le_refl _, .nil, by simp⟩
    · have hlt := pos_next_lt hrest (.inr hlast)
      have hsplit : blamePlaces s.endPos (s.next.1 :: s.next.2.lexemes) =
          s.next.1.pos :: blamePlaces s.endPos s.next.2.lexemes := by
        rw [lexemes_of_next hlast rfl]
        rfl
      rw [hsplit]
      refine ih.cons (Nat.lt_of_lt_of_le hlt hend) fun other hother => ?_
      rw [← endPos_next] at hother
      exact Nat.lt_of_lt_of_le hlt (pos_le_of_mem_blamePlaces hother)

end Scanner

/-! ## Errors in order -/

namespace Parser

variable {errors : List SyntaxError}

/-- A call that fails gives errors, at places that can be blamed. -/
theorem errors_of_parse {p : Parser} (h : p.parse.1 = .error errors) :
    errors ≠ [] ∧ (errors.map (·.pos)).Sublist (blamePlaces p.endPos p.pending) := by
  have hparses := p.parses_parse
  rw [h] at hparses
  generalize p.parse.2 = behind at hparses
  generalize hresult : Except.error errors = result at hparses
  cases hparses with
  | atEnd => cases hresult
  | whole head htail =>
    rw [Reading.result] at hresult
    split at hresult
    next => cases hresult
    next hne =>
      obtain rfl := Except.error.inj hresult
      exact ⟨hne, (map_pos_errors_sublist _ _).trans (blamePlaces_sublist_of_suffix htail)⟩
  | @givenUp first rest hpending =>
    obtain rfl := Except.error.inj hresult
    rw [hpending]
    exact ⟨List.cons_ne_nil _ _,
      append_sublist_blamePlaces (List.Sublist.refl [first.pos]) (List.nil_sublist _)⟩

/-- The errors of a call come in the order of the text, from where the call begins. -/
theorem inTextOrder_of_parse {s : Scanner} (h : s.parser.parse.1 = .error errors) :
    InTextOrder s.endPos (errors.map (·.pos)) ∧
      ∀ e ∈ errors, s.pos ≤ e.pos ∧ e.pos ≤ s.endPos := by
  have hplaces := (errors_of_parse h).2
  have hordered := s.inTextOrder_blamePlaces.sublist hplaces
  refine ⟨hordered, fun e he => ?_⟩
  have hpos : e.pos ∈ errors.map (·.pos) := List.mem_map_of_mem he
  exact ⟨s.pos_le_of_mem_blamePlaces (hplaces.subset hpos), hordered.le_endPos hpos⟩

end Parser

/-- The errors of a text that is not accepted come in the order of the text. There is one, all of
them are between the first character and one behind the last, and their places increase, except that
the last two errors can both be at the end of the text. Behind them no token is left, unless the
only error is that the text begins with a closing bracket. -/
theorem exists_errors_in_order (s : String) (errors : List SyntaxError)
    (h : (Parser.ofString s).parse.1 = .error errors) :
    errors ≠ [] ∧ (∀ e ∈ errors, 1 ≤ e.pos ∧ e.pos ≤ s.length + 1) ∧
      InTextOrder (s.length + 1) (errors.map (·.pos)) ∧
      ((Parser.ofString s).parse.2.pending = [] ∨
        s.toList.head? = some ']' ∧
          errors = [⟨1, .unexpected [.root, .string, .leftBracket] .rightBracket⟩]) := by
  have hend : (Scanner.ofString s).endPos = s.length + 1 := by
    rw [Scanner.endPos, Scanner.ofString, String.length_toList, Nat.add_comm]
  obtain ⟨hordered, hbounds⟩ := Parser.inTextOrder_of_parse h
  rw [hend] at hordered hbounds
  refine ⟨(Parser.errors_of_parse h).1, hbounds, hordered, ?_⟩
  rw [Parser.ofString_eq_parser, Scanner.ofString] at h ⊢
  by_cases hright : s.toList.head? = some ']'
  · -- the first token is given up, and the others stay
    obtain ⟨cs, hcs⟩ := List.head?_eq_some_iff.mp hright
    rw [hcs, Scanner.parse_parser_other (Scanner.next_rightBracket cs 1 false) (by decide)
      (by decide)] at h
    exact .inr ⟨hright, (Except.error.inj h).symm⟩
  · exact .inl (Scanner.pending_parse_eq_nil hright 1)

/-- An illegal character and a name without a period, and then a quoted name without an end, which
is blamed at the end of the text together with the missing bracket. -/
theorem exists_errors_in_order_of_unterminated :
    let s := "[x]y['"
    let errors : List SyntaxError :=
      [⟨2, .unexpected [.string, .int] .illegal⟩, ⟨4, .unexpected [.period, .leftBracket] .string⟩,
        ⟨7, .unexpected [.string, .int] .illegal⟩, ⟨7, .unexpected [.rightBracket] .eof⟩]
    (Parser.ofString s).parse.1 = .error errors ∧ errors ≠ [] ∧
      (∀ e ∈ errors, 1 ≤ e.pos ∧ e.pos ≤ s.length + 1) ∧
      InTextOrder (s.length + 1) (errors.map (·.pos)) ∧
      ((Parser.ofString s).parse.2.pending = [] ∨
        s.toList.head? = some ']' ∧
          errors = [⟨1, .unexpected [.root, .string, .leftBracket] .rightBracket⟩]) := by
  intro s errors
  -- the text is scanned token by token, and its segments are read from the tokens
  have hchars : Scanner.ofString "[x]y['" = ⟨['[', 'x', ']', 'y', '[', '\''], 1, false⟩ := rfl
  have hx : (Scanner.mk ['x', ']', 'y', '[', '\''] 2 true).next =
      (⟨2, .illegal "x"⟩, ⟨[']', 'y', '[', '\''], 3, true⟩) := rfl
  have hy : (Scanner.mk ['y', '[', '\''] 4 false).next =
      (⟨4, .string "y"⟩, ⟨['[', '\''], 5, false⟩) := rfl
  have hquote : (Scanner.mk ['\''] 6 true).next = (⟨7, .illegal ""⟩, ⟨[], 7, true⟩) := rfl
  have hend : (Scanner.mk [] 7 true).next = (⟨7, .eof⟩, ⟨[], 7, true⟩) := rfl
  have hparse : (Parser.ofString s).parse.1 = .error errors := by
    rw [Parser.ofString_eq_parser, hchars,
      Scanner.parse_parser_of_isBoundary (Grammar.isBoundary_cons (.inr rfl)) 1,
      Scanner.reading_leftBracket (Scanner.next_leftBracket _ _) hx
        (Scanner.next_rightBracket _ _ _),
      Scanner.reading_other hy (by simp) (by simp) (by simp),
      Scanner.reading_leftBracket (Scanner.next_leftBracket _ _) hquote hend,
      Scanner.reading_of_rest_eq_nil rfl]
    rfl
  exact ⟨hparse, exists_errors_in_order s errors hparse⟩

end ValuePath
