import ValuePath.Proofs.Path.Reading

/-!
# Reading a path further on in a text

Where in a text the characters of a path stand has no part in how they are read. Only the places of
links and errors move along with them. The one exception is the root marker, for which a dollar sign
is read at the first place only.

* `Scanner.shift`, and the same for tokens, links, errors and readings, moves them further on.
* `Scanner.next_shift` moves one token, and `Scanner.lexemes_shift` all tokens.
* `readSegments_shift` moves what is read from the tokens, whatever is wrong with them, and
  `Scanner.reading_shift` what is read from a scanner on.
-/

namespace ValuePath

/-- The same token further on. -/
def Lexeme.shift (size : Nat) (lexeme : Lexeme) : Lexeme :=
  { lexeme with pos := lexeme.pos + size }

/-- The same error further on. -/
def SyntaxError.shift (size : Nat) (error : SyntaxError) : SyntaxError :=
  { error with pos := error.pos + size }

/-- The same link further on. -/
def Link.shift (size : Nat) : Link → Link
  | root pos => root (pos + size)
  | step pos s => step (pos + size) s

/-- The same reading further on. -/
def Reading.shift (size : Nat) (r : Reading) : Reading :=
  ⟨r.links.map (Link.shift size), r.errors.map (SyntaxError.shift size)⟩

/-- The same scanner further on. -/
def Scanner.shift (size : Nat) (s : Scanner) : Scanner :=
  { s with pos := s.pos + size }

/-- The message of an error does not say where it is. -/
@[simp]
theorem SyntaxError.message_shift (size : Nat) (error : SyntaxError) :
    (error.shift size).message = error.message :=
  rfl

/-- A link with its errors in front moves along. -/
theorem Reading.shift_push (size : Nat) (link : Link) (errors : List SyntaxError) (r : Reading) :
    (r.push link errors).shift size =
      (r.shift size).push (link.shift size) (errors.map (SyntaxError.shift size)) := by
  rw [push, shift, shift, push, List.map_cons, List.map_append]

/-! ## Tokens -/

namespace Scanner

/-- The next token is the same at other places: it does not begin with a dollar sign that is a root
marker where it stands. -/
structure IsMovable (s : Scanner) : Prop where
  pos_pos : 0 < s.pos
  head?_ne : s.pos = 1 → s.rest.head? ≠ some '$'

@[simp]
theorem endPos_shift (s : Scanner) (size : Nat) : (s.shift size).endPos = s.endPos + size := by
  simp only [endPos, shift]
  omega

/-- Characters taken further on are the same characters. -/
theorem advance_shift (s : Scanner) (size width : Nat) (rest : List Char) :
    (s.shift size).advance width rest = (s.advance width rest).shift size := by
  simp only [advance, shift, Nat.add_right_comm]

/-- A token outside of brackets is the same further on, except for a root marker. -/
theorem nextOutside_shift {s : Scanner} {c : Char} (hpos : 0 < s.pos)
    (hroot : s.pos = 1 → c ≠ '$') (size : Nat) (rest : List Char) :
    (s.shift size).nextOutside c rest =
      ((s.nextOutside c rest).1.shift size, (s.nextOutside c rest).2.shift size) := by
  have hhere : ¬(c = '$' ∧ s.pos = 1) := fun h => hroot h.2 h.1
  -- further on than the first place, or at the same place
  have hthere : ¬(c = '$' ∧ (s.shift size).pos = 1) := by
    rintro ⟨hc, hone⟩
    have hone : s.pos + size = 1 := hone
    exact hroot (by omega) hc
  simp only [nextOutside, if_neg hhere, if_neg hthere, advance_shift]
  repeat' split
  all_goals rfl

/-- A quoted name is the same further on, closed or not. -/
theorem nextQuoted_shift (s : Scanner) (quote : Char) (size : Nat) (rest : List Char) :
    (s.shift size).nextQuoted quote rest =
      ((s.nextQuoted quote rest).1.shift size, (s.nextQuoted quote rest).2.shift size) := by
  simp only [nextQuoted, advance_shift]
  split
  · rfl
  · simp only [shift, Lexeme.shift, Nat.add_right_comm]
  · simp only [shift, Lexeme.shift, Nat.add_right_comm]

/-- A token between brackets is the same further on. -/
theorem nextInside_shift (s : Scanner) (c : Char) (size : Nat) (rest : List Char) :
    (s.shift size).nextInside c rest =
      ((s.nextInside c rest).1.shift size, (s.nextInside c rest).2.shift size) := by
  simp only [nextInside, nextQuoted_shift, nextNumber, advance_shift]
  repeat' split
  all_goals rfl

/-- A token is the same further on. -/
theorem next_shift {s : Scanner} (h : s.IsMovable) (size : Nat) :
    (s.shift size).next = (s.next.1.shift size, s.next.2.shift size) := by
  obtain ⟨rest, pos, inBrackets⟩ := s
  cases rest with
  | nil => rfl
  | cons c rest =>
    cases inBrackets with
    | true => exact nextInside_shift _ c size rest
    | false =>
      have hroot : pos = 1 → c ≠ '$' := fun hone hc => h.head?_ne hone (congrArg some hc)
      exact nextOutside_shift h.pos_pos hroot size rest

/-- Behind the first token there is no root marker any more. -/
theorem IsMovable.next {s : Scanner} (h : s.IsMovable) (hne : s.rest ≠ []) :
    s.next.2.IsMovable := by
  -- a token takes at least one character, and the end of the text stays where it is
  have hpos : 1 < s.next.2.pos := by
    have hpos := h.pos_pos
    have hlen := length_next_lt hne
    have hend := endPos_next s
    rw [endPos, endPos] at hend
    omega
  exact ⟨Nat.lt_trans Nat.zero_lt_one hpos, fun hone => absurd hone (Nat.ne_of_gt hpos)⟩

/-- All tokens are the same further on. -/
theorem lexemes_shift {s : Scanner} (h : s.IsMovable) (size : Nat) :
    (s.shift size).lexemes = s.lexemes.map (Lexeme.shift size) := by
  fun_induction lexemes s with
  | case1 s hrest =>
    rw [lexemes_of_rest_eq_nil (show (s.shift size).rest = [] from hrest), List.map_nil]
  | case2 s hrest ih =>
    rw [lexemes_of_next (show (s.shift size).rest ≠ [] from hrest) (next_shift h size),
      ih (h.next hrest), List.map_cons]

end Scanner

/-! ## Readings -/

/-- What is expected of a token is the same further on. -/
theorem expect_shift (expected : List TokenKind) (size : Nat) (found : Lexeme) :
    expect expected (found.shift size) = (expect expected found).map (SyntaxError.shift size) := by
  rw [expect, expect]
  show (if found.token.kind ∈ expected then _ else _) = _
  split <;> rfl

/-- What stands between two brackets is the same further on. -/
theorem readContent_shift (size : Nat) (content : Lexeme) :
    readContent (content.shift size) =
      ((readContent content).1, (readContent content).2.map (SyntaxError.shift size)) := by
  obtain ⟨pos, token⟩ := content
  cases token with
  | string name => rfl
  | int digits =>
    simp only [readContent, Lexeme.shift]
    cases index? digits <;> rfl
  | _ => rfl

/-- What is read of the segments is the same further on, whatever is wrong with them. -/
theorem readSegments_shift (size endPos : Nat) (lexemes : List Lexeme) :
    readSegments (endPos + size) (lexemes.map (Lexeme.shift size)) =
      (readSegments endPos lexemes).shift size := by
  -- one case for each way in which a segment can begin and the text can end within it
  fun_induction readSegments endPos lexemes with
  | case1 => rfl
  | case2 pos => rfl
  | case3 pos name rest ih =>
    show (readSegments (endPos + size) (rest.map (Lexeme.shift size))).push
      (.step (pos + size) (.key name.token.literal)) (expect [.string] (name.shift size)) = _
    rw [ih, expect_shift, Reading.shift_push]
    rfl
  | case4 pos content => rfl
  | case5 pos content content' =>
    show Reading.mk [.step (pos + size) (readContent (content.shift size)).1]
      ((readContent (content.shift size)).2 ++ expect [.rightBracket] ⟨endPos + size, .eof⟩) = _
    rw [readContent_shift]
    simp only [Reading.shift, List.map_append]
    rfl
  | case6 pos content close rest content' ih =>
    show (readSegments (endPos + size) (rest.map (Lexeme.shift size))).push
      (.step (pos + size) (readContent (content.shift size)).1)
      ((readContent (content.shift size)).2 ++ expect [.rightBracket] (close.shift size)) = _
    rw [ih, readContent_shift, expect_shift, Reading.shift_push, List.map_append]
    rfl
  | case7 other rest hperiod hperiod' hleft hleft' hleft'' reading ih =>
    -- what begins a segment is read by the cases above, wherever the list of tokens ends
    have hother : (other.shift size).token ≠ .period ∧ (other.shift size).token ≠ .leftBracket := by
      obtain ⟨pos, token⟩ := other
      constructor
      · rintro rfl
        cases rest with
        | nil => exact hperiod pos rfl rfl
        | cons name rest => exact hperiod' pos name rest rfl rfl
      · rintro rfl
        match rest with
        | [] => exact hleft pos rfl rfl
        | [content] => exact hleft' pos content rfl rfl
        | content :: close :: rest => exact hleft'' pos content close rest rfl rfl
    rw [List.map_cons, readSegments_cons_of_ne hother.1 hother.2, ih, expect_shift]
    simp only [Reading.shift, List.map_append]
    rfl

/-- What is read from a scanner on is the same further on. -/
theorem Scanner.reading_shift {s : Scanner} (h : s.IsMovable) (size : Nat) :
    (s.shift size).reading = s.reading.shift size := by
  rw [reading, reading, endPos_shift, lexemes_shift h, readSegments_shift]

end ValuePath
