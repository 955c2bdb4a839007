import Mathlib.Logic.Function.Iterate
import ValuePath.Proofs.Path.Reading

/-!
# The tokens of a text

The scanner loses nothing of a text. The tokens that it gives, one call after another, cover the
text without gaps: each one is written with the characters that stand at its place, and the next
one is read right behind them. Only of a quoted name that is none is there less to say. The scanner
reports it where it is found not to be one, and goes on behind the bad escape, or ends.

* `Token.WrittenAs` are the characters that a token is written with.
* `Scanner.Reads` lists what one call can do, and `Scanner.reads_next` says that it does.
* `Scanner.after` and `Scanner.lexemeAt` are one call after another, and
  `Scanner.lexemeAt_eq_getD` compares them with the list of tokens before the end of the text.
* `Scanner.tokens_cover_text`: the calls from the beginning of a text on.
-/

namespace ValuePath

/-! ## How tokens are written -/

/-- The characters that a token is written with. Between brackets a name stands between two quotes,
with a backslash before every backslash and every such quote in it. All other tokens are written as
their texts. -/
inductive Token.WrittenAs : Bool → Token → List Char → Prop
  | quoted {quote : Char} (name : String) : quote = '\'' ∨ quote = '"' →
      WrittenAs true (.string name) (quote :: (Step.escape quote name.toList ++ [quote]))
  | literal {inBrackets : Bool} {token : Token} : (inBrackets = true → token.kind ≠ .string) →
      WrittenAs inBrackets token token.literal.toList

/-- Whether the scanner is between brackets behind a token. -/
def Token.leavesOpen (inBrackets : Bool) : Token → Bool
  | leftBracket => true
  | rightBracket => false
  | _ => inBrackets

/-- Whether the last bracket among some tokens is an opening one. -/
def lastBracketOpens (tokens : List Token) : Bool :=
  (tokens.filter fun token => token = .leftBracket ∨ token = .rightBracket).getLast? =
    some .leftBracket

/-- A bracket decides for itself, and all other tokens leave it to those before them. -/
theorem lastBracketOpens_append_singleton (tokens : List Token) (token : Token) :
    lastBracketOpens (tokens ++ [token]) = token.leavesOpen (lastBracketOpens tokens) := by
  cases token <;> simp [lastBracketOpens, Token.leavesOpen, List.filter_append]

/-- The text of a name between two quotes is the escaped name. -/
theorem Grammar.Quoted.eq_escape {quote : Char} {text name : List Char}
    (h : Quoted quote text name) : text = Step.escape quote name := by
  induction h with
  | nil => rfl
  | plain hslash hquote _ ih => simp [Step.escape, hslash, hquote, ih]
  | escaped hc _ ih => simp [Step.escape, hc, ih]

namespace QuotedName

theorem push_eq_badEscape_iff {c : Char} {size offset width : Nat} {q : QuotedName}
    {rest : List Char} :
    q.push c size = badEscape offset width rest ↔
      ∃ offset' width', q = badEscape offset' width' rest ∧ offset = offset' + size ∧
        width = width' + size := by
  cases q with
  | badEscape offset' width' rest' =>
    simp only [push, badEscape.injEq]
    constructor
    · rintro ⟨rfl, rfl, rfl⟩
      exact ⟨offset', width', ⟨rfl, rfl, rfl⟩, rfl, rfl⟩
    · rintro ⟨_, _, ⟨rfl, rfl, rfl⟩, rfl, rfl⟩
      exact ⟨rfl, rfl, rfl⟩
  | closed => simp [push]
  | unterminated => simp [push]

/-- A bad escape is a backslash, and reading goes on behind the character after it. -/
theorem exists_backslash_of_read {quote : Char} {cs rest : List Char} {offset width : Nat}
    (h : read quote cs = badEscape offset width rest) :
    ∃ text more, cs = text ++ '\\' :: more ∧ offset = text.length ∧ rest = more.tail ∧
      width = min (offset + 2) cs.length := by
  fun_induction read quote cs generalizing offset width with
  | case1 => cases h
  | case2 =>
    obtain ⟨rfl, rfl, rfl⟩ := badEscape.inj h
    exact ⟨[], [], rfl, rfl, rfl, rfl⟩
  | case3 c cs hc ih =>
    obtain ⟨offset', width', hread, rfl, rfl⟩ := push_eq_badEscape_iff.mp h
    obtain ⟨text, more, rfl, rfl, hrest, hwidth⟩ := ih hread
    refine ⟨'\\' :: c :: text, more, rfl, rfl, hrest, ?_⟩
    simp only [List.length_cons]
    omega
  | case4 c cs hc =>
    obtain ⟨rfl, rfl, rfl⟩ := badEscape.inj h
    refine ⟨[], c :: cs, rfl, rfl, rfl, ?_⟩
    simp only [List.length_cons]
    omega
  | case5 cs => cases h
  | case6 c cs _ _ hc ih =>
    obtain ⟨offset', width', hread, rfl, rfl⟩ := push_eq_badEscape_iff.mp h
    obtain ⟨text, more, rfl, rfl, hrest, hwidth⟩ := ih hread
    refine ⟨c :: text, more, rfl, rfl, hrest, ?_⟩
    simp only [List.length_cons]
    omega

end QuotedName

namespace Scanner

/-! ## One call -/

/-- What a call of the scanner can do: the token that it gives, and the scanner behind that. -/
inductive Reads (s : Scanner) : Lexeme → Scanner → Prop
  /-- The end of the text, where the scanner stays. -/
  | eof : s.rest = [] → Reads s ⟨s.pos, .eof⟩ s
  /-- A token that stands where the scanner does. It takes the characters that it is written
  with. -/
  | slice {token : Token} {slice rest : List Char} :
      token ≠ .eof → token ≠ .illegal "" → token.WrittenAs s.inBrackets slice →
      s.rest = slice ++ rest →
        Reads s ⟨s.pos, token⟩ ⟨rest, s.pos + slice.length, token.leavesOpen s.inBrackets⟩
  /-- A bad escape, reported at the backslash. It takes the character behind that as well. -/
  | badEscape {skipped more : List Char} : s.rest = skipped ++ '\\' :: more →
      Reads s ⟨s.pos + skipped.length, .illegal ""⟩
        ⟨more.tail, min (s.pos + skipped.length + 2) s.endPos, s.inBrackets⟩
  /-- A quoted name without an end, reported at the end of the text. It takes all characters. -/
  | unterminated : Reads s ⟨s.endPos, .illegal ""⟩ ⟨[], s.endPos, s.inBrackets⟩

variable {s : Scanner} {c : Char} {cs : List Char}

/-- A token that is written as its text, and that has one. -/
theorem Reads.of_literal {token : Token} {rest : List Char} (hne : token.literal ≠ "")
    (hkind : s.inBrackets = true → token.kind ≠ .string)
    (hs : s.rest = token.literal.toList ++ rest) :
    s.Reads ⟨s.pos, token⟩
      ⟨rest, s.pos + token.literal.toList.length, token.leavesOpen s.inBrackets⟩ := by
  refine .slice ?_ ?_ (.literal hkind) hs
  · rintro rfl
    exact hne (by simp [Token.literal])
  · rintro rfl
    exact hne (by simp [Token.literal])

/-- Outside of brackets every token is written as its text. -/
theorem reads_nextOutside (hs : s.rest = c :: cs) (hout : s.inBrackets = false) :
    s.Reads (s.nextOutside c cs).1 (s.nextOutside c cs).2 := by
  unfold nextOutside
  split
  next h =>
    rw [h.1] at hs
    exact .of_literal (by simp [Token.literal]) (by simp [hout]) hs
  split
  next h =>
    rw [h] at hs
    exact .of_literal (by simp [Token.literal]) (by simp [hout]) hs
  split
  next h =>
    rw [h] at hs
    exact .of_literal (by simp [Token.literal]) (by simp [hout]) hs
  split
  next h =>
    rw [h] at hs
    exact .of_literal (by simp [Token.literal]) (by simp [hout]) hs
  next =>
    -- a bare name, and what is left behind it
    have hsplit : s.rest =
        (Token.string (String.ofList (c :: cs.takeWhile (!endsBareName ·)))).literal.toList ++
          cs.dropWhile (!endsBareName ·) := by
      simp [Token.literal, hs]
    have hreads := Reads.of_literal (by simp [Token.literal]) (by simp [hout]) hsplit
    simpa [Token.literal, Token.leavesOpen, advance] using hreads

/-- A quoted name is written between its quotes, unless it is none. -/
theorem reads_nextQuoted {quote : Char} (hs : s.rest = quote :: cs) (hin : s.inBrackets = true)
    (hquote : quote = '\'' ∨ quote = '"') :
    s.Reads (s.nextQuoted quote cs).1 (s.nextQuoted quote cs).2 := by
  have hend : s.endPos = s.pos + (cs.length + 1) := by rw [endPos, hs, List.length_cons]
  have hwidth := QuotedName.width_read_add quote cs
  unfold nextQuoted
  split
  next name width rest hread =>
    obtain ⟨text, htext, rfl, rfl⟩ := QuotedName.exists_quoted_of_read hread
    have hwritten := Token.WrittenAs.quoted (String.ofList name) hquote
    rw [← hin, String.toList_ofList, ← htext.eq_escape] at hwritten
    have hsplit : s.rest = (quote :: (text ++ [quote])) ++ rest := by simp [hs]
    have hreads := Reads.slice (by simp) (by simp) hwritten hsplit
    simpa [advance, Token.leavesOpen, Nat.add_assoc] using hreads
  next offset width rest hread =>
    obtain ⟨text, more, rfl, rfl, rfl, rfl⟩ := QuotedName.exists_backslash_of_read hread
    -- what is skipped is the quote and the name up to the backslash
    have hsplit : s.rest = (quote :: text) ++ '\\' :: more := by simp [hs]
    have hpos : s.pos + 1 + text.length = s.pos + (quote :: text).length := by
      rw [List.length_cons]
      omega
    have hnext : s.pos + (min (text.length + 2) (text ++ '\\' :: more).length + 1) =
        min (s.pos + (quote :: text).length + 2) s.endPos := by
      rw [hend, List.length_cons]
      omega
    rw [advance, hpos, hnext]
    exact .badEscape hsplit
  next width hread =>
    simp only [hread, QuotedName.width, QuotedName.remaining, List.length_nil] at hwidth
    have hpos : s.pos + 1 + width = s.endPos := by omega
    have hnext : s.pos + (width + 1) = s.endPos := by omega
    rw [advance, hpos, hnext]
    exact .unterminated

/-- A number is written as its digits, also where it is illegal. -/
theorem reads_nextNumber (hs : s.rest = c :: cs) :
    s.Reads (s.nextNumber c cs).1 (s.nextNumber c cs).2 := by
  have hread (token : Token) (hkind : token.kind ≠ .string)
      (hopen : token.leavesOpen s.inBrackets = s.inBrackets)
      (htext : token.literal = String.ofList (c :: cs.takeWhile Text.isDecimalDigit)) :
      s.Reads ⟨s.pos, token⟩ (s.advance ((cs.takeWhile Text.isDecimalDigit).length + 1)
        (cs.dropWhile Text.isDecimalDigit)) := by
    have hsplit : s.rest = token.literal.toList ++ cs.dropWhile Text.isDecimalDigit := by
      simp [htext, hs]
    have hreads := Reads.of_literal (by simp [htext]) (fun _ => hkind) hsplit
    simpa [htext, hopen, advance] using hreads
  unfold nextNumber
  apply hread
  · split <;> simp [Token.kind]
  · split <;> simp [Token.leavesOpen]
  · split <;> simp [Token.literal]

/-- What the scanner does between brackets. -/
theorem reads_nextInside (hs : s.rest = c :: cs) (hin : s.inBrackets = true) :
    s.Reads (s.nextInside c cs).1 (s.nextInside c cs).2 := by
  unfold nextInside
  split
  next hquote => exact reads_nextQuoted hs hin hquote
  split
  next h =>
    rw [h] at hs
    exact .of_literal (by simp [Token.literal]) (fun _ => by simp [Token.kind]) hs
  split
  next => exact reads_nextNumber hs
  next =>
    have hsplit : s.rest = (Token.illegal (String.singleton c)).literal.toList ++ cs := by
      simp [Token.literal, hs]
    have hreads := Reads.of_literal (by simp [Token.literal]) (fun _ => by simp [Token.kind]) hsplit
    simpa [Token.literal, Token.leavesOpen, advance] using hreads

/-- What every call does. -/
theorem reads_next (s : Scanner) : s.Reads s.next.1 s.next.2 := by
  unfold next
  split
  next hs => exact .eof hs
  next c cs hs =>
    split
    next hin => exact reads_nextInside hs hin
    next hout => exact reads_nextOutside hs (by simpa using hout)

/-- A token stands between the place where its reading begins and the place where it ends. -/
theorem Reads.pos_le {s s' : Scanner} {lexeme : Lexeme} (h : s.Reads lexeme s') :
    s.pos ≤ lexeme.pos ∧ lexeme.pos ≤ s'.pos := by
  cases h with
  | eof => simp
  | slice => simp
  | badEscape hs =>
    simp only [endPos, hs, List.length_append, List.length_cons]
    omega
  | unterminated => simp [endPos]

/-- Only at the end of the text there is no token to read. -/
theorem Reads.token_ne_eof {s s' : Scanner} {lexeme : Lexeme} (h : s.Reads lexeme s')
    (hne : s.rest ≠ []) : lexeme.token ≠ .eof := by
  cases h with
  | eof hs => exact absurd hs hne
  | slice htoken => exact htoken
  | badEscape => simp
  | unterminated => simp

/-- The brackets alone decide whether the scanner is between brackets. -/
theorem Reads.inBrackets_eq {s s' : Scanner} {lexeme : Lexeme} (h : s.Reads lexeme s') :
    s'.inBrackets = lexeme.token.leavesOpen s.inBrackets := by
  cases h <;> simp [Token.leavesOpen]

/-- A token that says what it is takes the characters that it is written with. -/
theorem Reads.exists_slice {s s' : Scanner} {lexeme : Lexeme} (h : s.Reads lexeme s')
    (heof : lexeme.token ≠ .eof) (hillegal : lexeme.token ≠ .illegal "") :
    ∃ slice, s.rest = slice ++ s'.rest ∧ lexeme.pos = s.pos ∧ s'.pos = s.pos + slice.length ∧
      lexeme.token.WrittenAs s.inBrackets slice := by
  cases h with
  | eof => exact absurd rfl heof
  | slice _ _ hwritten hsplit => exact ⟨_, hsplit, rfl, rfl, hwritten⟩
  | badEscape => exact absurd rfl hillegal
  | unterminated => exact absurd rfl hillegal

/-- A quoted name that is none ends at the end of the text or behind a bad escape. -/
theorem Reads.of_illegal {s s' : Scanner} {lexeme : Lexeme} (h : s.Reads lexeme s')
    (hillegal : lexeme.token = .illegal "") :
    (lexeme.pos = s.endPos ∧ s'.rest = [] ∧ s'.pos = s.endPos) ∨
      ∃ skipped more, s.rest = skipped ++ '\\' :: more ∧ lexeme.pos = s.pos + skipped.length ∧
        s'.rest = more.tail ∧ s'.pos = min (lexeme.pos + 2) s.endPos := by
  cases h with
  | eof => cases hillegal
  | slice _ hne => exact absurd hillegal hne
  | badEscape hsplit => exact .inr ⟨_, _, hsplit, rfl, rfl, rfl⟩
  | unterminated => exact .inl ⟨rfl, rfl, rfl⟩

/-- The scanner stands in a text: what it has not read is the end of the text, and its place is
counted from the beginning. -/
def StandsIn (text : List Char) (s : Scanner) : Prop :=
  ∃ before, text = before ++ s.rest ∧ s.pos = before.length + 1

theorem StandsIn.endPos_eq {text : List Char} {s : Scanner} (h : s.StandsIn text) :
    s.endPos = text.length + 1 := by
  obtain ⟨before, rfl, hpos⟩ := h
  rw [endPos, hpos, List.length_append]
  omega

/-- A call does not leave the text. -/
theorem Reads.standsIn {text : List Char} {s s' : Scanner} {lexeme : Lexeme}
    (h : s.Reads lexeme s') (hs : s.StandsIn text) : s'.StandsIn text := by
  have hend := hs.endPos_eq
  obtain ⟨before, htext, hpos⟩ := hs
  cases h with
  | eof => exact ⟨before, htext, hpos⟩
  | @slice token slice rest _ _ _ hsplit =>
    refine ⟨before ++ slice, ?_, ?_⟩
    · rw [htext, hsplit, List.append_assoc]
    · simp only [hpos, List.length_append]
      omega
  | @badEscape skipped more hsplit =>
    -- the character behind the backslash is taken as well, if there is one
    refine ⟨before ++ skipped ++ '\\' :: more.take 1, ?_, ?_⟩
    · simp only [htext, hsplit, List.append_assoc, List.cons_append, ← List.drop_one,
        List.take_append_drop]
    · simp only [endPos, hpos, hsplit, List.length_append, List.length_cons, List.length_take]
      omega
  | unterminated => exact ⟨text, by simp, hend⟩

/-! ## One call after another -/

/-- The scanner after some calls. -/
def after (s : Scanner) (calls : Nat) : Scanner :=
  (fun s => s.next.2)^[calls] s

/-- What a call gives, of which the first one has the number zero. -/
def lexemeAt (s : Scanner) (call : Nat) : Lexeme :=
  (s.after call).next.1

/-- The tokens of the first calls. -/
def tokensBefore (s : Scanner) (call : Nat) : List Token :=
  (List.range call).map fun k => (s.lexemeAt k).token

theorem after_succ (s : Scanner) (k : Nat) : s.after (k + 1) = (s.after k).next.2 :=
  Function.iterate_succ_apply' _ _ _

theorem reads_after (s : Scanner) (k : Nat) :
    (s.after k).Reads (s.lexemeAt k) (s.after (k + 1)) := by
  rw [after_succ]
  exact reads_next (s.after k)

theorem tokensBefore_succ (s : Scanner) (k : Nat) :
    s.tokensBefore (k + 1) = s.tokensBefore k ++ [(s.lexemeAt k).token] := by
  simp [tokensBefore, List.range_succ]

theorem lexemeAt_succ (s : Scanner) (k : Nat) : s.lexemeAt (k + 1) = s.next.2.lexemeAt k := by
  rw [lexemeAt, after, Function.iterate_succ_apply, lexemeAt, after]

/-- The calls give the tokens of the text in order, and from then on the end of the text. -/
theorem lexemeAt_eq_getD (s : Scanner) (k : Nat) :
    s.lexemeAt k = s.lexemes[k]?.getD ⟨s.endPos, .eof⟩ := by
  fun_induction lexemes s generalizing k with
  | case1 s hs =>
    have hnext := next_of_rest_eq_nil hs
    -- at the end of the text a call changes nothing
    have hstays : s.after k = s := Function.iterate_fixed (by rw [hnext]) k
    simp [lexemeAt, hstays, hnext]
  | case2 s hs ih =>
    cases k with
    | zero => simp [lexemeAt, after]
    | succ k => simp [lexemeAt_succ, ih]

/-- Every token takes a character. -/
theorem length_lexemes_le (s : Scanner) : s.lexemes.length ≤ s.rest.length := by
  fun_induction lexemes s with
  | case1 => simp
  | case2 s hs ih =>
    have hlt := length_next_lt hs
    rw [List.length_cons]
    omega

theorem token_ne_eof_of_mem_lexemes {s : Scanner} {lexeme : Lexeme} (h : lexeme ∈ s.lexemes) :
    lexeme.token ≠ .eof := by
  fun_induction lexemes s with
  | case1 => simp at h
  | case2 s hs ih =>
    obtain rfl | h := List.mem_cons.mp h
    · exact (reads_next s).token_ne_eof hs
    · exact ih h

/-- From the beginning of a text on, the last bracket decides about the mode. -/
theorem inBrackets_after {s : Scanner} (hs : s.inBrackets = false) (k : Nat) :
    (s.after k).inBrackets = lastBracketOpens (s.tokensBefore k) := by
  induction k with
  | zero => simp [after, tokensBefore, lastBracketOpens, hs]
  | succ k ih =>
    rw [(s.reads_after k).inBrackets_eq, ih, tokensBefore_succ, lastBracketOpens_append_singleton]

theorem standsIn_after {text : List Char} {s : Scanner} (hs : s.StandsIn text) (k : Nat) :
    (s.after k).StandsIn text := by
  induction k with
  | zero => exact hs
  | succ k ih => exact (s.reads_after k).standsIn ih

/-- Places do not decrease from one call to a later one. -/
theorem pos_lexemeAt_le (s : Scanner) {j k : Nat} (h : j ≤ k) :
    (s.lexemeAt j).pos ≤ (s.lexemeAt k).pos := by
  induction h with
  | refl => exact Nat.le_refl _
  | @step k _ ih =>
    calc (s.lexemeAt j).pos ≤ (s.lexemeAt k).pos := ih
      _ ≤ (s.after (k + 1)).pos := (s.reads_after k).pos_le.2
      _ ≤ (s.lexemeAt (k + 1)).pos := (s.reads_after (k + 1)).pos_le.1

/-- The tokens of a text cover it. From the beginning of a text with `n` characters there are at
most `n` tokens. Then nothing is left, and every later call gives the end of the text, at `n + 1`.
The places of the tokens do not decrease. A token that is not the end of the text, and has a text if
it is illegal, stands where the scanner does, is written with the characters there, and is followed
by what stands behind them. An illegal token without a text is at the end of the text, where nothing
is left, or at a backslash, where reading goes on behind the character after it. -/
theorem tokens_cover_text (text : String) :
    let s := ofString text
    (∃ count ≤ text.length, (∀ k < count, (s.lexemeAt k).token ≠ .eof) ∧
      ∀ k, count ≤ k → s.lexemeAt k = ⟨text.length + 1, .eof⟩ ∧ (s.after k).rest = []) ∧
    (∀ j k, j ≤ k → (s.lexemeAt j).pos ≤ (s.lexemeAt k).pos) ∧
    (∀ k, (s.lexemeAt k).token ≠ .eof → (s.lexemeAt k).token ≠ .illegal "" →
      ∃ before slice, text.toList = before ++ (slice ++ (s.after (k + 1)).rest) ∧
        (s.lexemeAt k).pos = before.length + 1 ∧
        (s.after k).pos = before.length + 1 ∧
        (s.after (k + 1)).pos = before.length + slice.length + 1 ∧
        (s.lexemeAt k).token.WrittenAs (lastBracketOpens (s.tokensBefore k)) slice) ∧
    ∀ k, (s.lexemeAt k).token = .illegal "" →
      ((s.lexemeAt k).pos = text.length + 1 ∧ (s.after (k + 1)).rest = [] ∧
        (s.after (k + 1)).pos = text.length + 1) ∨
      ∃ before more, text.toList = before ++ '\\' :: more ∧
        (s.lexemeAt k).pos = before.length + 1 ∧ (s.after (k + 1)).rest = more.tail ∧
        (s.after (k + 1)).pos = min ((s.lexemeAt k).pos + 2) (text.length + 1) := by
  intro s
  have hstart : s.StandsIn text.toList := ⟨[], rfl, rfl⟩
  have hout : s.inBrackets = false := rfl
  have hend : s.endPos = text.length + 1 := by rw [hstart.endPos_eq, String.length_toList]
  refine ⟨?_, fun j k => s.pos_lexemeAt_le, ?_, ?_⟩
  · -- the calls give the tokens of the list first
    refine ⟨s.lexemes.length, s.length_lexemes_le, ?_, ?_⟩
    · intro k hk
      rw [lexemeAt_eq_getD, List.getElem?_eq_getElem hk]
      exact token_ne_eof_of_mem_lexemes (List.getElem_mem hk)
    · intro k hk
      have hlexeme : s.lexemeAt k = ⟨text.length + 1, .eof⟩ := by
        rw [lexemeAt_eq_getD, List.getElem?_eq_none hk, hend, Option.getD_none]
      refine ⟨hlexeme, ?_⟩
      by_cases hrest : (s.after k).rest = []
      · exact hrest
      · exact absurd (by rw [hlexeme]) ((s.reads_after k).token_ne_eof hrest)
  · intro k heof hillegal
    obtain ⟨before, htext, hpos⟩ := standsIn_after hstart k
    obtain ⟨slice, hsplit, hat, hnext, hwritten⟩ := (s.reads_after k).exists_slice heof hillegal
    refine ⟨before, slice, by rw [htext, hsplit], by rw [hat, hpos], hpos, by omega, ?_⟩
    -- the tokens before decide about the mode in which this one was read
    rw [← inBrackets_after hout k]
    exact hwritten
  · intro k hillegal
    have hstands := standsIn_after hstart k
    have hend : (s.after k).endPos = text.length + 1 := by
      rw [hstands.endPos_eq, String.length_toList]
    obtain ⟨before, htext, hpos⟩ := hstands
    have hreads := (s.reads_after k).of_illegal hillegal
    rw [hend] at hreads
    apply hreads.imp_right
    rintro ⟨skipped, more, hsplit, hat, hrest, hnext⟩
    refine ⟨before ++ skipped, more, by rw [htext, hsplit, List.append_assoc], ?_, hrest, hnext⟩
    rw [hat, hpos, List.length_append]
    omega

/-- A name with an escaped quote takes one character more than its quotes and its text. -/
example : (ofString "['a\\'b'].c").lexemeAt 1 = ⟨2, .string "a'b"⟩ ∧
    ((ofString "['a\\'b'].c").after 2).pos = 8 := by
  decide

end Scanner

end ValuePath
