import ValuePath.Node.Parser
import ValuePath.Proofs.Path.Scanning

/-!
# Reading a path token by token

The parser works on the list of all tokens. Here its results are given by the scanner from which
the tokens come, one segment at a time, so that a property of reading is proved by following the
scanner. The end of the text is a token like any other: a missing token is read as that one.

* `Scanner.reading` is what is read of the segments from a scanner on, and `Scanner.parser` is the
  parser that stands at a scanner.
* `Scanner.reading_period`, `Scanner.reading_leftBracket` and `Scanner.reading_other` read one
  segment, or pass over one token that begins none.
* `Scanner.parse_parser_root` and its neighbours read the head of a path.
* `Parser.Parses` lists what one call of a parser can do, and `Parser.parses_parse` says that it
  does.
-/

namespace ValuePath

/-- Nothing is wrong with a token exactly when its category is among the expected ones. -/
theorem expect_eq_nil_iff {expected : List TokenKind} {found : Lexeme} :
    expect expected found = [] ↔ found.token.kind ∈ expected := by
  simp [expect]

/-- In a list of tokens, one that begins no segment is passed over, with an error. -/
theorem readSegments_cons_of_ne {endPos : Nat} {lexeme : Lexeme} {rest : List Lexeme}
    (hperiod : lexeme.token ≠ .period) (hleft : lexeme.token ≠ .leftBracket) :
    readSegments endPos (lexeme :: rest) =
      { readSegments endPos rest with
        errors := expect [.period, .leftBracket] lexeme ++ (readSegments endPos rest).errors } := by
  obtain ⟨pos, token⟩ := lexeme
  cases token with
  | period => exact absurd rfl hperiod
  | leftBracket => exact absurd rfl hleft
  | illegal | eof | string | int | rightBracket | root => rfl

namespace Scanner

/-! ## Segments -/

/-- What is read of the segments that are left. -/
def reading (s : Scanner) : Reading :=
  readSegments s.endPos s.lexemes

theorem lexemes_of_rest_eq_nil {s : Scanner} (h : s.rest = []) : s.lexemes = [] := by
  rw [lexemes, if_pos h]

theorem lexemes_of_next {s s' : Scanner} {lexeme : Lexeme} (hne : s.rest ≠ [])
    (h : s.next = (lexeme, s')) : s.lexemes = lexeme :: s'.lexemes := by
  rw [lexemes, if_neg hne, h]

/-- At the end of the text the scanner stays where it is. -/
theorem next_of_rest_eq_nil {s : Scanner} (h : s.rest = []) : s.next = (⟨s.endPos, .eof⟩, s) := by
  rw [next, h, endPos, h, List.length_nil, Nat.add_zero]

theorem rest_ne_nil_of_next {s s' : Scanner} {lexeme : Lexeme} (h : s.next = (lexeme, s'))
    (hne : lexeme.token ≠ .eof) : s.rest ≠ [] := by
  intro hrest
  rw [next_of_rest_eq_nil hrest] at h
  obtain ⟨rfl, -⟩ := Prod.mk.inj h
  exact hne rfl

theorem endPos_of_next {s s' : Scanner} {lexeme : Lexeme} (h : s.next = (lexeme, s')) :
    s'.endPos = s.endPos := by
  rw [← endPos_next s, h]

/-- At the end of the text nothing is left to read. -/
theorem reading_of_rest_eq_nil {s : Scanner} (h : s.rest = []) : s.reading = ⟨[], []⟩ := by
  rw [reading, lexemes_of_rest_eq_nil h, readSegments]

/-- A token is the next one in the list, or the list is empty and it is the end of the text. -/
theorem lexemes_cases {s s' : Scanner} {lexeme : Lexeme} (h : s.next = (lexeme, s')) :
    s.lexemes = lexeme :: s'.lexemes ∨
      s.lexemes = [] ∧ s.reading = ⟨[], []⟩ ∧ lexeme = ⟨s.endPos, .eof⟩ ∧ s' = s := by
  by_cases hrest : s.rest = []
  · rw [next_of_rest_eq_nil hrest] at h
    obtain ⟨rfl, rfl⟩ := Prod.mk.inj h
    exact .inr ⟨lexemes_of_rest_eq_nil hrest, reading_of_rest_eq_nil hrest, rfl, rfl⟩
  · exact .inl (lexemes_of_next hrest h)

/-- A period is read together with the token behind it. -/
theorem reading_period {s s₁ s₂ : Scanner} {pos : Nat} {name : Lexeme}
    (h : s.next = (⟨pos, .period⟩, s₁)) (h₁ : s₁.next = (name, s₂)) :
    s.reading =
      s₂.reading.push (.step pos (.key name.token.literal)) (expect [.string] name) := by
  have hend := endPos_of_next h
  have hend₁ := endPos_of_next h₁
  rw [reading, lexemes_of_next (rest_ne_nil_of_next h (by simp)) h]
  rcases lexemes_cases h₁ with hlex | ⟨hlex, hread, rfl, rfl⟩
  · rw [hlex, readSegments, reading, hend₁, hend]
  · -- the text ends behind the period, and its end is read as the missing name
    rw [hlex, readSegments, hread, ← hend]
    simp [Reading.push, Token.literal]

/-- An opening bracket is read together with the two tokens behind it. -/
theorem reading_leftBracket {s s₁ s₂ s₃ : Scanner} {pos : Nat} {content close : Lexeme}
    (h : s.next = (⟨pos, .leftBracket⟩, s₁)) (h₁ : s₁.next = (content, s₂))
    (h₂ : s₂.next = (close, s₃)) :
    s.reading =
      s₃.reading.push (.step pos (readContent content).1)
        ((readContent content).2 ++ expect [.rightBracket] close) := by
  have hend := endPos_of_next h
  have hend₁ := endPos_of_next h₁
  have hend₂ := endPos_of_next h₂
  rw [reading, lexemes_of_next (rest_ne_nil_of_next h (by simp)) h]
  rcases lexemes_cases h₁ with hlex | ⟨hlex, hread, rfl, rfl⟩
  · rcases lexemes_cases h₂ with hlex' | ⟨hlex', hread, rfl, rfl⟩
    · rw [hlex, hlex', readSegments, reading, hend₂, hend₁, hend]
    · -- only the closing bracket is missing
      rw [hlex, hlex', readSegments, hread, hend₁, hend]
      simp [Reading.push]
  · -- the content is missing, and so is the closing bracket
    rcases lexemes_cases h₂ with hlex' | ⟨-, -, rfl, rfl⟩
    · rw [hlex] at hlex'
      cases hlex'
    · rw [hlex, readSegments, hread, ← hend]
      simp [Reading.push]

/-- A token that begins no segment is passed over, with an error. -/
theorem reading_other {s s₁ : Scanner} {lexeme : Lexeme} (h : s.next = (lexeme, s₁))
    (heof : lexeme.token ≠ .eof) (hperiod : lexeme.token ≠ .period)
    (hleft : lexeme.token ≠ .leftBracket) :
    s.reading =
      { s₁.reading with
        errors := expect [.period, .leftBracket] lexeme ++ s₁.reading.errors } := by
  rw [reading, lexemes_of_next (rest_ne_nil_of_next h heof) h,
    readSegments_cons_of_ne hperiod hleft, reading, endPos_of_next h]

/-! ## The head of a path -/

/-- The parser that stands where the scanner does. -/
def parser (s : Scanner) : Parser :=
  { pending := s.lexemes, endPos := s.endPos }

/-- At the end of the text there is no path. -/
theorem parse_parser_of_rest_eq_nil {s : Scanner} (h : s.rest = []) :
    s.parser.parse.1 = .ok none := by
  rw [parser, lexemes_of_rest_eq_nil h, Parser.parse]

/-- A root marker is read as a link of its own. -/
theorem parse_parser_root {s s₁ : Scanner} {pos : Nat} (h : s.next = (⟨pos, .root⟩, s₁)) :
    s.parser.parse.1 = (s₁.reading.push (.root pos) []).result := by
  rw [parser, lexemes_of_next (rest_ne_nil_of_next h (by simp)) h, Parser.parse, reading,
    endPos_of_next h]

/-- A bare name at the beginning is read as a step. -/
theorem parse_parser_string {s s₁ : Scanner} {pos : Nat} {name : String}
    (h : s.next = (⟨pos, .string name⟩, s₁)) :
    s.parser.parse.1 = (s₁.reading.push (.step pos (.key name)) []).result := by
  rw [parser, lexemes_of_next (rest_ne_nil_of_next h (by simp)) h, Parser.parse, reading,
    endPos_of_next h]

/-- What begins with a period or an opening bracket, or is empty, is read as a row of segments. -/
theorem parse_parser_of_isBoundary {cs : List Char} (h : Grammar.IsBoundary cs) (pos : Nat) :
    (mk cs pos false).parser.parse.1 = (mk cs pos false).reading.result := by
  cases cs with
  | nil =>
    rw [parse_parser_of_rest_eq_nil rfl, reading_of_rest_eq_nil rfl]
    rfl
  | cons c cs =>
    rcases h c rfl with rfl | rfl
    · rw [parser, reading, lexemes_of_next (List.cons_ne_nil _ _) (next_period cs pos),
        Parser.parse]
    · rw [parser, reading, lexemes_of_next (List.cons_ne_nil _ _) (next_leftBracket cs pos),
        Parser.parse]

/-- A path that begins with any other token is given up. -/
theorem parse_parser_other {s s₁ : Scanner} {lexeme : Lexeme} (h : s.next = (lexeme, s₁))
    (heof : lexeme.token.kind ≠ .eof)
    (hother : lexeme.token.kind ∉ [.root, .string, .period, .leftBracket]) :
    s.parser.parse.1 = .error (expect [.root, .string, .leftBracket] lexeme) := by
  obtain ⟨pos, token⟩ := lexeme
  have hne : s.rest ≠ [] := rest_ne_nil_of_next h (by rintro rfl; exact heof rfl)
  rw [parser, lexemes_of_next hne h, Parser.parse]
  cases token <;> simp_all [Token.kind]

/-- Outside of brackets only a closing bracket can begin no path. -/
theorem kind_next_of_ne_rightBracket {c : Char} (hright : c ≠ ']') (cs : List Char) (pos : Nat) :
    (mk (c :: cs) pos false).next.1.token.kind ∈ [.root, .string, .period, .leftBracket] := by
  by_cases hperiod : c = '.'
  · rw [hperiod, next_period]
    simp [Token.kind]
  by_cases hleft : c = '['
  · rw [hleft, next_leftBracket]
    simp [Token.kind]
  by_cases hroot : c = '$' ∧ pos = 1
  · obtain ⟨rfl, rfl⟩ := hroot
    rw [next_root]
    simp [Token.kind]
  · rw [next_of_not_mark hperiod hleft hright fun hc hpos => hroot ⟨hc, hpos⟩]
    simp [Token.kind]

end Scanner

/-- The parser at the beginning of a text stands where the scanner does. -/
theorem Parser.ofString_eq_parser (s : String) :
    Parser.ofString s = (Scanner.ofString s).parser :=
  rfl

/-! ## Calls of a parser -/

namespace Parser

/-- What a call of a parser can do: the result that it gives, and the parser behind that. -/
inductive Parses (p : Parser) : Except (List SyntaxError) (Option Node) → Parser → Prop
  /-- There is no path at the end of the text, where the parser stays. -/
  | atEnd : p.pending = [] → Parses p (.ok none) p
  /-- Everything behind the head of the path is read, up to the end of the text. -/
  | whole (head : List Link) {tail : List Lexeme} : tail <:+ p.pending →
      Parses p
        (Reading.mk (head ++ (readSegments p.endPos tail).links)
          (readSegments p.endPos tail).errors).result
        { p with pending := [] }
  /-- A token that begins no path is reported and taken, and the others stay. -/
  | givenUp {first : Lexeme} {rest : List Lexeme} : p.pending = first :: rest →
      first.token.kind ∉ [.root, .string, .period, .leftBracket] →
      Parses p
        (.error [⟨first.pos, .unexpected [.root, .string, .leftBracket] first.token.kind⟩])
        { p with pending := rest }

/-- What every call does. -/
theorem parses_parse (p : Parser) : p.Parses p.parse.1 p.parse.2 := by
  obtain ⟨pending, endPos⟩ := p
  cases pending with
  | nil => exact .atEnd rfl
  | cons first rest =>
    obtain ⟨pos, token⟩ := first
    have hrest : rest <:+ ⟨pos, token⟩ :: rest := List.suffix_cons _ _
    cases token with
    | root => exact .whole [.root pos] hrest
    | string name => exact .whole [.step pos (.key name)] hrest
    | period => exact .whole [] (List.suffix_refl _)
    | leftBracket => exact .whole [] (List.suffix_refl _)
    | illegal | eof | int | rightBracket => exact .givenUp rfl (by simp [Token.kind])

end Parser

/-- Where no closing bracket stands, a call outside of brackets leaves no token. -/
theorem Scanner.pending_parse_eq_nil {cs : List Char} (hright : cs.head? ≠ some ']') (pos : Nat) :
    (mk cs pos false).parser.parse.2.pending = [] := by
  have hparses := (mk cs pos false).parser.parses_parse
  generalize (mk cs pos false).parser.parse.1 = result at hparses
  generalize (mk cs pos false).parser.parse.2 = behind at hparses ⊢
  cases hparses with
  | atEnd hpending => exact hpending
  | whole => rfl
  | givenUp hpending hfirst =>
    cases cs with
    | nil =>
      rw [parser, lexemes_of_rest_eq_nil rfl] at hpending
      cases hpending
    | cons c cs =>
      -- the token that is given up is the first one, which can begin a path
      have hc : c ≠ ']' := fun hc => hright (congrArg some hc)
      rw [parser, lexemes_of_next (List.cons_ne_nil c cs) rfl] at hpending
      obtain ⟨rfl, -⟩ := List.cons.inj hpending
      exact absurd (kind_next_of_ne_rightBracket hc cs pos) hfirst

end ValuePath
