import ValuePath.Proofs.Path.Acceptance

/-!
# The first error of a path

What stands in front of the first error is the beginning of a path: more characters can complete it
to a text that is accepted. So the error is reported at the first character that cannot be right,
or at the end of the text if there is none.

There is one exception. The scanner places a quoted name that is not closed at the end of the text,
and one with a bad escape at the backslash. Where a name may stand, the error is still behind a
beginning. But where a bracket has to be closed the quote itself is already wrong, and the error
is reported further on than that.

* `IsBeginning` is said of characters that can be completed, `StrayQuote` of a quoted name in place
  of a closing bracket, and `BreaksOff` of what makes it no name.
* `ErrorPlace` is where an error stands in a text, and `Scanner.errorPlace_of_reading` says it of
  the first error in a row of segments behind a path.
* `exists_first_error` is the same for the parser.
* `not_isBeginning_of_strayQuote`: the exception is one.
-/

namespace ValuePath

open Grammar

/-! ## Places of tokens -/

/-- What no quoted name goes on with: the end of the text, or a backslash that stands before no
backslash and no quote. -/
inductive BreaksOff (quote : Char) : List Char → Prop
  | unterminated : BreaksOff quote []
  | badEscape {cs : List Char} :
      (∀ c, cs.head? = some c → ¬(c = '\\' ∨ c = quote)) → BreaksOff quote ('\\' :: cs)

namespace QuotedName

/-- How far behind the opening quote a name is found not to be one. -/
def errorOffset? : QuotedName → Option Nat
  | closed _ _ _ => none
  | badEscape offset _ _ => some offset
  | unterminated width => some width

@[simp]
theorem errorOffset?_push (c : Char) (size : Nat) (q : QuotedName) :
    (q.push c size).errorOffset? = q.errorOffset?.map (· + size) := by
  cases q <;> rfl

/-- What stands before the place where a name is found not to be one stands for a name, but with
what stands behind it no name goes on. -/
theorem exists_quoted_of_errorOffset? {quote : Char} {cs : List Char} {offset : Nat}
    (h : (read quote cs).errorOffset? = some offset) :
    ∃ text name bad, Quoted quote text name ∧ BreaksOff quote bad ∧ cs = text ++ bad ∧
      offset = text.length := by
  fun_induction read quote cs generalizing offset with
  | case1 =>
    obtain rfl := Option.some.inj h
    exact ⟨[], [], [], .nil, .unterminated, rfl, rfl⟩
  | case2 =>
    obtain rfl := Option.some.inj h
    have hbad : BreaksOff quote ['\\'] :=
      .badEscape fun c hc => absurd hc.symm (Option.some_ne_none c)
    exact ⟨[], [], ['\\'], .nil, hbad, rfl, rfl⟩
  | case3 c cs hc ih =>
    rw [errorOffset?_push, Option.map_eq_some_iff] at h
    obtain ⟨offset, hread, rfl⟩ := h
    obtain ⟨text, name, bad, htext, hbad, rfl, rfl⟩ := ih hread
    exact ⟨'\\' :: c :: text, c :: name, bad, .escaped hc htext, hbad, rfl, rfl⟩
  | case4 c cs hc =>
    obtain rfl := Option.some.inj h
    have hbad : BreaksOff quote ('\\' :: c :: cs) :=
      .badEscape fun d hd => Option.some.inj hd ▸ hc
    exact ⟨[], [], '\\' :: c :: cs, .nil, hbad, rfl, rfl⟩
  | case5 cs => cases h
  | case6 c cs hnil hcons hc ih =>
    -- a backslash is read by the cases above, at the end of the text or before a character
    have hslash : c ≠ '\\' := by
      intro hslash
      cases cs with
      | nil => exact hnil hslash rfl
      | cons d ds => exact hcons d ds hslash rfl
    rw [errorOffset?_push, Option.map_eq_some_iff] at h
    obtain ⟨offset, hread, rfl⟩ := h
    obtain ⟨text, name, bad, htext, hbad, rfl, rfl⟩ := ih hread
    exact ⟨c :: text, c :: name, bad, .plain hslash hc htext, hbad, rfl, rfl⟩

end QuotedName

namespace Scanner

/-- Outside of brackets a token stands where the scanner does. -/
theorem pos_next_outside (cs : List Char) (pos : Nat) : (mk cs pos false).next.1.pos = pos := by
  cases cs with
  | nil => rfl
  | cons c cs =>
    show (nextOutside _ c cs).1.pos = pos
    unfold nextOutside
    repeat' split
    all_goals rfl

/-- A quoted name stands where the scanner does, unless it is found not to be one. -/
theorem pos_nextQuoted (s : Scanner) (quote : Char) (rest : List Char) :
    (s.nextQuoted quote rest).1.pos = s.pos ∨
      ∃ offset, (QuotedName.read quote rest).errorOffset? = some offset ∧
        (s.nextQuoted quote rest).1 = ⟨s.pos + 1 + offset, .illegal ""⟩ := by
  unfold nextQuoted
  split
  next h => exact .inl rfl
  next h => exact .inr ⟨_, by rw [h]; rfl, rfl⟩
  next h => exact .inr ⟨_, by rw [h]; rfl, rfl⟩

/-- Between brackets a token stands where the scanner does, except for a quoted name that is found
not to be one: it stands behind the last character that can belong to the name. -/
theorem pos_next_inBrackets (cs : List Char) (pos : Nat) :
    (mk cs pos true).next.1.pos = pos ∨
      ∃ quote text name bad, (quote = '\'' ∨ quote = '"') ∧ Quoted quote text name ∧
        BreaksOff quote bad ∧ cs = quote :: (text ++ bad) ∧
        (mk cs pos true).next.1 = ⟨pos + (quote :: text).length, .illegal ""⟩ := by
  cases cs with
  | nil => exact .inl rfl
  | cons c cs =>
    by_cases hquote : c = '\'' ∨ c = '"'
    · rw [next_of_quote hquote]
      rcases pos_nextQuoted (mk (c :: cs) pos true) c cs with hpos | ⟨offset, hread, hnext⟩
      · exact .inl hpos
      · obtain ⟨text, name, bad, htext, hbad, rfl, rfl⟩ :=
          QuotedName.exists_quoted_of_errorOffset? hread
        refine .inr ⟨c, text, name, bad, hquote, htext, hbad, rfl, ?_⟩
        rw [hnext, List.length_cons, Nat.add_comm text.length, ← Nat.add_assoc]
    · refine .inl ?_
      show (nextInside _ c cs).1.pos = pos
      rw [nextInside, if_neg hquote]
      repeat' split
      all_goals rfl

end Scanner

/-! ## Beginnings -/

/-- The beginning of a path: with more characters behind it, it is accepted. -/
def IsBeginning (text : List Char) : Prop :=
  ∃ more node?, (Parser.ofString (String.ofList (text ++ more))).parse.1 = .ok node?

/-- What stands before a text of the grammar ends is a beginning. -/
theorem IsBeginning.of_path {text more : List Char} {links : List Link}
    (h : Path (text ++ more) links) : IsBeginning text := by
  refine ⟨more, Node.ofLinks? links, ?_⟩
  rw [Parser.ofString_eq_parser, Scanner.ofString, String.toList_ofList]
  exact Scanner.parse_of_path h

/-- A row of segments with one more segment behind it. -/
theorem Grammar.Segments.append_segment {pos : Nat} {text seg : List Char} {links : List Link}
    {step : Step} (h : Segments pos text links) (hseg : Segment seg step) :
    ∃ links', Segments pos (text ++ seg) links' := by
  induction h with
  | @nil pos =>
    refine ⟨[.step pos step], ?_⟩
    rw [List.nil_append, ← List.append_nil seg]
    exact .cons hseg .nil
  | cons hfirst _ ih =>
    obtain ⟨links', hrest⟩ := ih
    rw [List.append_assoc]
    exact ⟨_, .cons hfirst hrest⟩

/-- A path with one more segment behind it. -/
theorem Grammar.Path.append_segment {text seg : List Char} {links : List Link} {step : Step}
    (h : Path text links) (hseg : Segment seg step) : ∃ links', Path (text ++ seg) links' := by
  cases h with
  | plain hsegs =>
    obtain ⟨links', hsegs⟩ := hsegs.append_segment hseg
    exact ⟨links', .plain hsegs⟩
  | headed hhead hsegs =>
    obtain ⟨links', hsegs⟩ := hsegs.append_segment hseg
    rw [List.append_assoc]
    exact ⟨_, .headed hhead hsegs⟩

section Beginnings

variable {text : List Char} {links : List Link} (h : Path text links)
include h

/-- A path is a beginning. -/
theorem isBeginning_path : IsBeginning text := by
  rw [← List.append_nil text] at h
  exact .of_path h

/-- A path and the beginning of a segment are a beginning. -/
theorem isBeginning_append {seg more : List Char} {step : Step}
    (hseg : Segment (seg ++ more) step) : IsBeginning (text ++ seg) := by
  obtain ⟨links', hpath⟩ := h.append_segment hseg
  rw [← List.append_assoc] at hpath
  exact .of_path hpath

/-- A path and a period are a beginning: a name can follow. -/
theorem isBeginning_append_period : IsBeginning (text ++ ['.']) := by
  have hname : Segment (['.'] ++ ['a']) (.key (String.ofList ['a'])) :=
    .dotted ⟨by decide, by decide, by decide⟩ (by decide)
  exact isBeginning_append h hname

/-- A path and an opening bracket are a beginning: a position can follow. -/
theorem isBeginning_append_leftBracket : IsBeginning (text ++ ['[']) := by
  have hzero : IsPosition ['0'] :=
    ⟨by decide, List.forall_mem_singleton.mpr rfl, by decide, by decide⟩
  have hsegment : Segment (['['] ++ ['0', ']']) _ := .bracketed (.position hzero)
  exact isBeginning_append h hsegment

/-- A path and an opening bracket with its content are a beginning: the closing bracket can
follow. -/
theorem isBeginning_append_content {content : List Char} {step : Step}
    (hcontent : Content content step) : IsBeginning (text ++ '[' :: content) := by
  have hsegment : Segment ('[' :: content ++ [']']) step := .bracketed hcontent
  exact isBeginning_append h hsegment

/-- A path, an opening bracket and a quoted name without its closing quote are a beginning. -/
theorem isBeginning_append_quoted {quote : Char} {inner name : List Char}
    (hquote : quote = '\'' ∨ quote = '"') (hinner : Quoted quote inner name) :
    IsBeginning (text ++ '[' :: quote :: inner) := by
  have hsegment : Segment ('[' :: quote :: inner ++ [quote, ']']) (.key (String.ofList name)) := by
    simpa using Segment.bracketed (.name hquote hinner)
  exact isBeginning_append h hsegment

end Beginnings

/-! ## Stray quotes -/

/-- Behind a path, an opening bracket and its content stands the beginning of a quoted name, where
only the closing bracket can stand, and the name breaks off. -/
structure StrayQuote (before stray bad : List Char) : Prop where
  /-- What stands before the quote is a path and the content of a bracket. -/
  before_eq : ∃ path links content step, Path path links ∧ Content content step ∧
    before = path ++ '[' :: content
  /-- The quote and what stands behind it are the beginning of a quoted name, but not of a whole
  one. -/
  stray_eq : ∃ quote text name, (quote = '\'' ∨ quote = '"') ∧ Quoted quote text name ∧
    BreaksOff quote bad ∧ stray = quote :: text

/-- What stands before a stray quote is a beginning. -/
theorem StrayQuote.isBeginning {before stray bad : List Char} (h : StrayQuote before stray bad) :
    IsBeginning before := by
  obtain ⟨path, links, content, step, hpath, hcontent, rfl⟩ := h.before_eq
  exact isBeginning_append_content hpath hcontent

/-- With a stray quote there is no beginning any more. -/
theorem not_isBeginning_of_strayQuote {before stray bad : List Char}
    (h : StrayQuote before stray bad) : ¬IsBeginning (before ++ stray) := by
  obtain ⟨path, links, content, step, hpath, hcontent, rfl⟩ := h.before_eq
  obtain ⟨quote, text, name, hquote, -, -, rfl⟩ := h.stray_eq
  rintro ⟨more, node?, hparse⟩
  have hcs : path ++ '[' :: content ++ quote :: text ++ more =
      path ++ '[' :: (content ++ quote :: (text ++ more)) := by simp
  rw [hcs, Parser.ofString_eq_parser, Scanner.ofString, String.toList_ofList,
    Scanner.parse_path_append hpath (isBoundary_cons (.inr rfl))] at hparse
  -- were there no error, the content would be followed by the closing bracket
  obtain ⟨content', step', rest, hcontent', hsame⟩ :=
    Scanner.exists_bracketed_of_reading (Reading.result_eq_ok_iff.mp hparse).1
  have hdigit : ∀ c, (quote :: (text ++ more)).head? = some c → Text.isDecimalDigit c = false := by
    intro c hc
    obtain rfl : quote = c := by simpa using hc
    rcases hquote with rfl | rfl <;> decide
  obtain ⟨lexeme, hnext, -⟩ := Scanner.exists_next_of_content hcontent hdigit 1
  obtain ⟨lexeme', hnext', -⟩ :=
    Scanner.exists_next_of_content hcontent' (Scanner.isDecimalDigit_of_head?_rightBracket rest) 1
  rw [hsame, hnext'] at hnext
  have hrest : ']' :: rest = quote :: (text ++ more) :=
    congrArg (fun result => result.2.rest) hnext
  obtain ⟨rfl, -⟩ := List.cons.inj hrest
  rcases hquote with h | h <;> exact absurd h (by decide)

/-! ## Places of errors -/

/-- Where an error stands in a text: behind a beginning of the text, or where a name breaks off that
stands in place of a closing bracket. -/
inductive ErrorPlace (text : List Char) (error : SyntaxError) : Prop
  | behind {good : List Char} :
      IsBeginning good → good <+: text → error.pos = 1 + good.length → ErrorPlace text error
  | stray {before stray bad : List Char} :
      StrayQuote before stray bad → before ++ stray ++ bad = text →
        error.pos = 1 + (before ++ stray).length →
        error.cause = .unexpected [.rightBracket] .illegal → ErrorPlace text error

/-- A reading that gives errors has a first one. -/
theorem Reading.exists_errors_eq_cons {r : Reading} {errors : List SyntaxError}
    (h : r.result = .error errors) : ∃ e rest, errors = e :: rest ∧ r.errors = e :: rest := by
  rw [result] at h
  split at h
  next => cases h
  next hne =>
    obtain ⟨e, rest, herrors⟩ := List.exists_cons_of_ne_nil hne
    exact ⟨e, rest, (Except.error.inj h).symm.trans herrors, herrors⟩

theorem eq_of_expect_eq_cons {expected : List TokenKind} {found : Lexeme} {e : SyntaxError}
    {errors rest : List SyntaxError} (hkind : found.token.kind ∉ expected)
    (h : expect expected found ++ errors = e :: rest) :
    e = ⟨found.pos, .unexpected expected found.token.kind⟩ := by
  rw [expect, if_neg hkind, List.singleton_append] at h
  exact (List.cons.inj h).1.symm

/-- What is wrong between two brackets is reported at the place of the token there. -/
theorem pos_of_mem_readContent {content : Lexeme} {e : SyntaxError}
    (h : e ∈ (readContent content).2) : e.pos = content.pos := by
  obtain ⟨pos, token⟩ := content
  cases token with
  | string name => cases h
  | int digits =>
    rw [readContent] at h
    dsimp only at h
    split at h
    · cases h
    · obtain rfl := List.mem_singleton.mp h
      rfl
  | _ =>
    obtain rfl := List.mem_singleton.mp h
    rfl

namespace Scanner

section Reading

variable {before cs : List Char} {links : List Link} {e : SyntaxError} {rest : List SyntaxError}
  (h : Path before links)
include h

/-- The first error at a token that begins no segment stands behind the path before it. -/
theorem errorPlace_other {c : Char} (hperiod : c ≠ '.') (hleft : c ≠ '[')
    (hread : (mk (c :: cs) (1 + before.length) false).reading.errors = e :: rest) :
    ErrorPlace (before ++ c :: cs) e := by
  obtain ⟨lexeme, s, hnext⟩ : ∃ lexeme s,
      (mk (c :: cs) (1 + before.length) false).next = (lexeme, s) := ⟨_, _, rfl⟩
  have hkind := kind_next_of_ne hperiod hleft cs (1 + before.length)
  have hpos := pos_next_outside (c :: cs) (1 + before.length)
  rw [hnext] at hkind hpos
  have hne {token : Token} (htoken : token.kind ∉ [.root, .rightBracket, .string]) :
      lexeme.token ≠ token := fun he => htoken (he ▸ hkind)
  rw [reading_other hnext (hne (by decide)) (hne (by decide)) (hne (by decide))] at hread
  have hdisjoint : ∀ kind : TokenKind, kind ∈ [TokenKind.root, .rightBracket, .string] →
      kind ∉ [TokenKind.period, .leftBracket] := by
    intro kind
    cases kind <;> decide
  obtain rfl := eq_of_expect_eq_cons (hdisjoint _ hkind) hread
  exact .behind (isBeginning_path h) (List.prefix_append _ _) hpos

/-- The first error at a token other than a name behind a period stands behind that period. -/
theorem errorPlace_period
    (hkind : (mk cs (1 + before.length + 1) false).next.1.token.kind ≠ .string)
    (hread : (mk ('.' :: cs) (1 + before.length) false).reading.errors = e :: rest) :
    ErrorPlace (before ++ '.' :: cs) e := by
  obtain ⟨name, s, hnext⟩ : ∃ name s,
      (mk cs (1 + before.length + 1) false).next = (name, s) := ⟨_, _, rfl⟩
  have hpos := pos_next_outside cs (1 + before.length + 1)
  rw [reading_period (next_period cs _) hnext] at hread
  rw [hnext] at hkind hpos
  obtain rfl := eq_of_expect_eq_cons (mt List.mem_singleton.mp hkind) hread
  refine .behind (isBeginning_append_period h) ⟨cs, by simp⟩ ?_
  rw [List.length_append]
  exact hpos

/-- The first error at what stands behind an opening bracket stands behind the bracket, or behind
the beginning of a quoted name there. -/
theorem errorPlace_content
    (hbad : (readContent (mk cs (1 + before.length + 1) true).next.1).2 ≠ [])
    (hread : (mk ('[' :: cs) (1 + before.length) false).reading.errors = e :: rest) :
    ErrorPlace (before ++ '[' :: cs) e := by
  obtain ⟨content, s, hnext⟩ : ∃ content s,
      (mk cs (1 + before.length + 1) true).next = (content, s) := ⟨_, _, rfl⟩
  obtain ⟨close, s', hnext'⟩ : ∃ close s', s.next = (close, s') := ⟨_, _, rfl⟩
  rw [reading_leftBracket (next_leftBracket cs _) hnext hnext'] at hread
  rw [hnext] at hbad
  -- the first error is one of the content
  obtain ⟨e', more, hmore⟩ := List.exists_cons_of_ne_nil hbad
  have hfirst : e' = e := by
    simp only [Reading.push, hmore, List.cons_append] at hread
    exact (List.cons.inj hread).1
  have hpos : e.pos = content.pos := by
    rw [← hfirst]
    exact pos_of_mem_readContent (hmore ▸ List.mem_cons_self)
  have hplace := pos_next_inBrackets cs (1 + before.length + 1)
  rw [hnext] at hplace
  dsimp only at hplace
  rcases hplace with hcontent | ⟨quote, text, name, bad, hquote, htext, -, rfl, hcontent⟩
  · refine .behind (isBeginning_append_leftBracket h) ⟨cs, by simp⟩ ?_
    rw [hpos, hcontent, List.length_append]
    rfl
  · refine .behind (isBeginning_append_quoted h hquote htext) ⟨bad, by simp⟩ ?_
    rw [hpos, hcontent]
    simp only [List.length_append, List.length_cons]
    omega

/-- The first error at what stands in place of a closing bracket stands behind the content of the
bracket, or behind a stray quote there. -/
theorem errorPlace_close {content : List Char} {step : Step} (hcontent : Content content step)
    {lexeme : Lexeme} (hnext : (mk (content ++ cs) (1 + before.length + 1) true).next =
      (lexeme, mk cs (1 + before.length + 1 + content.length) true))
    (hgood : (readContent lexeme).2 = [])
    (hkind : (mk cs (1 + before.length + 1 + content.length) true).next.1.token.kind ≠
      .rightBracket)
    (hread : (mk ('[' :: (content ++ cs)) (1 + before.length) false).reading.errors = e :: rest) :
    ErrorPlace (before ++ '[' :: (content ++ cs)) e := by
  obtain ⟨close, s, hnext'⟩ : ∃ close s,
      (mk cs (1 + before.length + 1 + content.length) true).next = (close, s) := ⟨_, _, rfl⟩
  have hplace := pos_next_inBrackets cs (1 + before.length + 1 + content.length)
  rw [reading_leftBracket (next_leftBracket _ _) hnext hnext'] at hread
  rw [hnext'] at hkind hplace
  dsimp only at hplace
  simp only [Reading.push, hgood, List.nil_append] at hread
  obtain rfl := eq_of_expect_eq_cons (mt List.mem_singleton.mp hkind) hread
  rcases hplace with hclose | ⟨quote, text, name, bad, hquote, htext, hbad, rfl, rfl⟩
  · refine .behind (isBeginning_append_content h hcontent) ⟨cs, by simp⟩ ?_
    simp only [List.length_append, List.length_cons]
    omega
  · have hstray : StrayQuote (before ++ '[' :: content) (quote :: text) bad :=
      ⟨⟨before, links, content, step, h, hcontent, rfl⟩,
        quote, text, name, hquote, htext, hbad, rfl⟩
    refine .stray hstray (by simp) ?_ rfl
    simp only [List.length_append, List.length_cons]
    omega

end Reading

/-- Where the first error stands in what follows a path. -/
theorem errorPlace_of_reading {before cs : List Char} {links : List Link} {e : SyntaxError}
    {rest : List SyntaxError} (h : Path before links)
    (hread : (mk cs (1 + before.length) false).reading.errors = e :: rest) :
    ErrorPlace (before ++ cs) e := by
  -- a segment without an error becomes part of the path, and the text behind it is shorter
  induction hlen : cs.length using Nat.strongRecOn generalizing before cs links with
  | ind n ih =>
    subst hlen
    have hsegment {seg cs' : List Char} {step : Step} (hseg : Segment seg step)
        (hread : (mk (seg ++ cs') (1 + before.length) false).reading.errors = e :: rest)
        (hskip : (mk (seg ++ cs') (1 + before.length) false).reading =
          (mk cs' (1 + before.length + seg.length) false).reading.push
            (.step (1 + before.length) step) [])
        (hlt : cs'.length < cs.length) : ErrorPlace (before ++ (seg ++ cs')) e := by
      obtain ⟨links', hpath⟩ := h.append_segment hseg
      rw [← List.append_assoc]
      refine ih cs'.length hlt hpath ?_ rfl
      rw [hskip] at hread
      rw [List.length_append, ← Nat.add_assoc]
      exact hread
    cases cs with
    | nil =>
      rw [reading_of_rest_eq_nil rfl] at hread
      cases hread
    | cons c cs =>
      by_cases hperiod : c = '.'
      · subst hperiod
        by_cases hkind : (mk cs (1 + before.length + 1) false).next.1.token.kind = .string
        · obtain ⟨name, cs', rfl, hname, hright, -, hrest⟩ := exists_bareName_of_next hkind
          have hpos : 1 + before.length ≠ 0 := by omega
          have hskip := reading_dotted hname hright hrest hpos
          refine hsegment (.dotted hname hright) hread hskip ?_
          simp only [List.length_cons, List.length_append]
          omega
        · exact errorPlace_period h hkind hread
      by_cases hleft : c = '['
      · subst hleft
        by_cases hgood : (readContent (mk cs (1 + before.length + 1) true).next.1).2 = []
        · obtain ⟨lexeme, s, hnext⟩ : ∃ lexeme s,
              (mk cs (1 + before.length + 1) true).next = (lexeme, s) := ⟨_, _, rfl⟩
          rw [hnext] at hgood
          obtain ⟨content, cs', hcontent, rfl, rfl⟩ := exists_content_of_next hnext hgood
          by_cases hkind :
              (mk cs' (1 + before.length + 1 + content.length) true).next.1.token.kind =
                .rightBracket
          · obtain ⟨cs', rfl⟩ := exists_rightBracket_of_next hkind
            have hskip := reading_bracketed hcontent cs' (1 + before.length)
            have hcs : '[' :: (content ++ ']' :: cs') = '[' :: (content ++ [']']) ++ cs' := by simp
            rw [hcs] at hread ⊢
            refine hsegment (.bracketed hcontent) hread hskip ?_
            simp only [List.length_cons, List.length_append]
            omega
          · exact errorPlace_close h hcontent hnext hgood hkind hread
        · exact errorPlace_content h hgood hread
      · exact errorPlace_other h hperiod hleft hread

/-- A text that is not accepted has a first error, which has its place in the text. -/
theorem exists_errorPlace_of_parse {text : List Char} {errors : List SyntaxError}
    (h : (mk text 1 false).parser.parse.1 = .error errors) :
    ∃ e rest, errors = e :: rest ∧ ErrorPlace text e := by
  have hempty : Path [] [] := .plain .nil
  cases text with
  | nil =>
    rw [parse_parser_of_rest_eq_nil rfl] at h
    cases h
  | cons c text =>
    by_cases hmark : c = '.' ∨ c = '['
    · rw [parse_parser_of_isBoundary (isBoundary_cons hmark)] at h
      obtain ⟨e, rest, rfl, herrors⟩ := Reading.exists_errors_eq_cons h
      exact ⟨e, rest, rfl, errorPlace_of_reading hempty herrors⟩
    rw [not_or] at hmark
    by_cases hroot : c = '$'
    · subst hroot
      rw [parse_parser_root (next_root text)] at h
      obtain ⟨e, rest, rfl, herrors⟩ := Reading.exists_errors_eq_cons h
      have hpath : Path ['$'] [.root 1] := .headed .root .nil
      exact ⟨e, rest, rfl, errorPlace_of_reading hpath herrors⟩
    by_cases hright : c = ']'
    · subst hright
      rw [parse_parser_other (next_rightBracket text 1 false) (by decide) (by decide)] at h
      obtain rfl := Except.error.inj h
      exact ⟨_, _, rfl, .behind (isBeginning_path hempty) List.nil_prefix rfl⟩
    -- what is left begins with a bare name, which is the head of a path
    have hkind : (mk (c :: text) 1 false).next.1.token.kind = .string := by
      rw [next_of_not_mark hmark.1 hmark.2 hright (fun hc _ => hroot hc)]
      rfl
    obtain ⟨name, cs, hname, hbare, hright', hroot', hrest⟩ := exists_bareName_of_next hkind
    have hroot' : name.head? ≠ some '$' := fun hc => hroot' hc rfl
    rw [hname, parse_parser_string (next_bareName hbare hright' (fun hc => absurd hc hroot') hrest)]
      at h
    obtain ⟨e, rest, rfl, herrors⟩ := Reading.exists_errors_eq_cons h
    have hpath : Path name [.step 1 (.key (String.ofList name))] := by
      simpa using Path.headed (.name hbare hroot' hright') .nil
    rw [hname]
    exact ⟨e, rest, rfl, errorPlace_of_reading hpath herrors⟩

end Scanner

/-- The first error of a text that is not accepted has a place between the first character and one
behind the last. What stands in front of it is the beginning of a path, unless there is a stray
quote in place of a closing bracket. Then the error stands where the name behind this quote breaks
off, and the beginning of a path stands in front of the quote. -/
theorem exists_first_error (s : String) (errors : List SyntaxError)
    (h : (Parser.ofString s).parse.1 = .error errors) :
    ∃ e rest, errors = e :: rest ∧ 1 ≤ e.pos ∧ e.pos ≤ s.length + 1 ∧
      (IsBeginning (s.toList.take (e.pos - 1)) ∨
        ¬IsBeginning (s.toList.take (e.pos - 1)) ∧
          e.cause = .unexpected [.rightBracket] .illegal ∧
          ∃ before stray, s.toList.take (e.pos - 1) = before ++ stray ∧
            StrayQuote before stray (s.toList.drop (e.pos - 1)) ∧ IsBeginning before) := by
  obtain ⟨e, rest, rfl, hplace⟩ := Scanner.exists_errorPlace_of_parse h
  have htake {good bad : List Char} (hpos : e.pos = 1 + good.length)
      (hsplit : good ++ bad = s.toList) :
      1 ≤ e.pos ∧ e.pos ≤ s.length + 1 ∧ s.toList.take (e.pos - 1) = good ∧
        s.toList.drop (e.pos - 1) = bad := by
    have hlength : s.length = good.length + bad.length := by
      rw [← String.length_toList, ← hsplit, List.length_append]
    have hbefore : e.pos - 1 = good.length := by omega
    rw [hbefore, ← hsplit, List.take_left, List.drop_left]
    exact ⟨by omega, by omega, rfl, rfl⟩
  refine ⟨e, rest, rfl, ?_⟩
  cases hplace with
  | behind hgood hbegins hpos =>
    obtain ⟨bad, hsplit⟩ := hbegins
    obtain ⟨hfirst, hlast, hbefore, -⟩ := htake hpos hsplit
    rw [hbefore]
    exact ⟨hfirst, hlast, .inl hgood⟩
  | @stray before stray bad hstray hsplit hpos hcause =>
    obtain ⟨hfirst, hlast, hbefore, hbehind⟩ := htake hpos hsplit
    rw [hbefore, hbehind]
    exact ⟨hfirst, hlast, .inr ⟨not_isBeginning_of_strayQuote hstray, hcause, before, stray, rfl,
      hstray, hstray.isBeginning⟩⟩

/-- An unterminated name behind the content of a bracket: the error is reported at the end of the
text, though nothing that begins like the text is a path. -/
theorem not_isBeginning_of_first_error :
    (Parser.ofString "[0'").parse.1 = .error [⟨4, .unexpected [.rightBracket] .illegal⟩] ∧
      ¬IsBeginning ("[0'".toList.take (4 - 1)) := by
  have hchars : Scanner.ofString "[0'" = ⟨['[', '0', '\''], 1, false⟩ := rfl
  have hzero : (Scanner.mk ['0', '\''] 2 true).next = (⟨2, .int "0"⟩, ⟨['\''], 3, true⟩) := rfl
  have hstray : (Scanner.mk ['\''] 3 true).next = (⟨4, .illegal ""⟩, ⟨[], 4, true⟩) := rfl
  constructor
  · rw [Parser.ofString_eq_parser, hchars,
      Scanner.parse_parser_of_isBoundary (isBoundary_cons (.inr rfl)),
      Scanner.reading_leftBracket (Scanner.next_leftBracket _ _) hzero hstray,
      Scanner.reading_of_rest_eq_nil rfl]
    rfl
  · have hposition : IsPosition ['0'] :=
      ⟨by decide, List.forall_mem_singleton.mpr rfl, by decide, by decide⟩
    have hquote : StrayQuote ['[', '0'] ['\''] [] :=
      ⟨⟨[], [], ['0'], _, .plain .nil, .position hposition, rfl⟩,
        '\'', [], [], .inl rfl, .nil, .unterminated, rfl⟩
    have htake : "[0'".toList.take (4 - 1) = ['[', '0'] ++ ['\''] := rfl
    rw [htake]
    exact not_isBeginning_of_strayQuote hquote

/-- A name with a bad escape behind another name: the error is reported at the backslash, and the
beginning of a path stands in front of the second name. -/
theorem exists_first_error_of_bad_escape :
    let s := "a['b'\"c\\d"
    let errors : List SyntaxError := [⟨8, .unexpected [.rightBracket] .illegal⟩]
    (Parser.ofString s).parse.1 = .error errors ∧
      ∃ e rest, errors = e :: rest ∧ 1 ≤ e.pos ∧ e.pos ≤ s.length + 1 ∧
        (IsBeginning (s.toList.take (e.pos - 1)) ∨
          ¬IsBeginning (s.toList.take (e.pos - 1)) ∧
            e.cause = .unexpected [.rightBracket] .illegal ∧
            ∃ before stray, s.toList.take (e.pos - 1) = before ++ stray ∧
              StrayQuote before stray (s.toList.drop (e.pos - 1)) ∧ IsBeginning before) := by
  intro s errors
  have hchars : Scanner.ofString "a['b'\"c\\d" =
      ⟨['a', '[', '\'', 'b', '\'', '"', 'c', '\\', 'd'], 1, false⟩ := rfl
  have ha : (Scanner.mk ['a', '[', '\'', 'b', '\'', '"', 'c', '\\', 'd'] 1 false).next =
      (⟨1, .string "a"⟩, ⟨['[', '\'', 'b', '\'', '"', 'c', '\\', 'd'], 2, false⟩) := rfl
  have hb : (Scanner.mk ['\'', 'b', '\'', '"', 'c', '\\', 'd'] 3 true).next =
      (⟨3, .string "b"⟩, ⟨['"', 'c', '\\', 'd'], 6, true⟩) := rfl
  have hstray : (Scanner.mk ['"', 'c', '\\', 'd'] 6 true).next =
      (⟨8, .illegal ""⟩, ⟨[], 10, true⟩) := rfl
  have hparse : (Parser.ofString s).parse.1 = .error errors := by
    rw [Parser.ofString_eq_parser, hchars, Scanner.parse_parser_string ha,
      Scanner.reading_leftBracket (Scanner.next_leftBracket _ _) hb hstray,
      Scanner.reading_of_rest_eq_nil rfl]
    rfl
  exact ⟨hparse, exists_first_error s errors hparse⟩

end ValuePath
