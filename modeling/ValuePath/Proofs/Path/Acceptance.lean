import Mathlib.Data.List.Induction
import ValuePath.Proofs.Path.Reading

/-!
# Which paths are accepted

The parser accepts exactly the texts of the grammar, and its chain of nodes has exactly the links
that the grammar gives to the text.

* `Scanner.reading_segments`: a row of segments is read without an error, whatever stands behind
  it.
* `Scanner.segments_of_reading`: what is read without an error is a row of segments.
* `parse_accepts_iff_path`: both together, for whole paths.
-/

namespace ValuePath

open Grammar

/-! ## The step between two brackets -/

theorem index?_ofList_eq_some_iff {digits : List Char} {position : UInt64} :
    index? (String.ofList digits) = some position ↔
      (∀ c ∈ digits, Text.isAsciiDigit c = true) ∧ Text.readDecimal digits < UInt64.size ∧
        position = UInt64.ofNat (Text.readDecimal digits) := by
  simp only [index?, String.toList_ofList, Bool.and_eq_true, List.all_eq_true, decide_eq_true_eq]
  split
  next h =>
    constructor
    · intro hpos
      exact ⟨h.1, h.2, (Option.some.inj hpos).symm⟩
    · rintro ⟨-, -, rfl⟩
      rfl
  next h =>
    constructor
    · intro hpos
      cases hpos
    · rintro ⟨hascii, hlt, -⟩
      exact absurd ⟨hascii, hlt⟩ h

/-- Nothing is wrong with what stands between two brackets only if it is a name or a position. -/
theorem token_of_readContent_eq_nil {content : Lexeme} (h : (readContent content).2 = []) :
    (∃ name, content.token = .string name) ∨
      ∃ digits position, content.token = .int digits ∧ index? digits = some position := by
  obtain ⟨pos, token⟩ := content
  cases token with
  | string name => exact .inl ⟨name, rfl⟩
  | int digits =>
    cases hindex : index? digits with
    | some position => exact .inr ⟨digits, position, rfl, hindex⟩
    | none => simp [readContent, hindex] at h
  | _ => simp [readContent, expect, Token.kind] at h

namespace Scanner

/-- The text between two brackets is read as the step that it stands for, whatever stands behind it,
if that does not go on with a digit. -/
theorem exists_next_of_content {text rest : List Char} {step : Step} (h : Content text step)
    (hrest : ∀ c, rest.head? = some c → Text.isDecimalDigit c = false) (pos : Nat) :
    ∃ content, (mk (text ++ rest) pos true).next =
        (content, mk rest (pos + text.length) true) ∧
      readContent content = (step, []) := by
  cases h with
  | @name quote text name hquote htext =>
    refine ⟨⟨pos, .string (String.ofList name)⟩, ?_, rfl⟩
    simpa using next_quoted hquote htext rest pos
  | position hdigits =>
    have hindex := index?_ofList_eq_some_iff.mpr ⟨hdigits.ascii, hdigits.lt, rfl⟩
    refine ⟨⟨pos, .int (String.ofList text)⟩, next_position hdigits hrest pos, ?_⟩
    simp only [readContent, hindex]

/-- A closing bracket is no digit. -/
theorem isDecimalDigit_of_head?_rightBracket (rest : List Char) :
    ∀ c, (']' :: rest).head? = some c → Text.isDecimalDigit c = false := by
  intro c hc
  obtain rfl : ']' = c := by simpa using hc
  decide

/-- What is read between two brackets without an error stands for the step that is read. -/
theorem exists_content_of_next {cs : List Char} {pos : Nat} {content : Lexeme} {s : Scanner}
    (hnext : (mk cs pos true).next = (content, s)) (h : (readContent content).2 = []) :
    ∃ text rest, Content text (readContent content).1 ∧ cs = text ++ rest ∧
      s = mk rest (pos + text.length) true := by
  have htoken : (mk cs pos true).next.1.token = content.token := by rw [hnext]
  rcases token_of_readContent_eq_nil h with ⟨name, hname⟩ | ⟨digits, position, hint, hindex⟩
  · obtain ⟨quote, inner, name', rest, hquote, hinner, rfl, rfl⟩ :=
      exists_quoted_of_next (htoken.trans hname)
    obtain ⟨rfl, rfl⟩ := Prod.mk.inj ((next_quoted hquote hinner rest pos).symm.trans hnext)
    exact ⟨quote :: (inner ++ [quote]), rest, .name hquote hinner, by simp, by simp⟩
  · obtain ⟨digits', rest, rfl, rfl, hne, hleading, hrest⟩ :=
      exists_digits_of_next (htoken.trans hint)
    obtain ⟨hascii, hlt, rfl⟩ := index?_ofList_eq_some_iff.mp hindex
    have hdigits : IsPosition digits' := ⟨hne, hascii, hleading, hlt⟩
    obtain ⟨rfl, rfl⟩ := Prod.mk.inj ((next_position hdigits hrest pos).symm.trans hnext)
    refine ⟨digits', rest, ?_, rfl, rfl⟩
    simp only [readContent, hindex]
    exact .position hdigits

/-! ## Segments -/

/-- A bare name behind a period is read up to the boundary behind it. -/
theorem reading_dotted {name rest : List Char} (hname : IsBareName name)
    (hright : name.head? ≠ some ']') (hrest : IsBoundary rest) {pos : Nat} (hpos : pos ≠ 0) :
    (mk ('.' :: name ++ rest) pos false).reading =
      (mk rest (pos + ('.' :: name).length) false).reading.push
        (.step pos (.key (String.ofList name))) [] := by
  -- only at the first character of a text is a dollar sign a root marker
  have hroot : name.head? = some '$' → pos + 1 ≠ 1 := by omega
  rw [List.cons_append, reading_period (next_period _ pos) (next_bareName hname hright hroot hrest),
    List.length_cons, Nat.add_assoc, Nat.add_comm 1]
  rfl

/-- What stands between two brackets is read up to the closing one. -/
theorem reading_bracketed {text : List Char} {step : Step} (h : Content text step)
    (rest : List Char) (pos : Nat) :
    (mk ('[' :: (text ++ [']']) ++ rest) pos false).reading =
      (mk rest (pos + ('[' :: (text ++ [']'])).length) false).reading.push (.step pos step) [] := by
  obtain ⟨content, hnext, hread⟩ :=
    exists_next_of_content h (isDecimalDigit_of_head?_rightBracket rest) (pos + 1)
  have hleft := next_leftBracket (text ++ ']' :: rest) pos
  rw [List.cons_append, List.append_assoc, List.singleton_append,
    reading_leftBracket hleft hnext (next_rightBracket rest _ true), hread]
  simp only [List.length_cons, List.length_append, List.length_nil]
  rw [show pos + 1 + text.length + 1 = pos + (text.length + (0 + 1) + 1) by omega]
  rfl

/-- A row of segments is read as its links, whatever stands behind it. -/
theorem reading_segments {pos : Nat} {text rest : List Char} {links : List Link}
    (h : Segments pos text links) (hrest : IsBoundary rest) (hpos : pos ≠ 0) :
    (mk (text ++ rest) pos false).reading =
      ⟨links ++ (mk rest (pos + text.length) false).reading.links,
        (mk rest (pos + text.length) false).reading.errors⟩ := by
  induction h with
  | nil => rfl
  | @cons pos text more step links hseg hsegs ih =>
    -- a bare name would go on into what stands behind it, were that no boundary
    have hbound := hsegs.isBoundary_append hrest
    have hread : (mk (text ++ (more ++ rest)) pos false).reading =
        (mk (more ++ rest) (pos + text.length) false).reading.push (.step pos step) [] := by
      cases hseg with
      | dotted hname hright => exact reading_dotted hname hright hbound hpos
      | bracketed hcontent => exact reading_bracketed hcontent _ pos
    rw [List.append_assoc, hread, ih (by omega), List.length_append, Nat.add_assoc]
    rfl

/-- What begins with a period and is read without an error begins with a segment. -/
theorem exists_dotted_of_reading {cs : List Char} {pos : Nat}
    (h : (mk ('.' :: cs) pos false).reading.errors = []) :
    ∃ name rest, IsBareName name ∧ name.head? ≠ some ']' ∧ IsBoundary rest ∧ cs = name ++ rest := by
  obtain ⟨name, s, hnext⟩ : ∃ name s, (mk cs (pos + 1) false).next = (name, s) := ⟨_, _, rfl⟩
  rw [reading_period (next_period cs pos) hnext] at h
  have hname := (List.append_eq_nil_iff.mp h).1
  have hkind : (mk cs (pos + 1) false).next.1.token.kind = .string := by
    rw [hnext]
    exact List.mem_singleton.mp (expect_eq_nil_iff.mp hname)
  obtain ⟨name, rest, rfl, hname, hright, -, hrest⟩ := exists_bareName_of_next hkind
  exact ⟨name, rest, hname, hright, hrest, rfl⟩

/-- What begins with an opening bracket and is read without an error begins with a segment. -/
theorem exists_bracketed_of_reading {cs : List Char} {pos : Nat}
    (h : (mk ('[' :: cs) pos false).reading.errors = []) :
    ∃ text step rest, Content text step ∧ cs = text ++ ']' :: rest := by
  obtain ⟨content, s, hnext⟩ : ∃ content s, (mk cs (pos + 1) true).next = (content, s) :=
    ⟨_, _, rfl⟩
  obtain ⟨close, s', hnext'⟩ : ∃ close s', s.next = (close, s') := ⟨_, _, rfl⟩
  rw [reading_leftBracket (next_leftBracket cs pos) hnext hnext'] at h
  -- the errors of both tokens stand before those of what is left
  have hboth := (List.append_eq_nil_iff.mp h).1
  obtain ⟨hcontent, hclose⟩ := List.append_eq_nil_iff.mp hboth
  obtain ⟨text, rest, htext, rfl, rfl⟩ := exists_content_of_next hnext hcontent
  have hkind : (mk rest (pos + 1 + text.length) true).next.1.token.kind = .rightBracket := by
    rw [hnext']
    exact List.mem_singleton.mp (expect_eq_nil_iff.mp hclose)
  obtain ⟨rest, rfl⟩ := exists_rightBracket_of_next hkind
  exact ⟨text, _, rest, htext, rfl⟩

/-- What is read without an error begins with a period or an opening bracket. -/
theorem eq_of_reading {c : Char} {cs : List Char} {pos : Nat}
    (h : (mk (c :: cs) pos false).reading.errors = []) : c = '.' ∨ c = '[' := by
  rcases Decidable.em (c = '.') with hperiod | hperiod
  · exact .inl hperiod
  rcases Decidable.em (c = '[') with hleft | hleft
  · exact .inr hleft
  obtain ⟨lexeme, s, hnext⟩ : ∃ lexeme s, (mk (c :: cs) pos false).next = (lexeme, s) :=
    ⟨_, _, rfl⟩
  have hkind := kind_next_of_ne hperiod hleft cs pos
  rw [hnext] at hkind
  have hne {token : Token} (htoken : token.kind ∉ [.root, .rightBracket, .string]) :
      lexeme.token ≠ token := fun he => htoken (he ▸ hkind)
  rw [reading_other hnext (hne (by decide)) (hne (by decide)) (hne (by decide))] at h
  -- the token would have to begin a segment and not to begin one
  have hbegin := expect_eq_nil_iff.mp (List.append_eq_nil_iff.mp h).1
  have hdisjoint : ∀ kind : TokenKind, kind ∈ [TokenKind.root, .rightBracket, .string] →
      kind ∉ [TokenKind.period, .leftBracket] := by
    intro kind
    cases kind <;> decide
  exact absurd hbegin (hdisjoint _ hkind)

/-- What is read without an error is a row of segments, and stands for the links that are read. -/
theorem segments_of_reading {pos : Nat} {cs : List Char} (hpos : pos ≠ 0)
    (h : (mk cs pos false).reading.errors = []) :
    Segments pos cs (mk cs pos false).reading.links := by
  -- each segment has a character, so that the induction is on the length of the text
  induction hlen : cs.length using Nat.strongRecOn generalizing cs pos with
  | ind n ih =>
    subst hlen
    cases cs with
    | nil =>
      rw [reading_of_rest_eq_nil rfl]
      exact .nil
    | cons c cs =>
      rcases eq_of_reading h with rfl | rfl
      · obtain ⟨name, rest, hname, hright, hrest, rfl⟩ := exists_dotted_of_reading h
        have hread := reading_dotted hname hright hrest hpos
        rw [List.cons_append] at hread
        rw [hread] at h ⊢
        refine .cons (.dotted hname hright) (ih rest.length ?_ (by omega) h rfl)
        simp only [List.length_cons, List.length_append]
        omega
      · obtain ⟨text, step, rest, htext, rfl⟩ := exists_bracketed_of_reading h
        have hread := reading_bracketed htext rest pos
        rw [List.cons_append, List.append_assoc, List.singleton_append] at hread
        rw [hread] at h ⊢
        have hsegs := ih rest.length (by simp; omega) (by omega) h rfl
        simpa [Reading.push] using Segments.cons (.bracketed htext) hsegs

end Scanner

/-! ## Chains of nodes -/

/-- The links of a parsed path, innermost first. An empty path has none. -/
def linksOf : Option Node → List Link
  | none => []
  | some node => node.links

/-- A chain that is built from links has these links, if only the first one is a root marker. -/
theorem linksOf_ofLinks? {links : List Link}
    (h : ∀ link ∈ links.tail, ∃ pos step, link = .step pos step) :
    linksOf (Node.ofLinks? links) = links := by
  induction links using List.reverseRecOn with
  | nil => rfl
  | append_singleton links link ih =>
    rw [Node.ofLinks?_append_singleton]
    cases links with
    | nil => cases link <;> rfl
    | cons first links =>
      -- the last link is not the first one, so it is a step and keeps the chain below it
      obtain ⟨pos, step, rfl⟩ := h link (List.mem_append_right links List.mem_cons_self)
      have hbelow := ih fun link hlink => h link (List.mem_append_left _ hlink)
      cases hnode : Node.ofLinks? (first :: links) with
      | none =>
        rw [hnode] at hbelow
        cases hbelow
      | some node =>
        rw [hnode, linksOf] at hbelow
        rw [Link.under, linksOf, Node.links_access, hbelow]

/-- Behind the first link of a path there is no root marker. -/
theorem Grammar.Path.exists_step_of_mem_tail {text : List Char} {links : List Link}
    (h : Path text links) : ∀ link ∈ links.tail, ∃ pos step, link = .step pos step := by
  cases h with
  | plain hsegs => exact fun link hmem => hsegs.isRoot_eq_false link (List.mem_of_mem_tail hmem)
  | headed _ hsegs => exact hsegs.isRoot_eq_false

/-- The links of a path are the links of the chain that is built from them. -/
theorem Grammar.Path.linksOf_ofLinks? {text : List Char} {links : List Link}
    (h : Path text links) : linksOf (Node.ofLinks? links) = links :=
  ValuePath.linksOf_ofLinks? h.exists_step_of_mem_tail

/-! ## Whole paths -/

theorem Reading.result_eq_ok_iff {r : Reading} {node? : Option Node} :
    r.result = .ok node? ↔ r.errors = [] ∧ node? = Node.ofLinks? r.links := by
  rw [Reading.result]
  split
  next h => simp [h, eq_comm]
  next h => simp [h]

namespace Scanner

/-- A text of the grammar is parsed as its links, whatever row of segments stands behind it. -/
theorem parse_path_append {text rest : List Char} {links : List Link} (h : Path text links)
    (hrest : IsBoundary rest) :
    (mk (text ++ rest) 1 false).parser.parse.1 =
      (Reading.mk (links ++ (mk rest (1 + text.length) false).reading.links)
        (mk rest (1 + text.length) false).reading.errors).result := by
  cases h with
  | plain hsegs =>
    rw [parse_parser_of_isBoundary (hsegs.isBoundary_append hrest),
      reading_segments hsegs hrest (by decide)]
  | @headed head text link links hhead hsegs =>
    have hbound := hsegs.isBoundary_append hrest
    have hread := reading_segments hsegs hrest (by omega)
    rw [List.append_assoc, List.length_append, ← Nat.add_assoc]
    cases hhead with
    | root =>
      rw [show 1 + ['$'].length = 2 from rfl] at hread ⊢
      rw [List.singleton_append, parse_parser_root (next_root (text ++ rest)), hread]
      rfl
    | name hname hroot hright =>
      have hfirst : head.head? = some '$' → 1 ≠ 1 := fun h => absurd h hroot
      rw [parse_parser_string (next_bareName hname hright hfirst hbound), hread]
      rfl

/-- A text of the grammar is parsed, and its links are those that the grammar gives to it. -/
theorem parse_of_path {text : List Char} {links : List Link} (h : Path text links) :
    (mk text 1 false).parser.parse.1 = .ok (Node.ofLinks? links) := by
  have hparse := parse_path_append h isBoundary_nil
  have hend : (mk [] (1 + text.length) false).reading = ⟨[], []⟩ := reading_of_rest_eq_nil rfl
  rw [List.append_nil, hend, List.append_nil] at hparse
  rw [hparse]
  exact Reading.result_eq_ok_iff.mpr ⟨rfl, rfl⟩

/-- What is parsed is a text of the grammar, and the links of the chain are those of the text. -/
theorem path_of_parse {text : List Char} {node? : Option Node}
    (h : (mk text 1 false).parser.parse.1 = .ok node?) :
    ∃ links, Path text links ∧ node? = Node.ofLinks? links := by
  cases text with
  | nil =>
    rw [parse_parser_of_rest_eq_nil rfl] at h
    obtain rfl := Except.ok.inj h
    exact ⟨[], .plain .nil, rfl⟩
  | cons c text =>
    rcases Decidable.em (c = '.' ∨ c = '[') with hmark | hmark
    · rw [parse_parser_of_isBoundary (isBoundary_cons hmark)] at h
      obtain ⟨herrors, hnode⟩ := Reading.result_eq_ok_iff.mp h
      exact ⟨_, .plain (segments_of_reading (by decide) herrors), hnode⟩
    rw [not_or] at hmark
    rcases Decidable.em (c = '$') with rfl | hroot
    · rw [parse_parser_root (next_root text)] at h
      obtain ⟨herrors, hnode⟩ := Reading.result_eq_ok_iff.mp h
      exact ⟨_, .headed .root (segments_of_reading (by decide) herrors), hnode⟩
    -- of the tokens outside of brackets only a closing one can begin no path
    rcases Decidable.em (c = ']') with rfl | hright
    · rw [parse_parser_other (next_rightBracket text 1 false) (by decide) (by decide)] at h
      cases h
    have hkind : (mk (c :: text) 1 false).next.1.token.kind = .string := by
      rw [next_of_not_mark hmark.1 hmark.2 hright (fun hc _ => hroot hc)]
      rfl
    obtain ⟨name, rest, hname, hbare, hright', hroot', hrest⟩ := exists_bareName_of_next hkind
    have hroot' : name.head? ≠ some '$' := fun hc => hroot' hc rfl
    rw [hname, parse_parser_string (next_bareName hbare hright' (fun hc => absurd hc hroot') hrest)]
      at h
    obtain ⟨herrors, hnode⟩ := Reading.result_eq_ok_iff.mp h
    rw [hname]
    refine ⟨_, .headed (.name hbare hroot' hright') (segments_of_reading ?_ herrors), hnode⟩
    omega

end Scanner

/-- The parser accepts exactly the texts of the grammar. The chain of an accepted path has the
links that the grammar gives to it, and only the empty text has no chain. -/
theorem parse_accepts_iff_path (s : String) :
    ((∃ node?, (Parser.ofString s).parse.1 = .ok node?) ↔ ∃ links, Path s.toList links) ∧
      (∀ node? links, (Parser.ofString s).parse.1 = .ok node? → Path s.toList links →
        linksOf node? = links) ∧
      ((Parser.ofString s).parse.1 = .ok none ↔ s = "") := by
  have hofPath {links : List Link} (h : Path s.toList links) :
      (Parser.ofString s).parse.1 = .ok (Node.ofLinks? links) := Scanner.parse_of_path h
  have htoPath {node? : Option Node} (h : (Parser.ofString s).parse.1 = .ok node?) :
      ∃ links, Path s.toList links ∧ node? = Node.ofLinks? links := Scanner.path_of_parse h
  refine ⟨⟨?_, ?_⟩, ?_, ?_⟩
  · rintro ⟨node?, h⟩
    obtain ⟨links, hpath, -⟩ := htoPath h
    exact ⟨links, hpath⟩
  · rintro ⟨links, hpath⟩
    exact ⟨_, hofPath hpath⟩
  · intro node? links h hpath
    obtain rfl := Except.ok.inj ((hofPath hpath).symm.trans h)
    exact hpath.linksOf_ofLinks?
  · constructor
    · intro h
      obtain ⟨links, hpath, hnode⟩ := htoPath h
      have hlinks := hpath.linksOf_ofLinks?
      rw [← hnode] at hlinks
      rw [← hlinks] at hpath
      exact String.toList_eq_nil_iff.mp (path_nil_iff.mp hpath)
    · rintro rfl
      exact hofPath (.plain .nil)

end ValuePath
