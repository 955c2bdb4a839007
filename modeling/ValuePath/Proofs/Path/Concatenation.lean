import ValuePath.Proofs.Path.Acceptance
import ValuePath.Proofs.Path.Shift

/-!
# Paths one behind the other

A row of segments behind a path is read as if it stood alone. A path that is accepted ends outside
of brackets and at the end of a token, and what stands behind it is read in the same way as at the
beginning of a text, with all errors that there are in it.

* `linksOf_ofLinks?_append`: the chain built from the links of two paths has the links of both.
* `exists_reading_of_parse_append`: what is read of both paths, in terms of what is read of each.
* `parse_append` is the same for the results of the parser.
-/

namespace ValuePath

open Grammar

/-! ## Chains -/

theorem mem_tail_append {link : Link} {links more : List Link} (h : link ∈ (links ++ more).tail) :
    link ∈ links.tail ∨ link ∈ more := by
  cases links with
  | nil => exact .inr (List.mem_of_mem_tail h)
  | cons first links => exact List.mem_append.mp h

/-- Behind the innermost link of a chain there is no root marker. -/
theorem Node.exists_step_of_mem_tail_links (node : Node) :
    ∀ link ∈ node.links.tail, ∃ pos step, link = .step pos step := by
  induction node with
  | root pos => exact fun link hmem => absurd hmem List.not_mem_nil
  | first pos step => exact fun link hmem => absurd hmem List.not_mem_nil
  | access parent pos step ih =>
    intro link hmem
    rw [links_access] at hmem
    rcases mem_tail_append hmem with hparent | hlast
    · exact ih link hparent
    · exact ⟨pos, step, List.mem_singleton.mp hlast⟩

/-- The chain that is built from the links of a chain and steps behind them has these links. -/
theorem linksOf_ofLinks?_append (node? : Option Node) {more : List Link}
    (hmore : ∀ link ∈ more, ∃ pos step, link = .step pos step) :
    linksOf (Node.ofLinks? (linksOf node? ++ more)) = linksOf node? ++ more := by
  refine linksOf_ofLinks? fun link hmem => ?_
  rcases mem_tail_append hmem with hfirst | hlast
  · cases node? with
    | none => cases hfirst
    | some node => exact node.exists_step_of_mem_tail_links link hfirst
  · exact hmore link hlast

/-- A step further on is a step. -/
theorem Link.exists_step_shift {links : List Link} (size : Nat)
    (h : ∀ link ∈ links, ∃ pos step, link = .step pos step) :
    ∀ link ∈ links.map (Link.shift size), ∃ pos step, link = .step pos step := by
  intro link hmem
  obtain ⟨first, hfirst, rfl⟩ := List.mem_map.mp hmem
  obtain ⟨pos, step, rfl⟩ := h first hfirst
  exact ⟨pos + size, step, rfl⟩

/-! ## Readings -/

/-- What begins with a period or an opening bracket can stand behind a path. -/
theorem isBoundary_of_head? {cs : List Char} (h : cs.head? = some '.' ∨ cs.head? = some '[') :
    IsBoundary cs := by
  intro c hc
  rcases h with h | h
  · exact .inl (Option.some.inj (hc.symm.trans h))
  · exact .inr (Option.some.inj (hc.symm.trans h))

/-- A row of segments is read in the same way further on, since it does not begin with a dollar
sign. -/
theorem isMovable_of_isBoundary {cs : List Char} (h : IsBoundary cs) :
    (Scanner.mk cs 1 false).IsMovable := by
  refine ⟨Nat.one_pos, fun _ hroot => ?_⟩
  rcases h '$' hroot with hc | hc <;> exact absurd hc (by decide)

/-- Behind an accepted path, what is read of a row of segments stands behind the links of the path,
further on by the length of the path. -/
theorem exists_reading_of_parse_append {s₁ s₂ : String} {node₁? : Option Node}
    (h₁ : (Parser.ofString s₁).parse.1 = .ok node₁?) (h₂ : IsBoundary s₂.toList) :
    ∃ r : Reading, (Parser.ofString s₂).parse.1 = r.result ∧
      (Parser.ofString (s₁ ++ s₂)).parse.1 =
        (Reading.mk (linksOf node₁? ++ (r.shift s₁.length).links)
          (r.shift s₁.length).errors).result ∧
      (r.errors = [] → ∀ link ∈ r.links, ∃ pos step, link = .step pos step) := by
  obtain ⟨links, hpath, rfl⟩ := Scanner.path_of_parse h₁
  refine ⟨(Scanner.mk s₂.toList 1 false).reading, Scanner.parse_parser_of_isBoundary h₂ 1, ?_, ?_⟩
  · -- the scanner stands behind the path as at the beginning of a text, but further on
    have hread : (Scanner.mk s₂.toList (1 + s₁.toList.length) false).reading = _ :=
      Scanner.reading_shift (isMovable_of_isBoundary h₂) s₁.toList.length
    have hparse := Scanner.parse_path_append hpath h₂
    rw [hread, ← String.toList_append, String.length_toList] at hparse
    rw [hpath.linksOf_ofLinks?]
    exact hparse
  · intro herrors
    exact (Scanner.segments_of_reading Nat.one_ne_zero herrors).isRoot_eq_false

/-! ## Parsed paths -/

/-- Behind an accepted path, a text that begins with a period or an opening bracket is accepted
exactly if it is accepted alone. The chain of both has the links of the path and then those of the
text, and otherwise the errors are those of the text. Links and errors of the text are further on by
the length of the path. -/
theorem parse_append (s₁ s₂ : String) (node₁? : Option Node)
    (h₁ : (Parser.ofString s₁).parse.1 = .ok node₁?)
    (h₂ : s₂.toList.head? = some '.' ∨ s₂.toList.head? = some '[') :
    ((∃ node?, (Parser.ofString (s₁ ++ s₂)).parse.1 = .ok node?) ↔
      ∃ node₂?, (Parser.ofString s₂).parse.1 = .ok node₂?) ∧
    (∀ node? node₂?, (Parser.ofString (s₁ ++ s₂)).parse.1 = .ok node? →
      (Parser.ofString s₂).parse.1 = .ok node₂? →
      linksOf node? = linksOf node₁? ++ (linksOf node₂?).map (Link.shift s₁.length)) ∧
    (∀ errors, (Parser.ofString s₂).parse.1 = .error errors →
      (Parser.ofString (s₁ ++ s₂)).parse.1 =
        .error (errors.map (SyntaxError.shift s₁.length))) := by
  obtain ⟨r, hsecond, hboth, hsteps⟩ :=
    exists_reading_of_parse_append h₁ (isBoundary_of_head? h₂)
  rw [hsecond, hboth, Reading.result, Reading.result]
  -- both texts have an error, or neither has, since errors only move along
  by_cases herrors : r.errors = []
  · have hshifted : (r.shift s₁.length).errors = [] := List.map_eq_nil_iff.mpr herrors
    rw [if_pos herrors, if_pos hshifted]
    refine ⟨iff_of_true ⟨_, rfl⟩ ⟨_, rfl⟩, ?_, ?_⟩
    · intro node? node₂? hnode hnode₂
      obtain rfl := Except.ok.inj hnode
      obtain rfl := Except.ok.inj hnode₂
      have htail : ∀ link ∈ r.links.tail, ∃ pos step, link = .step pos step :=
        fun link hmem => hsteps herrors link (List.mem_of_mem_tail hmem)
      rw [linksOf_ofLinks? htail]
      exact linksOf_ofLinks?_append node₁? (Link.exists_step_shift _ (hsteps herrors))
    · intro errors herror
      cases herror
  · have hshifted : (r.shift s₁.length).errors ≠ [] := fun h => herrors (List.map_eq_nil_iff.mp h)
    rw [if_neg herrors, if_neg hshifted]
    refine ⟨iff_of_false ?_ ?_, ?_, ?_⟩
    · rintro ⟨node?, hnode⟩
      cases hnode
    · rintro ⟨node?, hnode⟩
      cases hnode
    · intro node? node₂? hnode
      cases hnode
    · intro errors herror
      obtain rfl := Except.error.inj herror
      rfl

/-- Behind a path with a root marker, a row of two segments, and a row of segments with an illegal
character and an unclosed bracket. -/
theorem parse_append_of_root :
    (Parser.ofString "$.a").parse.1 = .ok (some (.access (.root 1) 2 (.key "a"))) ∧
      (∃ node?, (Parser.ofString ("$.a" ++ "['b'][0]")).parse.1 = .ok node? ∧
        linksOf node? = [.root 1, .step 2 (.key "a"), .step 4 (.key "b"), .step 9 (.index 0)]) ∧
      (Parser.ofString ("$.a" ++ ".b[x][")).parse.1 =
        .error [⟨7, .unexpected [.string, .int] .illegal⟩, ⟨10, .unexpected [.string, .int] .eof⟩,
          ⟨10, .unexpected [.rightBracket] .eof⟩] := by
  -- the texts are scanned token by token, and their segments read from the tokens
  have hroot : (Scanner.ofString "$.a").next = (⟨1, .root⟩, ⟨['.', 'a'], 2, false⟩) := rfl
  have ha : (Scanner.mk ['a'] 3 false).next = (⟨3, .string "a"⟩, ⟨[], 4, false⟩) := rfl
  have h₁ : (Parser.ofString "$.a").parse.1 = .ok (some (.access (.root 1) 2 (.key "a"))) := by
    rw [Parser.ofString_eq_parser, Scanner.parse_parser_root hroot,
      Scanner.reading_period (Scanner.next_period _ _) ha, Scanner.reading_of_rest_eq_nil rfl]
    rfl
  have hquote : Scanner.ofString "['b'][0]" =
      ⟨['[', '\'', 'b', '\'', ']', '[', '0', ']'], 1, false⟩ := rfl
  have hb : (Scanner.mk ['\'', 'b', '\'', ']', '[', '0', ']'] 2 true).next =
      (⟨2, .string "b"⟩, ⟨[']', '[', '0', ']'], 5, true⟩) := rfl
  have hzero : (Scanner.mk ['0', ']'] 7 true).next = (⟨7, .int "0"⟩, ⟨[']'], 8, true⟩) := rfl
  have hgood : (Parser.ofString "['b'][0]").parse.1 =
      .ok (some (.access (.first 1 (.key "b")) 6 (.index 0))) := by
    rw [Parser.ofString_eq_parser, hquote,
      Scanner.parse_parser_of_isBoundary (isBoundary_of_head? (.inr rfl)) 1,
      Scanner.reading_leftBracket (Scanner.next_leftBracket _ _) hb
        (Scanner.next_rightBracket _ _ _),
      Scanner.reading_leftBracket (Scanner.next_leftBracket _ _) hzero
        (Scanner.next_rightBracket _ _ _),
      Scanner.reading_of_rest_eq_nil rfl]
    rfl
  have hdot : Scanner.ofString ".b[x][" = ⟨['.', 'b', '[', 'x', ']', '['], 1, false⟩ := rfl
  have hbare : (Scanner.mk ['b', '[', 'x', ']', '['] 2 false).next =
      (⟨2, .string "b"⟩, ⟨['[', 'x', ']', '['], 3, false⟩) := rfl
  have hx : (Scanner.mk ['x', ']', '['] 4 true).next =
      (⟨4, .illegal "x"⟩, ⟨[']', '['], 5, true⟩) := rfl
  have hend : (Scanner.mk [] 7 true).next = (⟨7, .eof⟩, ⟨[], 7, true⟩) := rfl
  have hbad : (Parser.ofString ".b[x][").parse.1 =
      .error [⟨4, .unexpected [.string, .int] .illegal⟩, ⟨7, .unexpected [.string, .int] .eof⟩,
        ⟨7, .unexpected [.rightBracket] .eof⟩] := by
    rw [Parser.ofString_eq_parser, hdot,
      Scanner.parse_parser_of_isBoundary (isBoundary_of_head? (.inl rfl)) 1,
      Scanner.reading_period (Scanner.next_period _ _) hbare,
      Scanner.reading_leftBracket (Scanner.next_leftBracket _ _) hx
        (Scanner.next_rightBracket _ _ _),
      Scanner.reading_leftBracket (Scanner.next_leftBracket _ _) hend hend,
      Scanner.reading_of_rest_eq_nil rfl]
    rfl
  have happend := parse_append "$.a" "['b'][0]" _ h₁ (.inr rfl)
  obtain ⟨node?, hnode⟩ := happend.1.mpr ⟨_, hgood⟩
  refine ⟨h₁, ⟨node?, hnode, happend.2.1 _ _ hnode hgood⟩, ?_⟩
  exact (parse_append "$.a" ".b[x][" _ h₁ (.inl rfl)).2.2 _ hbad

end ValuePath
