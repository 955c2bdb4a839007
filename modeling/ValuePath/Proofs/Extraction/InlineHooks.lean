import ValuePath.Extraction
import ValuePath.Hook.Standard

/-!
# Hooks behind a plain step

A plain step has no hooks around it. But where it searches an inline field, it does so by a whole
step of its own, and around that one all hooks stand. So hooks have a part in a plain step exactly
where it comes to search an inline field: in a record that has one, and in which no open field
answers to the name.

* `Step.SearchesInline` says that a step comes to search inline fields.
* `extractKey_eq_of_not_searchesInline`: a step that does not is the same with all hooks.
* `extractKey_of_searchesInline`: a step that does is at the mercy of them.
* `Step.extract_eq_withoutHooks_iff` puts both together.
-/

namespace ValuePath

/-- A step by name comes to search the inline fields of a record: there is one, and all fields that
answer to the name themselves are restricted. -/
inductive Step.SearchesInline (o : Options) : Step → Handle → Prop
  | key {name : String} {h : Handle} {r : Record Value} {f : Field Value} :
      h.followPointers.value? = some (.record r) → f ∈ r.fields → o.isInline f = true →
      (∀ g ∈ directMatches o name h.followPointers r, g.isRestricted = true) →
        SearchesInline o (.key name) h

section Record

variable {o : Options} {name : String} {search : Extraction} {h : Handle} {r : Record Value}

/-- Where all direct matches are restricted, the inline fields are searched. -/
theorem searchRecord_of_restricted
    (hdirect : ∀ g ∈ directMatches o name h r, g.isRestricted = true) :
    searchRecord o name search h r =
      firstOpen search (inlineHandles o h r) (directMatches o name h r).getLast? := by
  have hnone : (directMatches o name h r).find? (!·.isRestricted) = none := by
    simpa using hdirect
  simp only [searchRecord, hnone]

/-- Where there is no inline field, or a direct match is open, a search in a record makes no other
search. -/
theorem searchRecord_eq_of_open_or_noInline
    (hno : (∀ f ∈ r.fields, o.isInline f = false) ∨
      ∃ g ∈ directMatches o name h r, g.isRestricted = false) (search' : Extraction) :
    searchRecord o name search h r = searchRecord o name search' h r := by
  rcases hno with hinline | ⟨g, hg, hopen⟩
  · have hnil : inlineHandles o h r = [] := by
      simpa [inlineHandles] using hinline
    simp only [searchRecord, hnil, firstOpen]
  · have hsome : ((directMatches o name h r).find? (!·.isRestricted)).isSome := by
      simpa using ⟨g, hg, hopen⟩
    obtain ⟨found, hfound⟩ := Option.isSome_iff_exists.mp hsome
    simp only [searchRecord, hfound]

end Record

section Steps

variable {o : Options} {name : String} {h : Handle}

/-- A step by name that does not come to search inline fields is the same with all hooks, and within
every limit. -/
theorem extractKey_eq_of_not_searchesInline (hno : ¬(Step.key name).SearchesInline o h)
    (hooks hooks' : List Hook) (limit limit' : Nat) :
    extractKey { o with hooks } name (limit + 1) h =
      extractKey { o with hooks := hooks' } name (limit' + 1) h := by
  rw [extractKey, extractKey]
  cases hvalue : h.followPointers.value? with
  | none => rfl
  | some v =>
    cases v with
    | record r =>
      -- only in a record are there searches to which the hooks could belong
      refine searchRecord_eq_of_open_or_noInline ?_ _
      by_cases hinline : ∃ f ∈ r.fields, o.isInline f = true
      · obtain ⟨f, hf, hinline⟩ := hinline
        by_cases hopen : ∃ g ∈ directMatches o name h.followPointers r, g.isRestricted = false
        · exact .inr hopen
        · have hdirect : ∀ g ∈ directMatches o name h.followPointers r, g.isRestricted = true := by
            simpa using hopen
          exact absurd (.key hvalue hf hinline hdirect) hno
      · exact .inl fun f hf => Bool.eq_false_iff.mpr fun hf' => hinline ⟨f, hf, hf'⟩
    | _ => rfl

/-- A step by name that comes to search an inline field finds there what a hook puts in place of
the search. -/
theorem extractKey_of_searchesInline (hsearch : (Step.key name).SearchesInline o h) (v : Value)
    (limit : Nat) :
    extractKey { o with hooks := [Hook.constant v] } name (limit + 1) h =
      pure (some (Handle.ofValue v)) := by
  cases hsearch with
  | @key _ _ r f hvalue hf hinline hdirect =>
    have hmem : h.followPointers.child f.value (!f.exported && !f.embedded) ∈
        inlineHandles o h.followPointers r :=
      List.mem_map_of_mem (List.mem_filter.mpr ⟨hf, hinline⟩)
    obtain ⟨first, rest, hfirst⟩ := List.exists_cons_of_ne_nil (List.ne_nil_of_mem hmem)
    rw [extractKey]
    simp only [hvalue]
    refine (searchRecord_of_restricted hdirect).trans ?_
    rw [hfirst]
    -- the hook answers for the first inline field, and its answer is open
    rfl

end Steps

/-- The limit of a plain step is not zero. -/
theorem Step.exists_extract_key_eq (name : String) (h : Handle) :
    ∃ limit, ∀ o, (key name).extract o h = extractKey o name (limit + 1) h :=
  ⟨h.nesting + searchReserve, fun o => by rw [extract, extractWithin, Nat.add_right_comm]⟩

/-- A plain step is the same with all hooks as without hooks exactly where it does not come to
search an inline field. -/
theorem Step.extract_eq_withoutHooks_iff (o : Options) (step : Step) (h : Handle) :
    (∀ hooks, step.extract { o with hooks } h = step.extract { o with hooks := [] } h) ↔
      ¬step.SearchesInline o h := by
  cases step with
  | index position =>
    refine iff_of_true (fun hooks => rfl) ?_
    rintro ⟨⟩
  | key name =>
    obtain ⟨limit, hextract⟩ := exists_extract_key_eq name h
    simp only [hextract]
    constructor
    · intro hsame hsearch
      -- two hooks with different answers cannot both do what is done without hooks
      have hnull := (hsame [Hook.constant .null]).symm
      have htrue := (hsame [Hook.constant (.boolean true)]).symm
      rw [extractKey_of_searchesInline hsearch] at hnull htrue
      have hanswers := hnull.symm.trans htrue
      simp [pure, Search.done, Handle.ofValue] at hanswers
    · intro hno hooks
      exact extractKey_eq_of_not_searchesInline hno hooks [] limit limit

/-- A hook that answers every lookup itself is asked by a plain step, because the record has an
embedded field. Without it the step finds the field of the embedded record. -/
theorem Step.extract_ne_withoutHooks_of_embedded :
    let inner : Value := .record ⟨"Inner", [⟨"x", [], true, false, .boolean true⟩]⟩
    let h : Handle := .ofValue (.record ⟨"Outer", [⟨"inner", [], true, true, inner⟩]⟩)
    (key "x").extract { hooks := [Hook.constant (.string "hook")] } h =
        pure (some (.ofValue (.string "hook"))) ∧
      (key "x").extract { hooks := [] } h = pure (some (.ofValue (.boolean true))) ∧
      (key "x").extract { hooks := [Hook.constant (.string "hook")] } h ≠
        (key "x").extract { hooks := [] } h := by
  intro inner h
  have hhooked : (key "x").extract { hooks := [Hook.constant (.string "hook")] } h =
      pure (some (.ofValue (.string "hook"))) := rfl
  have hplain : (key "x").extract { hooks := [] } h = pure (some (.ofValue (.boolean true))) := rfl
  refine ⟨hhooked, hplain, fun hsame => ?_⟩
  rw [hhooked, hplain] at hsame
  simp [pure, Search.done, Handle.ofValue] at hsame

end ValuePath
