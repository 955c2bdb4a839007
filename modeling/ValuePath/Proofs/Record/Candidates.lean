import ValuePath.Extraction

/-!
# Candidates of a step by name

A step by name searches a record level by level: each inline field is searched by a whole step,
which chooses among its own matches and hands a single one up. Without hooks this is one search of
a flat list. The candidates of a value are everything in it that answers to the name, the fields
of a record before the contents of its inline fields, together with the fields passed on the way.

* `Value.candidates` lists the candidates of a value.
* `Candidate.hidden` is the rule for which of them callers may not have.
* `choose` takes the first open handle of a list, or else the last handle.
* `extractKey_eq_choose` is the equation between the search level by level and the flat one, for
  every limit above the nesting of the value.
-/

namespace ValuePath

/-! ## Choice -/

/-- The first handle of a list that is not restricted, or else the last handle. -/
def choose (handles : List Handle) : Option Handle :=
  (handles.find? (!·.isRestricted)).or handles.getLast?

/-- Nothing is chosen exactly from the empty list. -/
theorem choose_eq_none_iff (handles : List Handle) : choose handles = none ↔ handles = [] := by
  rw [choose, Option.or_eq_none_iff, List.getLast?_eq_none_iff]
  refine ⟨And.right, fun h => ⟨?_, h⟩⟩
  rw [h]
  rfl

/-- What is chosen is one of the handles. -/
theorem mem_of_choose {handles : List Handle} {h : Handle} (hchosen : choose handles = some h) :
    h ∈ handles := by
  rw [choose, Option.or_eq_some_iff] at hchosen
  rcases hchosen with hfirst | ⟨_, hlast⟩
  · exact List.mem_of_find?_eq_some hfirst
  · exact List.mem_of_getLast? hlast

/-- What is chosen and open is the first open handle. -/
theorem filter_choose (handles : List Handle) :
    (choose handles).filter (!·.isRestricted) = handles.find? (!·.isRestricted) := by
  cases hfirst : handles.find? (!·.isRestricted) with
  | some g =>
    have hopen : g.isRestricted = false := by simpa using List.find?_some hfirst
    rw [choose, hfirst, Option.some_or, Option.filter_some, hopen]
    rfl
  | none =>
    refine Option.filter_eq_none_iff.mpr fun g hchosen => ?_
    simpa using List.find?_eq_none.mp hfirst g (mem_of_choose hchosen)

/-- An open handle is chosen exactly where there is one. -/
theorem exists_choose_open_iff (handles : List Handle) :
    (∃ found ∈ choose handles, found.isRestricted = false) ↔
      ∃ h ∈ handles, h.isRestricted = false := by
  constructor
  · rintro ⟨found, hchosen, hopen⟩
    exact ⟨found, mem_of_choose hchosen, hopen⟩
  · rintro ⟨h, hmem, hopen⟩
    have hsome : (handles.find? (!·.isRestricted)).isSome :=
      List.find?_isSome.mpr ⟨h, hmem, by rw [hopen, Bool.not_false]⟩
    obtain ⟨first, hfirst⟩ := Option.isSome_iff_exists.mp hsome
    refine ⟨first, ?_, by simpa using List.find?_some hfirst⟩
    rw [choose, hfirst, Option.some_or, Option.mem_def]

/-- Among the handles of two lists, an open one of the first is chosen before all others, and the
last one of the first list only where the second is empty. -/
theorem choose_append (first second : List Handle) :
    choose (first ++ second) =
      (first.find? (!·.isRestricted)).or
        ((second.find? (!·.isRestricted)).or (second.getLast?.or first.getLast?)) := by
  rw [choose, List.find?_append, List.getLast?_append, Option.or_assoc]

/-- Searches that choose from lists make one choice from the lists in a row, with the fallback at
their beginning. -/
theorem firstOpen_eq (search : Extraction) (found : Handle → List Handle) (handles : List Handle)
    (hsearch : ∀ h ∈ handles, search h = pure (choose (found h))) (fallback : Option Handle) :
    firstOpen search handles fallback =
      pure (((handles.flatMap found).find? (!·.isRestricted)).or
        ((handles.flatMap found).getLast?.or fallback)) := by
  induction handles generalizing fallback with
  | nil => rfl
  | cons h rest ih =>
    have ih := ih fun g hmem => hsearch g (List.mem_cons_of_mem h hmem)
    rw [firstOpen, hsearch h List.mem_cons_self, pure_bind, List.flatMap_cons,
      List.find?_append, List.getLast?_append]
    cases hfirst : (found h).find? (!·.isRestricted) with
    | some g =>
      have hopen : g.isRestricted = false := by simpa using List.find?_some hfirst
      simp only [choose, hfirst, Option.some_or, hopen]
      rfl
    | none =>
      simp only [choose, hfirst, Option.none_or]
      cases hlast : (found h).getLast? with
      | none =>
        rw [Option.or_none]
        exact ih fallback
      | some g =>
        -- nothing in this list is open, so that its last handle is the new fallback
        have hrestricted : g.isRestricted = true := by
          simpa using List.find?_eq_none.mp hfirst g (List.mem_of_getLast? hlast)
        simp only [hrestricted, if_true]
        rw [ih (some g), Option.or_assoc, Option.some_or]

/-! ## Pointers -/

/-- What looks through one pointer looks through all layers of pointers. -/
theorem apply_pointee? {β : Type} (g : Option Value → β)
    (hg : ∀ content, g (some (.pointer content)) = g content) (v : Value) :
    g v.pointee? = g (some v) := by
  fun_induction Value.pointee? v with
  | case1 => exact (hg none).symm
  | case2 v ih => rw [ih, hg]
  | case3 v => rfl

/-- What looks through pointers gives the same for a handle once its pointers are followed. -/
theorem Handle.apply_followPointers {β : Type} (g : Option Value → β)
    (hg : ∀ content, g (some (.pointer content)) = g content) (h : Handle) :
    g h.followPointers.value? = g h.value? := by
  obtain ⟨_ | v, restricted⟩ := h
  · rfl
  · exact apply_pointee? g hg v

/-- No pointer is left once all pointers are followed. -/
theorem pointee?_ne_pointer (v : Value) (content : Option Value) :
    v.pointee? ≠ some (.pointer content) := by
  fun_induction Value.pointee? v with
  | case1 => exact Option.some_ne_none _ ∘ Eq.symm
  | case2 v ih => exact ih
  | case3 v hnull hcontent =>
    intro h
    obtain rfl := Option.some.inj h
    -- a pointer is followed by the cases above, whether it is null or not
    cases content with
    | none => exact hnull rfl
    | some u => exact hcontent u rfl

/-- No pointer is left in a handle once its pointers are followed. -/
theorem Handle.value?_followPointers_ne_pointer (h : Handle) (content : Option Value) :
    h.followPointers.value? ≠ some (.pointer content) := by
  obtain ⟨_ | v, restricted⟩ := h
  · exact Option.some_ne_none _ ∘ Eq.symm
  · exact pointee?_ne_pointer v content

/-! ## Candidates -/

/-- Whether a field hides its contents. That an embedded field itself is hidden does not. -/
def Field.isHidden {α : Type} (f : Field α) : Bool :=
  !f.exported && !f.embedded

/-- A match of a step by name. -/
structure Candidate where
  /-- The inline fields that lead to the match, the outermost first. -/
  passed : List (Field Value)
  /-- The field that answers to the name, unless a map or an object does. -/
  own? : Option (Field Value)
  /-- The value found. -/
  value : Value

namespace Candidate

/-- A field of a record that answers to the name itself. -/
def direct (f : Field Value) : Candidate :=
  ⟨[], some f, f.value⟩

/-- What a map or an object answers. -/
def answer (v : Value) : Candidate :=
  ⟨[], none, v⟩

/-- A candidate of the value of an inline field, as a candidate of the record. -/
def through (f : Field Value) (c : Candidate) : Candidate :=
  { c with passed := f :: c.passed }

/-- Whether a candidate is hidden: its own field is not exported, or an inline field on the way is
neither exported nor embedded. -/
def hidden (c : Candidate) : Bool :=
  c.passed.any Field.isHidden || c.own?.any (!·.exported)

/-- The handle that a candidate gives, searched from a handle that may be restricted. -/
def handle (restricted : Bool) (c : Candidate) : Handle :=
  ⟨some c.value, restricted || c.hidden⟩

/-- A candidate behind an inline field is hidden if it is hidden itself, or if the field hides its
contents. -/
theorem hidden_through (f : Field Value) (c : Candidate) :
    (c.through f).hidden = (f.isHidden || c.hidden) := by
  simp only [hidden, through, List.any_cons, Bool.or_assoc]

/-- The handle of a candidate behind an inline field is its handle as searched from the field. -/
theorem handle_through (restricted : Bool) (f : Field Value) (c : Candidate) :
    (c.through f).handle restricted = c.handle (restricted || f.isHidden) := by
  rw [handle, hidden_through, ← Bool.or_assoc]
  rfl

/-- The handle of a candidate has a value, so that it is restricted if the search is or the
candidate is hidden. -/
@[simp]
theorem isRestricted_handle (restricted : Bool) (c : Candidate) :
    (c.handle restricted).isRestricted = (restricted || c.hidden) :=
  Bool.and_true _

end Candidate

mutual

/-- The candidates of a value for a name. In a record, the fields that answer to the name come
first, and then the candidates of the inline fields. -/
def Value.candidates (o : Options) (name : String) : Value → List Candidate
  | .object object => ((object.lookupKey? o.matching name).map Candidate.answer).toList
  | .map entries => ((Entries.find? o.matching name entries).map Candidate.answer).toList
  | .record r =>
    (r.fields.filter fun f => !o.isInline f && o.answers name f).map Candidate.direct ++
      inlineCandidates o name r.fields
  | .pointer content => candidatesOfContent o name content
  | _ => []
termination_by structural v => v

/-- The candidates of the inline fields among some fields. -/
def inlineCandidates (o : Options) (name : String) : List (Field Value) → List Candidate
  | [] => []
  | f :: rest =>
    if o.isInline f then
      (f.value.candidates o name).map (Candidate.through f) ++ inlineCandidates o name rest
    else inlineCandidates o name rest
termination_by structural fields => fields

/-- The candidates of the content of a pointer. -/
def candidatesOfContent (o : Options) (name : String) : Option Value → List Candidate
  | none => []
  | some v => v.candidates o name
termination_by structural content => content

end

namespace Handle

/-- The candidates of the value of a handle. -/
def candidates (o : Options) (name : String) (h : Handle) : List Candidate :=
  candidatesOfContent o name h.value?

/-- The handles of all candidates. -/
def candidateHandles (o : Options) (name : String) (h : Handle) : List Handle :=
  (h.candidates o name).map (Candidate.handle h.restricted)

end Handle

variable (o : Options) (name : String)

/-- The candidates of the inline fields are those of each inline field in turn. -/
theorem inlineCandidates_eq (fields : List (Field Value)) :
    inlineCandidates o name fields =
      (fields.filter o.isInline).flatMap fun f =>
        (f.value.candidates o name).map (Candidate.through f) := by
  induction fields with
  | nil => rfl
  | cons f rest ih =>
    rw [inlineCandidates, ih]
    by_cases hinline : o.isInline f = true
    · rw [if_pos hinline, List.filter_cons_of_pos hinline, List.flatMap_cons]
    · rw [if_neg hinline, List.filter_cons_of_neg hinline]

/-- A candidate of a record is a field that answers to the name, or a candidate of an inline field
behind that field. -/
theorem Value.mem_candidates_record {r : Record Value} {c : Candidate} :
    c ∈ (record r).candidates o name ↔
      (∃ f ∈ r.fields, o.isInline f = false ∧ o.answers name f = true ∧ c = .direct f) ∨
        ∃ f ∈ r.fields, o.isInline f = true ∧
          ∃ inner ∈ f.value.candidates o name, c = inner.through f := by
  simp only [candidates, inlineCandidates_eq, List.mem_append, List.mem_map, List.mem_flatMap,
    List.mem_filter, Bool.and_eq_true, Bool.not_eq_true', and_assoc, @eq_comm _ c]

/-- To follow pointers changes no candidates. -/
theorem Handle.candidates_followPointers (h : Handle) :
    h.followPointers.candidates o name = h.candidates o name :=
  h.apply_followPointers (candidatesOfContent o name) fun _ => rfl

/-! ## The limit -/

/-- To follow pointers changes no nesting. -/
theorem Handle.nesting_followPointers (h : Handle) : h.followPointers.nesting = h.nesting :=
  h.apply_followPointers nestingOfContent fun _ => rfl

/-- The nesting of a field is at most that of all fields. -/
theorem nesting_le_of_mem {f : Field Value} {fields : List (Field Value)} (hmem : f ∈ fields) :
    f.value.nesting ≤ nestingOfFields fields := by
  induction hmem with
  | head rest =>
    rw [nestingOfFields]
    exact Nat.le_max_left _ _
  | tail g _ ih =>
    rw [nestingOfFields]
    exact Nat.le_trans ih (Nat.le_max_right _ _)

/-- The inline fields of a record are less nested than the record. -/
theorem nesting_lt_of_mem_inlineHandles {h g : Handle} {r : Record Value}
    (hg : g ∈ inlineHandles o h r) : g.nesting < (Value.record r).nesting := by
  obtain ⟨f, hf, rfl⟩ := List.mem_map.mp hg
  have hle : f.value.nesting ≤ nestingOfFields r.fields :=
    nesting_le_of_mem (List.mem_filter.mp hf).1
  rw [Value.nesting]
  exact Nat.lt_succ_of_le hle

/-! ## The flat search -/

/-- The handles of the candidates of a record are its direct matches and then those of the inline
fields. -/
theorem candidateHandles_record (r : Record Value) (restricted : Bool) :
    Handle.candidateHandles o name ⟨some (.record r), restricted⟩ =
      directMatches o name ⟨some (.record r), restricted⟩ r ++
        (inlineHandles o ⟨some (.record r), restricted⟩ r).flatMap
          (Handle.candidateHandles o name) := by
  rw [Handle.candidateHandles, Handle.candidates, candidatesOfContent, Value.candidates,
    inlineCandidates_eq, List.map_append, List.map_map, List.map_flatMap, inlineHandles,
    List.flatMap_map]
  refine congr (congrArg _ ?_) ?_
  · -- a direct match has passed no inline field
    refine List.map_congr_left fun f _ => ?_
    simp [Candidate.handle, Candidate.hidden, Candidate.direct, Handle.child]
  · refine congrArg (List.flatMap · _) (funext fun f => ?_)
    rw [List.map_map]
    exact List.map_congr_left fun c _ => Candidate.handle_through restricted f c

/-- From the answer of a map or an object, if there is one, that answer is chosen. -/
theorem choose_answer (restricted : Bool) (v? : Option Value) :
    choose ((v?.map Candidate.answer).toList.map (Candidate.handle restricted)) =
      v?.map fun v => ⟨some v, restricted || false⟩ := by
  cases v? with
  | none => rfl
  | some v => cases restricted <;> rfl

/-- Without hooks, and with a limit above the nesting, the search level by level is one choice
among all candidates. -/
theorem extractKey_eq_choose (hplain : o.hooks = []) (limit : Nat) (h : Handle)
    (hlimit : h.nesting < limit) :
    extractKey o name limit h = pure (choose (h.candidateHandles o name)) := by
  induction limit generalizing h with
  | zero => exact absurd hlimit (Nat.not_lt_zero _)
  | succ limit ih =>
    have hsame : h.candidateHandles o name = h.followPointers.candidateHandles o name := by
      rw [Handle.candidateHandles, Handle.candidateHandles, Handle.candidates_followPointers]
      rfl
    rw [← Handle.nesting_followPointers] at hlimit
    have hpointer := h.value?_followPointers_ne_pointer
    rw [hsame, extractKey]
    generalize h.followPointers = h at hlimit hpointer
    obtain ⟨v?, restricted⟩ := h
    match v? with
    | some (.record r) =>
      -- each search inside has a limit that is lower by one, as is the nesting
      have hinner : ∀ g ∈ inlineHandles o ⟨some (.record r), restricted⟩ r,
          extractKey o name limit g = pure (choose (g.candidateHandles o name)) := by
        intro g hg
        have hlt := nesting_lt_of_mem_inlineHandles o hg
        exact ih g (Nat.lt_of_lt_of_le hlt (Nat.le_of_lt_succ hlimit))
      dsimp only
      rw [hplain, Hook.wrap, List.foldr_nil, searchRecord, firstOpen_eq _ _ _ hinner,
        candidateHandles_record, choose_append]
      split
      · next found hfirst => rw [hfirst, Option.some_or]
      · next hnone => rw [hnone, Option.none_or]
    | some (.object object) => exact congrArg pure (choose_answer restricted _).symm
    | some (.map entries) => exact congrArg pure (choose_answer restricted _).symm
    | some (.pointer content) => exact absurd rfl (hpointer content)
    | none | some .null | some (.boolean _) | some (.integer _) | some (.float _)
    | some (.string _) | some (.array _) => rfl

/-- Without hooks, a step by name is one search of the flat list of candidates: it finds the first
candidate that callers may have, or else the last candidate, and nothing exactly where there are
no candidates. This holds for handles to records and to all other values, restricted or not. -/
theorem Step.extract_key_eq_choose (hplain : o.hooks = []) (h : Handle) :
    (Step.key name).extract o h = pure (choose (h.candidateHandles o name)) ∧
      (Step.key name).extractHooked o h = pure (choose (h.candidateHandles o name)) ∧
      (choose (h.candidateHandles o name) = none ↔ h.candidates o name = []) := by
  have hlimit : h.nesting < h.nesting + 1 + searchReserve :=
    Nat.lt_add_right searchReserve (Nat.lt_succ_self h.nesting)
  have hfound := extractKey_eq_choose o name hplain _ h hlimit
  refine ⟨hfound, ?_, ?_⟩
  · rw [Step.extractHooked, Step.extractHookedWithin, hplain]
    exact hfound
  · rw [choose_eq_none_iff, Handle.candidateHandles, List.map_eq_nil_iff]

/-- An open field in an embedded record that is hidden itself is found in place of a hidden field
of the same name. -/
theorem extract_key_of_hidden_and_embedded :
    let inner : Record Value := ⟨"Inner", [⟨"x", [], true, false, .boolean true⟩]⟩
    let outer : Record Value := ⟨"Outer",
      [⟨"x", [], false, false, .boolean false⟩, ⟨"inner", [], false, true, .record inner⟩]⟩
    (Step.key "x").extractHooked {} (Handle.ofValue (.record outer)) =
      pure (some (Handle.ofValue (.boolean true))) := by
  intro inner outer
  rw [(Step.extract_key_eq_choose {} "x" rfl (Handle.ofValue (.record outer))).2.1]
  rfl

end ValuePath
