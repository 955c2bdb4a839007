import ValuePath.Proofs.Record.HiddenFields

/-!
# Pointers

Layers of pointers have no part in an extraction. A value is unwrapped by taking every layer away,
at every depth, except for a null pointer, behind which there is nothing. Two values are alike if
they are the same once unwrapped. Without hooks, a query fails in the same way in both of them, or
it finds values that are alike again. The options must not look at the values of fields.

* `Value.unwrap` takes the pointers away, and `Value.Alike` compares what is left.
* `Value.map_unwrap_candidateHandles` is what unwrapping leaves as it is, for one step by name,
  `Step.map_unwrap_find?` for one step, and `Step.map_unwrap_findAll` for several steps.
* `Query.extract_alike` is the same for queries.
-/

namespace ValuePath

/-! ## Unwrapping -/

mutual

/-- The value without pointers, except for null pointers. Keys of maps and objects stay as they
are. -/
def Value.unwrap : Value → Value
  | .array items => .array (unwrapItems items)
  | .map entries => .map (unwrapEntries entries)
  | .record r => .record ⟨r.typeName, unwrapFields r.fields⟩
  | .pointer content => unwrapContent content
  | v => v
termination_by structural v => v

/-- The items of a sequence without pointers. -/
def unwrapItems : List Value → List Value
  | [] => []
  | v :: rest => v.unwrap :: unwrapItems rest
termination_by structural items => items

/-- The entries of a map, whose values are without pointers. -/
def unwrapEntries : List (Value × Value) → List (Value × Value)
  | [] => []
  | (key, v) :: rest => (key, v.unwrap) :: unwrapEntries rest
termination_by structural entries => entries

/-- The fields of a record, whose values are without pointers. -/
def unwrapFields : List (Field Value) → List (Field Value)
  | [] => []
  | f :: rest => { f with value := f.value.unwrap } :: unwrapFields rest
termination_by structural fields => fields

/-- The content of a pointer without pointers. A null pointer stays. -/
def unwrapContent : Option Value → Value
  | none => .pointer none
  | some v => v.unwrap
termination_by structural content => content

end

/-- Two values are the same but for layers of pointers. -/
def Value.Alike (v w : Value) : Prop :=
  v.unwrap = w.unwrap

/-- The field with the value without pointers. -/
def Field.unwrap (f : Field Value) : Field Value :=
  { f with value := f.value.unwrap }

/-- The handle with the value without pointers. -/
def Handle.unwrap (h : Handle) : Handle :=
  { h with value? := h.value?.map Value.unwrap }

/-- Each item of a sequence is unwrapped. -/
theorem unwrapItems_eq (items : List Value) : unwrapItems items = items.map Value.unwrap := by
  induction items with
  | nil => rfl
  | cons v rest ih => rw [unwrapItems, ih, List.map_cons]

/-- Each value of a map is unwrapped. -/
theorem unwrapEntries_eq (entries : List (Value × Value)) :
    unwrapEntries entries = entries.map fun entry => (entry.1, entry.2.unwrap) := by
  induction entries with
  | nil => rfl
  | cons entry rest ih => rw [unwrapEntries, ih, List.map_cons]

/-- Each field is unwrapped. -/
theorem unwrapFields_eq (fields : List (Field Value)) :
    unwrapFields fields = fields.map Field.unwrap := by
  induction fields with
  | nil => rfl
  | cons f rest ih =>
    rw [unwrapFields, ih, List.map_cons]
    rfl

/-- To unwrap a value again changes nothing. -/
@[simp]
theorem Value.unwrap_unwrap (v : Value) : v.unwrap.unwrap = v.unwrap := by
  induction v with
  | array items ih =>
    rw [unwrap, unwrap, unwrapItems_eq, unwrapItems_eq, List.map_map]
    exact congrArg array (List.map_congr_left ih)
  | map entries ih =>
    rw [unwrap, unwrap, unwrapEntries_eq, unwrapEntries_eq, List.map_map]
    refine congrArg map (List.map_congr_left fun entry hmem => ?_)
    exact congrArg (Prod.mk entry.1) (ih entry hmem).2
  | record r ih =>
    rw [unwrap, unwrap, unwrapFields_eq, unwrapFields_eq, List.map_map]
    refine congrArg (fun fields => record ⟨r.typeName, fields⟩) (List.map_congr_left ?_)
    intro f hmem
    exact congrArg (fun v => { f with value := v }) (ih f hmem)
  | pointer v ih => exact ih
  | null | boolean | integer | float | string | nullPointer | object => rfl

namespace Handle

/-- To unwrap a handle again changes nothing. -/
@[simp]
theorem unwrap_unwrap (h : Handle) : h.unwrap.unwrap = h.unwrap := by
  rw [unwrap, unwrap, Option.map_map, show Value.unwrap ∘ Value.unwrap = Value.unwrap from
    funext Value.unwrap_unwrap]

/-- An unwrapped handle is as restricted as the handle. -/
@[simp]
theorem isRestricted_unwrap (h : Handle) : h.unwrap.isRestricted = h.isRestricted := by
  rw [isRestricted, isRestricted, isValid, isValid, unwrap, Option.isSome_map]

end Handle

/-! ## Options that do not look at values -/

/-- Two fields agree in all but their values. -/
structure Field.SameLabels (f g : Field Value) : Prop where
  /-- The declared names are the same. -/
  name : f.name = g.name
  /-- The tags are the same. -/
  tags : f.tags = g.tags
  /-- Both fields are exported, or neither is. -/
  exported : f.exported = g.exported
  /-- Both fields are embedded, or neither is. -/
  embedded : f.embedded = g.embedded

/-- An unwrapped field agrees with the field in all but the value. -/
theorem Field.sameLabels_unwrap (f : Field Value) : f.unwrap.SameLabels f :=
  ⟨rfl, rfl, rfl, rfl⟩

/-! ## Steps in unwrapped values -/

/-- Unwrapping unwraps what is found at a position, objects apart. -/
theorem Value.map_unwrap_item? (position : UInt64) (v : Value) :
    (v.unwrap.item? position).map unwrap = (v.item? position).map unwrap := by
  induction v with
  | array items ih =>
    rw [unwrap, unwrapItems_eq, item?_array_map, Option.map_map]
    exact congrArg (Option.map · _) (funext unwrap_unwrap)
  | pointer v ih => exact ih
  | null | boolean | integer | float | string | map | record | nullPointer | object => rfl

/-- The choice among unwrapped handles is the unwrapped choice. -/
theorem map_unwrap_choose (handles : List Handle) :
    (choose handles).map Handle.unwrap = choose (handles.map Handle.unwrap) := by
  have hopen : (fun h : Handle => !h.isRestricted) ∘ Handle.unwrap = (!·.isRestricted) :=
    funext fun h => congrArg _ h.isRestricted_unwrap
  rw [choose, choose, Option.map_or, List.find?_map, List.getLast?_map, hopen]

section Unwrapped

variable {o : Options} (hblind : o.Respects Field.SameLabels)
include hblind

theorem Options.Respects.isInline_unwrap (f : Field Value) : o.isInline f.unwrap = o.isInline f :=
  hblind.isInline_eq f.sameLabels_unwrap rfl rfl

theorem Options.Respects.answers_unwrap (name : String) (f : Field Value) :
    o.answers name f.unwrap = o.answers name f :=
  hblind.answers_eq f.sameLabels_unwrap rfl rfl name

/-- The direct matches of an unwrapped record are those of the record, once unwrapped. -/
theorem map_unwrap_directMatches (name : String) (restricted : Bool) (v w : Option Value)
    (r : Record Value) :
    (directMatches o name ⟨v, restricted⟩ ⟨r.typeName, unwrapFields r.fields⟩).map Handle.unwrap =
      (directMatches o name ⟨w, restricted⟩ r).map Handle.unwrap := by
  have hkept : (fun f : Field Value => !o.isInline f && o.answers name f) ∘ Field.unwrap =
      fun f => !o.isInline f && o.answers name f := by
    funext f
    rw [Function.comp_apply, hblind.isInline_unwrap, hblind.answers_unwrap]
  rw [directMatches, directMatches, unwrapFields_eq, List.filter_map, hkept, List.map_map,
    List.map_map, List.map_map]
  -- the values of the direct matches are unwrapped twice on one side
  refine List.map_congr_left fun f _ => ?_
  exact Handle.unwrap_unwrap ⟨some f.value, restricted || !f.exported⟩

/-- The inline fields of an unwrapped record are those of the record, unwrapped. -/
theorem inlineHandles_unwrapFields (restricted : Bool) (v w : Option Value) (r : Record Value) :
    inlineHandles o ⟨v, restricted⟩ ⟨r.typeName, unwrapFields r.fields⟩ =
      (inlineHandles o ⟨w, restricted⟩ r).map Handle.unwrap := by
  have hkept : o.isInline ∘ Field.unwrap = o.isInline := funext hblind.isInline_unwrap
  rw [inlineHandles, inlineHandles, unwrapFields_eq, List.filter_map, hkept, List.map_map,
    List.map_map]
  rfl

/-- Unwrapping a value unwraps the handles that answer to a name, but for their own pointers. -/
theorem Value.map_unwrap_candidateHandles (name : String) (v : Value) (restricted : Bool) :
    (Handle.candidateHandles o name ⟨some v.unwrap, restricted⟩).map Handle.unwrap =
      (Handle.candidateHandles o name ⟨some v, restricted⟩).map Handle.unwrap := by
  induction v generalizing restricted with
  | map entries ih =>
    rw [unwrap, Handle.candidateHandles, Handle.candidateHandles, Handle.candidates,
      Handle.candidates, candidatesOfContent, candidatesOfContent, candidates, candidates,
      unwrapEntries_eq, Entries.find?_map_values]
    cases Entries.find? o.matching name entries with
    | none => rfl
    | some u => exact congrArg (fun h => [h]) (Handle.unwrap_unwrap ⟨some u, restricted || false⟩)
  | record r ih =>
    rw [unwrap, candidateHandles_record, candidateHandles_record, List.map_append,
      List.map_append, List.map_flatMap, List.map_flatMap]
    -- direct matches are related by themselves, the matches in inline fields by induction
    refine congr (congrArg _ (map_unwrap_directMatches hblind name restricted _ _ r)) ?_
    rw [inlineHandles_unwrapFields hblind restricted _ (some (record r)), List.flatMap_map,
      List.flatMap_def, List.flatMap_def]
    refine congrArg _ (List.map_congr_left fun h hmem => ?_)
    obtain ⟨f, hf, rfl⟩ := List.mem_map.mp hmem
    exact ih f (List.mem_filter.mp hf).1 (restricted || (!f.exported && !f.embedded))
  | pointer v ih => exact ih restricted
  | null | boolean | integer | float | string | array | nullPointer | object => rfl

/-- Unwrapping a handle unwraps what a step finds from it, but for its own pointers. -/
theorem Step.map_unwrap_find? (step : Step) (h : Handle) :
    (step.find? o h.unwrap).map Handle.unwrap = (step.find? o h).map Handle.unwrap := by
  obtain ⟨_ | v, restricted⟩ := h
  · rfl
  cases step with
  | key name =>
    rw [find?, find?, map_unwrap_choose, map_unwrap_choose]
    exact congrArg choose (v.map_unwrap_candidateHandles hblind name restricted)
  | index position =>
    have hitem (u : Value) : (extractIndex position ⟨some u, restricted⟩).map Handle.unwrap =
        ((u.item? position).map Value.unwrap).map fun u => ⟨some u, restricted⟩ := by
      rw [extractIndex_eq, Option.map_map, Option.map_map]
      rfl
    show (extractIndex position ⟨some v.unwrap, restricted⟩).map Handle.unwrap =
      (extractIndex position ⟨some v, restricted⟩).map Handle.unwrap
    rw [hitem, hitem, v.map_unwrap_item?]

/-- From handles that are the same once unwrapped, several steps fail in the same way, or find
handles that are the same once unwrapped. -/
theorem Step.map_unwrap_findAll (steps : List Step) (h g : Handle) (hsame : h.unwrap = g.unwrap) :
    (findAll o steps h).map Handle.unwrap = (findAll o steps g).map Handle.unwrap := by
  induction steps generalizing h g with
  | nil => exact congrArg Except.ok hsame
  | cons step rest ih =>
    -- the answers of objects stay as they are, so that the two steps agree only once unwrapped
    have hstep : (step.find? o h).map Handle.unwrap = (step.find? o g).map Handle.unwrap := by
      rw [← step.map_unwrap_find? hblind h, hsame, step.map_unwrap_find? hblind g]
    rw [findAll, findAll]
    rcases found_eq_of_map_eq hstep with ⟨hh, hg⟩ | ⟨x, y, hh, hg, hsame'⟩
    · rw [hh, hg]
    · -- both handles found may be handed out, or neither
      have hrestricted : y.isRestricted = x.isRestricted := by
        rw [← y.isRestricted_unwrap, ← hsame', x.isRestricted_unwrap]
      rw [hh, hg]
      dsimp only
      rw [hrestricted]
      cases x.isRestricted with
      | true => rfl
      | false => exact ih x y hsame'

end Unwrapped

/-! ## Queries in values that are alike -/

/-- A handle without a value stands for null, which is unwrapped as it is. -/
theorem unwrap_getD (v? : Option Value) :
    (v?.getD .null).unwrap = (v?.map Value.unwrap).getD .null := by
  cases v? <;> rfl

/-- Without hooks, and with options that do not look at the values of fields, a query fails in the
same way in values that are alike, or finds values that are alike. -/
theorem Query.extract_alike (q : Query) (hplain : q.options.hooks = [])
    (hblind : q.options.Respects Field.SameLabels) (v w : Value) (halike : v.Alike w) :
    (∃ failure, q.extract v = pure (.error (.failed failure q.text)) ∧
      q.extract w = pure (.error (.failed failure q.text))) ∨
    ∃ x y, q.extract v = pure (.ok x) ∧ q.extract w = pure (.ok y) ∧ x.Alike y := by
  have hsame : (Handle.ofValue v).unwrap = (Handle.ofValue w).unwrap :=
    congrArg Handle.ofValue halike
  have hfound := Step.map_unwrap_findAll hblind q.steps _ _ hsame
  rw [q.extract_eq_findAll hplain, q.extract_eq_findAll hplain]
  rcases outcome_eq_of_map_eq hfound with ⟨failure, hv, hw⟩ | ⟨h, g, hv, hw, hhandle⟩
  · rw [hv, hw]
    exact .inl ⟨failure, rfl, rfl⟩
  · rw [hv, hw]
    refine .inr ⟨_, _, rfl, rfl, ?_⟩
    have hvalue : h.value?.map Value.unwrap = g.value?.map Value.unwrap :=
      congrArg Handle.value? hhandle
    rw [Value.Alike, unwrap_getD, unwrap_getD, hvalue]

/-- Pointers around a record, around an inline map, around what is found and inside of it. -/
theorem Query.extract_alike_of_nested_pointers :
    let pointer (v : Value) : Value := .pointer (some v)
    let outer (part : Value) : Value := .record ⟨"Outer", [⟨"part", [], true, false, part⟩]⟩
    let items : Value := .array [.pointer none, .boolean true]
    let items' : Value := .array [pointer (pointer (.pointer none)), pointer (.boolean true)]
    let v : Value := outer (pointer (pointer (.map [(.string "x", items)])))
    let w : Value := pointer (outer (.map [(.string "x", pointer items')]))
    let q : Query := ⟨[.key "x"], true, { inlinePredicates := [fun f => f.name = "part"] }⟩
    q.options.hooks = [] ∧ q.options.Respects Field.SameLabels ∧ v.Alike w ∧
      q.extract v = pure (.ok items) ∧ q.extract w = pure (.ok (pointer items')) ∧
      ((∃ failure, q.extract v = pure (.error (.failed failure q.text)) ∧
        q.extract w = pure (.error (.failed failure q.text))) ∨
      ∃ x y, q.extract v = pure (.ok x) ∧ q.extract w = pure (.ok y) ∧ x.Alike y) := by
  intro pointer outer items items' v w q
  have hblind : q.options.Respects Field.SameLabels := by
    refine ⟨fun holds hmem f g hsame => ?_, fun name hmem => nomatch hmem⟩
    obtain rfl := List.mem_singleton.mp hmem
    exact congrArg (fun name => decide (name = "part")) hsame.name
  exact ⟨rfl, hblind, rfl, rfl, rfl, q.extract_alike rfl hblind v w rfl⟩

end ValuePath
