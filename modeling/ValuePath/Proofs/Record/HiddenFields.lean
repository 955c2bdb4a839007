import ValuePath.Proofs.Extraction.Plain
import ValuePath.Proofs.Value.Induction

/-!
# Hidden fields

Hidden fields never have a part in a successful extraction. A value is pruned by taking away,
at every depth, the fields that are neither exported nor embedded. Without hooks, a path leads to
an open value in the pruned value exactly where it does in the value itself, and to the same one
but for its own hidden fields. The options must not look into the values of fields.

* `Value.prune` takes the hidden fields away.
* `Options.Respects` says that options do not tell related fields apart.
* `Value.map_prune_openValues` is what pruning leaves as it is, for one step by name, and
  `Value.map_prune_follow` for several steps.
* `Query.extract_prune` is the same for queries.
-/

namespace ValuePath

/-! ## Options that do not look at values -/

/-- Two fields agree in all but their values, and these have types of the same name. -/
structure Field.SameOutline (f g : Field Value) : Prop where
  /-- The declared names are the same. -/
  name : f.name = g.name
  /-- The tags are the same. -/
  tags : f.tags = g.tags
  /-- Both fields are exported, or neither is. -/
  exported : f.exported = g.exported
  /-- Both fields are embedded, or neither is. -/
  embedded : f.embedded = g.embedded
  /-- The types of the values have the same name. -/
  typeName : f.value.typeName = g.value.typeName

/-- The inline predicates and the own names of fields are the same for related fields. -/
structure Options.Respects (o : Options) (related : Field Value → Field Value → Prop) : Prop where
  /-- Each inline predicate holds for both fields, or for neither. -/
  inlinePredicates : ∀ holds ∈ o.inlinePredicates, ∀ f g, related f g → holds f = holds g
  /-- The own names are the same, where they are not the declared ones. -/
  ownName : ∀ name ∈ o.ownName?, ∀ f g, related f g → name f = name g

section Respects

variable {o : Options} {related : Field Value → Field Value → Prop} {f g : Field Value}

/-- Related fields with the same tags are both inline, or neither is. -/
theorem Options.Respects.isInline_eq (ho : o.Respects related) (hfg : related f g)
    (htags : f.tags = g.tags) (hembedded : f.embedded = g.embedded) :
    o.isInline f = o.isInline g := by
  have hpredicates : o.inlinePredicates.any (fun holds => holds f) =
      o.inlinePredicates.any (fun holds => holds g) := by
    rw [Bool.eq_iff_iff, List.any_eq_true, List.any_eq_true]
    refine exists_congr fun holds => and_congr_right fun hmem => ?_
    rw [ho.inlinePredicates holds hmem f g hfg]
  rw [isInline, isInline, hpredicates, hembedded]
  simp only [Field.tagValue?, htags]

/-- Related fields with the same declared name and the same tags answer to the same names. -/
theorem Options.Respects.answers_eq (ho : o.Respects related) (hfg : related f g)
    (hname : f.name = g.name) (htags : f.tags = g.tags) (name : String) :
    o.answers name f = o.answers name g := by
  have hown : o.ownName f = o.ownName g := by
    rw [Options.ownName, Options.ownName]
    cases hgetter : o.ownName? with
    | none => exact hname
    | some getter => exact ho.ownName getter hgetter f g hfg
  rw [answers, answers, fieldNames, fieldNames, hown]
  simp only [Field.tagValue?, htags]

end Respects

/-! ## Pruning -/

mutual

/-- The value without hidden fields. Keys of maps and objects stay as they are. -/
def Value.prune : Value → Value
  | .array items => .array (pruneItems items)
  | .map entries => .map (pruneEntries entries)
  | .record r => .record ⟨r.typeName, pruneFields r.fields⟩
  | .pointer content => .pointer (pruneContent content)
  | v => v
termination_by structural v => v

/-- The items of a sequence without hidden fields. -/
def pruneItems : List Value → List Value
  | [] => []
  | v :: rest => v.prune :: pruneItems rest
termination_by structural items => items

/-- The entries of a map, whose values are without hidden fields. -/
def pruneEntries : List (Value × Value) → List (Value × Value)
  | [] => []
  | (key, v) :: rest => (key, v.prune) :: pruneEntries rest
termination_by structural entries => entries

/-- The fields that are not hidden, whose values are without hidden fields. -/
def pruneFields : List (Field Value) → List (Field Value)
  | [] => []
  | f :: rest =>
    if f.isHidden then pruneFields rest
    else { f with value := f.value.prune } :: pruneFields rest
termination_by structural fields => fields

/-- The content of a pointer without hidden fields. -/
def pruneContent : Option Value → Option Value
  | none => none
  | some v => some v.prune
termination_by structural content => content

end

/-- The field with the value without hidden fields. -/
def Field.prune (f : Field Value) : Field Value :=
  { f with value := f.value.prune }

/-- Each item of a sequence is pruned. -/
theorem pruneItems_eq (items : List Value) : pruneItems items = items.map Value.prune := by
  induction items with
  | nil => rfl
  | cons v rest ih => rw [pruneItems, ih, List.map_cons]

/-- Each value of a map is pruned. -/
theorem pruneEntries_eq (entries : List (Value × Value)) :
    pruneEntries entries = entries.map fun entry => (entry.1, entry.2.prune) := by
  induction entries with
  | nil => rfl
  | cons entry rest ih => rw [pruneEntries, ih, List.map_cons]

/-- Hidden fields are left out, and each other field is pruned. -/
theorem pruneFields_eq (fields : List (Field Value)) :
    pruneFields fields = (fields.filter (!·.isHidden)).map Field.prune := by
  induction fields with
  | nil => rfl
  | cons f rest ih =>
    rw [pruneFields, ih, List.filter_cons]
    cases f.isHidden <;> rfl

namespace Value

/-- A pruned value is of the same type. -/
theorem typeName_prune (v : Value) : v.prune.typeName = v.typeName := by
  cases v <;> rfl

/-- To prune a value again changes nothing. -/
@[simp]
theorem prune_prune (v : Value) : v.prune.prune = v.prune := by
  induction v with
  | array items ih =>
    rw [prune, prune, pruneItems_eq, pruneItems_eq, List.map_map]
    exact congrArg array (List.map_congr_left ih)
  | map entries ih =>
    rw [prune, prune, pruneEntries_eq, pruneEntries_eq, List.map_map]
    refine congrArg map (List.map_congr_left fun entry hmem => ?_)
    exact congrArg (Prod.mk entry.1) (ih entry hmem).2
  | record r ih =>
    rw [prune, prune, pruneFields_eq, pruneFields_eq, List.filter_map, List.map_map,
      List.filter_filter]
    have hkept : (fun f : Field Value => ((!·.isHidden) ∘ Field.prune) f && !f.isHidden) =
        (!·.isHidden) := funext fun f => Bool.and_self _
    rw [hkept]
    refine congrArg (fun fields => record ⟨r.typeName, fields⟩) (List.map_congr_left ?_)
    intro f hmem
    exact congrArg (fun v => { f with value := v }) (ih f (List.mem_filter.mp hmem).1)
  | pointer v ih => exact congrArg (pointer ∘ some) ih
  | null | boolean | integer | float | string | nullPointer | object => rfl

end Value

/-- A pruned field has the outline of the field. -/
theorem Field.sameOutline_prune (f : Field Value) : f.prune.SameOutline f :=
  ⟨rfl, rfl, rfl, rfl, f.value.typeName_prune⟩

/-! ## Steps in pruned values -/

section Pruned

variable {o : Options} (hblind : o.Respects Field.SameOutline)

/-- Pruning prunes what is found at a position, objects apart. -/
theorem Value.map_prune_item? (position : UInt64) (v : Value) :
    (v.prune.item? position).map prune = (v.item? position).map prune := by
  induction v with
  | array items ih =>
    rw [prune, pruneItems_eq, item?_array_map, Option.map_map]
    exact congrArg (Option.map · _) (funext prune_prune)
  | pointer v ih => exact ih
  | null | boolean | integer | float | string | map | record | nullPointer | object => rfl

include hblind

theorem Options.Respects.isInline_prune (f : Field Value) : o.isInline f.prune = o.isInline f :=
  hblind.isInline_eq f.sameOutline_prune rfl rfl

theorem Options.Respects.answers_prune (name : String) (f : Field Value) :
    o.answers name f.prune = o.answers name f :=
  hblind.answers_eq f.sameOutline_prune rfl rfl name

/-- Pruning changes no open value that a name leads to, but for its own hidden fields. -/
theorem Value.map_prune_openValues (name : String) (v : Value) :
    (v.prune.openValues o name).map prune = (v.openValues o name).map prune := by
  induction v with
  | map entries ih =>
    rw [prune, openValues_map, openValues_map, pruneEntries_eq, Entries.find?_map_values]
    cases Entries.find? o.matching name entries with
    | none => rfl
    | some u => exact congrArg (fun v => [v]) u.prune_prune
  | record r ih =>
    -- what is left out of the fields of the record has no part in its open values
    have hdirect (f : Field Value) :
        ((f.exported && (!o.isInline f.prune && o.answers name f.prune)) && !f.isHidden) =
          (f.exported && (!o.isInline f && o.answers name f)) := by
      rw [hblind.isInline_prune, hblind.answers_prune, Field.isHidden]
      cases f.exported
      · rfl
      · exact Bool.and_true _
    have hinline (f : Field Value) :
        ((o.isInline f.prune && !f.isHidden) && !f.isHidden) = (o.isInline f && !f.isHidden) := by
      rw [hblind.isInline_prune, Bool.and_assoc, Bool.and_self]
    rw [prune, openValues_record, openValues_record, pruneFields_eq, List.filter_map,
      List.filter_map, List.filter_filter, List.filter_filter, List.flatMap_map, List.map_append,
      List.map_append, List.map_map, List.map_map, List.map_map, List.map_flatMap, List.map_flatMap]
    refine congr (congrArg _ ?_) ?_
    · -- the values of the direct matches are pruned twice on one side
      refine (congrArg _ (List.filter_congr fun f _ => hdirect f)).trans ?_
      exact List.map_congr_left fun f _ => f.value.prune_prune
    · refine (congrArg _ (List.filter_congr fun f _ => hinline f)).trans ?_
      rw [List.flatMap_def, List.flatMap_def]
      refine congrArg _ (List.map_congr_left fun f hmem => ?_)
      exact ih f (List.mem_filter.mp hmem).1
  | pointer v ih => exact ih
  | null | boolean | integer | float | string | array | nullPointer | object => rfl

/-- Pruning changes no open value that a step leads to, but for its own hidden fields. -/
theorem Step.map_prune_openValue? (step : Step) (v : Value) :
    (step.openValue? o v.prune).map Value.prune = (step.openValue? o v).map Value.prune := by
  cases step with
  | key name =>
    rw [openValue?, openValue?, ← List.head?_map, ← List.head?_map,
      Value.map_prune_openValues hblind]
  | index position => exact v.map_prune_item? position

/-- From values that are the same once pruned, steps lead to values that are the same once
pruned. -/
theorem Value.map_prune_follow (steps : List Step) (v w : Value) (hsame : v.prune = w.prune) :
    (v.follow o steps).map prune = (w.follow o steps).map prune := by
  induction steps generalizing v w with
  | nil => exact congrArg some hsame
  | cons step rest ih =>
    -- the answers of objects are not pruned, so that the two steps agree only once pruned
    have hstep : (step.openValue? o v).map prune = (step.openValue? o w).map prune := by
      rw [← step.map_prune_openValue? hblind v, hsame, step.map_prune_openValue? hblind w]
    rw [follow, follow]
    rcases found_eq_of_map_eq hstep with ⟨hv, hw⟩ | ⟨u, x, hv, hw, hsame'⟩
    · rw [hv, hw]
    · rw [hv, hw, Option.bind_some, Option.bind_some]
      exact ih u x hsame'

end Pruned

/-! ## Queries in pruned values -/

/-- Without hooks, and with options that do not look into the values of fields, a query succeeds in
a value exactly where it succeeds in the pruned value, and the results are the same once
pruned. -/
theorem Query.extract_prune (q : Query) (hplain : q.options.hooks = [])
    (hblind : q.options.Respects Field.SameOutline) (target : Value) :
    ∃ result pruned, q.extract target = pure result ∧ q.extract target.prune = pure pruned ∧
      result.toOption.map Value.prune = pruned.toOption.map Value.prune := by
  obtain ⟨result, hextract, hfollow⟩ := q.exists_extract_eq hplain target
  obtain ⟨pruned, hextract', hfollow'⟩ := q.exists_extract_eq hplain target.prune
  refine ⟨result, pruned, hextract, hextract', ?_⟩
  rw [hfollow, hfollow']
  exact Value.map_prune_follow hblind q.steps target target.prune target.prune_prune.symm

/-- A hidden field is passed over for one in an inline record. -/
theorem Query.extract_prune_of_hidden_before_inline :
    let inner : Record Value :=
      ⟨"Inner", [⟨"y", [], true, false, .boolean true⟩, ⟨"z", [], false, false, .null⟩]⟩
    let part : Record Value := ⟨"Part", [⟨"x", [], true, false, .record inner⟩]⟩
    let outer : Record Value := ⟨"Outer",
      [⟨"x", [], false, false, .boolean false⟩, ⟨"part", [], true, false, .record part⟩]⟩
    let q : Query := ⟨[.key "x"], false, { inlinePredicates := [fun f => f.name = "part"] }⟩
    q.options.hooks = [] ∧ q.options.Respects Field.SameOutline ∧
      q.extract (.record outer) = pure (.ok (.record inner)) ∧
      ∃ result pruned, q.extract (.record outer) = pure result ∧
        q.extract (Value.record outer).prune = pure pruned ∧
        result.toOption.map Value.prune = pruned.toOption.map Value.prune := by
  intro inner part outer q
  have hblind : q.options.Respects Field.SameOutline := by
    refine ⟨fun holds hmem f g hsame => ?_, fun name hmem => nomatch hmem⟩
    obtain rfl := List.mem_singleton.mp hmem
    exact congrArg (fun name => decide (name = "part")) hsame.name
  exact ⟨rfl, hblind, rfl, q.extract_prune rfl hblind (.record outer)⟩

end ValuePath
