import ValuePath.Proofs.Record.Candidates
import ValuePath.Query

/-!
# Extraction without hooks

Without hooks an extraction writes no log and always comes to an end, so that it is a function
from handles to what is found. A path is followed successfully exactly where each step finds an
open value, and then only these values matter.

* `Step.find?` is one step, and `Step.findAll` several of them, as plain functions.
* `Value.openValues` are the values that callers may have of all that answer to a name.
* `Value.follow` takes steps from open value to open value.
* `Query.extract_eq_findAll` and `Query.exists_extract_eq` bring a query back to them.
-/

namespace ValuePath

/-! ## Outcomes of two runs -/

section Outcomes

variable {α β ε : Type} {f : α → β}

/-- What is found in two runs and is the same once mapped is found in both, or in neither. -/
theorem found_eq_of_map_eq {found found' : Option α} (hsame : found.map f = found'.map f) :
    (found = none ∧ found' = none) ∨ ∃ a b, found = some a ∧ found' = some b ∧ f a = f b := by
  cases found with
  | none => exact .inl ⟨rfl, Option.map_eq_none_iff.mp hsame.symm⟩
  | some a =>
    obtain ⟨b, hb, hab⟩ := Option.map_eq_some_iff.mp hsame.symm
    exact .inr ⟨a, b, rfl, hb, hab.symm⟩

/-- Two outcomes that are the same once mapped are the same failure, or both succeed. -/
theorem outcome_eq_of_map_eq {outcome outcome' : Except ε α}
    (hsame : outcome.map f = outcome'.map f) :
    (∃ failure, outcome = .error failure ∧ outcome' = .error failure) ∨
      ∃ a b, outcome = .ok a ∧ outcome' = .ok b ∧ f a = f b := by
  cases outcome with
  | error failure =>
    cases outcome' with
    | error failure' => exact .inl ⟨failure, rfl, congrArg _ (Except.error.inj hsame).symm⟩
    | ok b => cases hsame
  | ok a =>
    cases outcome' with
    | error failure' => cases hsame
    | ok b => exact .inr ⟨a, b, rfl, rfl, Except.ok.inj hsame⟩

end Outcomes

/-! ## Steps as functions -/

/-- The value at a position of a sequence, or what an object answers to the position, behind all
pointers. -/
def Value.item? (position : UInt64) (v : Value) : Option Value :=
  match v.pointee? with
  | some (.object o) => o.lookupIndex? position
  | some (.array items) => items[position.toNat]?
  | _ => none

/-- With other items, a sequence has the other item at a position. -/
theorem Value.item?_array_map (position : UInt64) (f : Value → Value) (items : List Value) :
    (array (items.map f)).item? position = ((array items).item? position).map f :=
  List.getElem?_map

/-- A step by position finds the value at the position, with the restriction of its handle. -/
theorem extractIndex_eq (position : UInt64) (v : Value) (restricted : Bool) :
    extractIndex position ⟨some v, restricted⟩ =
      (v.item? position).map fun u => ⟨some u, restricted⟩ := by
  rw [extractIndex, Value.item?]
  simp only [Handle.followPointers, Handle.child, Option.bind_some, Bool.or_false]
  cases v.pointee? with
  | none => rfl
  | some u => cases u <;> rfl

namespace Step

/-- What a step finds where there are no hooks. -/
def find? (o : Options) : Step → Handle → Option Handle
  | key name, h => choose (h.candidateHandles o name)
  | index position, h => extractIndex position h

/-- Takes steps one after another, where there are no hooks. -/
def findAll (o : Options) : List Step → Handle → Except Failure Handle
  | [], h => .ok h
  | step :: rest, h =>
    match step.find? o h with
    | none => .error .notFound
    | some found => if found.isRestricted then .error .accessDenied else findAll o rest found

variable {o : Options} (hplain : o.hooks = [])
include hplain

/-- Without hooks a step is a function, also in the inline fields of a record. -/
theorem extract_eq_find? (step : Step) (h : Handle) :
    step.extract o h = pure (step.find? o h) := by
  cases step with
  | key name =>
    refine extractKey_eq_choose o name hplain _ h ?_
    exact Nat.lt_add_right searchReserve (Nat.lt_succ_self h.nesting)
  | index position => rfl

/-- Without hooks around it a step is the same function. -/
theorem extractHooked_eq_find? (step : Step) (h : Handle) :
    step.extractHooked o h = pure (step.find? o h) := by
  rw [extractHooked, extractHookedWithin, hplain, Hook.wrap, List.foldr_nil]
  exact extract_eq_find? hplain step h

/-- Without hooks several steps are a function. -/
theorem extractAll_eq_findAll (steps : List Step) (h : Handle) :
    extractAll (·.extractHooked o) steps h = pure (findAll o steps h) := by
  induction steps generalizing h with
  | nil => rfl
  | cons step rest ih =>
    rw [extractAll, extractHooked_eq_find? hplain, pure_bind, findAll]
    cases step.find? o h with
    | none => rfl
    | some found =>
      dsimp only
      rw [ih found]
      split <;> rfl

end Step

/-- Without hooks a query is a function. -/
theorem Query.extract_eq_findAll (q : Query) (hplain : q.options.hooks = []) (target : Value) :
    q.extract target =
      pure (match Step.findAll q.options q.steps (Handle.ofValue target) with
        | .ok h => .ok (h.value?.getD .null)
        | .error failure => .error (.failed failure q.text)) := by
  rw [extract, extractBy, Step.extractAll_eq_findAll hplain, pure_bind]
  cases Step.findAll q.options q.steps (Handle.ofValue target) <;> rfl

/-! ## Open values -/

/-- The values in a value that answer to a name and are not hidden from callers. -/
def Value.openValues (o : Options) (name : String) (v : Value) : List Value :=
  ((v.candidates o name).filter (!·.hidden)).map (·.value)

section OpenValues

variable (o : Options) (name : String)

/-- Behind an inline field the open values are those of its value, unless the field is hidden. -/
theorem openValues_through (f : Field Value) (candidates : List Candidate) :
    ((candidates.map (Candidate.through f)).filter (!·.hidden)).map (·.value) =
      if f.isHidden then [] else (candidates.filter (!·.hidden)).map (·.value) := by
  have hopen : (fun c : Candidate => !c.hidden) ∘ Candidate.through f =
      fun c => !(f.isHidden || c.hidden) := funext fun c => congrArg _ (c.hidden_through f)
  rw [List.filter_map, List.map_map, hopen]
  cases f.isHidden with
  | true =>
    rw [if_pos rfl, List.map_eq_nil_iff, List.filter_eq_nil_iff]
    exact fun c _ => Bool.false_ne_true
  | false =>
    rw [if_neg Bool.false_ne_true]
    rfl

/-- The open values of the inline fields are those of the inline fields that are not hidden. -/
theorem openValues_inlineCandidates (fields : List (Field Value)) :
    ((inlineCandidates o name fields).filter (!·.hidden)).map (·.value) =
      (fields.filter fun f => o.isInline f && !f.isHidden).flatMap fun f =>
        f.value.openValues o name := by
  induction fields with
  | nil => rfl
  | cons f rest ih =>
    rw [inlineCandidates, List.filter_cons]
    cases o.isInline f with
    | false =>
      rw [if_neg Bool.false_ne_true, ih]
      rfl
    | true =>
      rw [if_pos rfl, List.filter_append, List.map_append, ih, openValues_through]
      cases f.isHidden <;> rfl

/-- The open values of a record are those of the exported fields that answer to the name, and then
those of the inline fields that are not hidden. -/
theorem Value.openValues_record (r : Record Value) :
    (record r).openValues o name =
      (r.fields.filter fun f => f.exported && (!o.isInline f && o.answers name f)).map (·.value) ++
        (r.fields.filter fun f => o.isInline f && !f.isHidden).flatMap fun f =>
          f.value.openValues o name := by
  have hopen : (fun c : Candidate => !c.hidden) ∘ Candidate.direct = (·.exported) :=
    funext fun f => Bool.not_not f.exported
  rw [openValues, candidates, List.filter_append, List.map_append, openValues_inlineCandidates,
    List.filter_map, List.map_map, hopen, List.filter_filter]
  rfl

/-- The open values of a map are what the map answers. -/
theorem Value.openValues_map (entries : Entries) :
    (map entries).openValues o name = (Entries.find? o.matching name entries).toList := by
  rw [openValues, candidates]
  cases Entries.find? o.matching name entries <;> rfl

end OpenValues

/-! ## Following open values -/

/-- The open value that a step leads to. -/
def Step.openValue? (o : Options) : Step → Value → Option Value
  | key name, v => (v.openValues o name).head?
  | index position, v => v.item? position

/-- The open value that several steps lead to. -/
def Value.follow (o : Options) : List Step → Value → Option Value
  | [], v => some v
  | step :: rest, v => (step.openValue? o v).bind (follow o rest)

/-- From an open value a step finds an open handle exactly where it leads to an open value. -/
theorem Step.filter_find? (o : Options) (step : Step) (v : Value) :
    (step.find? o (Handle.ofValue v)).filter (!·.isRestricted) =
      (step.openValue? o v).map Handle.ofValue := by
  cases step with
  | index position =>
    rw [find?, Handle.ofValue, extractIndex_eq, openValue?]
    cases v.item? position <;> rfl
  | key name =>
    rw [find?, filter_choose, openValue?, Value.openValues, Handle.candidateHandles,
      Handle.candidates, Handle.ofValue, candidatesOfContent, List.find?_map, List.head?_map,
      List.head?_filter, Option.map_map]
    have hsame : (fun h : Handle => !h.isRestricted) ∘ Candidate.handle false = (!·.hidden) := by
      funext c
      exact congrArg _ (c.isRestricted_handle false)
    rw [hsame]
    cases hfound : (v.candidates o name).find? (!·.hidden) with
    | none => rfl
    | some c =>
      have hopen : c.hidden = false := by simpa using List.find?_some hfound
      simp only [Option.map_some, Function.comp_apply, Candidate.handle, hopen, Bool.or_false]
      rfl

/-- Steps from an open value succeed exactly where they lead to an open value. -/
theorem Step.toOption_findAll (o : Options) (steps : List Step) (v : Value) :
    (findAll o steps (Handle.ofValue v)).toOption = (v.follow o steps).map Handle.ofValue := by
  induction steps generalizing v with
  | nil => rfl
  | cons step rest ih =>
    have hopen := step.filter_find? o v
    rw [findAll, Value.follow]
    cases hfound : step.find? o (Handle.ofValue v) with
    | none =>
      rw [hfound, Option.filter_none, eq_comm, Option.map_eq_none_iff] at hopen
      rw [hopen]
      rfl
    | some g =>
      rw [hfound, Option.filter_some] at hopen
      dsimp only
      cases hrestricted : g.isRestricted with
      | true =>
        rw [hrestricted, Bool.not_true, if_neg Bool.false_ne_true, eq_comm,
          Option.map_eq_none_iff] at hopen
        rw [hopen]
        rfl
      | false =>
        rw [hrestricted, Bool.not_false, if_pos rfl, eq_comm, Option.map_eq_some_iff] at hopen
        -- only an open handle is gone on from, and it is that of an open value again
        obtain ⟨u, hleads, rfl⟩ := hopen
        rw [hleads, if_neg Bool.false_ne_true, Option.bind_some]
        exact ih u

/-- Without hooks a query succeeds exactly where its steps lead to an open value, and with that
value. -/
theorem Query.exists_extract_eq (q : Query) (hplain : q.options.hooks = []) (target : Value) :
    ∃ result, q.extract target = pure result ∧
      result.toOption = target.follow q.options q.steps := by
  refine ⟨_, q.extract_eq_findAll hplain target, ?_⟩
  have hfollow := Step.toOption_findAll q.options q.steps target
  cases hfound : Step.findAll q.options q.steps (Handle.ofValue target) with
  | error failure =>
    rw [hfound, Except.toOption, eq_comm, Option.map_eq_none_iff] at hfollow
    rw [hfollow]
    rfl
  | ok g =>
    rw [hfound, Except.toOption, eq_comm, Option.map_eq_some_iff] at hfollow
    obtain ⟨u, hfollow, rfl⟩ := hfollow
    rw [hfollow]
    rfl

end ValuePath
