import ValuePath.Proofs.Extraction.Plain

/-!
# Restriction along a walk

A walk goes from handle to handle, by steps and by following pointers. Unlike a query it goes on
behind a restricted handle. Without hooks the restriction that a walk begins with is never lost,
neither in a map or an object nor in an embedded field, whose own visibility does not matter. And it
only hides: a step from a restricted handle finds something exactly where the same step from an open
handle does, though perhaps another value.

* `trail` lists the handles that a walk finds.
* `Step.restricted_of_find?` is what one step preserves, and `exists_trail_eq` what a walk does.
* `Step.isSome_find?_eq`: the restriction of a handle has no part in whether a step finds something.
-/

namespace ValuePath

/-! ## Walks -/

/-- What a walk can do next. -/
inductive Move where
  /-- Takes a step. -/
  | step (step : Step)
  /-- Looks through all layers of pointers. -/
  | followPointers

/-- Makes a move, where each step is taken by `take`. -/
def Move.make (take : Step → Extraction) : Move → Extraction
  | .step s, h => take s h
  | .followPointers, h => pure (some h.followPointers)

/-- The handles found by moves made one after another, up to the first move that finds nothing. -/
def trail (take : Step → Extraction) : List Move → Handle → Search (List Handle)
  | [], _ => pure []
  | move :: rest, h => do
    match ← move.make take h with
    | none => pure []
    | some found => return found :: (← trail take rest found)

/-! ## Steps without hooks -/

namespace Step

variable (o : Options)

/-- What a step finds from a restricted handle is restricted. -/
theorem restricted_of_find? {step : Step} {h found : Handle} (hrestricted : h.restricted = true)
    (hfound : step.find? o h = some found) : found.restricted = true := by
  cases step with
  | key name =>
    -- only a hidden candidate adds a restriction, and no candidate takes one away
    obtain ⟨c, -, rfl⟩ := List.mem_map.mp (mem_of_choose hfound)
    rw [Candidate.handle, hrestricted, Bool.true_or]
  | index position =>
    obtain ⟨_ | v, restricted⟩ := h
    · cases hfound
    · rw [find?, extractIndex_eq, Option.map_eq_some_iff] at hfound
      obtain ⟨u, -, rfl⟩ := hfound
      exact hrestricted

/-- The restriction of a handle has no part in whether a step finds something. -/
theorem isSome_find?_eq (step : Step) (v? : Option Value) (restricted restricted' : Bool) :
    (step.find? o ⟨v?, restricted⟩).isSome = (step.find? o ⟨v?, restricted'⟩).isSome := by
  cases step with
  | key name =>
    -- there are as many handles to choose from, whatever their restriction
    have hnone (b : Bool) : choose (Handle.candidateHandles o name ⟨v?, b⟩) = none ↔
        candidatesOfContent o name v? = [] := by
      rw [choose_eq_none_iff, Handle.candidateHandles, List.map_eq_nil_iff, Handle.candidates]
    rw [Bool.eq_iff_iff, Option.isSome_iff_ne_none, Option.isSome_iff_ne_none]
    exact not_congr ((hnone restricted).trans (hnone restricted').symm)
  | index position =>
    cases v? with
    | none => rfl
    | some v => rw [find?, find?, extractIndex_eq, extractIndex_eq, Option.isSome_map,
        Option.isSome_map]

end Step

/-! ## Walks without hooks -/

section Plain

variable {o : Options} {take : Step → Extraction}
  (htake : ∀ step h, take step h = pure (step.find? o h))
include htake

/-- A move from a restricted handle comes to an end, and what it finds is restricted. -/
theorem Move.exists_make_eq (move : Move) {h : Handle} (hrestricted : h.restricted = true) :
    ∃ found?, move.make take h = pure found? ∧ ∀ found ∈ found?, found.restricted = true := by
  cases move with
  | step step =>
    refine ⟨step.find? o h, htake step h, fun found hfound => ?_⟩
    exact Step.restricted_of_find? o hrestricted hfound
  | followPointers =>
    refine ⟨some h.followPointers, rfl, fun found hfound => ?_⟩
    obtain rfl := Option.some.inj hfound
    exact hrestricted

/-- A walk from a restricted handle comes to an end, and finds restricted handles only. -/
theorem exists_trail_eq (moves : List Move) {h : Handle} (hrestricted : h.restricted = true) :
    ∃ found, trail take moves h = pure found ∧ ∀ g ∈ found, g.restricted = true := by
  induction moves generalizing h with
  | nil => exact ⟨[], rfl, fun g hmem => absurd hmem List.not_mem_nil⟩
  | cons move rest ih =>
    obtain ⟨found?, hmake, hkept⟩ := move.exists_make_eq htake hrestricted
    rw [trail, hmake, pure_bind]
    cases found? with
    | none => exact ⟨[], rfl, fun g hmem => absurd hmem List.not_mem_nil⟩
    | some first =>
      obtain ⟨found, htrail, hfound⟩ := ih (hkept first rfl)
      refine ⟨first :: found, by dsimp only; rw [htrail, pure_bind], fun g hmem => ?_⟩
      rcases List.mem_cons.mp hmem with rfl | hmem
      · exact hkept g rfl
      · exact hfound g hmem

end Plain

/-- Without hooks, every handle on a walk from a restricted one is restricted, whether the steps are
taken alone or as in a query. And whether a single step finds something does not depend on the
restriction. -/
theorem Handle.restricted_along_trail (o : Options) (hplain : o.hooks = [])
    (take : Step → Extraction) (htake : take = (·.extract o) ∨ take = (·.extractHooked o))
    (v : Value) :
    (∀ moves, ∃ found, trail take moves (hidden v) = pure found ∧
      ∀ h ∈ found, h.restricted = true ∧ (h.isValid = true → h.isRestricted = true)) ∧
    ∀ step, ∃ fromHidden fromOpen, take step (hidden v) = pure fromHidden ∧
      take step (ofValue v) = pure fromOpen ∧ fromHidden.isSome = fromOpen.isSome := by
  have hfind (step : Step) (h : Handle) : take step h = pure (step.find? o h) := by
    rcases htake with rfl | rfl
    · exact Step.extract_eq_find? hplain step h
    · exact Step.extractHooked_eq_find? hplain step h
  constructor
  · intro moves
    obtain ⟨found, htrail, hkept⟩ := exists_trail_eq hfind moves (h := hidden v) rfl
    refine ⟨found, htrail, fun h hmem => ⟨hkept h hmem, fun hvalid => ?_⟩⟩
    rw [isRestricted, hkept h hmem, hvalid, Bool.and_self]
  · intro step
    exact ⟨_, _, hfind step _, hfind step _, step.isSome_find?_eq o (some v) true false⟩

/-- A walk into an embedded field that is hidden itself, and through a null pointer: what it finds
is as restricted as the handle that it begins with. -/
theorem Handle.restricted_along_trail_of_embedded :
    let inner : Record Value := ⟨"Inner", [⟨"x", [], true, false, .pointer none⟩]⟩
    let outer : Record Value := ⟨"Outer", [⟨"inner", [], false, true, .record inner⟩]⟩
    let v : Value := .pointer (some (.record outer))
    let moves : List Move := [.followPointers, .step (.key "x"), .followPointers]
    ({} : Options).hooks = [] ∧
      (∃ found, trail (·.extractHooked {}) moves (hidden v) = pure found ∧
        found = [hidden (.record outer), hidden (.pointer none), ⟨none, true⟩] ∧
        ∀ h ∈ found, h.restricted = true ∧ (h.isValid = true → h.isRestricted = true)) ∧
      ∃ fromHidden fromOpen,
        (Step.key "x").extractHooked {} (hidden v) = pure fromHidden ∧
        (Step.key "x").extractHooked {} (ofValue v) = pure fromOpen ∧
        fromHidden.isSome = fromOpen.isSome := by
  intro inner outer v moves
  have hsticks := restricted_along_trail {} rfl (·.extractHooked {}) (.inr rfl) v
  obtain ⟨found, htrail, hkept⟩ := hsticks.1 moves
  have hfound : Search.done found = Search.done _ := htrail.symm.trans rfl
  refine ⟨rfl, ⟨found, htrail, ?_, hkept⟩, hsticks.2 (.key "x")⟩
  exact (Search.finished.inj hfound).2

end ValuePath
