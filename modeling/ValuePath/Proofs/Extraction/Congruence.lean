import ValuePath.Extraction

/-!
# Extraction in related searches

An extraction knows the searches that it makes only by what they find. So where two extractions make
searches that are related one by one, they are related themselves, if the relation is one that does
not get lost between searches: that is what a congruence is. Only the hooks stand outside of this,
since they may also write to the log.

* `Search.IsCongruence` are the relations that are meant.
* `Search.IsCongruence.searchRecord` and `Search.IsCongruence.extractKey` go through a record and
  through a step by name, with other hooks and another limit in one of the two.
* `Search.IsCongruence.extractAll` goes through several steps.
-/

namespace ValuePath.Search

/-- Relations between searches that hold where both end at once with the same result, and that are
kept where both go on from the same results in related ways. -/
structure IsCongruence (R : ∀ {α : Type}, Search α → Search α → Prop) : Prop where
  /-- Searches that end at once with the same result are related. -/
  pure {α : Type} (a : α) : R (Pure.pure a : Search α) (Pure.pure a)
  /-- Searches that go on from related searches in related ways are related. -/
  bind {α β : Type} {s t : Search α} {f g : α → Search β} :
    R s t → (∀ a, R (f a) (g a)) → R (s >>= f) (t >>= g)

namespace IsCongruence

variable {R : ∀ {α : Type}, Search α → Search α → Prop} (hR : IsCongruence R)
include hR

/-- Searches one after another are related to the same row of related searches. -/
theorem firstOpen {search search' : Extraction} (hsearch : ∀ h, R (search h) (search' h))
    (handles : List Handle) (fallback : Option Handle) :
    R (firstOpen search handles fallback) (firstOpen search' handles fallback) := by
  induction handles generalizing fallback with
  | nil => exact hR.pure _
  | cons h rest ih =>
    -- what the first search finds says for both rows alike whether they go on
    refine hR.bind (hsearch h) fun found? => ?_
    cases found? with
    | none => exact ih fallback
    | some found =>
      dsimp only
      split
      · exact ih (some found)
      · exact hR.pure _

/-- A search in a record is related to the same one with a related search in the inline fields. -/
theorem searchRecord {search search' : Extraction} (hsearch : ∀ h, R (search h) (search' h))
    (o : Options) (name : String) (h : Handle) (r : Record Value) :
    R (searchRecord o name search h r) (searchRecord o name search' h r) := by
  rw [ValuePath.searchRecord, ValuePath.searchRecord]
  split
  · exact hR.pure _
  · exact hR.firstOpen hsearch _ _

/-- Steps by name with different hooks and limits are related if they make related searches in
inline fields. -/
theorem extractKey (o : Options) (hooks' : List Hook) (name : String) {limit limit' : Nat}
    (hinner : ∀ g, R (Hook.wrap o.hooks (extractKey o name limit) g)
      (Hook.wrap hooks' (extractKey { o with hooks := hooks' } name limit') g)) (h : Handle) :
    R (extractKey o name (limit + 1) h)
      (extractKey { o with hooks := hooks' } name (limit' + 1) h) := by
  rw [ValuePath.extractKey, ValuePath.extractKey]
  -- the hooks have no part in a step unless there are inline fields to be searched
  match h.followPointers.value? with
  | some (.record r) => exact hR.searchRecord hinner o name h.followPointers r
  | none | some .null | some (.boolean _) | some (.integer _) | some (.float _)
  | some (.string _) | some (.array _) | some (.map _) | some (.pointer _)
  | some (.object _) => exact hR.pure _

/-- Several steps are related to the same number of related steps. -/
theorem extractAll {take take' : Step → Extraction}
    (htake : ∀ step h, R (take step h) (take' step h)) (steps : List Step) (h : Handle) :
    R (extractAll take steps h) (extractAll take' steps h) := by
  induction steps generalizing h with
  | nil => exact hR.pure _
  | cons step rest ih =>
    refine hR.bind (htake step h) fun found? => ?_
    cases found? with
    | none => exact hR.pure _
    | some found =>
      dsimp only
      split
      · exact hR.pure _
      · exact ih found

end IsCongruence

end ValuePath.Search
