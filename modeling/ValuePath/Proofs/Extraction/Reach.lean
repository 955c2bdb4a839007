import ValuePath.Proofs.Extraction.Plain
import ValuePath.Proofs.Value.Induction

/-!
# What a value leads to

Behind a value stand its parts, at every depth, and what the objects among them answer, with the
parts of these answers. Without hooks a step finds nothing else, so that what is assumed of
everything behind a target holds along the whole way of a query.

* `Value.LeadsTo` says that a value stands behind another.
* `Value.leadsTo_of_mem_candidates` and `Value.leadsTo_of_item?`: what answers to a name or stands
  at a position stands behind the value.
* `Step.leadsTo_of_find?` is the same for a step from a handle.
-/

namespace ValuePath

/-- The second value stands behind the first: it is the first, or it is found at some depth in its
items, in the values of its entries or fields, behind its pointers or in the answers of its
objects. The keys of maps lead nowhere. -/
inductive Value.LeadsTo (m : KeyMatching) : Value → Value → Prop
  | refl (v : Value) : LeadsTo m v v
  | item {items : List Value} {v w : Value} : v ∈ items → LeadsTo m v w → LeadsTo m (.array items) w
  | entry {entries : Entries} {entry : Value × Value} {w : Value} :
      entry ∈ entries → LeadsTo m entry.2 w → LeadsTo m (.map entries) w
  | field {r : Record Value} {f : Field Value} {w : Value} :
      f ∈ r.fields → LeadsTo m f.value w → LeadsTo m (.record r) w
  | pointer {v w : Value} : LeadsTo m v w → LeadsTo m (.pointer (some v)) w
  | key {o : Object Value} {name : String} {v w : Value} :
      o.lookupKey? m name = some v → LeadsTo m v w → LeadsTo m (.object o) w
  | index {o : Object Value} {position : UInt64} {v w : Value} :
      o.lookupIndex? position = some v → LeadsTo m v w → LeadsTo m (.object o) w

/-- What stands behind a value that stands behind another stands behind that one. -/
theorem Value.LeadsTo.trans {m : KeyMatching} {u v w : Value} (huv : u.LeadsTo m v)
    (hvw : v.LeadsTo m w) : u.LeadsTo m w := by
  induction huv with
  | refl => exact hvw
  | item hmem _ ih => exact .item hmem (ih hvw)
  | entry hmem _ ih => exact .entry hmem (ih hvw)
  | field hmem _ ih => exact .field hmem (ih hvw)
  | pointer _ ih => exact .pointer (ih hvw)
  | key hanswer _ ih => exact .key hanswer (ih hvw)
  | index hanswer _ ih => exact .index hanswer (ih hvw)

/-! ## Single steps -/

/-- What a map answers is the value of one of its entries. -/
theorem Entries.exists_mem_of_find? {m : KeyMatching} {name : String} {entries : Entries}
    {v : Value} (hfound : find? m name entries = some v) : ∃ key, (key, v) ∈ entries := by
  obtain ⟨entry, hentry, rfl⟩ := Option.map_eq_some_iff.mp hfound
  exact ⟨entry.1, List.mem_of_find?_eq_some hentry⟩

/-- What answers to a name in a value stands behind the value. -/
theorem Value.leadsTo_of_mem_candidates {o : Options} {name : String} {v : Value} {c : Candidate}
    (hc : c ∈ v.candidates o name) : v.LeadsTo o.matching c.value := by
  induction v generalizing c with
  | map entries ih =>
    simp only [candidates, Option.mem_toList, Option.map_eq_some_iff] at hc
    obtain ⟨u, hfound, rfl⟩ := hc
    obtain ⟨key, hmem⟩ := Entries.exists_mem_of_find? hfound
    exact .entry hmem (.refl u)
  | object object =>
    simp only [candidates, Option.mem_toList, Option.map_eq_some_iff] at hc
    obtain ⟨u, hanswer, rfl⟩ := hc
    exact .key hanswer (.refl u)
  | record r ih =>
    rcases (mem_candidates_record o name).mp hc with
      ⟨f, hf, -, -, rfl⟩ | ⟨f, hf, -, inner, hinner, rfl⟩
    · exact .field hf (.refl f.value)
    · -- what answers in an inline field stands behind the value of that field
      have hbehind : f.value.LeadsTo o.matching inner.value := ih f hf hinner
      exact .field hf hbehind
  | pointer v ih => exact .pointer (ih hc)
  | null | boolean | integer | float | string | array | nullPointer =>
    simp [candidates, candidatesOfContent] at hc

/-- What stands at a position of a value stands behind the value. -/
theorem Value.leadsTo_of_item? (m : KeyMatching) {position : UInt64} {v u : Value}
    (hitem : v.item? position = some u) : v.LeadsTo m u := by
  induction v with
  | array items ih => exact .item (List.mem_of_getElem? hitem) (.refl u)
  | object object => exact .index hitem (.refl u)
  | pointer v ih => exact .pointer (ih hitem)
  | null | boolean | integer | float | string | map | record | nullPointer => cases hitem

/-- A step from a value finds a value that stands behind it. -/
theorem Step.leadsTo_of_find? {o : Options} {step : Step} {h found : Handle}
    (hfound : step.find? o h = some found) :
    ∃ v u, h.value? = some v ∧ found.value? = some u ∧ v.LeadsTo o.matching u := by
  obtain ⟨v?, restricted⟩ := h
  cases step with
  | key name =>
    obtain ⟨c, hc, rfl⟩ := List.mem_map.mp (mem_of_choose hfound)
    cases v? with
    | none => cases hc
    | some v => exact ⟨v, c.value, rfl, rfl, v.leadsTo_of_mem_candidates hc⟩
  | index position =>
    cases v? with
    | none => cases hfound
    | some v =>
      rw [find?, extractIndex_eq, Option.map_eq_some_iff] at hfound
      obtain ⟨u, hitem, rfl⟩ := hfound
      exact ⟨v, u, rfl, rfl, v.leadsTo_of_item? o.matching hitem⟩

end ValuePath
