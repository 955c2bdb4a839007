import ValuePath.Json.Conversion
import ValuePath.Proofs.Json.Members
import ValuePath.Proofs.Value.Induction

/-!
# Documents and values and back

A document becomes a value, and the value becomes the same document again, if the document is in
normal form: its objects are sorted, its floating point numbers are finite, and its integers have
64 bits with a sign. Every value that has a document at all has one in normal form. So a second
conversion there and back changes nothing.

* `Json.IsNormal` is the normal form.
* `jsonOfItems?_eq` and its neighbours: a value with parts has a document where all its parts have
  one.
* `Value.toJson?_ofJson` and `Value.isNormal_of_toJson?` are the two halves of
  `Value.json_round_trip`.
-/

namespace ValuePath

/-! ## Results of all parts -/

/-- All results are there, and these are they. -/
theorem mapM_eq_some_iff {α β : Type} {f : α → Option β} {as : List α} {bs : List β} :
    as.mapM f = some bs ↔ as.map f = bs.map some := by
  induction as generalizing bs with
  | nil =>
    cases bs with
    | nil => simp
    | cons b bs => simp
  | cons a as ih =>
    rw [List.mapM_cons, List.map_cons]
    cases bs with
    | nil => cases f a <;> cases as.mapM f <;> simp
    | cons b bs =>
      rw [List.map_cons, List.cons.injEq, ← ih]
      cases f a <;> cases as.mapM f <;> simp

/-- Each of all results is that of some part. -/
theorem exists_mem_of_mapM {α β : Type} {f : α → Option β} {as : List α} {bs : List β}
    (h : as.mapM f = some bs) {b : β} (hmem : b ∈ bs) : ∃ a ∈ as, f a = some b := by
  have hb : some b ∈ as.map f := by
    rw [mapM_eq_some_iff.mp h]
    exact List.mem_map_of_mem hmem
  obtain ⟨a, ha, hfound⟩ := List.mem_map.mp hb
  exact ⟨a, ha, hfound⟩

/-- What each part has in common with its result, all of them have. -/
theorem map_eq_map_of_mapM {α β γ : Type} {f : α → Option β} {g : α → γ} {g' : β → γ}
    (hsame : ∀ a b, f a = some b → g a = g' b) {as : List α} {bs : List β}
    (h : as.mapM f = some bs) : as.map g = bs.map g' := by
  rw [mapM_eq_some_iff] at h
  induction as generalizing bs with
  | nil =>
    obtain rfl := List.map_eq_nil_iff.mp h.symm
    rfl
  | cons a as ih =>
    obtain ⟨b, bs, rfl, hhead, hrest⟩ := List.map_eq_cons_iff.mp h.symm
    rw [List.map_cons, List.map_cons, hsame a b hhead.symm, ih hrest.symm]

/-- Where each part has a result, all results are there. -/
theorem exists_mapM_eq_some {α β : Type} {f : α → Option β} {as : List α}
    (h : ∀ a ∈ as, ∃ b, f a = some b) : ∃ bs, as.mapM f = some bs := by
  induction as with
  | nil => exact ⟨[], rfl⟩
  | cons a as ih =>
    obtain ⟨b, hb⟩ := h a List.mem_cons_self
    obtain ⟨bs, hbs⟩ := ih fun a hmem => h a (List.mem_cons_of_mem _ hmem)
    exact ⟨b :: bs, by rw [List.mapM_cons, hb, hbs]; rfl⟩

/-- The member that an entry of a map becomes. -/
def entryMember? (entry : Value × Value) : Option (String × Json) := do
  return (← entry.1.keyText?, ← entry.2.toJson?)

/-- The member that a field of a record becomes. -/
def fieldMember? (f : Field Value) : Option (String × Json) := do
  return (f.name, ← f.value.toJson?)

/-- An entry becomes a member where its key has a text and its value a document. -/
theorem entryMember?_eq_some_iff {entry : Value × Value} {member : String × Json} :
    entryMember? entry = some member ↔
      entry.1.keyText? = some member.1 ∧ entry.2.toJson? = some member.2 := by
  obtain ⟨text, document⟩ := member
  rw [entryMember?]
  cases entry.1.keyText? <;> cases entry.2.toJson? <;> simp

/-- A field becomes a member where its value has a document. -/
theorem fieldMember?_eq_some_iff {f : Field Value} {member : String × Json} :
    fieldMember? f = some member ↔ f.name = member.1 ∧ f.value.toJson? = some member.2 := by
  obtain ⟨name, document⟩ := member
  rw [fieldMember?]
  cases f.value.toJson? <;> simp

theorem jsonOfItems?_eq (items : List Value) : jsonOfItems? items = items.mapM Value.toJson? := by
  induction items with
  | nil => rfl
  | cons item rest ih => rw [jsonOfItems?, List.mapM_cons, ih]

theorem membersOfEntries?_eq (entries : Entries) :
    membersOfEntries? entries = entries.mapM entryMember? := by
  induction entries with
  | nil => rfl
  | cons entry rest ih =>
    rw [membersOfEntries?, List.mapM_cons, ih, entryMember?, bind_assoc]
    simp only [bind_assoc, pure_bind]

theorem membersOfFields?_eq (fields : List (Field Value)) :
    membersOfFields? fields = (fields.filter (·.exported)).mapM fieldMember? := by
  induction fields with
  | nil => rfl
  | cons f rest ih =>
    rw [membersOfFields?, List.filter_cons, ih]
    cases f.exported with
    | false => rfl
    | true =>
      rw [if_pos rfl, if_pos rfl, List.mapM_cons, fieldMember?]
      simp only [bind_assoc, pure_bind]

theorem valuesOfItems_eq (items : List Json) : valuesOfItems items = items.map Value.ofJson := by
  induction items with
  | nil => rfl
  | cons item rest ih => rw [valuesOfItems, ih, List.map_cons]

theorem entriesOfMembers_eq (members : List (String × Json)) :
    entriesOfMembers members =
      members.map fun member => (.string member.1, Value.ofJson member.2) := by
  induction members with
  | nil => rfl
  | cons member rest ih => rw [entriesOfMembers, ih, List.map_cons]

/-! ## The normal form -/

/-- Documents in normal form. -/
inductive Json.IsNormal : Json → Prop
  | null : IsNormal .null
  | bool (b : Bool) : IsNormal (.bool b)
  | integer {n : Int} :
      -0x8000000000000000 ≤ n → n < 0x8000000000000000 → IsNormal (.integer n)
  | float {x : Binary64} : x.isFinite = true → IsNormal (.float x)
  | string (s : String) : IsNormal (.string s)
  | array {items : List Json} : (∀ item ∈ items, IsNormal item) → IsNormal (.array items)
  | object {members : List (String × Json)} :
      IsSorted members → (∀ member ∈ members, IsNormal member.2) → IsNormal (.object members)

namespace Value

/-- The members of a sorted object become the entries of a map, in this order. -/
theorem ofJson_object {members : List (String × Json)} (h : Json.IsSorted members) :
    ofJson (.object members) =
      map (members.map fun member => (string member.1, ofJson member.2)) := by
  rw [ofJson, entriesOfMembers_eq, Entries.ofList, Entries.insertAll_eq_append]
  · rfl
  · -- strings are equal as values only if they are the same
    rw [List.nil_append, List.pairwise_map]
    refine h.imp fun {a b} hlt => ?_
    have hne : a.1 ≠ b.1 := fun heq => String.lt_irrefl b.1 (heq ▸ hlt)
    exact decide_eq_false hne

/-- A document in normal form is that of its value. -/
theorem toJson?_ofJson {j : Json} (h : j.IsNormal) : (ofJson j).toJson? = some j := by
  induction h with
  | null => rfl
  | bool b => rfl
  | @integer n hge hlt =>
    rw [ofJson, if_pos ⟨hge, hlt⟩, toJson?, Int64.toInt_ofInt_of_le hge hlt]
  | @float x hfinite => rw [ofJson, toJson?, if_pos hfinite]
  | string s => rfl
  | @array items _ ih =>
    have hitems : (items.map ofJson).mapM toJson? = some items := by
      rw [mapM_eq_some_iff, List.map_map]
      exact List.map_congr_left ih
    rw [ofJson, valuesOfItems_eq, toJson?, jsonOfItems?_eq, hitems, Option.map_some]
  | @object members hsorted _ ih =>
    have hmembers : (members.map fun member => (string member.1, ofJson member.2)).mapM
        entryMember? = some members := by
      rw [mapM_eq_some_iff, List.map_map]
      refine List.map_congr_left fun member hmem => ?_
      exact entryMember?_eq_some_iff.mpr ⟨rfl, ih member hmem⟩
    -- the members come back in the order in which they were, so that they need not be sorted
    rw [ofJson_object hsorted, toJson?, membersOfEntries?_eq, hmembers, Option.map_some,
      Json.sortMembers_eq_self hsorted]

/-- The document of a value is in normal form. -/
theorem isNormal_of_toJson? {v : Value} {j : Json} (h : v.toJson? = some j) : j.IsNormal := by
  induction v generalizing j with
  | null =>
    obtain rfl := Option.some.inj h
    exact .null
  | boolean b =>
    obtain rfl := Option.some.inj h
    exact .bool b
  | integer n =>
    obtain rfl := Option.some.inj h
    exact .integer n.le_toInt n.toInt_lt
  | float x =>
    obtain rfl := Option.some.inj h
    split
    next hfinite => exact .float hfinite
    next => exact .null
  | string s =>
    obtain rfl := Option.some.inj h
    exact .string s
  | array items ih =>
    rw [toJson?, jsonOfItems?_eq, Option.map_eq_some_iff] at h
    obtain ⟨docs, hdocs, rfl⟩ := h
    refine .array fun item hmem => ?_
    obtain ⟨v, hv, hitem⟩ := exists_mem_of_mapM hdocs hmem
    exact ih v hv hitem
  | map entries ih =>
    rw [toJson?, membersOfEntries?_eq, Option.map_eq_some_iff] at h
    obtain ⟨members, hmembers, rfl⟩ := h
    refine .object (Json.isSorted_sortMembers members) fun member hmem => ?_
    obtain ⟨entry, hentry, hmember⟩ :=
      exists_mem_of_mapM hmembers (Json.mem_of_mem_sortMembers hmem)
    exact (ih entry hentry).2 (entryMember?_eq_some_iff.mp hmember).2
  | record r ih =>
    rw [toJson?, membersOfFields?_eq, Option.map_eq_some_iff] at h
    obtain ⟨members, hmembers, rfl⟩ := h
    refine .object (Json.isSorted_sortMembers members) fun member hmem => ?_
    obtain ⟨f, hf, hmember⟩ := exists_mem_of_mapM hmembers (Json.mem_of_mem_sortMembers hmem)
    exact ih f (List.mem_filter.mp hf).1 (fieldMember?_eq_some_iff.mp hmember).2
  | nullPointer =>
    obtain rfl := Option.some.inj h
    exact .null
  | pointer v ih => exact ih h
  | object o => cases h

/-- A document in normal form comes back from its value as it was. The document of a value is in
normal form, whatever the value is, and so comes back, too. -/
theorem json_round_trip :
    (∀ j : Json, j.IsNormal → (ofJson j).toJson? = some j) ∧
      ∀ (v : Value) (j : Json), v.toJson? = some j → j.IsNormal ∧ (ofJson j).toJson? = some j := by
  refine ⟨fun j hnormal => toJson?_ofJson hnormal, fun v j hdocument => ?_⟩
  have hnormal : j.IsNormal := isNormal_of_toJson? hdocument
  exact ⟨hnormal, toJson?_ofJson hnormal⟩

/-- An object comes back. And so does the document of a record that is no document itself: a field
is hidden, the keys of a map are no strings and not in order, and a number behind a pointer is not
finite. -/
theorem json_round_trip_of_record :
    (ofJson (.object [("a", .integer (-7)), ("b", .null)])).toJson? =
        some (.object [("a", .integer (-7)), ("b", .null)]) ∧
      ∃ (v : Value) (j : Json),
        v = record ⟨"Setting",
          [⟨"limits", [], true, false, map [(boolean true, string "x"), (integer 10, null)]⟩,
            ⟨"secret", [], false, false, integer 1⟩,
            ⟨"factor", [], true, true, pointer (some (float Binary64.nan))⟩]⟩ ∧
        j = .object
          [("factor", .null), ("limits", .object [("10", .null), ("true", .string "x")])] ∧
        v.toJson? = some j ∧ j.IsNormal ∧ (ofJson j).toJson? = some j := by
  have hmember : ∀ member ∈ [("a", Json.integer (-7)), ("b", Json.null)], member.2.IsNormal := by
    rw [List.forall_mem_cons, List.forall_mem_singleton]
    exact ⟨.integer (by decide) (by decide), .null⟩
  refine ⟨json_round_trip.1 _ (.object (by decide) hmember), _, _, rfl, rfl, ?hdocument,
    json_round_trip.2 _ _ ?hdocument⟩
  rfl

end Value

end ValuePath
