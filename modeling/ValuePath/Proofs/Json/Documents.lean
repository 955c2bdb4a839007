import Mathlib.Data.List.Forall2
import ValuePath.Proofs.Json.RoundTrip
import ValuePath.Proofs.Text.ByteOrder

/-!
# Which values have documents

A value has no document exactly if an object, or a map with a key without a text, stands in it at a
place that the document would show. Hidden fields and null pointers show nothing, and a number that
is not finite is shown as null.

Where there is a document, each part that it shows is made from the documents of its own parts. The
members of an object are in the order of the bytes of their names, and of several parts with one
name it is the last that becomes a member.

* `Value.Exposes` says that a document shows a value as a part of another, and
  `Value.BlocksDocument` that a value stands in the way of a document.
* `Value.toJson?_eq_none_iff`: which values have no document.
* `Json.CollectsLast` says which members are made of the parts of a value, and
  `Json.collectsLast_sortMembers` that sorting makes them.
* `Value.MakesDocument` is one level of the document, with a case for each kind of value.
-/

namespace ValuePath

/-! ## Values without documents -/

/-- The second value stands in the first, at some depth, where a document of the first shows it: in
an item, in the value of an entry, in an exported field or behind a pointer. -/
inductive Value.Exposes : Value → Value → Prop
  | refl (v : Value) : Exposes v v
  | item {items : List Value} {v w : Value} : v ∈ items → Exposes v w → Exposes (.array items) w
  | entry {entries : Entries} {entry : Value × Value} {w : Value} :
      entry ∈ entries → Exposes entry.2 w → Exposes (.map entries) w
  | field {r : Record Value} {f : Field Value} {w : Value} :
      f ∈ r.fields → f.exported = true → Exposes f.value w → Exposes (.record r) w
  | pointer {v w : Value} : Exposes v w → Exposes (.pointer (some v)) w

/-- The value is an object, or a map with a key that has no text. -/
inductive Value.BlocksDocument : Value → Prop
  | object (o : Object Value) : BlocksDocument (.object o)
  | map {entries : Entries} {entry : Value × Value} :
      entry ∈ entries → entry.1.keyText? = none → BlocksDocument (.map entries)

/-- Not all results are there exactly if some part has none. -/
theorem mapM_eq_none_iff {α β : Type} {f : α → Option β} {as : List α} :
    as.mapM f = none ↔ ∃ a ∈ as, f a = none := by
  constructor
  · intro h
    by_contra hall
    have hsome : ∀ a ∈ as, ∃ b, f a = some b := fun a ha =>
      Option.ne_none_iff_exists'.mp fun hnone => hall ⟨a, ha, hnone⟩
    obtain ⟨bs, hbs⟩ := exists_mapM_eq_some hsome
    rw [h] at hbs
    cases hbs
  · rintro ⟨a, ha, hnone⟩
    cases hbs : as.mapM f with
    | none => rfl
    | some bs =>
      have hmem : f a ∈ bs.map some := mapM_eq_some_iff.mp hbs ▸ List.mem_map_of_mem ha
      simp [hnone] at hmem

/-- All results stand in the places of their parts. -/
theorem forall₂_of_mapM {α β : Type} {f : α → Option β} {as : List α} {bs : List β}
    (h : as.mapM f = some bs) : List.Forall₂ (fun a b => f a = some b) as bs := by
  have hsame : List.Forall₂ (· = ·) (as.map f) (bs.map some) :=
    List.forall₂_eq_eq_eq ▸ mapM_eq_some_iff.mp h
  exact List.forall₂_map_left_iff.mp (List.forall₂_map_right_iff.mp hsame)

/-- An entry becomes no member if its key has no text, or its value no document. -/
theorem entryMember?_eq_none_iff {entry : Value × Value} :
    entryMember? entry = none ↔ entry.1.keyText? = none ∨ entry.2.toJson? = none := by
  rw [entryMember?]
  cases entry.1.keyText? <;> cases entry.2.toJson? <;> simp

/-- A field becomes no member if its value has no document. -/
theorem fieldMember?_eq_none_iff {f : Field Value} :
    fieldMember? f = none ↔ f.value.toJson? = none := by
  rw [fieldMember?]
  cases f.value.toJson? <;> simp

namespace Value

/-- The value exposes one that stands in the way of a document. -/
def IsBlocked (v : Value) : Prop :=
  ∃ w, v.Exposes w ∧ w.BlocksDocument

theorem isBlocked_array {items : List Value} :
    (array items).IsBlocked ↔ ∃ item ∈ items, item.IsBlocked := by
  constructor
  · rintro ⟨w, hexposes, hblocks⟩
    cases hexposes with
    | refl => cases hblocks
    | item hitem hexposes => exact ⟨_, hitem, w, hexposes, hblocks⟩
  · rintro ⟨item, hitem, w, hexposes, hblocks⟩
    exact ⟨w, .item hitem hexposes, hblocks⟩

theorem isBlocked_map {entries : Entries} :
    (map entries).IsBlocked ↔ ∃ entry ∈ entries, entry.1.keyText? = none ∨ entry.2.IsBlocked := by
  constructor
  · rintro ⟨w, hexposes, hblocks⟩
    cases hexposes with
    | refl =>
      cases hblocks with
      | map hentry hkey => exact ⟨_, hentry, .inl hkey⟩
    | entry hentry hexposes => exact ⟨_, hentry, .inr ⟨w, hexposes, hblocks⟩⟩
  · rintro ⟨entry, hentry, hkey | ⟨w, hexposes, hblocks⟩⟩
    · exact ⟨_, .refl _, .map hentry hkey⟩
    · exact ⟨w, .entry hentry hexposes, hblocks⟩

theorem isBlocked_record {r : Record Value} :
    (record r).IsBlocked ↔ ∃ f ∈ r.fields.filter (·.exported), f.value.IsBlocked := by
  constructor
  · rintro ⟨w, hexposes, hblocks⟩
    cases hexposes with
    | refl => cases hblocks
    | field hmem hexported hexposes =>
      exact ⟨_, List.mem_filter.mpr ⟨hmem, hexported⟩, w, hexposes, hblocks⟩
  · rintro ⟨f, hf, w, hexposes, hblocks⟩
    obtain ⟨hmem, hexported⟩ := List.mem_filter.mp hf
    exact ⟨w, .field hmem hexported hexposes, hblocks⟩

theorem isBlocked_pointer {v : Value} : (pointer (some v)).IsBlocked ↔ v.IsBlocked := by
  constructor
  · rintro ⟨w, hexposes, hblocks⟩
    cases hexposes with
    | refl => cases hblocks
    | pointer hexposes => exact ⟨w, hexposes, hblocks⟩
  · rintro ⟨w, hexposes, hblocks⟩
    exact ⟨w, .pointer hexposes, hblocks⟩

/-- A value has no document exactly if it exposes one that stands in the way. -/
theorem toJson?_eq_none_iff (v : Value) : v.toJson? = none ↔ v.IsBlocked := by
  -- the document of a value fails with that of a part, and the value is blocked with a part
  induction v with
  | null | boolean | integer | float | string | nullPointer =>
    refine iff_of_false nofun ?_
    rintro ⟨w, hexposes, hblocks⟩
    cases hexposes
    cases hblocks
  | object o => exact iff_of_true rfl ⟨_, .refl _, .object o⟩
  | array items ih =>
    rw [toJson?, Option.map_eq_none_iff, jsonOfItems?_eq, mapM_eq_none_iff, isBlocked_array]
    exact exists_congr fun item => and_congr_right fun hitem => ih item hitem
  | map entries ih =>
    rw [toJson?, Option.map_eq_none_iff, membersOfEntries?_eq, mapM_eq_none_iff, isBlocked_map]
    refine exists_congr fun entry => and_congr_right fun hentry => ?_
    rw [entryMember?_eq_none_iff, (ih entry hentry).2]
  | record r ih =>
    rw [toJson?, Option.map_eq_none_iff, membersOfFields?_eq, mapM_eq_none_iff, isBlocked_record]
    refine exists_congr fun f => and_congr_right fun hf => ?_
    rw [fieldMember?_eq_none_iff, ih f (List.mem_filter.mp hf).1]
  | pointer v ih => exact ih.trans isBlocked_pointer.symm

/-- What is exposed by an exposed value is exposed. -/
theorem Exposes.trans {u v w : Value} (huv : u.Exposes v) (hvw : v.Exposes w) : u.Exposes w := by
  induction huv with
  | refl => exact hvw
  | item hitem _ ih => exact .item hitem (ih hvw)
  | entry hentry _ ih => exact .entry hentry (ih hvw)
  | field hmem hexported _ ih => exact .field hmem hexported (ih hvw)
  | pointer _ ih => exact .pointer (ih hvw)

/-- All that is exposed by a value with a document has a document. -/
theorem Exposes.exists_toJson? {v w : Value} (h : v.Exposes w) (hdocument : v.toJson? ≠ none) :
    ∃ j, w.toJson? = some j := by
  -- what stands in the way of the part stands in the way of the whole
  refine Option.ne_none_iff_exists'.mp fun hnone => hdocument ?_
  obtain ⟨u, hexposes, hblocks⟩ := (toJson?_eq_none_iff w).mp hnone
  exact (toJson?_eq_none_iff v).mpr ⟨u, h.trans hexposes, hblocks⟩

end Value

/-! ## Members of objects -/

/-- The members are made of the parts of a value, which have labels and values: there is a member
for each label, in the order of the bytes of the labels, with the document of the last part that has
the label. -/
structure Json.CollectsLast {α : Type} (label? : α → Option String) (value : α → Value)
    (parts : List α) (members : List (String × Json)) : Prop where
  /-- The names are in the order of their bytes, and none comes twice. -/
  ordered : members.Pairwise fun a b => Text.utf8 a.1 < Text.utf8 b.1
  /-- The names are the labels of the parts. -/
  mem_names_iff (name : String) :
    name ∈ members.map (·.1) ↔ ∃ part ∈ parts, label? part = some name
  /-- Each member has the document of the last part with its name. -/
  last {member : String × Json} (hmember : member ∈ members) :
    ∃ part, (parts.filter fun part => label? part = some member.1).getLast? = some part ∧
      (value part).toJson? = some member.2

section Members

variable {α : Type} {label? : α → Option String} {value : α → Value}
  {member? : α → Option (String × Json)} {parts : List α} {members : List (String × Json)}

/-- The labels of the parts are the names of the members. -/
theorem map_label?_eq (hmember : ∀ part member, member? part = some member ↔
      label? part = some member.1 ∧ (value part).toJson? = some member.2)
    (h : parts.mapM member? = some members) :
    parts.map label? = members.map fun member => some member.1 :=
  map_eq_map_of_mapM (fun part member hpart => ((hmember part member).mp hpart).1) h

/-- The last member of a name comes from the last part with the label. -/
theorem exists_getLast?_filter_label? (hmember : ∀ part member, member? part = some member ↔
      label? part = some member.1 ∧ (value part).toJson? = some member.2)
    (h : parts.mapM member? = some members) {member : String × Json}
    (hlast : (members.filter fun other => other.1 = member.1).getLast? = some member) :
    ∃ part, (parts.filter fun part => label? part = some member.1).getLast? = some part ∧
      member? part = some member := by
  rw [mapM_eq_some_iff] at h
  -- the two filters keep parts and members at the same places
  have hfilter : (parts.filter fun part => label? part = some member.1).map member? =
      (members.filter fun other => other.1 = member.1).map some := by
    have hmembers : (members.map some).filter (Option.any fun other => other.1 = member.1) =
        (members.filter fun other => other.1 = member.1).map some := List.filter_map
    rw [← hmembers, ← h, List.filter_map]
    refine congrArg _ (List.filter_congr fun part hpart => ?_)
    have hresult : member? part ∈ members.map some := h ▸ List.mem_map_of_mem hpart
    obtain ⟨other, -, hother⟩ := List.mem_map.mp hresult
    simp [← hother, ((hmember part other).mp hother.symm).1]
  have hparts := congrArg List.getLast? hfilter
  rw [List.getLast?_map, List.getLast?_map, hlast] at hparts
  exact Option.map_eq_some_iff.mp hparts

/-- Sorting the members of all parts makes the members that are meant. -/
theorem Json.collectsLast_sortMembers (hmember : ∀ part member, member? part = some member ↔
      label? part = some member.1 ∧ (value part).toJson? = some member.2)
    (h : parts.mapM member? = some members) :
    CollectsLast label? value parts (sortMembers members) where
  ordered := (isSorted_sortMembers members).imp Text.utf8_lt_utf8
  mem_names_iff name := by
    have hnames := congrArg (some name ∈ ·) (map_label?_eq hmember h)
    simp only [List.mem_map, eq_iff_iff] at hnames
    rw [mem_names_sortMembers, hnames]
    simp
  last hmem := by
    obtain ⟨part, hpart, hresult⟩ :=
      exists_getLast?_filter_label? hmember h (mem_sortMembers_iff.mp hmem)
    exact ⟨part, hpart, ((hmember part _).mp hresult).2⟩

end Members

/-! ## Documents of parts -/

/-- One level of a document: each kind of value has the kind of document that is made from the
documents of its parts. -/
inductive Value.MakesDocument : Value → Json → Prop
  | null : MakesDocument .null .null
  | boolean (b : Bool) : MakesDocument (.boolean b) (.bool b)
  | integer (n : Int64) : MakesDocument (.integer n) (.integer n.toInt)
  | finite {x : Binary64} : x.isFinite = true → MakesDocument (.float x) (.float x)
  | notFinite {x : Binary64} : x.isFinite = false → MakesDocument (.float x) .null
  | string (s : String) : MakesDocument (.string s) (.string s)
  | array {items : List Value} {docs : List Json} :
      List.Forall₂ (fun item j => item.toJson? = some j) items docs →
        MakesDocument (.array items) (.array docs)
  | map {entries : Entries} {members : List (String × Json)} :
      Json.CollectsLast (fun entry => entry.1.keyText?) (fun entry => entry.2) entries members →
        MakesDocument (.map entries) (.object members)
  | record {r : Record Value} {members : List (String × Json)} :
      Json.CollectsLast (fun f => some f.name) Field.value (r.fields.filter (·.exported)) members →
        MakesDocument (.record r) (.object members)
  | nullPointer : MakesDocument (.pointer none) .null
  | pointer {v : Value} {j : Json} : v.toJson? = some j → MakesDocument (.pointer (some v)) j

namespace Value

/-- The document of a value is made from the documents of its parts. -/
theorem makesDocument_of_toJson? {v : Value} {j : Json} (h : v.toJson? = some j) :
    v.MakesDocument j := by
  cases v with
  | null =>
    obtain rfl := Option.some.inj h
    exact .null
  | boolean b =>
    obtain rfl := Option.some.inj h
    exact .boolean b
  | integer n =>
    obtain rfl := Option.some.inj h
    exact .integer n
  | float x =>
    obtain rfl := Option.some.inj h
    split
    next hfinite => exact .finite hfinite
    next hfinite => exact .notFinite (Bool.eq_false_iff.mpr hfinite)
  | string s =>
    obtain rfl := Option.some.inj h
    exact .string s
  | array items =>
    rw [toJson?, jsonOfItems?_eq, Option.map_eq_some_iff] at h
    obtain ⟨docs, hdocs, rfl⟩ := h
    exact .array (forall₂_of_mapM hdocs)
  | map entries =>
    rw [toJson?, membersOfEntries?_eq, Option.map_eq_some_iff] at h
    obtain ⟨members, hmembers, rfl⟩ := h
    exact .map (Json.collectsLast_sortMembers (fun _ _ => entryMember?_eq_some_iff) hmembers)
  | record r =>
    rw [toJson?, membersOfFields?_eq, Option.map_eq_some_iff] at h
    obtain ⟨members, hmembers, rfl⟩ := h
    -- unlike a key, a declared name is there in any case
    refine .record (Json.collectsLast_sortMembers (fun f member => ?_) hmembers)
    rw [fieldMember?_eq_some_iff, Option.some_inj]
  | pointer content =>
    cases content with
    | none =>
      obtain rfl := Option.some.inj h
      exact .nullPointer
    | some v => exact .pointer h
  | object o => cases h

/-- A value has no document exactly if some place that it exposes holds an object, or a map with a
key that has no text. If it has one, then so has every place that it exposes, and each of these
documents is made from those of the parts: a map becomes an object whose names are the texts of its
keys, in the order of their bytes, with the document of the last entry of each text, and a record
becomes one in the same way by the names of its exported fields. -/
theorem makesDocument_of_exposes :
    (∀ v : Value, v.toJson? = none ↔ ∃ w, v.Exposes w ∧ w.BlocksDocument) ∧
      ∀ v w : Value, v.toJson? ≠ none → v.Exposes w →
        ∃ j, w.toJson? = some j ∧ w.MakesDocument j := by
  refine ⟨toJson?_eq_none_iff, fun v w hdocument hexposes => ?_⟩
  obtain ⟨j, hj⟩ := hexposes.exists_toJson? hdocument
  exact ⟨j, hj, makesDocument_of_toJson? hj⟩

/-- A record with a hidden object and two fields of one name, the last of which points to a map with
two keys of one text. -/
theorem makesDocument_of_exposes_of_record :
    let entries : Entries :=
      [(.string "1", .boolean true), (.boolean true, .float .nan), (.integer 1, .pointer none)]
    let v : Value := .record ⟨"Node",
      [{ name := "map", value := .integer 7 },
        { name := "secret", exported := false, value := .object ⟨0, "none", none, none, none⟩ },
        { name := "map", value := .pointer (some (.map entries)) }]⟩
    let j : Json := .object [("1", .null), ("true", .null)]
    v.toJson? = some (.object [("map", j)]) ∧ v.Exposes (.map entries) ∧
      (Value.map entries).toJson? = some j ∧ (Value.map entries).MakesDocument j := by
  intro entries v j
  have hdocument : v.toJson? = some (.object [("map", j)]) := by
    dsimp only [v, entries, j]
    rfl
  have hexposes : v.Exposes (.map entries) :=
    .field (f := { name := "map", value := .pointer (some (.map entries)) }) (by simp) rfl
      (.pointer (.refl _))
  have hsome : v.toJson? ≠ none := hdocument ▸ Option.some_ne_none _
  obtain ⟨k, hk, hmakes⟩ := makesDocument_of_exposes.2 v (.map entries) hsome hexposes
  have hj : (Value.map entries).toJson? = some j := by rfl
  obtain rfl : j = k := Option.some.inj (hj.symm.trans hk)
  exact ⟨hdocument, hexposes, hj, hmakes⟩

end Value

end ValuePath
