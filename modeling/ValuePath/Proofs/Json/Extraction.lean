import ValuePath.Proofs.Extraction.Plain
import ValuePath.Proofs.Json.RoundTrip

/-!
# Extraction from documents

Plain data has a document, and a path leads to the same place in both: the document of what a query
with default options finds in plain data is the document of what it finds in the value of the
document. This is so although the value of the document has no records and no pointers, and has the
entries of its maps in another order.

* `Value.IsPlainData` are the values that are meant. `Value.exists_toJson?` gives them documents.
* `Json.follow` takes steps in a document.
* `Value.map_toJson?_openValue?` compares one step in a value with one in its document, and
  `Value.map_toJson?_follow` several steps.
* `Query.extract_ofJson` is the same for queries.
-/

namespace ValuePath

/-! ## Plain data -/

/-- Values whose parts all have a place of their own in a document: the keys of a map have different
texts, and the fields of a record have different names and are neither hidden nor embedded. -/
inductive Value.IsPlainData : Value → Prop
  | null : IsPlainData .null
  | boolean (b : Bool) : IsPlainData (.boolean b)
  | integer (n : Int64) : IsPlainData (.integer n)
  | float (x : Binary64) : IsPlainData (.float x)
  | string (s : String) : IsPlainData (.string s)
  | array {items : List Value} : (∀ v ∈ items, IsPlainData v) → IsPlainData (.array items)
  | map {entries : Entries} : (∀ entry ∈ entries, entry.1.keyText?.isSome) →
      (entries.map (·.1.keyText?)).Nodup → (∀ entry ∈ entries, IsPlainData entry.2) →
      IsPlainData (.map entries)
  | record {r : Record Value} : (∀ f ∈ r.fields, f.exported = true ∧ f.embedded = false) →
      (r.fields.map (·.name)).Nodup → (∀ f ∈ r.fields, IsPlainData f.value) →
      IsPlainData (.record r)
  | nullPointer : IsPlainData (.pointer none)
  | pointer {v : Value} : IsPlainData v → IsPlainData (.pointer (some v))

namespace Value

/-- Where all fields are exported, all of them become members. -/
theorem membersOfFields?_of_exported {fields : List (Field Value)}
    (h : ∀ f ∈ fields, f.exported = true) :
    membersOfFields? fields = fields.mapM fieldMember? := by
  rw [membersOfFields?_eq, List.filter_eq_self.mpr h]

/-- Plain data has a document. -/
theorem exists_toJson? {v : Value} (hplain : v.IsPlainData) : ∃ j, v.toJson? = some j := by
  induction hplain with
  | null | boolean | integer | float | string | nullPointer => exact ⟨_, rfl⟩
  | array _ ih =>
    obtain ⟨docs, hdocs⟩ := exists_mapM_eq_some ih
    exact ⟨_, by rw [toJson?, jsonOfItems?_eq, hdocs, Option.map_some]⟩
  | @map entries hkeys _ _ ih =>
    have hmember : ∀ entry ∈ entries, ∃ member, entryMember? entry = some member := by
      intro entry hmem
      obtain ⟨text, htext⟩ := Option.isSome_iff_exists.mp (hkeys entry hmem)
      obtain ⟨j, hj⟩ := ih entry hmem
      exact ⟨(text, j), entryMember?_eq_some_iff.mpr ⟨htext, hj⟩⟩
    obtain ⟨members, hmembers⟩ := exists_mapM_eq_some hmember
    exact ⟨_, by rw [toJson?, membersOfEntries?_eq, hmembers, Option.map_some]⟩
  | @record r hfields _ _ ih =>
    have hmember : ∀ f ∈ r.fields, ∃ member, fieldMember? f = some member := by
      intro f hmem
      obtain ⟨j, hj⟩ := ih f hmem
      exact ⟨(f.name, j), fieldMember?_eq_some_iff.mpr ⟨rfl, hj⟩⟩
    obtain ⟨members, hmembers⟩ := exists_mapM_eq_some hmember
    have hexported : ∀ f ∈ r.fields, f.exported = true := fun f hmem => (hfields f hmem).1
    exact ⟨_, by rw [toJson?, membersOfFields?_of_exported hexported, hmembers, Option.map_some]⟩
  | pointer _ ih => exact ih

/-- The value of a document in normal form is plain data. -/
theorem isPlainData_ofJson {j : Json} (h : j.IsNormal) : (ofJson j).IsPlainData := by
  induction h with
  | null => exact .null
  | bool b => exact .boolean b
  | @integer n hge hlt =>
    rw [ofJson, if_pos ⟨hge, hlt⟩]
    exact .integer (Int64.ofInt n)
  | @float x _ => exact .float x
  | string s => exact .string s
  | @array items _ ih =>
    rw [ofJson, valuesOfItems_eq]
    exact .array (List.forall_mem_map.mpr ih)
  | @object members hsorted _ ih =>
    rw [ofJson_object hsorted]
    refine .map (List.forall_mem_map.mpr fun _ _ => rfl) ?_ (List.forall_mem_map.mpr ih)
    -- the texts of the keys are the names of the members
    rw [List.map_map, List.Nodup, List.pairwise_map]
    refine hsorted.imp fun {a b} hlt heq => ?_
    exact String.lt_irrefl b.1 (Option.some.inj heq ▸ hlt)

end Value

/-! ## Steps in documents -/

namespace Json

/-- The part of a document that a step leads to. -/
def child? : Step → Json → Option Json
  | .key name, .object members => member? name members
  | .index position, .array items => items[position.toNat]?
  | _, _ => none

/-- The part of a document that several steps lead to. -/
def follow : List Step → Json → Option Json
  | [], j => some j
  | step :: rest, j => (j.child? step).bind (follow rest)

end Json

/-! ## Steps with default options -/

/-- By default only the embedded fields are inline. -/
theorem Options.isInline_default (f : Field Value) : ({} : Options).isInline f = f.embedded := by
  simp [isInline]

/-- By default a field answers to its declared name alone. -/
theorem Options.answers_default (name : String) (f : Field Value) :
    ({} : Options).answers name f = decide (f.name = name) := by
  simp [answers, fieldNames, ownName, matching, KeyMatching.agree]

/-- By default a key answers to its text alone. -/
theorem Entries.answers_default {name text : String} {key : Value} (h : key.keyText? = some text) :
    answers ({} : Options).matching name key = decide (text = name) := by
  simp [answers, h, Options.matching, KeyMatching.agree]

namespace Value

/-- In a record of plain data, the open value of a name is that of the field of that name. -/
theorem head?_openValues_record {r : Record Value}
    (hfields : ∀ f ∈ r.fields, f.exported = true ∧ f.embedded = false) (name : String) :
    ((record r).openValues {} name).head? =
      (r.fields.find? fun f => f.name = name).map (·.value) := by
  have hinline : (r.fields.filter fun f => ({} : Options).isInline f && !f.isHidden) = [] := by
    refine List.filter_eq_nil_iff.mpr fun f hmem => ?_
    simp [Options.isInline_default, (hfields f hmem).2]
  have hdirect : ∀ f ∈ r.fields,
      (f.exported && (!({} : Options).isInline f && ({} : Options).answers name f)) =
        decide (f.name = name) := by
    intro f hmem
    simp [Options.isInline_default, Options.answers_default, hfields f hmem]
  rw [openValues_record, hinline, List.flatMap_nil, List.append_nil, List.filter_congr hdirect,
    List.head?_map, List.head?_filter]

/-- In a map, the open value of a name is what the map answers. -/
theorem head?_openValues_map (entries : Entries) (name : String) :
    ((map entries).openValues {} name).head? =
      Entries.find? ({} : Options).matching name entries := by
  rw [openValues_map, Option.head?_toList]

/-- Of parts that become members, the first one that answers to a name has the document that stands
under the name among the sorted members. -/
theorem map_toJson?_find? {α : Type} {toMember : α → Option (String × Json)} {name : String}
    {answers : α → Bool} {value : α → Value}
    (hmember : ∀ a member, toMember a = some member →
      (answers a = true ↔ member.1 = name) ∧ (value a).toJson? = some member.2)
    {as : List α} {members : List (String × Json)} (hmembers : as.mapM toMember = some members)
    (hnodup : (members.map (·.1)).Nodup) :
    ((as.find? answers).map value).map toJson? =
      (Json.member? name (Json.sortMembers members)).map some := by
  rw [Json.member?_sortMembers_of_nodup hnodup]
  clear hnodup
  rw [mapM_eq_some_iff] at hmembers
  induction as generalizing members with
  | nil =>
    obtain rfl := List.map_eq_nil_iff.mp hmembers.symm
    rfl
  | cons a as ih =>
    obtain ⟨member, rest, rfl, hhead, hrest⟩ := List.map_eq_cons_iff.mp hmembers.symm
    obtain ⟨hanswers, hvalue⟩ := hmember a member hhead.symm
    rw [Json.member?_cons]
    by_cases hname : member.1 = name
    · rw [List.find?_cons_of_pos (hanswers.mpr hname), if_pos hname, Option.map_some,
        Option.map_some, Option.map_some, hvalue]
    · rw [List.find?_cons_of_neg (mt hanswers.mp hname), if_neg hname, ih hrest.symm]

/-- What a step with default options leads to in plain data has the document that the step leads to
in the document of the data. -/
theorem map_toJson?_openValue? {v : Value} (hplain : v.IsPlainData) {j : Json}
    (hdocument : v.toJson? = some j) (step : Step) :
    (step.openValue? {} v).map toJson? = (j.child? step).map some := by
  induction hplain with
  | null | boolean | integer | string | nullPointer =>
    obtain rfl := Option.some.inj hdocument
    cases step <;> rfl
  | float x =>
    -- a number that is not finite becomes null
    obtain rfl := Option.some.inj hdocument
    split <;> cases step <;> rfl
  | @array items _ _ =>
    rw [toJson?, jsonOfItems?_eq, Option.map_eq_some_iff] at hdocument
    obtain ⟨docs, hdocs, rfl⟩ := hdocument
    cases step with
    | key name => rfl
    | index position =>
      show items[position.toNat]?.map toJson? = docs[position.toNat]?.map some
      rw [← List.getElem?_map, mapM_eq_some_iff.mp hdocs, List.getElem?_map]
  | @map entries _ hnodup _ _ =>
    rw [toJson?, membersOfEntries?_eq, Option.map_eq_some_iff] at hdocument
    obtain ⟨members, hmembers, rfl⟩ := hdocument
    cases step with
    | index position => rfl
    | key name =>
      -- the names of the members are the texts of the keys
      have htexts : entries.map (·.1.keyText?) = members.map fun member => some member.1 :=
        map_eq_map_of_mapM (fun _ _ hmember => (entryMember?_eq_some_iff.mp hmember).1) hmembers
      rw [htexts, List.Nodup, List.pairwise_map] at hnodup
      have hnames : (members.map (·.1)).Nodup :=
        List.pairwise_map.mpr (hnodup.imp fun hne heq => hne (congrArg some heq))
      rw [Step.openValue?, head?_openValues_map, Entries.find?]
      refine map_toJson?_find? (fun entry member hmember => ?_) hmembers hnames
      obtain ⟨htext, hvalue⟩ := entryMember?_eq_some_iff.mp hmember
      rw [Entries.answers_default htext, decide_eq_true_iff]
      exact ⟨Iff.rfl, hvalue⟩
  | @record r hfields hnodup _ _ =>
    rw [toJson?, membersOfFields?_of_exported fun f hmem => (hfields f hmem).1,
      Option.map_eq_some_iff] at hdocument
    obtain ⟨members, hmembers, rfl⟩ := hdocument
    cases step with
    | index position => rfl
    | key name =>
      have hnames : r.fields.map (·.name) = members.map (·.1) :=
        map_eq_map_of_mapM (fun _ _ hmember => (fieldMember?_eq_some_iff.mp hmember).1) hmembers
      rw [hnames] at hnodup
      rw [Step.openValue?, head?_openValues_record hfields]
      refine map_toJson?_find? (fun f member hmember => ?_) hmembers hnodup
      obtain ⟨hname, hvalue⟩ := fieldMember?_eq_some_iff.mp hmember
      rw [hname, decide_eq_true_iff]
      exact ⟨Iff.rfl, hvalue⟩
  | pointer _ ih => cases step <;> exact ih hdocument

/-- What a step with default options leads to in plain data is plain data. -/
theorem isPlainData_of_openValue? {v u : Value} (hplain : v.IsPlainData) {step : Step}
    (hopen : step.openValue? {} v = some u) : u.IsPlainData := by
  induction hplain with
  | null | boolean | integer | float | string | nullPointer => cases step <;> cases hopen
  | array hitems =>
    cases step with
    | key name => cases hopen
    | index position => exact hitems u (List.mem_of_getElem? hopen)
  | @map entries _ _ hvalues _ =>
    cases step with
    | index position => cases hopen
    | key name =>
      rw [Step.openValue?, head?_openValues_map, Entries.find?, Option.map_eq_some_iff] at hopen
      obtain ⟨entry, hentry, rfl⟩ := hopen
      exact hvalues entry (List.mem_of_find?_eq_some hentry)
  | @record r hfields _ hvalues _ =>
    cases step with
    | index position => cases hopen
    | key name =>
      rw [Step.openValue?, head?_openValues_record hfields, Option.map_eq_some_iff] at hopen
      obtain ⟨f, hf, rfl⟩ := hopen
      exact hvalues f (List.mem_of_find?_eq_some hf)
  | pointer _ ih => cases step <;> exact ih hopen

/-- What several steps lead to in plain data is plain data, with the document that the steps lead to
in the document of the data. -/
theorem map_toJson?_follow {v : Value} (hplain : v.IsPlainData) {j : Json}
    (hdocument : v.toJson? = some j) (steps : List Step) :
    (v.follow {} steps).map toJson? = (j.follow steps).map some := by
  induction steps generalizing v j with
  | nil =>
    rw [follow, Json.follow, Option.map_some, Option.map_some, hdocument]
  | cons step rest ih =>
    have hstep := map_toJson?_openValue? hplain hdocument step
    rw [follow, Json.follow]
    cases hopen : step.openValue? {} v with
    | none =>
      rw [hopen, Option.map_none, eq_comm, Option.map_eq_none_iff] at hstep
      rw [hstep]
      rfl
    | some u =>
      rw [hopen, Option.map_some, eq_comm, Option.map_eq_some_iff] at hstep
      obtain ⟨k, hchild, hk⟩ := hstep
      rw [hchild]
      exact ih (isPlainData_of_openValue? hplain hopen) hk.symm

/-! ## Nothing is hidden -/

/-- No candidate in plain data is hidden. -/
theorem hidden_of_mem_candidates {v : Value} (hplain : v.IsPlainData) {name : String}
    {c : Candidate} (hmem : c ∈ v.candidates {} name) : c.hidden = false := by
  induction hplain with
  | null | boolean | integer | float | string | nullPointer | array => cases hmem
  | map =>
    obtain ⟨u, -, rfl⟩ := Option.map_eq_some_iff.mp (Option.mem_toList.mp hmem)
    rfl
  | @record r hfields _ _ _ =>
    -- without embedded fields the candidates are the fields themselves, all of which are exported
    have hinline : inlineCandidates {} name r.fields = [] := by
      rw [inlineCandidates_eq, List.flatMap_eq_nil_iff]
      intro f hf
      obtain ⟨hf, hinline⟩ := List.mem_filter.mp hf
      rw [Options.isInline_default, (hfields f hf).2] at hinline
      cases hinline
    rw [candidates, hinline, List.append_nil] at hmem
    obtain ⟨f, hf, rfl⟩ := List.mem_map.mp hmem
    simp [Candidate.hidden, Candidate.direct, (hfields f (List.mem_filter.mp hf).1).1]
  | pointer _ ih => exact ih hmem

/-- In plain data a step finds only what callers may have. -/
theorem isRestricted_of_find? {v : Value} (hplain : v.IsPlainData) {step : Step} {found : Handle}
    (hfound : step.find? {} (Handle.ofValue v) = some found) : found.isRestricted = false := by
  cases step with
  | key name =>
    obtain ⟨c, hmem, rfl⟩ := List.mem_map.mp (mem_of_choose hfound)
    rw [Candidate.isRestricted_handle, hidden_of_mem_candidates hplain hmem]
    rfl
  | index position =>
    rw [Step.find?, Handle.ofValue, extractIndex_eq, Option.map_eq_some_iff] at hfound
    obtain ⟨u, -, rfl⟩ := hfound
    rfl

/-- In plain data a step finds the open value that it leads to, and nothing else. -/
theorem find?_eq_openValue? {v : Value} (hplain : v.IsPlainData) (step : Step) :
    step.find? {} (Handle.ofValue v) = (step.openValue? {} v).map Handle.ofValue := by
  rw [← step.filter_find? {} v]
  cases hfound : step.find? {} (Handle.ofValue v) with
  | none => rfl
  | some found =>
    rw [Option.filter_some, isRestricted_of_find? hplain hfound]
    rfl

/-- In plain data several steps find the value that they lead to, or nothing. -/
theorem findAll_eq_follow {v : Value} (hplain : v.IsPlainData) (steps : List Step) :
    Step.findAll {} steps (Handle.ofValue v) =
      match v.follow {} steps with
      | some u => .ok (Handle.ofValue u)
      | none => .error .notFound := by
  induction steps generalizing v with
  | nil => rfl
  | cons step rest ih =>
    rw [Step.findAll, find?_eq_openValue? hplain, follow]
    cases hopen : step.openValue? {} v with
    | none => rfl
    | some u => exact ih (isPlainData_of_openValue? hplain hopen)

end Value

/-! ## Queries in documents -/

namespace Query

/-- A query with default options finds in plain data a value whose document is the one that its
steps lead to in the document of the data, or it finds nothing, and neither do its steps. -/
theorem extract_of_isPlainData (q : Query) (hdefault : q.options = {}) {v : Value}
    (hplain : v.IsPlainData) {j : Json} (hdocument : v.toJson? = some j) :
    (j.follow q.steps = none ∧ q.extract v = pure (.error (.failed .notFound q.text))) ∨
      ∃ u k, j.follow q.steps = some k ∧ q.extract v = pure (.ok u) ∧ u.toJson? = some k := by
  have hfollow := Value.map_toJson?_follow hplain hdocument q.steps
  have hnohooks : q.options.hooks = [] := by rw [hdefault]
  rw [q.extract_eq_findAll hnohooks, hdefault, Value.findAll_eq_follow hplain]
  cases hfound : v.follow {} q.steps with
  | none =>
    rw [hfound, Option.map_none, eq_comm, Option.map_eq_none_iff] at hfollow
    exact .inl ⟨hfollow, rfl⟩
  | some u =>
    rw [hfound, Option.map_some, eq_comm, Option.map_eq_some_iff] at hfollow
    obtain ⟨k, hk, hu⟩ := hfollow
    exact .inr ⟨u, k, hk, rfl, hu.symm⟩

/-- Plain data has a document, and what a query with default options finds in the data has the same
document as what it finds in the value of that document. It finds something in both or in
neither. -/
theorem extract_ofJson {v : Value} (hplain : v.IsPlainData) :
    ∃ j, v.toJson? = some j ∧ ∀ q : Query, q.options = {} →
      (q.extract v = pure (.error (.failed .notFound q.text)) ∧
          q.extract (.ofJson j) = pure (.error (.failed .notFound q.text))) ∨
        ∃ u u' k, q.extract v = pure (.ok u) ∧ q.extract (.ofJson j) = pure (.ok u') ∧
          u.toJson? = some k ∧ u'.toJson? = some k := by
  obtain ⟨j, hdocument⟩ := Value.exists_toJson? hplain
  refine ⟨j, hdocument, fun q hdefault => ?_⟩
  -- the document is in normal form, so that its value is plain data with the same document
  have hnormal : j.IsNormal := Value.isNormal_of_toJson? hdocument
  have hdata := q.extract_of_isPlainData hdefault hplain hdocument
  have hvalue := q.extract_of_isPlainData hdefault (Value.isPlainData_ofJson hnormal)
    (Value.toJson?_ofJson hnormal)
  rcases hdata with ⟨hnone, hdata⟩ | ⟨u, k, hsome, hdata, hu⟩
  · rcases hvalue with ⟨_, hvalue⟩ | ⟨_, _, hsome, _⟩
    · exact .inl ⟨hdata, hvalue⟩
    · cases hnone.symm.trans hsome
  · rcases hvalue with ⟨hnone, _⟩ | ⟨u', k', hsome', hvalue, hu'⟩
    · cases hnone.symm.trans hsome
    · obtain rfl := Option.some.inj (hsome.symm.trans hsome')
      exact .inr ⟨u, u', k, hdata, hvalue, hu, hu'⟩

/-- A number that is not finite, in a map behind a pointer, becomes null and is found as such. The
keys of the map are an integer and a string, which are not in order. -/
theorem extract_ofJson_of_record :
    let v : Value := .record ⟨"Setting", [⟨"limits", [], true, false,
      .pointer (some (.map [(.string "b", .null), (.integer 10, .array [.float Binary64.nan])]))⟩]⟩
    let q : Query := { steps := [.key "limits", .key "10", .index 0] }
    v.IsPlainData ∧ q.options = {} ∧ ∃ j u, v.toJson? = some j ∧
      q.extract v = pure (.ok (.float Binary64.nan)) ∧ q.extract (.ofJson j) = pure (.ok u) ∧
      u.toJson? = some .null := by
  intro v q
  have hplain : v.IsPlainData := by
    refine .record (List.forall_mem_singleton.mpr ⟨rfl, rfl⟩) (List.pairwise_singleton _ _)
      (List.forall_mem_singleton.mpr (.pointer (.map (by decide) (by decide) ?_)))
    rw [List.forall_mem_cons, List.forall_mem_singleton]
    exact ⟨.null, .array (List.forall_mem_singleton.mpr (.float Binary64.nan))⟩
  obtain ⟨j, hdocument, hextract⟩ := extract_ofJson hplain
  have hfound : q.extract v = pure (.ok (.float Binary64.nan)) := rfl
  rcases hextract q rfl with ⟨hmissing, _⟩ | ⟨u, u', k, hu, hu', hk, hk'⟩
  · cases hfound.symm.trans hmissing
  · -- the document of the number that is found decides which one the other value has
    cases hfound.symm.trans hu
    cases hk
    exact ⟨hplain, rfl, j, u', hdocument, hfound, hu', hk'⟩

end Query

end ValuePath
