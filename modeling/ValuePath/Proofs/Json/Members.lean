import ValuePath.Json

/-!
# Members of JSON objects

The members of an object are sorted by their names, and no name comes twice. Putting a member in its
place keeps them so, whatever is put in; what is sorted already is not moved. A name is looked up
among sorted members as it is in the order in which they came, from the last one on.

* `Json.IsSorted` says that members are in order.
* `Json.isSorted_sortMembers` and `Json.sortMembers_eq_self`: sorting puts members in order, and
  changes nothing where they are.
* `Json.member?_sortMembers`: the last member of each name is the one that is kept.
* `Json.mem_names_sortMembers` and `Json.mem_sortMembers_iff`: which names and members are kept.
-/

namespace ValuePath.Json

variable {α : Type}

/-- Whether members are in the order of their names, none of which comes twice. -/
def IsSorted (members : List (String × α)) : Prop :=
  members.Pairwise fun a b => a.1 < b.1

instance (members : List (String × α)) : Decidable (IsSorted members) :=
  inferInstanceAs (Decidable (members.Pairwise fun a b => a.1 < b.1))

/-- The value of the first member of a name. -/
def member? (name : String) (members : List (String × α)) : Option α :=
  (members.find? fun member => member.1 = name).map (·.2)

@[simp]
theorem member?_nil (name : String) : member? name ([] : List (String × α)) = none :=
  rfl

theorem member?_cons (name : String) (member : String × α) (members : List (String × α)) :
    member? name (member :: members) =
      if member.1 = name then some member.2 else member? name members := by
  by_cases hname : member.1 = name
  · simp [member?, hname]
  · simp [member?, hname]

/-- A name is looked up in two lists in a row. -/
theorem member?_append (name : String) (members more : List (String × α)) :
    member? name (members ++ more) = (member? name members).or (member? name more) := by
  rw [member?, List.find?_append, Option.map_or]
  rfl

/-! ## Putting a member in its place -/

/-- What stands among the members afterwards is the new member, or stood there before. -/
theorem mem_of_mem_insertMember {name : String} {value : α} {member : String × α}
    {members : List (String × α)} (h : member ∈ insertMember name value members) :
    member = (name, value) ∨ member ∈ members := by
  induction members with
  | nil => exact .inl (List.mem_singleton.mp h)
  | cons first rest ih =>
    rw [insertMember] at h
    split at h
    · exact List.mem_cons.mp h
    · rw [List.mem_cons]
      split at h
      · exact (List.mem_cons.mp h).imp_right .inr
      · rcases List.mem_cons.mp h with hfirst | hrest
        · exact .inr (.inl hfirst)
        · exact (ih hrest).imp_right .inr

/-- Putting a member in its place keeps the members in order. -/
theorem isSorted_insertMember {members : List (String × α)} (h : IsSorted members) (name : String)
    (value : α) : IsSorted (insertMember name value members) := by
  induction members with
  | nil => exact List.pairwise_singleton _ _
  | cons first rest ih =>
    obtain ⟨hfirst, hrest⟩ := List.pairwise_cons.mp h
    rw [insertMember]
    split
    next hlt =>
      refine List.pairwise_cons.mpr ⟨fun member hmem => ?_, h⟩
      rcases List.mem_cons.mp hmem with rfl | hmem
      · exact hlt
      · exact String.lt_trans hlt (hfirst member hmem)
    next hge =>
      split
      next heq =>
        refine List.pairwise_cons.mpr ⟨fun member hmem => ?_, hrest⟩
        rw [heq]
        exact hfirst member hmem
      next hne =>
        -- the new member comes behind the first one, as those do that stood there before
        have hlt : first.1 < name :=
          ((Std.lt_trichotomy name first.1).resolve_left hge).resolve_left hne
        refine List.pairwise_cons.mpr ⟨fun member hmem => ?_, ih hrest⟩
        rcases mem_of_mem_insertMember hmem with rfl | hmem
        · exact hlt
        · exact hfirst member hmem

/-- A member that comes behind all others is put at the end. -/
theorem insertMember_of_forall_lt {name : String} {members : List (String × α)}
    (h : ∀ member ∈ members, member.1 < name) (value : α) :
    insertMember name value members = members ++ [(name, value)] := by
  induction members with
  | nil => rfl
  | cons first rest ih =>
    have hlt : first.1 < name := h first List.mem_cons_self
    have hne : name ≠ first.1 := fun heq => String.lt_irrefl name (heq ▸ hlt)
    rw [insertMember, if_neg (String.lt_asymm hlt), if_neg hne,
      ih fun member hmem => h member (List.mem_cons_of_mem first hmem), List.cons_append]

/-- A name is found with the new value if it is that of the new member, and else as before. -/
theorem member?_insertMember (other name : String) (value : α) (members : List (String × α)) :
    member? other (insertMember name value members) =
      if name = other then some value else member? other members := by
  induction members with
  | nil => exact member?_cons other (name, value) []
  | cons first rest ih =>
    rw [insertMember]
    split
    next hlt => exact member?_cons other (name, value) (first :: rest)
    next hge =>
      split
      next heq =>
        rw [member?_cons, member?_cons, ← heq]
        by_cases hother : name = other <;> simp [hother]
      next hne =>
        rw [member?_cons, member?_cons, ih]
        -- the first member does not have the name of the new one
        by_cases hfirst : first.1 = other
        · have hother : name ≠ other := fun hname => hne (hname.trans hfirst.symm)
          rw [if_pos hfirst, if_neg hother, if_pos hfirst]
        · rw [if_neg hfirst, if_neg hfirst]

/-! ## Sorting members -/

/-- What stands among sorted members stood among the members. -/
theorem mem_of_mem_sortMembers {member : String × α} {members : List (String × α)}
    (h : member ∈ sortMembers members) : member ∈ members := by
  suffices hgeneral : ∀ sorted : List (String × α),
      member ∈ members.foldl (fun sorted m => insertMember m.1 m.2 sorted) sorted →
        member ∈ sorted ∨ member ∈ members from
    (hgeneral [] h).resolve_left List.not_mem_nil
  clear h
  induction members with
  | nil => exact fun sorted h => .inl h
  | cons first rest ih =>
    intro sorted h
    rw [List.mem_cons]
    rcases ih _ h with hsorted | hrest
    · rcases mem_of_mem_insertMember hsorted with rfl | hsorted
      · exact .inr (.inl rfl)
      · exact .inl hsorted
    · exact .inr (.inr hrest)

/-- Sorted members are in order. -/
theorem isSorted_sortMembers (members : List (String × α)) : IsSorted (sortMembers members) := by
  suffices hgeneral : ∀ sorted : List (String × α), IsSorted sorted →
      IsSorted (members.foldl (fun sorted m => insertMember m.1 m.2 sorted) sorted) from
    hgeneral [] List.Pairwise.nil
  induction members with
  | nil => exact fun sorted h => h
  | cons first rest ih => exact fun sorted h => ih _ (isSorted_insertMember h first.1 first.2)

/-- Members that are in order are not moved. -/
theorem sortMembers_eq_self {members : List (String × α)} (h : IsSorted members) :
    sortMembers members = members := by
  suffices hgeneral : ∀ sorted : List (String × α), IsSorted (sorted ++ members) →
      members.foldl (fun sorted m => insertMember m.1 m.2 sorted) sorted = sorted ++ members from
    hgeneral [] h
  clear h
  induction members with
  | nil => exact fun sorted _ => (List.append_nil sorted).symm
  | cons first rest ih =>
    intro sorted h
    have hlast : ∀ member ∈ sorted, member.1 < first.1 := fun member hmem =>
      (List.pairwise_append.mp h).2.2 member hmem first List.mem_cons_self
    rw [List.append_cons] at h
    rw [List.foldl_cons, insertMember_of_forall_lt hlast, ih _ h, ← List.append_cons]

/-- Among sorted members a name is found as it is among the members from the last one on. -/
theorem member?_sortMembers (name : String) (members : List (String × α)) :
    member? name (sortMembers members) = member? name members.reverse := by
  suffices hgeneral : ∀ sorted : List (String × α),
      member? name (members.foldl (fun sorted m => insertMember m.1 m.2 sorted) sorted) =
        (member? name members.reverse).or (member? name sorted) from
    (hgeneral []).trans (Option.or_none)
  induction members with
  | nil => exact fun sorted => rfl
  | cons first rest ih =>
    intro sorted
    rw [List.foldl_cons, ih, member?_insertMember, List.reverse_cons, member?_append,
      member?_cons, Option.or_assoc]
    by_cases hname : first.1 = name
    · rw [if_pos hname, if_pos hname, Option.some_or]
    · rw [if_neg hname, if_neg hname, member?_nil, Option.none_or]

/-! ## Members without a name that comes twice -/

/-- Where no name comes twice, a name is found with each value that a member of that name has. -/
theorem member?_eq_some_iff {members : List (String × α)} (h : (members.map (·.1)).Nodup)
    {name : String} {value : α} : member? name members = some value ↔ (name, value) ∈ members := by
  induction members with
  | nil => simp
  | cons first rest ih =>
    rw [List.map_cons, List.nodup_cons] at h
    rw [member?_cons, List.mem_cons, Prod.ext_iff]
    by_cases hname : first.1 = name
    · -- no other member has this name
      have hrest : (name, value) ∉ rest := fun hmem =>
        h.1 (List.mem_map.mpr ⟨(name, value), hmem, hname.symm⟩)
      simp [hname, hrest, eq_comm]
    · rw [if_neg hname, ih h.2]
      simp [Ne.symm hname]

/-- Where no name comes twice, sorting has no part in which value a name has. -/
theorem member?_sortMembers_of_nodup {members : List (String × α)}
    (h : (members.map (·.1)).Nodup) (name : String) :
    member? name (sortMembers members) = member? name members := by
  have hreverse : (members.reverse.map (·.1)).Nodup := by
    rw [List.map_reverse]
    exact List.pairwise_reverse.mpr (List.Pairwise.imp Ne.symm h)
  rw [member?_sortMembers]
  refine Option.ext fun value => ?_
  rw [member?_eq_some_iff hreverse, member?_eq_some_iff h, List.mem_reverse]

/-- Sorted members have no name twice. -/
theorem IsSorted.nodup {members : List (String × α)} (h : IsSorted members) :
    (members.map (·.1)).Nodup := by
  refine List.pairwise_map.mpr (List.Pairwise.imp (fun {a b} hlt heq => ?_) h)
  exact String.lt_irrefl b.1 (heq ▸ hlt)

/-! ## What sorting keeps -/

/-- A name is found if some member has it. -/
theorem isSome_member?_iff {name : String} {members : List (String × α)} :
    (member? name members).isSome = true ↔ name ∈ members.map (·.1) := by
  simp [member?]

/-- Sorting keeps all names. -/
theorem mem_names_sortMembers {name : String} {members : List (String × α)} :
    name ∈ (sortMembers members).map (·.1) ↔ name ∈ members.map (·.1) := by
  rw [← isSome_member?_iff, member?_sortMembers, isSome_member?_iff, List.map_reverse,
    List.mem_reverse]

/-- Sorting keeps those members that are the last ones of their names. -/
theorem mem_sortMembers_iff {member : String × α} {members : List (String × α)} :
    member ∈ sortMembers members ↔
      (members.filter fun other => other.1 = member.1).getLast? = some member := by
  obtain ⟨name, value⟩ := member
  rw [← member?_eq_some_iff (isSorted_sortMembers members).nodup, member?_sortMembers, member?,
    List.getLast?_filter, Option.map_eq_some_iff]
  constructor
  · rintro ⟨other, hfound, rfl⟩
    have hname : other.1 = name := by simpa using List.find?_some hfound
    exact hname ▸ hfound
  · intro hfound
    exact ⟨(name, value), hfound, rfl⟩

end ValuePath.Json
