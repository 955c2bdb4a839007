import ValuePath.Value.Equality

/-!
# Maps

A map is a list of entries. Inserting an entry replaces the value of the first entry with an equal
key, whose key stays as it is, and otherwise adds the entry at the end. Look-up by name goes by
the texts of the keys, and the first entry that answers to the name is found.
-/

namespace ValuePath.Entries

/-- Inserts an entry. -/
def insert (key value : Value) : Entries → Entries
  | [] => [(key, value)]
  | entry :: rest =>
    if entry.1 == key then (entry.1, value) :: rest else entry :: insert key value rest

/-- Inserts entries one after another. -/
def insertAll (entries : Entries) (more : List (Value × Value)) : Entries :=
  more.foldl (fun entries entry => insert entry.1 entry.2 entries) entries

/-- The map that arises when entries are inserted one after another. -/
def ofList (entries : List (Value × Value)) : Entries :=
  insertAll [] entries

/-- An entry whose key is equal to no key before it is added at the end. -/
theorem insert_of_forall_ne {key : Value} {entries : Entries}
    (h : ∀ entry ∈ entries, (entry.1 == key) = false) (value : Value) :
    insert key value entries = entries ++ [(key, value)] := by
  induction entries with
  | nil => rfl
  | cons first rest ih =>
    have hrest := ih fun entry hmem => h entry (List.mem_cons_of_mem first hmem)
    rw [insert, h first List.mem_cons_self, if_neg Bool.false_ne_true, hrest, List.cons_append]

/-- Entries without two equal keys are inserted as they are, one behind the other. -/
theorem insertAll_eq_append {entries more : Entries}
    (h : (entries ++ more).Pairwise fun a b => (a.1 == b.1) = false) :
    insertAll entries more = entries ++ more := by
  induction more generalizing entries with
  | nil => exact (List.append_nil entries).symm
  | cons first rest ih =>
    have hfirst : ∀ entry ∈ entries, (entry.1 == first.1) = false := fun entry hmem =>
      (List.pairwise_append.mp h).2.2 entry hmem first List.mem_cons_self
    rw [List.append_cons] at h ⊢
    rw [← ih h, insertAll, List.foldl_cons, insert_of_forall_ne hfirst]
    rfl

/-- Whether the key answers to a name. -/
def answers (m : KeyMatching) (name : String) (key : Value) : Bool :=
  key.keyText?.any fun text => m.agree text name

/-- The value of the first entry whose key answers to a name. -/
def find? (m : KeyMatching) (name : String) (entries : Entries) : Option Value :=
  (List.find? (fun entry => answers m name entry.1) entries).map (·.2)

/-- With other values, the entries answer as before, with the other value. -/
theorem find?_map_values (m : KeyMatching) (name : String) (f : Value → Value)
    (entries : Entries) :
    find? m name (entries.map fun entry => (entry.1, f entry.2)) =
      (find? m name entries).map f := by
  rw [find?, find?, List.find?_map, Option.map_map, Option.map_map]
  rfl

end ValuePath.Entries
