import Mathlib.Data.List.Induction
import ValuePath.Proofs.Value.Equality
import ValuePath.Value.Entries

/-!
# Maps after any insertions

What a map holds after entries were inserted one after another is told by the list of these entries
alone. A key is held from the first time that an equal one is inserted, and in its place in the
order of these first times. Its value is the one that came last under an equal key.

* `Entries.firstInserted` are the insertions that bring a new key, and `Entries.lastValue` is what
  came last under a key.
* `Entries.insert_eq_append`: where no two keys are equal, an insertion replaces all values under
  equal keys, or adds an entry if there are none.
* `Entries.pairwise_firstInserted`: no two of the keys that are held are equal.
* `Entries.ofList_eq_map_firstInserted` puts them together. Equality of keys is used both ways and
  in chains there, but a key need not be equal to itself.
-/

namespace ValuePath.Entries

/-- The inserted entries whose key is equal to no key inserted before, in the order of insertion. -/
def firstInserted (inserted : List (Value × Value)) : List (Value × Value) :=
  (inserted.zipIdx.filter fun placed =>
    !(inserted.take placed.2).any fun earlier => earlier.1 == placed.1.1).map (·.1)

/-- The value that was inserted last under a key equal to that of the entry, or else the value of
the entry. -/
def lastValue (inserted : List (Value × Value)) (entry : Value × Value) : Value :=
  ((inserted.filter fun other => other.1 == entry.1).getLast?.getD entry).2

/-- The entries with a new key, each with the value that was inserted last under it. -/
def held (inserted : List (Value × Value)) : Entries :=
  (firstInserted inserted).map fun entry => (entry.1, lastValue inserted entry)

/-! ## One insertion -/

/-- Where no two keys are equal, an insertion replaces the value under the equal key, or adds an
entry at the end if there is none. -/
theorem insert_eq_append {key value : Value} {entries : Entries}
    (hdistinct : entries.Pairwise fun a b => (a.1 == b.1) = false) :
    insert key value entries =
      (entries.map fun entry => if entry.1 == key then (entry.1, value) else entry) ++
        if entries.any (·.1 == key) then [] else [(key, value)] := by
  induction entries with
  | nil => rfl
  | cons first rest ih =>
    obtain ⟨hfirst, hrest⟩ := List.pairwise_cons.mp hdistinct
    rw [insert, List.map_cons, List.any_cons]
    by_cases hkey : (first.1 == key) = true
    · -- a second key equal to the inserted one would be equal to the first
      have hother : ∀ entry ∈ rest, ¬(entry.1 == key) = true := by
        intro entry hentry hsame
        have hequal : (first.1 == entry.1) = true := BEq.trans hkey (BEq.symm hsame)
        exact Bool.false_ne_true ((hfirst entry hentry).symm.trans hequal)
      have hkeep : (rest.map fun entry => if entry.1 == key then (entry.1, value) else entry) =
          rest := by
        rw [List.map_congr_left fun entry hentry => if_neg (hother entry hentry), List.map_id']
      rw [if_pos hkey, if_pos hkey, hkey, Bool.true_or, if_pos rfl, hkeep, List.append_nil]
    · rw [if_neg hkey, if_neg hkey, Bool.eq_false_iff.mpr hkey, Bool.false_or, ih hrest,
        List.cons_append]

/-- A key that is not equal to itself is equal to no key, so that an insertion adds an entry. -/
theorem insert_of_ne_self {key : Value} (hself : (key == key) = false) (value : Value)
    (entries : Entries) : insert key value entries = entries ++ [(key, value)] := by
  refine insert_of_forall_ne (fun entry _ => ?_) value
  rw [Bool.eq_false_iff]
  intro hsame
  have hequal : (key == key) = true := BEq.trans (BEq.symm hsame) hsame
  exact Bool.false_ne_true (hself.symm.trans hequal)

/-! ## One insertion after others -/

section Last

variable (inserted : List (Value × Value)) (last : Value × Value)

theorem ofList_append_singleton :
    ofList (inserted ++ [last]) = insert last.1 last.2 (ofList inserted) := by
  rw [ofList, insertAll, List.foldl_append]
  rfl

/-- The last insertion brings a new key if no key before it is equal. -/
theorem firstInserted_append_singleton :
    firstInserted (inserted ++ [last]) =
      firstInserted inserted ++ if inserted.any (·.1 == last.1) then [] else [last] := by
  -- what is inserted last does not stand before any of the others
  have hbefore : (inserted.zipIdx.filter fun placed =>
        !((inserted ++ [last]).take placed.2).any fun earlier => earlier.1 == placed.1.1) =
      inserted.zipIdx.filter fun placed =>
        !(inserted.take placed.2).any fun earlier => earlier.1 == placed.1.1 := by
    refine List.filter_congr fun (entry, place) hentry => ?_
    have hplace : place < inserted.length := by simpa using (List.mem_zipIdx hentry).2.1
    dsimp only
    rw [List.take_append_of_le_length (Nat.le_of_lt hplace)]
  rw [firstInserted, List.zipIdx_append, List.filter_append, List.map_append, hbefore]
  by_cases hseen : (inserted.any (·.1 == last.1)) = true
  · simp [firstInserted, hseen]
  · simp [firstInserted, hseen]

/-- The last insertion decides about the values under keys equal to its own. -/
theorem lastValue_append_singleton (entry : Value × Value) :
    lastValue (inserted ++ [last]) entry =
      if last.1 == entry.1 then last.2 else lastValue inserted entry := by
  rw [lastValue, List.filter_append]
  by_cases hsame : (last.1 == entry.1) = true
  · simp [hsame]
  · simp [hsame, lastValue]

end Last

/-! ## All insertions -/

/-- The entries with a new key are among those inserted. -/
theorem mem_of_mem_firstInserted {inserted : List (Value × Value)} {entry : Value × Value}
    (h : entry ∈ firstInserted inserted) : entry ∈ inserted := by
  obtain ⟨placed, hplaced, rfl⟩ := List.mem_map.mp h
  exact List.fst_mem_of_mem_zipIdx (List.mem_filter.mp hplaced).1

/-- No two of the keys that are held are equal. -/
theorem pairwise_firstInserted (inserted : List (Value × Value)) :
    (firstInserted inserted).Pairwise fun a b => (a.1 == b.1) = false := by
  induction inserted using List.reverseRecOn with
  | nil => exact .nil
  | append_singleton inserted last ih =>
    rw [firstInserted_append_singleton]
    split
    next => rwa [List.append_nil]
    next hnew =>
      refine List.pairwise_append.mpr ⟨ih, List.pairwise_singleton _ _, ?_⟩
      intro entry hentry other hother
      obtain rfl := List.mem_singleton.mp hother
      have hall : ∀ entry ∈ inserted, (entry.1 == other.1) = false := by simpa using hnew
      exact hall entry (mem_of_mem_firstInserted hentry)

/-- A key is equal to one that is held exactly if it is equal to one that was inserted. -/
theorem any_firstInserted (inserted : List (Value × Value)) (key : Value) :
    (firstInserted inserted).any (·.1 == key) = inserted.any (·.1 == key) := by
  induction inserted using List.reverseRecOn with
  | nil => rfl
  | append_singleton inserted last ih =>
    rw [firstInserted_append_singleton, List.any_append, List.any_append, ih]
    split
    next hseen =>
      -- what is equal to the last key is equal to the key before it that the last one is equal to
      obtain ⟨earlier, hearlier, hsame⟩ := List.any_eq_true.mp hseen
      by_cases hlast : (last.1 == key) = true
      · have hany : inserted.any (·.1 == key) = true :=
          List.any_eq_true.mpr ⟨earlier, hearlier, BEq.trans hsame hlast⟩
        rw [hany, Bool.true_or, Bool.true_or]
      · simp [hlast]
    next => rfl

/-- A value that is the first one under its key is the last one as long as no other follows. -/
theorem lastValue_of_forall_ne {inserted : List (Value × Value)} {entry : Value × Value}
    (h : ∀ other ∈ inserted, (other.1 == entry.1) = false) :
    lastValue inserted entry = entry.2 := by
  have hnone : (inserted.filter fun other => other.1 == entry.1) = [] := by simpa using h
  rw [lastValue, hnone]
  rfl

/-- No two of the held entries have equal keys. -/
theorem pairwise_held (inserted : List (Value × Value)) :
    (held inserted).Pairwise fun a b => (a.1 == b.1) = false :=
  List.pairwise_map.mpr (pairwise_firstInserted inserted)

/-- What is held after one more insertion is what one insertion makes of it. -/
theorem held_append_singleton (inserted : List (Value × Value)) (last : Value × Value) :
    held (inserted ++ [last]) = insert last.1 last.2 (held inserted) := by
  have hany : (held inserted).any (·.1 == last.1) = inserted.any (·.1 == last.1) := by
    rw [held, List.any_map]
    exact any_firstInserted inserted last.1
  -- the keys that were held stay, and the last value comes under those equal to the last key
  have hvalues : ((held inserted).map fun entry =>
        if entry.1 == last.1 then (entry.1, last.2) else entry) =
      (firstInserted inserted).map fun entry =>
        (entry.1, lastValue (inserted ++ [last]) entry) := by
    rw [held, List.map_map]
    apply List.map_congr_left
    intro entry _
    rw [lastValue_append_singleton, BEq.comm]
    dsimp only [Function.comp]
    split <;> rfl
  rw [insert_eq_append (pairwise_held inserted), hany, hvalues, held,
    firstInserted_append_singleton, List.map_append]
  by_cases hseen : inserted.any (·.1 == last.1) = true
  · rw [if_pos hseen, List.map_nil]
  · have hnew : ∀ other ∈ inserted, (other.1 == last.1) = false := by simpa using hseen
    rw [if_neg hseen, List.map_singleton, lastValue_append_singleton,
      lastValue_of_forall_ne hnew, ite_self]

/-- A map that arises from insertions holds what they leave. -/
theorem ofList_eq_held (inserted : List (Value × Value)) : ofList inserted = held inserted := by
  induction inserted using List.reverseRecOn with
  | nil => rfl
  | append_singleton inserted last ih =>
    rw [ofList_append_singleton, held_append_singleton, ih]

/-- The map that arises from insertions has an entry for each of them whose key is equal to no key
inserted before, in the order of insertion, with this key and with the value that was inserted last
under an equal key, or its own value if there is none. So no key is equal to a key that stands
before it, and a key that is not equal to itself is added to every map that it is inserted into. -/
theorem ofList_eq_map_firstInserted (inserted : List (Value × Value)) :
    ofList inserted =
        (firstInserted inserted).map (fun entry => (entry.1, lastValue inserted entry)) ∧
      (ofList inserted).Pairwise (fun earlier later => (later.1 == earlier.1) = false) ∧
      ∀ key, (key == key) = false → ∀ value entries,
        insert key value entries = entries ++ [(key, value)] := by
  refine ⟨ofList_eq_held inserted, ?_, fun key hself => insert_of_ne_self hself⟩
  rw [ofList_eq_held]
  refine (pairwise_held inserted).imp fun hne => ?_
  rw [BEq.comm]
  exact hne

/-- Both zeros are one key, which stays the positive one, and a NaN comes twice. -/
theorem ofList_eq_map_firstInserted_of_nan :
    let zero : Value := .float ⟨0⟩
    let negativeZero : Value := .float ⟨0x8000000000000000⟩
    let nan : Value := .float .nan
    let inserted : List (Value × Value) :=
      [(zero, .string "a"), (nan, .string "b"), (negativeZero, .string "c")]
    ofList inserted = [(zero, .string "c"), (nan, .string "b")] ∧ (nan == nan) = false ∧
      insert nan (.string "d") (ofList inserted) =
        [(zero, .string "c"), (nan, .string "b"), (nan, .string "d")] := by
  intro zero negativeZero nan inserted
  obtain ⟨hheld, -, hadd⟩ := ofList_eq_map_firstInserted inserted
  have hself : (nan == nan) = false := by decide
  have hentries : ofList inserted = [(zero, .string "c"), (nan, .string "b")] := hheld
  refine ⟨hentries, hself, ?_⟩
  rw [hadd nan hself, hentries]
  rfl

end ValuePath.Entries
