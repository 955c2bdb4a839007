import ValuePath.Extraction
import ValuePath.Number.Shortest
import ValuePath.Proofs.Number.Comparison
import ValuePath.Proofs.Value.Equality

/-!
# Looking up what was inserted

An insertion goes by the equality of keys, and a look-up by their texts. So a value that was just
inserted is found under the text of the key that it is held under, unless an entry with another key
of the same text stands before it. Under every other name the map answers as before.

The key that a value is held under is the first one that is equal to the inserted key. The two have
the same text, with one exception: zeros of opposite signs are equal, but their texts differ by the
sign.

* `Entries.before`, `Entries.heldKey` and `Entries.behind` are the parts of a map from which an
  insertion takes its result, by `Entries.insert_eq`.
* `Entries.find?_insert_of_answers` and `Entries.find?_insert_of_not_answers`: what is found after
  an insertion, however names are compared.
* `Value.keyText?_of_beq`: the texts of two equal keys.
* `Entries.keyStep_insert` puts these together.
-/

namespace ValuePath

namespace Entries

/-- The entries in front of the first one with an equal key, which are all entries if there is
none. -/
def before (key : Value) (entries : Entries) : Entries :=
  entries.takeWhile fun entry => !(entry.1 == key)

/-- The key that a value is held under when it has been inserted under a key: the first one that is
equal, or else the key itself. -/
def heldKey (key : Value) (entries : Entries) : Value :=
  ((List.find? (fun entry => entry.1 == key) entries).map (·.1)).getD key

/-- The entries behind the first one with an equal key. -/
def behind (key : Value) (entries : Entries) : Entries :=
  (entries.dropWhile fun entry => !(entry.1 == key)).tail

/-- What a step by name finds in a map with default options. -/
def keyStep (name : String) (entries : Entries) : Search (Option Handle) :=
  (Step.key name).extractHooked {} (.ofValue (.map entries))

/-! ## The place of an insertion -/

theorem heldKey_cons (key : Value) (first : Value × Value) (rest : Entries) :
    heldKey key (first :: rest) = if first.1 == key then first.1 else heldKey key rest := by
  cases hkey : first.1 == key <;> simp [heldKey, hkey]

/-- The value that is held under the key is replaced, and everything around it stays. -/
theorem insert_eq (key value : Value) (entries : Entries) :
    insert key value entries =
      before key entries ++ (heldKey key entries, value) :: behind key entries := by
  induction entries with
  | nil => rfl
  | cons first rest ih =>
    cases hkey : first.1 == key with
    | true => simp [insert, heldKey_cons, before, behind, hkey]
    | false =>
      rw [insert, hkey, if_neg Bool.false_ne_true, ih]
      simp [heldKey_cons, before, behind, hkey]

/-- The key that a value is held under is the inserted one, or it is equal to it. -/
theorem heldKey_eq_or_beq (key : Value) (entries : Entries) :
    heldKey key entries = key ∨ (heldKey key entries == key) = true := by
  induction entries with
  | nil => exact .inl rfl
  | cons first rest ih =>
    rw [heldKey_cons]
    cases hkey : first.1 == key with
    | true => exact .inr hkey
    | false => exact ih

/-! ## Look-up after an insertion -/

section Lookup

variable (m : KeyMatching) (name : String)

theorem find?_cons (first : Value × Value) (rest : Entries) :
    find? m name (first :: rest) =
      if answers m name first.1 then some first.2 else find? m name rest := by
  cases hfirst : answers m name first.1 <;> simp [find?, hfirst]

theorem find?_append (entries more : Entries) :
    find? m name (entries ++ more) = (find? m name entries).or (find? m name more) := by
  rw [find?, List.find?_append, Option.map_or]
  rfl

variable {m : KeyMatching} {name : String} {key : Value} {entries : Entries}

/-- A name to which the held key answers is found in front of the place of the insertion, or else
there. -/
theorem find?_insert_of_answers (h : answers m name (heldKey key entries) = true) (value : Value) :
    find? m name (insert key value entries) =
      some ((find? m name (before key entries)).getD value) := by
  rw [insert_eq, find?_append, find?_cons, if_pos h]
  cases find? m name (before key entries) <;> rfl

/-- A name to which the held key does not answer is found as before. -/
theorem find?_insert_of_not_answers (h : answers m name (heldKey key entries) = false)
    (value : Value) : find? m name (insert key value entries) = find? m name entries := by
  induction entries with
  | nil => exact (find?_cons m name (key, value) []).trans (if_neg (Bool.eq_false_iff.mp h))
  | cons first rest ih =>
    rw [heldKey_cons] at h
    cases hkey : first.1 == key with
    | true =>
      -- the entry whose value is replaced is found neither before nor after
      rw [hkey, if_pos rfl] at h
      rw [insert, hkey, if_pos rfl, find?_cons, find?_cons, h, if_neg Bool.false_ne_true,
        if_neg Bool.false_ne_true]
    | false =>
      rw [hkey, if_neg Bool.false_ne_true] at h
      rw [insert, hkey, if_neg Bool.false_ne_true, find?_cons, find?_cons, ih h]

end Lookup

/-- With default options a key answers to its text alone. -/
theorem answers_default_iff {name : String} {key : Value} :
    answers ({} : Options).matching name key = true ↔ key.keyText? = some name := by
  cases htext : key.keyText? <;> simp [answers, htext, Options.matching, KeyMatching.agree]

/-- With default options a step by name finds what is found in the map. -/
theorem keyStep_eq (name : String) (entries : Entries) :
    keyStep name entries =
      pure ((find? ({} : Options).matching name entries).map Handle.ofValue) :=
  rfl

end Entries

/-! ## Texts of equal keys -/

/-- Two zeros, one of them negative and the other one not. -/
inductive Value.AreOppositeZeros : Value → Value → Prop
  | float {x y : Binary64} : x.isZero = true → y.isZero = true → x.isNegative ≠ y.isNegative →
      AreOppositeZeros (.float x) (.float y)

/-- The text of a zero is its sign and the digit. -/
theorem Binary64.text_of_isZero {x : Binary64} (h : x.isZero = true) :
    x.text = (if x.isNegative then "-" else "") ++ "0" := by
  have hnan : x.isNaN = false := by
    rw [isZero, Bool.and_eq_true, decide_eq_true_eq] at h
    rw [isNaN, h.1]
    rfl
  simp [text, hnan, isFinite_of_isZero h, h]

/-- Equal keys have the same text, unless they are zeros of opposite signs. -/
theorem Value.keyText?_of_beq {key other : Value} (h : (key == other) = true) :
    key.keyText? = other.keyText? ∨ key.AreOppositeZeros other := by
  cases eq_iff_partsEq.mp h with
  | @float x y hxy =>
    obtain ⟨-, -, hbits | ⟨hx, hy⟩⟩ := Binary64.numEq_iff.mp hxy
    · obtain rfl : x = y := congrArg Binary64.mk hbits
      exact .inl rfl
    · by_cases hsign : x.isNegative = y.isNegative
      · refine .inl (congrArg some ?_)
        rw [Binary64.text_of_isZero hx, Binary64.text_of_isZero hy, hsign]
      · exact .inr (.float hx hy hsign)
  | null | boolean | integer | string | array | map | record | nullPointer | pointer | object =>
    exact .inl rfl

/-! ## Steps by name -/

namespace Entries

/-- The inserted key and the one that its value is held under have texts, which are the same unless
the keys are zeros of opposite signs. -/
theorem exists_keyText?_heldKey {key : Value} {text : String} (htext : key.keyText? = some text)
    (entries : Entries) :
    ∃ heldText, (heldKey key entries).keyText? = some heldText ∧
      (heldText = text ∨ (heldKey key entries).AreOppositeZeros key) := by
  rcases heldKey_eq_or_beq key entries with hsame | hequal
  · exact ⟨text, by rw [hsame, htext], .inl rfl⟩
  · rcases Value.keyText?_of_beq hequal with hsame | hzeros
    · exact ⟨text, hsame.trans htext, .inl rfl⟩
    · -- the held key is a zero as well, and each zero has a text
      cases hheld : heldKey key entries with
      | float x => exact ⟨x.text, rfl, .inr (hheld ▸ hzeros)⟩
      | _ => rw [hheld] at hzeros; cases hzeros

/-- A value that is inserted takes the place of the one under the first equal key, or else comes to
the end. A step by the text of the key that it is held under finds it, unless a key with the same
text, which is not equal to the inserted one, stands before it; then the value under the first such
key is found. Steps by all other names find what they found before. The text of the held key is
that of the inserted one, unless the two are zeros of opposite signs. -/
theorem keyStep_insert (entries : Entries) (key value : Value) (text : String)
    (htext : key.keyText? = some text) :
    insert key value entries =
        before key entries ++ (heldKey key entries, value) :: behind key entries ∧
      ∃ heldText, (heldKey key entries).keyText? = some heldText ∧
        (heldText = text ∨ (heldKey key entries).AreOppositeZeros key) ∧
        keyStep heldText (insert key value entries) =
          pure (some (.ofValue (Option.elim
            (List.find? (fun entry => entry.1.keyText? = some heldText) (before key entries))
            value (·.2)))) ∧
        ∀ name, name ≠ heldText →
          keyStep name (insert key value entries) = keyStep name entries := by
  refine ⟨insert_eq key value entries, ?_⟩
  obtain ⟨heldText, hheld, hsame⟩ := exists_keyText?_heldKey htext entries
  refine ⟨heldText, hheld, hsame, ?_, fun name hname => ?_⟩
  · -- with default options, to answer to a name is to have it as a text
    have hanswers : (fun entry : Value × Value =>
        answers ({} : Options).matching heldText entry.1) =
          fun entry => decide (entry.1.keyText? = some heldText) := by
      funext entry
      rw [Bool.eq_iff_iff, answers_default_iff, decide_eq_true_eq]
    rw [keyStep_eq, find?_insert_of_answers (answers_default_iff.mpr hheld), find?, hanswers]
    cases List.find? (fun entry => decide (entry.1.keyText? = some heldText))
      (before key entries) <;> rfl
  · have hother : answers ({} : Options).matching name (heldKey key entries) = false := by
      rw [Bool.eq_false_iff, Ne, answers_default_iff, hheld, Option.some_inj]
      exact Ne.symm hname
    rw [keyStep_eq, keyStep_eq, find?_insert_of_not_answers hother]

/-- The number one is inserted into a map that holds another value under it, behind a text with the
same look. -/
theorem keyStep_insert_of_same_text :
    let entries := ofList [(.string "1", .boolean true), (.integer 1, .null), (.string "b", .null)]
    (Value.integer 1).keyText? = some "1" ∧
      keyStep "1" (insert (.integer 1) (.boolean false) entries) =
        pure (some (.ofValue (.boolean true))) ∧
      keyStep "b" (insert (.integer 1) (.boolean false) entries) =
        pure (some (.ofValue .null)) := by
  intro entries
  obtain ⟨-, heldText, hheld, -, hfound, hother⟩ :=
    keyStep_insert entries (.integer 1) (.boolean false) "1" rfl
  obtain rfl : "1" = heldText := Option.some.inj hheld
  exact ⟨rfl, hfound, hother "b" (by decide)⟩

/-- A value that is inserted under the negative zero is not found under its text if the map holds
the positive zero. It is found under the text of that one, under which another value was found
before. -/
theorem not_keyStep_insert_of_opposite_zeros :
    let negativeZero : Value := .float ⟨0x8000000000000000⟩
    let entries := ofList [(.float ⟨0⟩, .string "a")]
    let inserted := insert negativeZero (.string "b") entries
    negativeZero.keyText? = some "-0" ∧ before negativeZero entries = [] ∧
      keyStep "-0" inserted = pure none ∧
      keyStep "-0" inserted ≠ pure (some (.ofValue (.string "b"))) ∧
      keyStep "0" entries = pure (some (.ofValue (.string "a"))) ∧
      keyStep "0" inserted = pure (some (.ofValue (.string "b"))) ∧
      keyStep "0" inserted ≠ keyStep "0" entries := by
  intro negativeZero entries inserted
  -- the entry keeps the positive zero as its key
  have hmissing : keyStep "-0" inserted = pure none := rfl
  have hbefore : keyStep "0" entries = pure (some (.ofValue (.string "a"))) := rfl
  have hafter : keyStep "0" inserted = pure (some (.ofValue (.string "b"))) := rfl
  refine ⟨rfl, rfl, hmissing, ?_, hbefore, hafter, ?_⟩
  · rw [hmissing]
    simp [pure, Search.done]
  · rw [hbefore, hafter]
    simp [pure, Search.done, Handle.ofValue]

end Entries

end ValuePath
