import ValuePath.Value

/-!
# Induction over values

Values are nested in lists of items, entries and fields, and behind pointers. The principle here
hides the nesting: what is to be shown of a value may be assumed of all its parts. An object has
no parts, since what it answers is only known to itself.
-/

namespace ValuePath

/-- The value of a field is smaller than any list that the field stands in. -/
theorem Field.sizeOf_value_lt_of_mem {f : Field Value} {fields : List (Field Value)}
    (hmem : f ∈ fields) : sizeOf f.value < sizeOf fields := by
  refine Nat.lt_trans ?_ (List.sizeOf_lt_of_mem hmem)
  rw [Field.mk.sizeOf_spec]
  omega

/-- Induction over values, in which a property may be assumed of the parts of a value. -/
@[elab_as_elim, induction_eliminator]
theorem Value.induction {motive : Value → Prop}
    (null : motive .null)
    (boolean : ∀ b, motive (.boolean b))
    (integer : ∀ n, motive (.integer n))
    (float : ∀ x, motive (.float x))
    (string : ∀ s, motive (.string s))
    (array : ∀ items, (∀ v ∈ items, motive v) → motive (.array items))
    (map : ∀ entries, (∀ entry ∈ entries, motive entry.1 ∧ motive entry.2) →
      motive (.map entries))
    (record : ∀ r, (∀ f ∈ r.fields, motive f.value) → motive (.record r))
    (nullPointer : motive (.pointer none))
    (pointer : ∀ v, motive v → motive (.pointer (some v)))
    (object : ∀ o, motive (.object o)) (v : Value) : motive v := by
  suffices hbounded : ∀ bound v, sizeOf v < bound → motive v from
    hbounded (sizeOf v + 1) v (Nat.lt_succ_self _)
  intro bound
  induction bound with
  | zero => exact fun v hsmall => absurd hsmall (Nat.not_lt_zero _)
  | succ bound ih =>
    intro v hsmall
    match v with
    | .null => exact null
    | .boolean b => exact boolean b
    | .integer n => exact integer n
    | .float x => exact float x
    | .string s => exact string s
    | .array items =>
      refine array items fun u hmem => ih u ?_
      have hlt := List.sizeOf_lt_of_mem hmem
      rw [Value.array.sizeOf_spec] at hsmall
      omega
    | .map entries =>
      refine map entries fun entry hmem => ?_
      have hlt := List.sizeOf_lt_of_mem hmem
      rw [Prod.mk.sizeOf_spec] at hlt
      rw [Value.map.sizeOf_spec] at hsmall
      exact ⟨ih entry.1 (by omega), ih entry.2 (by omega)⟩
    | .record r =>
      refine record r fun f hmem => ih f.value ?_
      have hlt := Field.sizeOf_value_lt_of_mem hmem
      rw [Value.record.sizeOf_spec, Record.mk.sizeOf_spec] at hsmall
      omega
    | .pointer none => exact nullPointer
    | .pointer (some u) =>
      refine pointer u (ih u ?_)
      rw [Value.pointer.sizeOf_spec, Option.some.sizeOf_spec] at hsmall
      omega
    | .object o => exact object o

end ValuePath
