import ValuePath.Proofs.Number.Comparison
import ValuePath.Proofs.Value.Equality

/-!
# Values that are equal to themselves

Equality of values is a partial equivalence: it can be turned around and chained. It fails to be
reflexive only for one reason, which is that a NaN stands for no number, and it does so in every
value that holds a NaN at some depth. Objects hold nothing that is compared.

* `Value.HasNaN` says that a value holds a NaN.
* `Value.eq_self_iff`: a value is equal to itself exactly if it holds none.
* `Value.partialEquivalence_beq` puts this together with what equality is on numbers and objects.
-/

namespace ValuePath

/-- A NaN among the numbers of a value: the value itself, or in one of its items, in a key or in the
value of one of its entries, in one of its fields, hidden ones included, or behind a pointer. -/
inductive Value.HasNaN : Value → Prop
  | float {x : Binary64} : x.isNaN = true → HasNaN (.float x)
  | item {items : List Value} {v : Value} : v ∈ items → HasNaN v → HasNaN (.array items)
  | key {entries : Entries} {entry : Value × Value} :
      entry ∈ entries → HasNaN entry.1 → HasNaN (.map entries)
  | entry {entries : Entries} {entry : Value × Value} :
      entry ∈ entries → HasNaN entry.2 → HasNaN (.map entries)
  | field {r : Record Value} {f : Field Value} : f ∈ r.fields → HasNaN f.value → HasNaN (.record r)
  | pointer {v : Value} : HasNaN v → HasNaN (.pointer (some v))

/-- A number is equal to itself unless it is a NaN. -/
theorem Binary64.numEq_self_iff (x : Binary64) : x.numEq x = true ↔ ¬x.isNaN = true := by
  simp [numEq_iff]

namespace Value

/-- A value is equal to itself exactly if no NaN is in it. -/
theorem eq_self_iff (v : Value) : v.eq v = true ↔ ¬v.HasNaN := by
  -- a value and itself have the same parts in the same places, so that each is compared to itself
  induction v with
  | null | boolean | integer | string | nullPointer | object =>
    refine iff_of_true (eq_iff_partsEq.mpr ?_) nofun
    constructor <;> rfl
  | float x =>
    rw [show (float x).eq (float x) = x.numEq x from rfl, Binary64.numEq_self_iff]
    refine not_congr ⟨.float, fun h => ?_⟩
    cases h with
    | float hx => exact hx
  | array items ih =>
    constructor
    · intro h hnan
      cases eq_iff_partsEq.mp h with
      | array hitems =>
        cases hnan with
        | item hmem hv => exact (ih _ hmem).mp (List.forall₂_same.mp hitems _ hmem) hv
    · intro hno
      refine eq_iff_partsEq.mpr (.array (List.forall₂_same.mpr fun v hmem => ?_))
      exact (ih v hmem).mpr fun hv => hno (.item hmem hv)
  | map entries ih =>
    constructor
    · intro h hnan
      cases eq_iff_partsEq.mp h with
      | map hentries =>
        cases hnan with
        | key hmem hv => exact (ih _ hmem).1.mp (List.forall₂_same.mp hentries _ hmem).1 hv
        | entry hmem hv => exact (ih _ hmem).2.mp (List.forall₂_same.mp hentries _ hmem).2 hv
    · intro hno
      refine eq_iff_partsEq.mpr (.map (List.forall₂_same.mpr fun entry hmem => ⟨?_, ?_⟩))
      · exact (ih entry hmem).1.mpr fun hv => hno (.key hmem hv)
      · exact (ih entry hmem).2.mpr fun hv => hno (.entry hmem hv)
  | record r ih =>
    constructor
    · intro h hnan
      cases eq_iff_partsEq.mp h with
      | record _ hfields =>
        cases hnan with
        | field hmem hv => exact (ih _ hmem).mp (List.forall₂_same.mp hfields _ hmem).value_eq hv
    · intro hno
      refine eq_iff_partsEq.mpr (.record rfl (List.forall₂_same.mpr fun f hmem => ?_))
      exact ⟨rfl, rfl, rfl, rfl, (ih f hmem).mpr fun hv => hno (.field hmem hv)⟩
  | pointer v ih =>
    constructor
    · intro h hnan
      cases eq_iff_partsEq.mp h with
      | pointer hequal =>
        cases hnan with
        | pointer hv => exact ih.mp hequal hv
    · intro hno
      exact eq_iff_partsEq.mpr (.pointer (ih.mpr fun hv => hno (.pointer hv)))

/-- Floating point numbers are equal as values exactly if their bits stand for the same number. -/
theorem float_beq_iff {x y : Binary64} :
    (float x == float y) = true ↔ ∃ number, x.number? = some number ∧ y.number? = some number :=
  Binary64.numEq_iff_number?

/-- Objects are equal as values exactly if they are the same object. -/
theorem object_beq_iff {o o' : Object Value} : (object o == object o') = true ↔ o.id = o'.id :=
  decide_eq_true_iff

/-- Equality of values can be turned around and chained. Floating point numbers are equal if their
bits stand for the same number, which no NaN has and both zeros have, and objects are equal if they
have the same identity. A value is equal to itself exactly if it holds no NaN at any depth. -/
theorem partialEquivalence_beq :
    (∀ v w : Value, (v == w) = true → (w == v) = true) ∧
      (∀ u v w : Value, (u == v) = true → (v == w) = true → (u == w) = true) ∧
      (∀ x y : Binary64, (float x == float y) = true ↔
        ∃ number, x.number? = some number ∧ y.number? = some number) ∧
      (∀ o o' : Object Value, (object o == object o') = true ↔ o.id = o'.id) ∧
      ∀ v : Value, (v == v) = true ↔ ¬v.HasNaN := by
  refine ⟨fun v w => eq_symm, fun u v w => eq_trans, fun x y => float_beq_iff,
    fun o o' => object_beq_iff, eq_self_iff⟩

/-- Two zeros behind a pointer and in a map, of either sign, and a NaN in a hidden field. -/
theorem partialEquivalence_beq_of_zeros :
    let negativeZero : Value := .float ⟨0x8000000000000000⟩
    let zeros (first second : Value) : Value :=
      .array [.pointer (some first), .map [(second, .string "a")]]
    let u := zeros (.float ⟨0⟩) (.float ⟨0⟩)
    let v := zeros (.float ⟨0⟩) negativeZero
    let w := zeros negativeZero negativeZero
    let nan : Value := .float .nan
    let undefined : Value := .record ⟨"T", [⟨"f", [], false, false, .pointer (some nan)⟩]⟩
    ((u == v) = true ∧ (v == w) = true ∧ (u == w) = true ∧ (w == u) = true) ∧
      undefined.HasNaN ∧ (undefined == undefined) = false := by
  intro negativeZero zeros u v w nan undefined
  obtain ⟨hsymm, htrans, -, -, hself⟩ := partialEquivalence_beq
  have huv : (u == v) = true := by decide
  have hvw : (v == w) = true := by decide
  have huw : (u == w) = true := htrans u v w huv hvw
  -- the field is hidden from callers, but not from the comparison
  have hnan : undefined.HasNaN := .field List.mem_cons_self (.pointer (.float (by decide)))
  refine ⟨⟨huv, hvw, huw, hsymm u w huw⟩, hnan, ?_⟩
  rw [Bool.eq_false_iff, Ne, hself]
  exact not_not_intro hnan

end Value

end ValuePath
