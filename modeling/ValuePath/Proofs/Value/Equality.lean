import Mathlib.Data.List.Forall2
import ValuePath.Proofs.Value.Induction
import ValuePath.Value.Equality

/-!
# Equality of values is a partial equivalence

Values are compared part by part, down to numbers, texts and the identities of objects. Each of
these comparisons can be turned around and can be chained, and so can equality of whole values. It
is not reflexive, since a NaN differs from itself.

* `eqItems_iff`, `eqEntries_iff` and `eqFields_iff`: equality of lists is equality at every place.
* `Value.PartsEq` goes one level down, and `Value.eq_iff_partsEq` says that equality does the same.
* `Value.eq_symm` and `Value.eq_trans`, by which `==` on values is a `PartialEquivBEq`.
-/

namespace ValuePath

/-! ## Numbers -/

namespace Binary64

variable {x y z : Binary64}

theorem numEq_iff :
    x.numEq y = true ↔ x.isNaN = false ∧ y.isNaN = false ∧
      (x.bits = y.bits ∨ x.isZero = true ∧ y.isZero = true) := by
  simp [numEq, and_assoc]

theorem numEq_symm (h : x.numEq y = true) : y.numEq x = true := by
  obtain ⟨hx, hy, hsame⟩ := numEq_iff.mp h
  exact numEq_iff.mpr ⟨hy, hx, hsame.imp Eq.symm And.symm⟩

theorem numEq_trans (hxy : x.numEq y = true) (hyz : y.numEq z = true) : x.numEq z = true := by
  obtain ⟨hx, -, hxy⟩ := numEq_iff.mp hxy
  obtain ⟨-, hz, hyz⟩ := numEq_iff.mp hyz
  refine numEq_iff.mpr ⟨hx, hz, ?_⟩
  -- the same bits are zeros both or neither
  rcases hxy with hbits | ⟨hxzero, hyzero⟩
  · obtain rfl : x = y := congrArg mk hbits
    exact hyz
  · rcases hyz with hbits | ⟨-, hzzero⟩
    · obtain rfl : y = z := congrArg mk hbits
      exact .inr ⟨hxzero, hyzero⟩
    · exact .inr ⟨hxzero, hzzero⟩

end Binary64

/-! ## Lists of parts -/

/-- Two fields have the same label, and equal values. -/
structure Field.Eqv (f g : Field Value) : Prop where
  /-- The declared names are the same. -/
  name_eq : f.name = g.name
  /-- The tags are the same, in the same order. -/
  tags_eq : f.tags = g.tags
  /-- Both fields are exported, or neither is. -/
  exported_eq : f.exported = g.exported
  /-- Both fields are embedded, or neither is. -/
  embedded_eq : f.embedded = g.embedded
  /-- The values are equal. -/
  value_eq : f.value.eq g.value = true

theorem eqItems_iff {items items' : List Value} :
    eqItems items items' = true ↔ List.Forall₂ (fun v w => v.eq w = true) items items' := by
  induction items generalizing items' with
  | nil => cases items' <;> simp [eqItems]
  | cons v rest ih => cases items' <;> simp [eqItems, ih]

theorem eqEntries_iff {entries entries' : Entries} :
    eqEntries entries entries' = true ↔
      List.Forall₂ (fun e e' => e.1.eq e'.1 = true ∧ e.2.eq e'.2 = true) entries entries' := by
  induction entries generalizing entries' with
  | nil => cases entries' <;> simp [eqEntries]
  | cons entry rest ih => cases entries' <;> simp [eqEntries, ih]

theorem eqFields_iff {fields fields' : List (Field Value)} :
    eqFields fields fields' = true ↔ List.Forall₂ Field.Eqv fields fields' := by
  induction fields generalizing fields' with
  | nil => cases fields' <;> simp [eqFields]
  | cons f rest ih =>
    cases fields' with
    | nil => simp [eqFields]
    | cons g rest' =>
      simp only [eqFields, Bool.and_eq_true, decide_eq_true_eq, ih, List.forall₂_cons]
      constructor
      · rintro ⟨⟨⟨⟨⟨hname, htags⟩, hexported⟩, hembedded⟩, hvalue⟩, hrest⟩
        exact ⟨⟨hname, htags, hexported, hembedded, hvalue⟩, hrest⟩
      · rintro ⟨⟨hname, htags, hexported, hembedded, hvalue⟩, hrest⟩
        exact ⟨⟨⟨⟨⟨hname, htags⟩, hexported⟩, hembedded⟩, hvalue⟩, hrest⟩

section Forall₂

variable {α : Type} {R : α → α → Prop} {as bs cs : List α}

/-- A relation that can be turned around for the elements of a list can be turned around for the
list. -/
theorem forall₂_swap (h : List.Forall₂ R as bs) (hswap : ∀ a ∈ as, ∀ b, R a b → R b a) :
    List.Forall₂ R bs as := by
  induction h with
  | nil => exact .nil
  | cons hab _ ih =>
    refine .cons (hswap _ List.mem_cons_self _ hab) (ih fun a ha => ?_)
    exact hswap a (List.mem_cons_of_mem _ ha)

/-- A relation that can be chained for the elements of a list can be chained for the list. -/
theorem forall₂_chain (hab : List.Forall₂ R as bs) (hbc : List.Forall₂ R bs cs)
    (hchain : ∀ a ∈ as, ∀ b c, R a b → R b c → R a c) : List.Forall₂ R as cs := by
  induction hab generalizing cs with
  | nil => exact hbc
  | cons hfirst _ ih =>
    cases hbc with
    | cons hsecond hrest =>
      refine .cons (hchain _ List.mem_cons_self _ _ hfirst hsecond) (ih hrest fun a ha => ?_)
      exact hchain a (List.mem_cons_of_mem _ ha)

end Forall₂

namespace Value

/-! ## Kinds and parts -/

/-- Two values have the same kind, and their parts are equal. This is one level of the comparison,
with a case for each kind. -/
inductive PartsEq : Value → Value → Prop
  | null : PartsEq .null .null
  | boolean (b : Bool) : PartsEq (.boolean b) (.boolean b)
  | integer (n : Int64) : PartsEq (.integer n) (.integer n)
  | float {x y : Binary64} : x.numEq y = true → PartsEq (.float x) (.float y)
  | string (s : String) : PartsEq (.string s) (.string s)
  | array {items items' : List Value} :
      List.Forall₂ (fun v w => v.eq w = true) items items' → PartsEq (.array items) (.array items')
  | map {entries entries' : Entries} :
      List.Forall₂ (fun e e' => e.1.eq e'.1 = true ∧ e.2.eq e'.2 = true) entries entries' →
        PartsEq (.map entries) (.map entries')
  | record {r r' : Record Value} :
      r.typeName = r'.typeName → List.Forall₂ Field.Eqv r.fields r'.fields →
        PartsEq (.record r) (.record r')
  | nullPointer : PartsEq (.pointer none) (.pointer none)
  | pointer {u w : Value} : u.eq w = true → PartsEq (.pointer (some u)) (.pointer (some w))
  | object {o o' : Object Value} : o.id = o'.id → PartsEq (.object o) (.object o')

/-- Values are equal exactly if they have the same kind and equal parts. -/
theorem eq_iff_partsEq {v w : Value} : v.eq w = true ↔ PartsEq v w := by
  constructor
  · -- one case for each row of the comparison, the last of which is for values of other kinds
    fun_cases eq v w with
    | case1 => exact fun _ => .null
    | case2 a b =>
      intro h
      obtain rfl := of_decide_eq_true h
      exact .boolean a
    | case3 a b =>
      intro h
      obtain rfl := of_decide_eq_true h
      exact .integer a
    | case4 x y => exact .float
    | case5 a b =>
      intro h
      obtain rfl := of_decide_eq_true h
      exact .string a
    | case6 items items' => exact fun h => .array (eqItems_iff.mp h)
    | case7 entries entries' => exact fun h => .map (eqEntries_iff.mp h)
    | case8 r r' =>
      intro h
      obtain ⟨htype, hfields⟩ := Bool.and_eq_true_iff.mp h
      exact .record (of_decide_eq_true htype) (eqFields_iff.mp hfields)
    | case9 content content' =>
      match content, content' with
      | none, none => exact fun _ => .nullPointer
      | some u, some u' => exact .pointer
      | none, some _ | some _, none => exact fun h => nomatch h
    | case10 o o' => exact fun h => .object (of_decide_eq_true h)
    | case11 => exact fun h => nomatch h
  · intro h
    cases h with
    | null | nullPointer => rfl
    | boolean | integer | string => exact decide_eq_true rfl
    | float hnum => exact hnum
    | array hitems => exact eqItems_iff.mpr hitems
    | map hentries => exact eqEntries_iff.mpr hentries
    | record htype hfields =>
      exact Bool.and_eq_true_iff.mpr ⟨decide_eq_true htype, eqFields_iff.mpr hfields⟩
    | pointer hu => exact hu
    | object hid => exact decide_eq_true hid

/-! ## Symmetry and transitivity -/

/-- Equality can be turned around. -/
theorem eq_symm {v w : Value} (h : v.eq w = true) : w.eq v = true := by
  -- the induction is on the left value, whose kind is that of the right one
  induction v generalizing w with
  | null | boolean | integer | string | nullPointer =>
    cases eq_iff_partsEq.mp h
    exact h
  | float x =>
    cases eq_iff_partsEq.mp h with
    | float hxy => exact eq_iff_partsEq.mpr (.float (Binary64.numEq_symm hxy))
  | array items ih =>
    cases eq_iff_partsEq.mp h with
    | array hitems =>
      exact eq_iff_partsEq.mpr (.array (forall₂_swap hitems fun u hu _ => ih u hu))
  | map entries ih =>
    cases eq_iff_partsEq.mp h with
    | map hentries =>
      refine eq_iff_partsEq.mpr (.map (forall₂_swap hentries ?_))
      intro entry hentry other hsame
      exact ⟨(ih entry hentry).1 hsame.1, (ih entry hentry).2 hsame.2⟩
  | record r ih =>
    cases eq_iff_partsEq.mp h with
    | record htype hfields =>
      refine eq_iff_partsEq.mpr (.record htype.symm (forall₂_swap hfields ?_))
      intro f hf g hsame
      exact ⟨hsame.name_eq.symm, hsame.tags_eq.symm, hsame.exported_eq.symm,
        hsame.embedded_eq.symm, ih f hf hsame.value_eq⟩
  | pointer u ih =>
    cases eq_iff_partsEq.mp h with
    | pointer hu => exact eq_iff_partsEq.mpr (.pointer (ih hu))
  | object o =>
    cases eq_iff_partsEq.mp h with
    | object hid => exact eq_iff_partsEq.mpr (.object hid.symm)

/-- Equalities can be chained. -/
theorem eq_trans {u v w : Value} (huv : u.eq v = true) (hvw : v.eq w = true) : u.eq w = true := by
  -- the value in the middle has the kind of the first one, and the last one has its kind
  induction u generalizing v w with
  | null | boolean | integer | string | nullPointer =>
    cases eq_iff_partsEq.mp huv
    exact hvw
  | float x =>
    cases eq_iff_partsEq.mp huv with
    | float hxy =>
      cases eq_iff_partsEq.mp hvw with
      | float hyz => exact eq_iff_partsEq.mpr (.float (Binary64.numEq_trans hxy hyz))
  | array items ih =>
    cases eq_iff_partsEq.mp huv with
    | array hitems =>
      cases eq_iff_partsEq.mp hvw with
      | array hitems' =>
        refine eq_iff_partsEq.mpr (.array (forall₂_chain hitems hitems' ?_))
        exact fun a ha _ _ hfirst hsecond => ih a ha hfirst hsecond
  | map entries ih =>
    cases eq_iff_partsEq.mp huv with
    | map hentries =>
      cases eq_iff_partsEq.mp hvw with
      | map hentries' =>
        refine eq_iff_partsEq.mpr (.map (forall₂_chain hentries hentries' ?_))
        intro entry hentry other another hfirst hsecond
        exact ⟨(ih entry hentry).1 hfirst.1 hsecond.1, (ih entry hentry).2 hfirst.2 hsecond.2⟩
  | record r ih =>
    cases eq_iff_partsEq.mp huv with
    | record htype hfields =>
      cases eq_iff_partsEq.mp hvw with
      | record htype' hfields' =>
        refine eq_iff_partsEq.mpr
          (.record (htype.trans htype') (forall₂_chain hfields hfields' ?_))
        intro f hf g k hfirst hsecond
        exact ⟨hfirst.name_eq.trans hsecond.name_eq, hfirst.tags_eq.trans hsecond.tags_eq,
          hfirst.exported_eq.trans hsecond.exported_eq,
          hfirst.embedded_eq.trans hsecond.embedded_eq,
          ih f hf hfirst.value_eq hsecond.value_eq⟩
  | pointer t ih =>
    cases eq_iff_partsEq.mp huv with
    | pointer ht =>
      cases eq_iff_partsEq.mp hvw with
      | pointer ht' => exact eq_iff_partsEq.mpr (.pointer (ih ht ht'))
  | object o =>
    cases eq_iff_partsEq.mp huv with
    | object hid =>
      cases eq_iff_partsEq.mp hvw with
      | object hid' => exact eq_iff_partsEq.mpr (.object (hid.trans hid'))

instance : PartialEquivBEq Value where
  symm := eq_symm
  trans := eq_trans

end Value

end ValuePath
