import ValuePath.Value

/-!
# Equality of values

Values are equal when they have the same kind and equal contents. Floating point numbers are equal
as numbers, so that a NaN differs from itself and both zeros are equal; an integer is never equal
to a floating point number. Objects are equal only to themselves.
-/

namespace ValuePath

mutual

/-- Whether two values are equal. -/
def Value.eq : Value → Value → Bool
  | .null, .null => true
  | .boolean a, .boolean b => a = b
  | .integer a, .integer b => a = b
  | .float a, .float b => a.numEq b
  | .string a, .string b => a = b
  | .array a, .array b => eqItems a b
  | .map a, .map b => eqEntries a b
  | .record a, .record b => a.typeName = b.typeName && eqFields a.fields b.fields
  | .pointer a, .pointer b => eqContent a b
  | .object a, .object b => a.id = b.id
  | _, _ => false
termination_by structural v => v

/-- Whether two sequences have equal elements at every place. -/
def eqItems : List Value → List Value → Bool
  | [], [] => true
  | a :: as, b :: bs => a.eq b && eqItems as bs
  | _, _ => false
termination_by structural items => items

/-- Whether two maps have equal keys and values at every place. -/
def eqEntries : List (Value × Value) → List (Value × Value) → Bool
  | [], [] => true
  | (k, a) :: as, (l, b) :: bs => k.eq l && a.eq b && eqEntries as bs
  | _, _ => false
termination_by structural entries => entries

/-- Whether two lists of fields have equal fields at every place. -/
def eqFields : List (Field Value) → List (Field Value) → Bool
  | [], [] => true
  | a :: as, b :: bs =>
    a.name = b.name && a.tags = b.tags && a.exported = b.exported && a.embedded = b.embedded &&
      a.value.eq b.value && eqFields as bs
  | _, _ => false
termination_by structural fields => fields

/-- Whether two pointers are both null or point to equal values. -/
def eqContent : Option Value → Option Value → Bool
  | none, none => true
  | some a, some b => a.eq b
  | _, _ => false
termination_by structural content => content

end

instance : BEq Value := ⟨Value.eq⟩

end ValuePath
