import ValuePath.Value.Entries

/-!
# Handles

A handle is what an extraction is working on: a value, or no value behind a null pointer, and
whether it was reached through a field that callers may not see. Everything that is reached from
a restricted handle is restricted.
-/

namespace ValuePath

/-- A value on the way through a path. -/
structure Handle where
  /-- The value, which is missing behind a null pointer. -/
  value? : Option Value
  /-- Whether the value was reached through a hidden field. -/
  restricted : Bool

namespace Handle

/-- A handle to a value that callers may have. -/
def ofValue (v : Value) : Handle :=
  ⟨some v, false⟩

/-- A handle to a value that callers may not have. -/
def hidden (v : Value) : Handle :=
  ⟨some v, true⟩

/-- A handle without a value. -/
def invalid : Handle :=
  ⟨none, false⟩

/-- Whether the handle has a value. -/
def isValid (h : Handle) : Bool :=
  h.value?.isSome

/-- Whether the handle has a value that may not be handed out. -/
def isRestricted (h : Handle) : Bool :=
  h.restricted && h.isValid

/-- A handle to a value inside, which is restricted if this one is. -/
def child (h : Handle) (v : Value) (restricted : Bool) : Handle :=
  ⟨some v, h.restricted || restricted⟩

/-- The handle behind all layers of pointers. Behind a null pointer it has no value. -/
def followPointers (h : Handle) : Handle :=
  { h with value? := h.value?.bind Value.pointee? }

/-- Whether two handles have equal values, or both none, and the same restriction. -/
def same (a b : Handle) : Bool :=
  eqContent a.value? b.value? && a.restricted = b.restricted

/-- The type of the value in a few words, and an exclamation mark if it may not be handed out. -/
def brief (h : Handle) : String :=
  (match h.value? with
    | none => "invalid"
    | some v => v.typeName) ++ if h.isRestricted then "!" else ""

end Handle

end ValuePath
