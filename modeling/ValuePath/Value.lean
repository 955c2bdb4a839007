import ValuePath.KeyMatching
import ValuePath.Number.Shortest

/-!
# Values

The values that a path leads through. Besides the usual scalars, sequences and maps there are
records, whose fields carry tags and may be hidden, pointers, which may be null, and objects,
which answer look-ups themselves.
-/

namespace ValuePath

/-- An opaque value that answers look-ups itself. Each kind of look-up that it does not offer is
absent; if it offers both kinds of look-up by name, the one that is told how to compare is used.
Only its identity tells one object from another. -/
structure Object (α : Type) where
  /-- The identity of the object. -/
  id : Nat
  /-- The name of the kind of object. -/
  kind : String
  /-- Look-up by name that is told how names are compared. -/
  matchKey? : Option (KeyMatching → String → Option α)
  /-- Look-up by name alone. -/
  findKey? : Option (String → Option α)
  /-- Look-up by position. -/
  findIndex? : Option (UInt64 → Option α)

/-- A field of a record. -/
structure Field (α : Type) where
  /-- The declared name. -/
  name : String
  /-- Keys and values of the tags, in the order in which they were attached. -/
  tags : List (String × String) := []
  /-- Whether callers may have the value. -/
  exported : Bool := true
  /-- Whether the contents of the value are searched as if they belonged to the record. -/
  embedded : Bool := false
  /-- The value of the field. -/
  value : α

/-- The value of the first tag with a key. -/
def Field.tagValue? {α : Type} (f : Field α) (key : String) : Option String :=
  (f.tags.find? fun tag => tag.1 = key).map (·.2)

/-- A list of named fields. -/
structure Record (α : Type) where
  /-- The name of the type of the record. -/
  typeName : String
  /-- The fields in the order of their declaration. -/
  fields : List (Field α)

/-- A value. -/
inductive Value where
  | null
  | boolean (b : Bool)
  | integer (n : Int64)
  | float (x : Binary64)
  | string (s : String)
  /-- A sequence. -/
  | array (items : List Value)
  /-- Keys and values, in the order in which the keys came. -/
  | map (entries : List (Value × Value))
  | record (r : Record Value)
  /-- A pointer to a value, or a null pointer. -/
  | pointer (content : Option Value)
  | object (o : Object Value)

/-- The entries of a map. -/
abbrev Entries := List (Value × Value)

namespace Value

/-- The name of the type of a value. -/
def typeName : Value → String
  | null => "null"
  | boolean _ => "boolean"
  | integer _ => "integer"
  | float _ => "float"
  | string _ => "string"
  | array _ => "array"
  | map _ => "map"
  | record _ => "record"
  | pointer _ => "pointer"
  | object _ => "object"

/-- Null and the null pointer. -/
def isNull : Value → Bool
  | null => true
  | pointer none => true
  | _ => false

/-- The text of a string. -/
def asString? : Value → Option String
  | string s => some s
  | _ => none

/-- The number of an integer. -/
def asInteger? : Value → Option Int64
  | integer n => some n
  | _ => none

/-- The text that a map key is looked up by. Only scalars other than null have one. -/
def keyText? : Value → Option String
  | string s => some s
  | integer n => some (toString n.toInt)
  | float x => some x.text
  | boolean b => some (if b then "true" else "false")
  | _ => none

/-- The value behind all layers of pointers, which is none behind a null pointer. -/
def pointee? : Value → Option Value
  | pointer none => none
  | pointer (some v) => v.pointee?
  | v => some v
termination_by structural v => v

end Value

/-- Types that can present themselves as a record. -/
class Describe (α : Type) where
  /-- The record that a value of the type presents itself as. -/
  describe : α → Record Value

instance : Describe (Record Value) := ⟨id⟩

/-- The record that a value of a describing type presents itself as. -/
def Value.describe {α : Type} [Describe α] (a : α) : Value :=
  .record (Describe.describe a)

end ValuePath
