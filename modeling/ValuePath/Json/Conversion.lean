import ValuePath.Json
import ValuePath.Value.Entries

/-!
# Values and JSON documents

* `Value.ofJson` gives the value of a document. An integer outside of the range of 64 bits with a
  sign becomes a floating point number.
* `Value.toJson?` gives the document of a value. Pointers are transparent, a map becomes an object
  by the texts of its keys, and a record becomes one by the names of its exported fields. Objects
  that answer look-ups have no document, nor have maps with a key that has no text, nor anything
  that holds one of these.
-/

namespace ValuePath

mutual

/-- The value of a document. -/
def Value.ofJson : Json → Value
  | .null => .null
  | .bool b => .boolean b
  | .integer n =>
    if -0x8000000000000000 ≤ n ∧ n < 0x8000000000000000 then .integer (Int64.ofInt n)
    else .float (Binary64.ofInt n)
  | .float x => .float x
  | .string s => .string s
  | .array items => .array (valuesOfItems items)
  | .object members => .map (Entries.ofList (entriesOfMembers members))
termination_by structural json => json

/-- The values of the elements of a document. -/
def valuesOfItems : List Json → List Value
  | [] => []
  | item :: rest => Value.ofJson item :: valuesOfItems rest
termination_by structural items => items

/-- The entries of the members of a document. -/
def entriesOfMembers : List (String × Json) → List (Value × Value)
  | [] => []
  | (name, item) :: rest => (.string name, Value.ofJson item) :: entriesOfMembers rest
termination_by structural members => members

end

mutual

/-- The document of a value. A number that is not finite becomes null. -/
def Value.toJson? : Value → Option Json
  | .null => some .null
  | .boolean b => some (.bool b)
  | .integer n => some (.integer n.toInt)
  | .float x => some (if x.isFinite then .float x else .null)
  | .string s => some (.string s)
  | .array items => (jsonOfItems? items).map .array
  | .map entries => (membersOfEntries? entries).map fun members => .object (Json.sortMembers members)
  | .record r => (membersOfFields? r.fields).map fun members => .object (Json.sortMembers members)
  | .pointer content => jsonOfContent? content
  | .object _ => none
termination_by structural v => v

/-- The documents of the elements of a sequence. -/
def jsonOfItems? : List Value → Option (List Json)
  | [] => some []
  | item :: rest => do return (← item.toJson?) :: (← jsonOfItems? rest)
termination_by structural items => items

/-- The members of the entries of a map, by the texts of the keys. -/
def membersOfEntries? : List (Value × Value) → Option (List (String × Json))
  | [] => some []
  | (key, v) :: rest => do return (← key.keyText?, ← v.toJson?) :: (← membersOfEntries? rest)
termination_by structural entries => entries

/-- The members of the exported fields of a record, by the declared names. -/
def membersOfFields? : List (Field Value) → Option (List (String × Json))
  | [] => some []
  | f :: rest =>
    if f.exported then do return (f.name, ← f.value.toJson?) :: (← membersOfFields? rest)
    else membersOfFields? rest
termination_by structural fields => fields

/-- The document of the content of a pointer, null behind a null pointer. -/
def jsonOfContent? : Option Value → Option Json
  | none => some .null
  | some v => v.toJson?
termination_by structural content => content

end

end ValuePath
