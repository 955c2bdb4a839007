import ValuePath.Object.Standard
import ValuePath.Options

/-!
# Ready-made hooks

Hooks that log, replace, restrict or redirect an extraction.
-/

namespace ValuePath.Hook

/-- Says what was found after looking at what the extraction behind the hook found. -/
def mapFound (handle : Handle) (f : Handle → Option Handle) : Action :=
  .call handle fun found => .done (found.bind f)

/-- Logs the handle before the extraction, and what was found after it. -/
def trace (id : String) : Hook := fun handle =>
  .log (.enter id handle) (.call handle fun found => .log (.leave id found) (.done found))

/-- Puts a text in front of every string that is found. -/
def prepend (text : String) : Hook := fun handle =>
  mapFound handle fun found =>
    match found.value? with
    | some (.string s) => some (.ofValue (.string (text ++ s)))
    | _ => some found

/-- Finds a fixed value at once. -/
def constant (v : Value) : Hook := fun _ =>
  .done (some (.ofValue v))

/-- Finds a fixed value where there is nothing else. -/
def fallback (v : Value) : Hook := fun handle =>
  .call handle fun found => .done (found.or (some (.ofValue v)))

/-- Finds nothing, after looking. -/
def reject : Hook := fun handle =>
  .call handle fun _ => .done none

/-- Restricts every value that is found. -/
def deny : Hook := fun handle =>
  mapFound handle fun found => found.value?.map .hidden

/-- Lifts the restriction of every value that is found. -/
def allow : Hook := fun handle =>
  mapFound handle fun found => found.value?.map .ofValue

/-- Takes the value from everything that is found. -/
def invalidate : Hook := fun handle =>
  mapFound handle fun _ => some .invalid

/-- Looks through pointers before the extraction. -/
def followBefore : Hook := fun handle =>
  .forward handle.followPointers

/-- Looks through pointers after the extraction. -/
def followAfter : Hook := fun handle =>
  mapFound handle fun found => some found.followPointers

/-- Extracts from what was extracted. -/
def twice : Hook := fun handle =>
  .call handle fun
    | none => .done none
    | some found => .forward found

/-- The entries of a map from strings to strings, each string doubled. -/
def doubledStrings (entries : Entries) : List (String × Value) :=
  entries.filterMap fun
    | (.string key, .string s) => some (key, .string (s ++ s))
    | _ => none

/-- Looks first into an object with the doubled strings of a map, which has the identity `id`, and
then into the map itself. -/
def objectify (id : Nat) : Hook := fun handle =>
  match handle.value? with
  | some (.map entries) =>
    .call (.ofValue (.object (Object.pairs id (doubledStrings entries)))) fun
      | some found => .done (some found)
      | none => .forward handle
  | _ => .forward handle

/-- The exported fields of a record that are named in a tag, by that name in capital letters. -/
def taggedFields (tag : String) (r : Record Value) : List (Value × Value) :=
  r.fields.filterMap fun f =>
    match (f.tagValue? tag).map tagName with
    | some name =>
      if f.exported && name ≠ "" then
        some (.string (String.ofList (name.toList.map Char.toUpper)), f.value)
      else none
    | none => none

/-- Looks into a record by the names in a tag. -/
def byTag (tag : String) : Hook := fun handle =>
  let handle := handle.followPointers
  match handle.value? with
  | some (.record r) => .forward (.ofValue (.map (Entries.ofList (taggedFields tag r))))
  | _ => .forward handle

end ValuePath.Hook
