import ValuePath.Options
import ValuePath.Step

/-!
# Extraction

One step from a handle to a value inside. A step by name looks into a map, a record or an object,
a step by position into a sequence or an object, and both look through pointers.

In a record the fields that answer to the name come first, and then the contents of the inline
fields, each of which is searched by a whole step of its own, hooks included. The first
match that callers may have wins. A restricted match is only given back when there is no
other, and of several the last one.

Hooks can make a search in an inline field go on for ever, so the number of searches inside
one another is limited. Without hooks the limit `Handle.nesting` is never reached.

* `Step.extract` is a step without the hooks around it, `Step.extractHooked` one with them.
* `extractAll` takes several steps, and stops where nothing is found or where the value found may
  not be handed out.
-/

namespace ValuePath

/-! ## Nesting -/

mutual

/-- The greatest number of records inside one another, on the way through fields and pointers. -/
def Value.nesting : Value → Nat
  | .record r => nestingOfFields r.fields + 1
  | .pointer content => nestingOfContent content
  | _ => 0
termination_by structural v => v

/-- The greatest nesting of a field. -/
def nestingOfFields : List (Field Value) → Nat
  | [] => 0
  | f :: rest => max f.value.nesting (nestingOfFields rest)
termination_by structural fields => fields

/-- The nesting of the content of a pointer. -/
def nestingOfContent : Option Value → Nat
  | none => 0
  | some v => v.nesting
termination_by structural content => content

end

/-- The nesting of the value of a handle. -/
def Handle.nesting (h : Handle) : Nat :=
  nestingOfContent h.value?

/-! ## Look-up in an object -/

/-- What an object answers to a name. -/
def Object.lookupKey? {α : Type} (o : Object α) (m : KeyMatching) (name : String) : Option α :=
  match o.matchKey? with
  | some find => find m name
  | none => o.findKey?.bind fun find => find name

/-- What an object answers to a position. -/
def Object.lookupIndex? {α : Type} (o : Object α) (position : UInt64) : Option α :=
  o.findIndex?.bind fun find => find position

/-! ## Search in a record -/

/-- The handles to the fields that answer to a name, inline fields apart. -/
def directMatches (o : Options) (name : String) (h : Handle) (r : Record Value) : List Handle :=
  (r.fields.filter fun f => !o.isInline f && o.answers name f).map fun f =>
    h.child f.value (!f.exported)

/-- The handles to the inline fields. That an embedded field itself is hidden does not hide its
contents. -/
def inlineHandles (o : Options) (h : Handle) (r : Record Value) : List Handle :=
  (r.fields.filter o.isInline).map fun f => h.child f.value (!f.exported && !f.embedded)

/-- The first handle found that is not restricted, or else the last one found, or else the
fallback. -/
def firstOpen (search : Extraction) : List Handle → Option Handle → Search (Option Handle)
  | [], fallback => pure fallback
  | h :: rest, fallback => do
    match ← search h with
    | none => firstOpen search rest fallback
    | some found =>
      if found.isRestricted then firstOpen search rest (some found) else pure (some found)

/-- A search in a record: first in the fields themselves, then in the inline fields. -/
def searchRecord (o : Options) (name : String) (search : Extraction) (h : Handle)
    (r : Record Value) : Search (Option Handle) :=
  let direct := directMatches o name h r
  match direct.find? (!·.isRestricted) with
  | some found => pure (some found)
  | none => firstOpen search (inlineHandles o h r) direct.getLast?

/-! ## Steps -/

/-- A step by name, with at most the given number of searches inside one another. -/
def extractKey (o : Options) (name : String) : Nat → Extraction
  | 0, _ => .unfinished
  | limit + 1, h =>
    let h := h.followPointers
    match h.value? with
    | some (.object object) =>
      pure ((object.lookupKey? o.matching name).map fun v => h.child v false)
    | some (.map entries) =>
      pure ((Entries.find? o.matching name entries).map fun v => h.child v false)
    | some (.record r) =>
      searchRecord o name (Hook.wrap o.hooks (extractKey o name limit)) h r
    | _ => pure none

/-- A step by position. -/
def extractIndex (position : UInt64) (h : Handle) : Option Handle :=
  let h := h.followPointers
  match h.value? with
  | some (.object object) => (object.lookupIndex? position).map fun v => h.child v false
  | some (.array items) => items[position.toNat]?.map fun v => h.child v false
  | _ => none

/-- The number of searches inside one another that hooks may cause beyond those that the value
itself asks for. -/
def searchReserve : Nat := 4096

namespace Step

/-- A step without the hooks around it, with at most the given number of searches inside
one another. -/
def extractWithin (step : Step) (o : Options) (limit : Nat) : Extraction :=
  match step with
  | key name => extractKey o name limit
  | index position => fun h => pure (extractIndex position h)

/-- A step without the hooks around it. -/
def extract (step : Step) (o : Options) : Extraction := fun h =>
  step.extractWithin o (h.nesting + 1 + searchReserve) h

/-- A step with the hooks around it, with at most the given number of searches inside
one another. -/
def extractHookedWithin (step : Step) (o : Options) (limit : Nat) : Extraction :=
  Hook.wrap o.hooks (step.extractWithin o limit)

/-- A step with the hooks around it. -/
def extractHooked (step : Step) (o : Options) : Extraction := fun h =>
  step.extractHookedWithin o (h.nesting + 1 + searchReserve) h

end Step

/-! ## Several steps -/

/-- Why a path leads nowhere. -/
inductive Failure where
  /-- Nothing was found. -/
  | notFound
  /-- What was found may not be handed out. -/
  | accessDenied
  deriving DecidableEq

/-- Takes steps one after another, until one fails. -/
def extractAll (take : Step → Extraction) : List Step → Handle → Search (Except Failure Handle)
  | [], h => pure (.ok h)
  | step :: rest, h => do
    match ← take step h with
    | none => pure (.error .notFound)
    | some found =>
      if found.isRestricted then pure (.error .accessDenied) else extractAll take rest found

end ValuePath
