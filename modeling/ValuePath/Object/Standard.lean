import ValuePath.Value.Entries

/-!
# Ready-made objects

Objects that answer look-ups in a fixed way. Each is made with the identity that it is to have.
-/

namespace ValuePath.Object

/-- The value of the first pair with exactly the given key. -/
def exactMatch? (pairs : List (String × Value)) (name : String) : Option Value :=
  (pairs.find? fun pair => pair.1 = name).map (·.2)

/-- The value of the first pair whose key agrees with a name. -/
def looseMatch? (m : KeyMatching) (pairs : List (String × Value)) (name : String) : Option Value :=
  (pairs.find? fun pair => m.agree pair.1 name).map (·.2)

/-- The integer of a position, if there is one. -/
def integerOf? (position : UInt64) : Option Int64 :=
  if position < 0x8000000000000000 then some (Int64.ofNat position.toNat) else none

/-- An object without look-ups. -/
def inert (id : Nat) (kind : String) : Object Value :=
  { id, kind, matchKey? := none, findKey? := none, findIndex? := none }

/-- Gives the same answer to every name. -/
def constant (id : Nat) (answer : Option Value) : Object Value :=
  { inert id "const" with findKey? := some fun _ => answer }

/-- Looks a name up in a list of pairs, first exactly, and then as names are compared. -/
def pairs (id : Nat) (entries : List (String × Value)) : Object Value :=
  { inert id "pairs" with
    matchKey? := some fun m name => (exactMatch? entries name).or (looseMatch? m entries name)
    findKey? := some fun _ => some (.string "plain") }

/-- Looks a name up in a list of pairs, exactly. -/
def plain (id : Nat) (entries : List (String × Value)) : Object Value :=
  { inert id "plain" with findKey? := some (exactMatch? entries) }

/-- Looks a position up in a sequence. -/
def items (id : Nat) (elements : List Value) : Object Value :=
  { inert id "items" with findIndex? := some fun position => elements[position.toNat]? }

/-- Counts down from `start` at position zero to one. -/
def countdown (id : Nat) (start : Int64) : Object Value :=
  { inert id "countdown" with
    findIndex? := some fun position =>
      (integerOf? position).bind fun n =>
        if n < start then some (.integer (start - n)) else none }

/-- Gives the name or the position back. -/
def echo (id : Nat) : Object Value :=
  { inert id "echo" with
    findKey? := some fun name => some (.string name)
    findIndex? := some fun position => (integerOf? position).map .integer }

/-- Tells how names are compared, together with the name. -/
def context (id : Nat) : Object Value :=
  { inert id "ctx" with
    matchKey? := some fun m name => some (.array [.boolean m.caseInsensitive, .string name])
    findKey? := some fun _ => some (.string "plain") }

end ValuePath.Object
