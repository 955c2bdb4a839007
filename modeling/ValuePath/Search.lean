import ValuePath.Handle

/-!
# Searches

What an extraction does besides finding something: it writes a log, and it may take more nested
searches than it was allowed. A search that does is unfinished, and so is every search that
goes on from it.

* `Search` is a monad in which the log of the first search stands before that of the second.
* `Search.result?` forgets the log.
-/

namespace ValuePath

/-- An entry of the log of a search. -/
inductive Event where
  /-- A hook was called with a handle. -/
  | enter (id : String) (handle : Handle)
  /-- A hook returned. -/
  | leave (id : String) (found : Option Handle)

/-- An entry of the log in words. -/
def Event.text : Event → String
  | enter id handle => id ++ " in " ++ handle.brief
  | leave id found => id ++ " out " ++ (found.map Handle.brief).getD "none"

/-- The outcome of a search. -/
inductive Search (α : Type) where
  /-- The search takes more nested searches than it was allowed. -/
  | unfinished
  /-- The search came to an end. -/
  | finished (log : List Event) (result : α)

namespace Search

/-- The search that ends at once. -/
def done {α : Type} (result : α) : Search α :=
  finished [] result

/-- The search that only writes to the log. -/
def tell (event : Event) : Search Unit :=
  finished [event] ()

/-- One search and then another, which depends on the result of the first. -/
def andThen {α β : Type} (s : Search α) (f : α → Search β) : Search β :=
  match s with
  | unfinished => unfinished
  | finished log result =>
    match f result with
    | unfinished => unfinished
    | finished more result => finished (log ++ more) result

instance : Monad Search where
  pure := done
  bind := andThen

/-- What goes on from an unfinished search is unfinished. -/
@[simp]
theorem unfinished_bind {α β : Type} (f : α → Search β) : unfinished >>= f = unfinished :=
  rfl

/-- What goes on from a finished search puts its log behind that of the search. -/
theorem finished_bind {α β : Type} (log : List Event) (result : α) (f : α → Search β) :
    finished log result >>= f =
      match f result with
      | unfinished => unfinished
      | finished more result => finished (log ++ more) result :=
  rfl

/-- To go on from a search that ended at once is to begin there. -/
theorem done_andThen {α β : Type} (a : α) (f : α → Search β) : (done a).andThen f = f a := by
  cases h : f a <;> simp [andThen, done, h]

/-- To end at once after a search changes nothing. -/
theorem andThen_done {α : Type} (s : Search α) : s.andThen done = s := by
  cases s <;> simp [andThen, done]

/-- It does not matter how three searches in a row are put together. -/
theorem andThen_assoc {α β γ : Type} (s : Search α) (f : α → Search β) (g : β → Search γ) :
    (s.andThen f).andThen g = s.andThen fun a => (f a).andThen g := by
  cases s with
  | unfinished => rfl
  | finished log result =>
    cases hf : f result with
    | unfinished => simp [andThen, hf]
    | finished more b => cases hg : g b <;> simp [andThen, hf, hg]

instance : LawfulMonad Search :=
  LawfulMonad.mk' Search andThen_done done_andThen andThen_assoc

/-- The result of a search that came to an end. -/
def result? {α : Type} : Search α → Option α
  | unfinished => none
  | finished _ result => some result

/-- The log of a search that came to an end. -/
def log {α : Type} : Search α → List Event
  | unfinished => []
  | finished log _ => log

end Search

/-- One extraction: from a handle to the one that was found, if any. -/
abbrev Extraction := Handle → Search (Option Handle)

end ValuePath
