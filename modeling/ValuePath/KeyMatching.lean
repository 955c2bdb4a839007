import ValuePath.Text.Lowercase

/-!
# How names are compared

Whether the name of an entry or a field answers to the name that a path asks for.
-/

namespace ValuePath

/-- The way in which names are compared. -/
structure KeyMatching where
  /-- Whether letters of either case are the same. -/
  caseInsensitive : Bool
  deriving DecidableEq

/-- Whether two names are the same, up to case if case is to be ignored. -/
def KeyMatching.agree (m : KeyMatching) (a b : String) : Bool :=
  if m.caseInsensitive then Text.foldCase a = Text.foldCase b else a = b

end ValuePath
