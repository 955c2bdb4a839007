import ValuePath.Token

/-!
# Syntax errors

What can be wrong with a written path, and where. A path has a list of errors, in the order in
which they stand in the text.
-/

namespace ValuePath

/-- What is wrong at one place of a written path. -/
inductive SyntaxError.Cause where
  /-- A token of another category than those that can stand there. -/
  | unexpected (expected : List TokenKind) (found : TokenKind)
  /-- Digits that do not write a position below `2 ^ 64`. -/
  | notAnIndex (digits : String)
  deriving DecidableEq

/-- An error in a written path. -/
structure SyntaxError where
  /-- The number of the character where the error is, counted from one. -/
  pos : Nat
  /-- What is wrong there. -/
  cause : SyntaxError.Cause
  deriving DecidableEq

namespace SyntaxError

/-- The message of an error, without its place. -/
def message (e : SyntaxError) : String :=
  match e.cause with
  | .unexpected expected found =>
    let names := expected.map fun kind => "\"" ++ kind.name ++ "\""
    "expected " ++ " or ".intercalate names ++ " but found \"" ++ found.name ++ "\""
  | .notAnIndex digits => digits ++ " is not an integer"

/-- An error with its place. -/
def text (e : SyntaxError) : String :=
  toString e.pos ++ ": " ++ e.message

/-- A list of errors, one on a line. -/
def report (errors : List SyntaxError) : String :=
  "\n".intercalate (errors.map text)

end SyntaxError

end ValuePath
