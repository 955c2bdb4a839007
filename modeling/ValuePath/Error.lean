import ValuePath.Extraction
import ValuePath.SyntaxError

/-!
# Errors

Why a path could not be read, or why it leads nowhere in a value.
-/

namespace ValuePath

/-- An error of a path. -/
inductive Error where
  /-- The path, as it is written, leads nowhere. -/
  | failed (failure : Failure) (path : String)
  /-- The text of the path is malformed. -/
  | malformed (errors : List SyntaxError)
  /-- The bytes of the path are no text. -/
  | notUtf8
  deriving DecidableEq

namespace Error

/-- The message of an error. -/
def message : Error → String
  | failed .notFound path => "\"" ++ path ++ "\" not found"
  | failed .accessDenied path => "\"" ++ path ++ "\" is not accessible"
  | malformed errors => "invalid path:\n" ++ SyntaxError.report errors
  | notUtf8 => "IO error: stream did not contain valid UTF-8"

/-- The written form of the path that leads nowhere. -/
def path? : Error → Option String
  | failed _ path => some path
  | _ => none

end Error

end ValuePath
