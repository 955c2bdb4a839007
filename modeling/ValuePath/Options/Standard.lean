import ValuePath.Options

/-!
# Ready-made rules for fields

Rules for which fields are inline, and for what the own name of a field is.
-/

namespace ValuePath

namespace InlineRule

/-- Fields with a declared name. -/
def named (name : String) (f : Field Value) : Bool :=
  f.name = name

/-- Fields with a tag of the given key. -/
def tagged (key : String) (f : Field Value) : Bool :=
  (f.tagValue? key).isSome

/-- Fields whose value has the type of the given name. -/
def typed (typeName : String) (f : Field Value) : Bool :=
  f.value.typeName = typeName

/-- All fields. -/
def always (_ : Field Value) : Bool :=
  true

end InlineRule

namespace NameRule

/-- The name in a tag, even an empty one, and the declared name of a field without the tag. -/
def fromTag (key : String) (f : Field Value) : String :=
  ((f.tagValue? key).map tagName).getD f.name

/-- The declared name with a text in front. -/
def prepended (text : String) (f : Field Value) : String :=
  text ++ f.name

/-- One name for all fields. -/
def constant (name : String) (_ : Field Value) : String :=
  name

/-- The declared name with the capital letters of ASCII in lower case. -/
def lowered (f : Field Value) : String :=
  String.ofList (f.name.toList.map Char.toLower)

end NameRule

end ValuePath
