/-!
# Steps of a path

A step goes from a value to one inside it: by the name of a map entry or record field, or by the
position of a sequence element. Its written form is `.name`, `['name']` or `[7]`. A name is
quoted exactly when it would not read back in its bare form: when it is empty, begins with `]`,
or holds a separator, a backslash or an apostrophe.
-/

namespace ValuePath

/-- One step of a path. -/
inductive Step where
  /-- To a map entry or a record field, by name. -/
  | key (name : String)
  /-- To an element of a sequence, counted from zero. -/
  | index (position : UInt64)
  deriving DecidableEq

namespace Step

/-- Whether a name has to be quoted when it is written. -/
def needsQuotes (name : List Char) : Bool :=
  name.isEmpty || name.head? = some ']' || name.any fun c => c ∈ ['[', '.', '\\', '\'']

/-- A name with a backslash before every backslash and every quote. -/
def escape (quote : Char) (name : List Char) : List Char :=
  name.flatMap fun c => if c = '\\' ∨ c = quote then ['\\', c] else [c]

/-- The written form of a step, as characters. -/
def chars : Step → List Char
  | key name =>
    if needsQuotes name.toList then
      ['[', '\''] ++ escape '\'' name.toList ++ ['\'', ']']
    else '.' :: name.toList
  | index position => '[' :: Nat.toDigits 10 position.toNat ++ [']']

/-- The written form of a step. -/
def text (step : Step) : String :=
  String.ofList step.chars

end Step

end ValuePath
