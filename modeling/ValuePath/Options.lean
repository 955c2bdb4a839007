import ValuePath.Hook
import ValuePath.Text.Quoted

/-!
# Options of a query

How a query finds entries and fields: whether case matters, which tags name a field, which fields
are searched as part of their record, what the own name of a field is, and which hooks stand
around each step.
-/

namespace ValuePath

/-- The options of a query. -/
structure Options where
  /-- Whether names are compared without regard to case. -/
  caseInsensitive : Bool := false
  /-- The keys of the tags that name a field. -/
  tags : List String := []
  /-- The hooks around each step, the outermost first. -/
  hooks : List Hook := []
  /-- A field for which one of these holds is inline. -/
  inlinePredicates : List (Field Value → Bool) := []
  /-- The own name of a field, where it is not the declared one. -/
  ownName? : Option (Field Value → String) := none

/-- The part of the value of a tag before its first comma. -/
def tagName (value : String) : String :=
  String.ofList (value.toList.takeWhile (· ≠ ','))

/-- The parts of a text between its commas. There is always one. -/
def commaParts : List Char → List (List Char)
  | [] => [[]]
  | c :: rest =>
    if c = ',' then [] :: commaParts rest
    else
      match commaParts rest with
      | [] => [[c]]
      | part :: parts => (c :: part) :: parts

/-- Whether one of the flags after the name in the value of a tag is `inline`. -/
def hasInlineFlag (value : String) : Bool :=
  "inline".toList ∈ (commaParts value.toList).tail

namespace Options

/-- How names are compared. -/
def matching (o : Options) : KeyMatching :=
  ⟨o.caseInsensitive⟩

/-- The own name of a field. -/
def ownName (o : Options) (f : Field Value) : String :=
  match o.ownName? with
  | some name => name f
  | none => f.name

/-- All names of a field: those in its tags, and its own. -/
def fieldNames (o : Options) (f : Field Value) : List String :=
  let tagged := o.tags.filterMap fun key => (f.tagValue? key).map tagName
  tagged.filter (· ≠ "") ++ [o.ownName f]

/-- Whether a field answers to a name. -/
def answers (o : Options) (name : String) (f : Field Value) : Bool :=
  (o.fieldNames f).any fun candidate => o.matching.agree candidate name

/-- Whether a field is searched as part of its record: it is embedded, a predicate holds for it,
or one of its tags has the flag for that. -/
def isInline (o : Options) (f : Field Value) : Bool :=
  f.embedded || o.inlinePredicates.any (fun holds => holds f) ||
    o.tags.any fun key => (f.tagValue? key).any hasInlineFlag

/-- The options in words. What is a function is only counted. -/
def description (o : Options) : String :=
  "Options \x7b case_insensitive: " ++ toString o.caseInsensitive ++
    ", tags: [" ++ ", ".intercalate (o.tags.map Text.quoted) ++
    "], hooks: " ++ toString o.hooks.length ++
    ", inline_predicates: " ++ toString o.inlinePredicates.length ++
    ", field_name_getter: " ++ toString o.ownName?.isSome ++ " \x7d"

end Options

end ValuePath
