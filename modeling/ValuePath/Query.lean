import ValuePath.Error
import ValuePath.Node.Parser

/-!
# Queries

A query is a list of steps with the options that they run with. Its written form begins with `$`
if it has the root marker, which has no bearing on what it extracts.

* `Query.parse` reads a query, `Query.text` writes one.
* `Query.extract` follows a query into a value.
-/

namespace ValuePath

/-- A list of steps and the options that they run with. -/
structure Query where
  /-- The steps, the first one first. -/
  steps : List Step := []
  /-- Whether the written form has the root marker. -/
  root : Bool := false
  /-- The options of the steps. -/
  options : Options := {}

namespace Query

/-! ## Building and writing -/

/-- The query without a step. -/
def new (options : Options) : Query :=
  { options }

/-- The same query with the root marker. -/
def withRoot (q : Query) : Query :=
  { q with root := true }

/-- The query with more steps behind its own. -/
def appendAll (q : Query) (steps : List Step) : Query :=
  { q with steps := q.steps ++ steps }

/-- The query with one more step behind its own. -/
def append (q : Query) (step : Step) : Query :=
  q.appendAll [step]

/-- The query with a step by name behind its own. -/
def key (q : Query) (name : String) : Query :=
  q.append (.key name)

/-- The query with a step by position behind its own. -/
def index (q : Query) (position : UInt64) : Query :=
  q.append (.index position)

/-- The written form of a query, as characters. -/
def chars (q : Query) : List Char :=
  (if q.root then ['$'] else []) ++ q.steps.flatMap Step.chars

/-- The written form of a query. -/
def text (q : Query) : String :=
  String.ofList q.chars

end Query

/-! ## Reading -/

/-- The step of a link that is not a root marker. -/
def Link.step? : Link → Option Step
  | root _ => none
  | step _ s => some s

/-- Whether a link is a root marker. -/
def Link.isRoot : Link → Bool
  | root _ => true
  | step _ _ => false

namespace Query

/-- The query with the steps of a parsed path behind its own, and the root marker if either of them
has it. -/
def extend (q : Query) (node : Node) : Query :=
  { q with
    steps := q.steps ++ node.links.filterMap Link.step?
    root := q.root || node.links.any Link.isRoot }

/-- Reads a query that is to run with the given options. -/
def parse (text : String) (options : Options := {}) : Except Error Query :=
  match (Parser.ofString text).parse.1 with
  | .error errors => .error (.malformed errors)
  | .ok none => .ok (new options)
  | .ok (some node) => .ok ((new options).extend node)

/-- Reads a query from the bytes of its text. -/
def parseUtf8 (bytes : ByteArray) (options : Options := {}) : Except Error Query :=
  match String.fromUTF8? bytes with
  | some text => parse text options
  | none => .error .notUtf8

/-! ## Following -/

/-- Follows a query into a value. Each step is taken by `take`. What stands behind a null pointer
is null, and an error names the whole query. -/
def extractBy (q : Query) (take : Step → Extraction) (target : Value) :
    Search (Except Error Value) := do
  match ← extractAll take q.steps (Handle.ofValue target) with
  | .ok h => pure (.ok (h.value?.getD .null))
  | .error failure => pure (.error (.failed failure q.text))

/-- Follows a query into a value. -/
def extract (q : Query) (target : Value) : Search (Except Error Value) :=
  q.extractBy (·.extractHooked q.options) target

end Query

end ValuePath
