import ValuePath.Node
import ValuePath.Text.DecimalDigit

/-!
# The grammar of written paths

What a path may look like, said without the scanner and the parser. A path is a head, which may be
missing, and then segments. Each relation ties a text to what it stands for: a segment to a step,
and a path to the links of its chain, in which each link has the number of the first character of
its head or segment.

* `Grammar.Quoted quote text name`: between two quotes, `text` stands for `name`.
* `Grammar.Segment text step`: `text` is one segment, which stands for `step`.
* `Grammar.Segments pos text links`: `text` is a row of segments that begins at `pos`.
* `Grammar.Path text links`: `text` is a path with the given links.
-/

namespace ValuePath.Grammar

/-- A bare name: it is not empty, and it holds neither of the characters that end one. -/
def IsBareName (text : List Char) : Prop :=
  text ≠ [] ∧ '.' ∉ text ∧ '[' ∉ text

/-- Digits that write a position: ASCII digits without a superfluous zero in front, whose number is
below `2 ^ 64`. -/
structure IsPosition (digits : List Char) : Prop where
  ne_nil : digits ≠ []
  ascii : ∀ c ∈ digits, Text.isAsciiDigit c = true
  leading : digits.head? = some '0' → digits = ['0']
  lt : Text.readDecimal digits < UInt64.size

/-- The text between two quotes and the name that it stands for. A backslash stands before a
backslash or a quote; all other characters stand for themselves. -/
inductive Quoted (quote : Char) : List Char → List Char → Prop
  | nil : Quoted quote [] []
  | plain {c : Char} {text name : List Char} :
      c ≠ '\\' → c ≠ quote → Quoted quote text name → Quoted quote (c :: text) (c :: name)
  | escaped {c : Char} {text name : List Char} :
      c = '\\' ∨ c = quote → Quoted quote text name → Quoted quote ('\\' :: c :: text) (c :: name)

/-- The text between two brackets and the step that it stands for. -/
inductive Content : List Char → Step → Prop
  | name {quote : Char} {text name : List Char} :
      quote = '\'' ∨ quote = '"' → Quoted quote text name →
        Content (quote :: (text ++ [quote])) (.key (String.ofList name))
  | position {digits : List Char} :
      IsPosition digits → Content digits (.index (UInt64.ofNat (Text.readDecimal digits)))

/-- A segment and the step that it stands for. -/
inductive Segment : List Char → Step → Prop
  | dotted {name : List Char} :
      IsBareName name → name.head? ≠ some ']' → Segment ('.' :: name) (.key (String.ofList name))
  | bracketed {text : List Char} {step : Step} :
      Content text step → Segment ('[' :: (text ++ [']'])) step

/-- A row of segments that begins at `pos`, and the links that it stands for. -/
inductive Segments : Nat → List Char → List Link → Prop
  | nil {pos : Nat} : Segments pos [] []
  | cons {pos : Nat} {text rest : List Char} {step : Step} {links : List Link} :
      Segment text step → Segments (pos + text.length) rest links →
        Segments pos (text ++ rest) (.step pos step :: links)

/-- What a path may have in front of its segments, and the link that it stands for. -/
inductive Head : List Char → Link → Prop
  | root : Head ['$'] (.root 1)
  | name {name : List Char} :
      IsBareName name → name.head? ≠ some '$' → name.head? ≠ some ']' →
        Head name (.step 1 (.key (String.ofList name)))

/-- A path and the links of its chain, innermost first. -/
inductive Path : List Char → List Link → Prop
  | plain {text : List Char} {links : List Link} : Segments 1 text links → Path text links
  | headed {head text : List Char} {link : Link} {links : List Link} :
      Head head link → Segments (1 + head.length) text links → Path (head ++ text) (link :: links)

/-! ## First characters -/

/-- What can stand behind a head or a segment: nothing, or a segment. -/
def IsBoundary (text : List Char) : Prop :=
  ∀ c, text.head? = some c → c = '.' ∨ c = '['

theorem isBoundary_nil : IsBoundary [] := by
  intro c h
  cases h

theorem isBoundary_cons {c : Char} {rest : List Char} (h : c = '.' ∨ c = '[') :
    IsBoundary (c :: rest) := by
  intro d hd
  obtain rfl : c = d := by simpa using hd
  exact h

/-- A segment begins with a period or an opening bracket. -/
theorem Segment.isBoundary_append {text : List Char} {step : Step} (h : Segment text step)
    (rest : List Char) : IsBoundary (text ++ rest) := by
  cases h with
  | dotted => exact isBoundary_cons (.inl rfl)
  | bracketed => exact isBoundary_cons (.inr rfl)

/-- A row of segments begins with a period or an opening bracket, if it is not empty. -/
theorem Segments.isBoundary_append {pos : Nat} {text rest : List Char} {links : List Link}
    (h : Segments pos text links) (hrest : IsBoundary rest) : IsBoundary (text ++ rest) := by
  cases h with
  | nil => exact hrest
  | cons hseg _ =>
    rw [List.append_assoc]
    exact hseg.isBoundary_append _

/-! ## Links -/

/-- Segments stand for steps, never for a root marker. -/
theorem Segments.isRoot_eq_false {pos : Nat} {text : List Char} {links : List Link}
    (h : Segments pos text links) : ∀ link ∈ links, ∃ pos step, link = .step pos step := by
  induction h with
  | nil => simp
  | cons _ _ ih =>
    intro link hlink
    rcases List.mem_cons.mp hlink with rfl | hmem
    · exact ⟨_, _, rfl⟩
    · exact ih link hmem

/-- Only the empty text has no links. -/
theorem path_nil_iff {text : List Char} : Path text [] ↔ text = [] := by
  constructor
  · intro h
    cases h with
    | plain hsegs =>
      cases hsegs
      rfl
  · rintro rfl
    exact .plain .nil

end ValuePath.Grammar
