import ValuePath.Text.DecimalDigit
import ValuePath.Token

/-!
# Scanning a written path

The scanner reads one token at a time. Between brackets it reads quoted names and numbers, outside
of them separators and bare names; an opening bracket enters the first mode and a closing bracket
leaves it. A character that cannot begin a token becomes an illegal token, and scanning goes on
behind it, so that every text has a finite list of tokens.

* `Scanner.next` reads one token; at the end of the text it stays there.
* `Scanner.length_next_lt`: a token other than the end of the text takes at least one character.
* `Scanner.lexemes` reads all tokens before the end of the text.
-/

namespace ValuePath

/-- A text that has been read in part. -/
structure Scanner where
  /-- The characters that have not been read. -/
  rest : List Char
  /-- The number of the first unread character, counted from one. -/
  pos : Nat
  /-- Whether the last bracket that was read is an opening one. -/
  inBrackets : Bool

/-! ## Quoted names -/

/-- What stands behind an opening quote. The width counts characters from behind that quote. -/
inductive QuotedName where
  /-- A name and its closing quote. The width includes the quote. -/
  | closed (name : List Char) (width : Nat) (rest : List Char)
  /-- A backslash before a character that it cannot escape, or before the end. The width includes
  the backslash and the character after it, if there is one. -/
  | badEscape (offset width : Nat) (rest : List Char)
  /-- The text ends before the closing quote. -/
  | unterminated (width : Nat)

namespace QuotedName

/-- The same with one more character of the name in front, which takes `size` characters. -/
def push (c : Char) (size : Nat) : QuotedName → QuotedName
  | closed name width rest => closed (c :: name) (width + size) rest
  | badEscape offset width rest => badEscape (offset + size) (width + size) rest
  | unterminated width => unterminated (width + size)

/-- Reads from behind an opening quote. A backslash escapes a backslash and the quote. -/
def read (quote : Char) : List Char → QuotedName
  | [] => unterminated 0
  | '\\' :: [] => badEscape 0 1 []
  | '\\' :: c :: rest =>
    if c = '\\' ∨ c = quote then (read quote rest).push c 2 else badEscape 0 2 rest
  | c :: rest => if c = quote then closed [] 1 rest else (read quote rest).push c 1

/-- The characters that are left. -/
def remaining : QuotedName → List Char
  | closed _ _ rest => rest
  | badEscape _ _ rest => rest
  | unterminated _ => []

@[simp]
theorem remaining_push (c : Char) (size : Nat) (q : QuotedName) :
    (q.push c size).remaining = q.remaining := by
  cases q <;> rfl

/-- Reading a quoted name gives no characters back. -/
theorem length_remaining_read_le (quote : Char) (cs : List Char) :
    (read quote cs).remaining.length ≤ cs.length := by
  fun_induction read quote cs with
  | case1 => simp [remaining]
  | case2 => simp [remaining]
  | case3 c rest h ih => simp only [remaining_push, List.length_cons]; omega
  | case4 c rest h => simp only [remaining, List.length_cons]; omega
  | case5 c rest => simp [remaining]
  | case6 c rest _ h ih => simp only [remaining_push, List.length_cons]; omega

end QuotedName

/-! ## One token -/

/-- Whether a character ends the bare name before it. -/
def endsBareName (c : Char) : Bool :=
  c = '.' || c = '['

namespace Scanner

/-- A scanner at the beginning of a text. -/
def ofString (s : String) : Scanner :=
  { rest := s.toList, pos := 1, inBrackets := false }

/-- The place of the end of the text: one behind its last character. -/
def endPos (s : Scanner) : Nat :=
  s.pos + s.rest.length

/-- The scanner `width` characters further on. -/
def advance (s : Scanner) (width : Nat) (rest : List Char) : Scanner :=
  { s with rest, pos := s.pos + width }

/-- Reads the token that begins with `c`, outside of brackets. -/
def nextOutside (s : Scanner) (c : Char) (rest : List Char) : Lexeme × Scanner :=
  if c = '$' ∧ s.pos = 1 then (⟨s.pos, .root⟩, s.advance 1 rest)
  else if c = '.' then (⟨s.pos, .period⟩, s.advance 1 rest)
  else if c = '[' then (⟨s.pos, .leftBracket⟩, { s.advance 1 rest with inBrackets := true })
  else if c = ']' then (⟨s.pos, .rightBracket⟩, { s.advance 1 rest with inBrackets := false })
  else
    let name := rest.takeWhile (!endsBareName ·)
    (⟨s.pos, .string (String.ofList (c :: name))⟩,
      s.advance (name.length + 1) (rest.dropWhile (!endsBareName ·)))

/-- Reads a quoted name, of which `rest` stands behind the opening quote. -/
def nextQuoted (s : Scanner) (quote : Char) (rest : List Char) : Lexeme × Scanner :=
  match QuotedName.read quote rest with
  | .closed name width rest =>
    (⟨s.pos, .string (String.ofList name)⟩, s.advance (width + 1) rest)
  | .badEscape offset width rest =>
    (⟨s.pos + 1 + offset, .illegal ""⟩, s.advance (width + 1) rest)
  | .unterminated width => (⟨s.pos + 1 + width, .illegal ""⟩, s.advance (width + 1) [])

/-- Reads a number. More than one digit with a zero in front is illegal. -/
def nextNumber (s : Scanner) (c : Char) (rest : List Char) : Lexeme × Scanner :=
  let digits := rest.takeWhile Text.isDecimalDigit
  let text := String.ofList (c :: digits)
  (⟨s.pos, if c = '0' ∧ digits ≠ [] then .illegal text else .int text⟩,
    s.advance (digits.length + 1) (rest.dropWhile Text.isDecimalDigit))

/-- Reads the token that begins with `c`, between brackets. -/
def nextInside (s : Scanner) (c : Char) (rest : List Char) : Lexeme × Scanner :=
  if c = '\'' ∨ c = '"' then s.nextQuoted c rest
  else if c = ']' then (⟨s.pos, .rightBracket⟩, { s.advance 1 rest with inBrackets := false })
  else if Text.isDecimalDigit c then s.nextNumber c rest
  else (⟨s.pos, .illegal (String.singleton c)⟩, s.advance 1 rest)

/-- Reads the next token. At the end of the text the scanner stays where it is. -/
def next (s : Scanner) : Lexeme × Scanner :=
  match s.rest with
  | [] => (⟨s.pos, .eof⟩, s)
  | c :: rest => if s.inBrackets then s.nextInside c rest else s.nextOutside c rest

/-! ## All tokens -/

/-- A token outside of brackets gives no characters back. -/
theorem length_nextOutside_le (s : Scanner) (c : Char) (rest : List Char) :
    (s.nextOutside c rest).2.rest.length ≤ rest.length := by
  unfold nextOutside
  repeat' split
  -- the four marks take one character, a bare name takes all that belong to it
  · exact Nat.le_refl _
  · exact Nat.le_refl _
  · exact Nat.le_refl _
  · exact Nat.le_refl _
  · exact (List.dropWhile_sublist _).length_le

/-- A quoted name gives no characters back. -/
theorem length_nextQuoted_le (s : Scanner) (quote : Char) (rest : List Char) :
    (s.nextQuoted quote rest).2.rest.length ≤ rest.length := by
  have h := QuotedName.length_remaining_read_le quote rest
  unfold nextQuoted
  split <;> simp_all [advance, QuotedName.remaining]

/-- A token between brackets gives no characters back. -/
theorem length_nextInside_le (s : Scanner) (c : Char) (rest : List Char) :
    (s.nextInside c rest).2.rest.length ≤ rest.length := by
  unfold nextInside
  repeat' split
  · exact length_nextQuoted_le s c rest
  · exact Nat.le_refl _
  · exact (List.dropWhile_sublist _).length_le
  · exact Nat.le_refl _

/-- A token other than the end of the text takes at least one character. -/
theorem length_next_lt {s : Scanner} (h : s.rest ≠ []) :
    s.next.2.rest.length < s.rest.length := by
  unfold next
  split
  · contradiction
  · rename_i c rest hs
    rw [hs, List.length_cons, Nat.lt_succ_iff]
    split
    · exact length_nextInside_le s c rest
    · exact length_nextOutside_le s c rest

/-- All tokens before the end of the text. -/
def lexemes (s : Scanner) : List Lexeme :=
  if s.rest = [] then []
  else s.next.1 :: s.next.2.lexemes
termination_by s.rest.length
decreasing_by exact length_next_lt ‹_›

end Scanner

end ValuePath
