import ValuePath.Proofs.Path.Grammar
import ValuePath.Token.Scanner

/-!
# What the scanner reads

The tokens of the scanner against the grammar of written paths. Outside of brackets the scanner
reads a bare name up to the next period or opening bracket; between brackets it reads the text
between two quotes, or digits. For both there are two statements: what the grammar has is read, and
what is read is in the grammar.

* `QuotedName.read_append_quote` and `QuotedName.exists_quoted_of_read`: names between two quotes.
* `Scanner.next_bareName` and `Scanner.exists_bareName_of_next`: bare names.
* `Scanner.next_quoted`, `Scanner.exists_quoted_of_next`, `Scanner.next_position` and
  `Scanner.exists_digits_of_next`: what stands between brackets.
* `Scanner.endPos_next`: reading a token does not move the end of the text.
-/

namespace ValuePath

/-! ## Runs of characters -/

section Runs

variable {p : Char → Bool} {name rest : List Char}

/-- A run of characters ends where the next character does not belong to it. -/
theorem takeWhile_append_eq_left (hname : ∀ c ∈ name, p c = true)
    (hrest : ∀ c, rest.head? = some c → p c = false) : (name ++ rest).takeWhile p = name := by
  rw [List.takeWhile_append_of_pos hname]
  cases rest with
  | nil => simp
  | cons c rest => simp [hrest c rfl]

/-- What is left behind a run of characters begins with the first one that does not belong to it. -/
theorem dropWhile_append_eq_right (hname : ∀ c ∈ name, p c = true)
    (hrest : ∀ c, rest.head? = some c → p c = false) : (name ++ rest).dropWhile p = rest := by
  rw [List.dropWhile_append_of_pos hname]
  cases rest with
  | nil => simp
  | cons c rest => simp [hrest c rfl]

theorem apply_of_mem_takeWhile {c : Char} (h : c ∈ rest.takeWhile p) : p c = true :=
  List.all_eq_true.mp List.all_takeWhile c h

theorem apply_of_head?_dropWhile {c : Char} (h : (rest.dropWhile p).head? = some c) :
    p c = false := by
  have hnot := List.head?_dropWhile_not p rest
  rw [h] at hnot
  simpa using hnot

theorem length_takeWhile_add_dropWhile (p : Char → Bool) (rest : List Char) :
    (rest.takeWhile p).length + (rest.dropWhile p).length = rest.length := by
  rw [← List.length_append, List.takeWhile_append_dropWhile]

end Runs

/-! ## Quoted names -/

namespace QuotedName

/-- The number of characters that are taken from behind the opening quote. -/
def width : QuotedName → Nat
  | closed _ width _ => width
  | badEscape _ width _ => width
  | unterminated width => width

@[simp]
theorem width_push (c : Char) (size : Nat) (q : QuotedName) :
    (q.push c size).width = q.width + size := by
  cases q <;> rfl

/-- What is taken and what is left are all characters. -/
theorem width_read_add (quote : Char) (cs : List Char) :
    (read quote cs).width + (read quote cs).remaining.length = cs.length := by
  fun_induction read quote cs with
  | case1 => rfl
  | case2 => rfl
  | case3 c rest h ih =>
    rw [width_push, remaining_push, List.length_cons, List.length_cons]
    omega
  | case4 c rest h =>
    simp only [width, remaining, List.length_cons]
    omega
  | case5 c rest =>
    simp only [width, remaining, List.length_cons]
    omega
  | case6 c rest _ h ih =>
    rw [width_push, remaining_push, List.length_cons]
    omega

theorem push_eq_closed_iff {c : Char} {size width : Nat} {q : QuotedName} {name rest : List Char} :
    q.push c size = closed name width rest ↔
      ∃ name' width', q = closed name' width' rest ∧ name = c :: name' ∧ width = width' + size := by
  cases q with
  | closed name' width' rest' =>
    simp only [push, closed.injEq]
    constructor
    · rintro ⟨rfl, rfl, rfl⟩
      exact ⟨name', width', ⟨rfl, rfl, rfl⟩, rfl, rfl⟩
    · rintro ⟨_, _, ⟨rfl, rfl, rfl⟩, rfl, rfl⟩
      exact ⟨rfl, rfl, rfl⟩
  | badEscape => simp [push]
  | unterminated => simp [push]

/-- A character other than a backslash closes the name or belongs to it. -/
theorem read_cons_of_ne {quote c : Char} (hc : c ≠ '\\') (cs : List Char) :
    read quote (c :: cs) = if c = quote then closed [] 1 cs else (read quote cs).push c 1 := by
  rw [read.eq_4]
  · intro h
    exact absurd h hc
  · intro _ _ h
    exact absurd h hc

/-- The text that stands for a name is read up to the quote behind it. -/
theorem read_append_quote {quote : Char} (hquote : quote ≠ '\\') {text name : List Char}
    (h : Grammar.Quoted quote text name) (rest : List Char) :
    read quote (text ++ quote :: rest) = closed name (text.length + 1) rest := by
  induction h with
  | nil => rw [List.nil_append, read_cons_of_ne hquote, if_pos rfl, List.length_nil]
  | @plain c text name hc hne _ ih =>
    rw [List.cons_append, read_cons_of_ne hc, if_neg hne, ih]
    rfl
  | @escaped c text name hc _ ih =>
    rw [List.cons_append, List.cons_append, read, if_pos hc, ih]
    rfl

/-- What is read up to a closing quote stands for the name. -/
theorem exists_quoted_of_read {quote : Char} {cs name rest : List Char} {width : Nat}
    (h : read quote cs = closed name width rest) :
    ∃ text, Grammar.Quoted quote text name ∧ cs = text ++ quote :: rest ∧
      width = text.length + 1 := by
  fun_induction read quote cs generalizing name width with
  | case1 => cases h
  | case2 => cases h
  | case3 c cs hc ih =>
    obtain ⟨name', width', hread, rfl, rfl⟩ := push_eq_closed_iff.mp h
    obtain ⟨text, htext, rfl, rfl⟩ := ih hread
    exact ⟨'\\' :: c :: text, .escaped hc htext, rfl, rfl⟩
  | case4 => cases h
  | case5 cs =>
    obtain ⟨rfl, rfl, rfl⟩ := closed.inj h
    exact ⟨[], .nil, rfl, rfl⟩
  | case6 c cs hnil hcons hc ih =>
    -- a backslash is read by the cases above, at the end of the text or before a character
    have hslash : c ≠ '\\' := by
      intro hslash
      cases cs with
      | nil => exact hnil hslash rfl
      | cons d ds => exact hcons d ds hslash rfl
    obtain ⟨name', width', hread, rfl, rfl⟩ := push_eq_closed_iff.mp h
    obtain ⟨text, htext, rfl, rfl⟩ := ih hread
    exact ⟨c :: text, .plain hslash hc htext, rfl, rfl⟩

end QuotedName

/-! ## Tokens outside of brackets -/

namespace Scanner

@[simp]
theorem next_period (cs : List Char) (pos : Nat) :
    (mk ('.' :: cs) pos false).next = (⟨pos, .period⟩, mk cs (pos + 1) false) := by
  simp [next, nextOutside, advance]

@[simp]
theorem next_leftBracket (cs : List Char) (pos : Nat) :
    (mk ('[' :: cs) pos false).next = (⟨pos, .leftBracket⟩, mk cs (pos + 1) true) := by
  simp [next, nextOutside, advance]

@[simp]
theorem next_rightBracket (cs : List Char) (pos : Nat) (inBrackets : Bool) :
    (mk (']' :: cs) pos inBrackets).next = (⟨pos, .rightBracket⟩, mk cs (pos + 1) false) := by
  cases inBrackets <;> simp [next, nextInside, nextOutside, advance]

@[simp]
theorem next_root (cs : List Char) :
    (mk ('$' :: cs) 1 false).next = (⟨1, .root⟩, mk cs 2 false) := by
  simp [next, nextOutside, advance]

/-- A character that is no mark begins a bare name. -/
theorem next_of_not_mark {c : Char} {pos : Nat} (hperiod : c ≠ '.') (hleft : c ≠ '[')
    (hright : c ≠ ']') (hroot : c = '$' → pos ≠ 1) (cs : List Char) :
    (mk (c :: cs) pos false).next =
      (⟨pos, .string (String.ofList (c :: cs.takeWhile (!endsBareName ·)))⟩,
        mk (cs.dropWhile (!endsBareName ·))
          (pos + ((cs.takeWhile (!endsBareName ·)).length + 1)) false) := by
  have hmark : ¬(c = '$' ∧ pos = 1) := fun h => hroot h.1 h.2
  simp [next, nextOutside, advance, hperiod, hleft, hright, hmark]

theorem endsBareName_eq_false_of_mem {name : List Char} (h : Grammar.IsBareName name) :
    ∀ c ∈ name, (!endsBareName c) = true := by
  intro c hc
  have hperiod : c ≠ '.' := fun he => h.2.1 (he ▸ hc)
  have hleft : c ≠ '[' := fun he => h.2.2 (he ▸ hc)
  simp [endsBareName, hperiod, hleft]

/-- A bare name is read up to the boundary behind it. -/
theorem next_bareName {name rest : List Char} {pos : Nat} (hname : Grammar.IsBareName name)
    (hright : name.head? ≠ some ']') (hroot : name.head? = some '$' → pos ≠ 1)
    (hrest : Grammar.IsBoundary rest) :
    (mk (name ++ rest) pos false).next =
      (⟨pos, .string (String.ofList name)⟩, mk rest (pos + name.length) false) := by
  have hmem := endsBareName_eq_false_of_mem hname
  have hstop : ∀ c, rest.head? = some c → (!endsBareName c) = false := by
    intro c hc
    rcases hrest c hc with rfl | rfl <;> rfl
  cases name with
  | nil => exact absurd rfl hname.1
  | cons c name =>
    have htail : ∀ d ∈ name, (!endsBareName d) = true :=
      fun d hd => hmem d (List.mem_cons_of_mem c hd)
    have hperiod : c ≠ '.' := fun he => hname.2.1 (he ▸ List.mem_cons_self)
    have hleft : c ≠ '[' := fun he => hname.2.2 (he ▸ List.mem_cons_self)
    rw [List.cons_append, next_of_not_mark hperiod hleft (fun he => hright (he ▸ rfl))
      (fun he => hroot (he ▸ rfl)), takeWhile_append_eq_left htail hstop,
      dropWhile_append_eq_right htail hstop, List.length_cons]

/-- A name that is read outside of brackets is a bare name. -/
theorem exists_bareName_of_next {cs : List Char} {pos : Nat}
    (h : (mk cs pos false).next.1.token.kind = .string) :
    ∃ name rest, cs = name ++ rest ∧ Grammar.IsBareName name ∧ name.head? ≠ some ']' ∧
      (name.head? = some '$' → pos ≠ 1) ∧ Grammar.IsBoundary rest := by
  cases cs with
  | nil => cases h
  | cons c cs =>
    by_cases hroot : c = '$' ∧ pos = 1
    · obtain ⟨rfl, rfl⟩ := hroot
      rw [next_root] at h
      cases h
    by_cases hperiod : c = '.'
    · rw [hperiod, next_period] at h
      cases h
    by_cases hleft : c = '['
    · rw [hleft, next_leftBracket] at h
      cases h
    by_cases hright : c = ']'
    · rw [hright, next_rightBracket] at h
      cases h
    -- the character is no token of its own, so that it begins the name
    have hroot' : c = '$' → pos ≠ 1 := fun hc hpos => hroot ⟨hc, hpos⟩
    have hmem : ∀ d ∈ c :: cs.takeWhile (!endsBareName ·), d ≠ '.' ∧ d ≠ '[' := by
      intro d hd
      rcases List.mem_cons.mp hd with rfl | hd
      · exact ⟨hperiod, hleft⟩
      · simpa [endsBareName] using apply_of_mem_takeWhile hd
    refine ⟨c :: cs.takeWhile (!endsBareName ·), cs.dropWhile (!endsBareName ·), ?_, ⟨?_, ?_, ?_⟩,
      ?_, ?_, ?_⟩
    · rw [List.cons_append, List.takeWhile_append_dropWhile]
    · exact List.cons_ne_nil c _
    · exact fun hd => (hmem _ hd).1 rfl
    · exact fun hd => (hmem _ hd).2 rfl
    · simpa using hright
    · simpa using hroot'
    · intro d hd
      simpa [endsBareName, Decidable.or_iff_not_imp_left] using apply_of_head?_dropWhile hd

/-- Only a period and an opening bracket are read as tokens that begin a segment. -/
theorem kind_next_of_ne {c : Char} (hperiod : c ≠ '.') (hleft : c ≠ '[') (cs : List Char)
    (pos : Nat) :
    (mk (c :: cs) pos false).next.1.token.kind ∈ [.root, .rightBracket, .string] := by
  by_cases hroot : c = '$' ∧ pos = 1
  · obtain ⟨rfl, rfl⟩ := hroot
    rw [next_root]
    exact List.mem_cons_self
  by_cases hright : c = ']'
  · rw [hright, next_rightBracket]
    simp [Token.kind]
  · rw [next_of_not_mark hperiod hleft hright fun hc hpos => hroot ⟨hc, hpos⟩]
    simp [Token.kind]

/-! ## Tokens between brackets -/

theorem next_of_quote {quote : Char} (hquote : quote = '\'' ∨ quote = '"') (cs : List Char)
    (pos : Nat) :
    (mk (quote :: cs) pos true).next = (mk (quote :: cs) pos true).nextQuoted quote cs := by
  simp [next, nextInside, hquote]

theorem next_of_digit {c : Char} (hc : Text.isDecimalDigit c = true) (cs : List Char) (pos : Nat) :
    (mk (c :: cs) pos true).next = (mk (c :: cs) pos true).nextNumber c cs := by
  have hquote : ¬(c = '\'' ∨ c = '"') := by
    rintro (rfl | rfl) <;> exact absurd hc (by decide)
  have hright : c ≠ ']' := by
    rintro rfl
    exact absurd hc (by decide)
  simp [next, nextInside, hquote, hright, hc]

/-- Between brackets a character that begins neither a name nor a number is illegal. -/
theorem next_of_illegal {c : Char} (hquote : ¬(c = '\'' ∨ c = '"')) (hright : c ≠ ']')
    (hdigit : Text.isDecimalDigit c = false) (cs : List Char) (pos : Nat) :
    (mk (c :: cs) pos true).next =
      (⟨pos, .illegal (String.singleton c)⟩, mk cs (pos + 1) true) := by
  simp [next, nextInside, advance, hquote, hright, hdigit]

/-- The text between two quotes is read as the name that it stands for. -/
theorem next_quoted {quote : Char} (hquote : quote = '\'' ∨ quote = '"') {text name : List Char}
    (h : Grammar.Quoted quote text name) (rest : List Char) (pos : Nat) :
    (mk (quote :: (text ++ quote :: rest)) pos true).next =
      (⟨pos, .string (String.ofList name)⟩, mk rest (pos + (text.length + 2)) true) := by
  have hslash : quote ≠ '\\' := by
    rintro rfl
    rcases hquote with h | h <;> exact absurd h (by decide)
  rw [next_of_quote hquote, nextQuoted, QuotedName.read_append_quote hslash h]
  rfl

/-- ASCII digits that write a position are read up to the first character that is no digit. -/
theorem next_position {digits rest : List Char} (h : Grammar.IsPosition digits)
    (hrest : ∀ c, rest.head? = some c → Text.isDecimalDigit c = false) (pos : Nat) :
    (mk (digits ++ rest) pos true).next =
      (⟨pos, .int (String.ofList digits)⟩, mk rest (pos + digits.length) true) := by
  have hdigit : ∀ c ∈ digits, Text.isDecimalDigit c = true :=
    fun c hc => Text.isDecimalDigit_of_isAsciiDigit (h.ascii c hc)
  cases digits with
  | nil => exact absurd rfl h.ne_nil
  | cons c digits =>
    have htail : ∀ d ∈ digits, Text.isDecimalDigit d = true :=
      fun d hd => hdigit d (List.mem_cons_of_mem c hd)
    -- a zero in front would make the token illegal
    have hleading : ¬(c = '0' ∧ digits ≠ []) := by
      rintro ⟨rfl, hne⟩
      exact hne (List.cons.inj (h.leading rfl)).2
    rw [List.cons_append, next_of_digit (hdigit c List.mem_cons_self), nextNumber,
      takeWhile_append_eq_left htail hrest, dropWhile_append_eq_right htail hrest,
      if_neg hleading]
    rfl

/-- Between brackets the first character says which tokens can be read. -/
theorem kind_next_inBrackets (c : Char) (cs : List Char) (pos : Nat) :
    ((c = '\'' ∨ c = '"') ∧ (mk (c :: cs) pos true).next.1.token.kind ∈ [.string, .illegal]) ∨
      (c = ']' ∧ (mk (c :: cs) pos true).next.1.token.kind = .rightBracket) ∨
      (Text.isDecimalDigit c = true ∧
        (mk (c :: cs) pos true).next.1.token.kind ∈ [.int, .illegal]) ∨
      (mk (c :: cs) pos true).next.1.token.kind = .illegal := by
  by_cases hquote : c = '\'' ∨ c = '"'
  · left
    refine ⟨hquote, ?_⟩
    rw [next_of_quote hquote, nextQuoted]
    split <;> simp [Token.kind]
  right
  by_cases hright : c = ']'
  · left
    exact ⟨hright, by rw [hright, next_rightBracket]; rfl⟩
  right
  by_cases hdigit : Text.isDecimalDigit c = true
  · left
    refine ⟨hdigit, ?_⟩
    rw [next_of_digit hdigit, nextNumber]
    dsimp only
    split <;> simp [Token.kind]
  · right
    rw [next_of_illegal hquote hright (by simpa using hdigit)]
    rfl

/-- A name that is read between brackets stands between two quotes. -/
theorem exists_quoted_of_next {cs : List Char} {pos : Nat} {text : String}
    (h : (mk cs pos true).next.1.token = .string text) :
    ∃ quote inner name rest, (quote = '\'' ∨ quote = '"') ∧ Grammar.Quoted quote inner name ∧
      text = String.ofList name ∧ cs = quote :: (inner ++ quote :: rest) := by
  cases cs with
  | nil => cases h
  | cons c cs =>
    have hkind := kind_next_inBrackets c cs pos
    rw [h] at hkind
    -- of the first characters only a quote begins a name
    obtain ⟨hquote, -⟩ | ⟨-, hc⟩ | ⟨-, hc⟩ | hc := hkind
    · rw [next_of_quote hquote, nextQuoted] at h
      split at h
      next name width rest hread =>
        obtain ⟨inner, hinner, rfl, -⟩ := QuotedName.exists_quoted_of_read hread
        exact ⟨c, inner, name, rest, hquote, hinner, (Token.string.inj h).symm, rfl⟩
      next => cases h
      next => cases h
    · cases hc
    · simp [Token.kind] at hc
    · cases hc

/-- A number that is read is a row of digits without a superfluous zero in front. -/
theorem exists_digits_of_next {cs : List Char} {pos : Nat} {text : String}
    (h : (mk cs pos true).next.1.token = .int text) :
    ∃ digits rest, text = String.ofList digits ∧ cs = digits ++ rest ∧ digits ≠ [] ∧
      (digits.head? = some '0' → digits = ['0']) ∧
      ∀ c, rest.head? = some c → Text.isDecimalDigit c = false := by
  cases cs with
  | nil => cases h
  | cons c cs =>
    have hkind := kind_next_inBrackets c cs pos
    rw [h] at hkind
    -- of the first characters only a digit begins a number
    obtain ⟨-, hc⟩ | ⟨-, hc⟩ | ⟨hdigit, -⟩ | hc := hkind
    · simp [Token.kind] at hc
    · cases hc
    · rw [next_of_digit hdigit, nextNumber] at h
      dsimp only at h
      split at h
      next => cases h
      next hleading =>
        refine ⟨c :: cs.takeWhile Text.isDecimalDigit, cs.dropWhile Text.isDecimalDigit,
          (Token.int.inj h).symm, ?_, List.cons_ne_nil c _, ?_, ?_⟩
        · rw [List.cons_append, List.takeWhile_append_dropWhile]
        · intro hhead
          obtain rfl : c = '0' := by simpa using hhead
          simpa using hleading
        · exact fun d hd => apply_of_head?_dropWhile hd
    · cases hc

/-- A closing bracket that is read between brackets stands there. -/
theorem exists_rightBracket_of_next {cs : List Char} {pos : Nat}
    (h : (mk cs pos true).next.1.token.kind = .rightBracket) : ∃ rest, cs = ']' :: rest := by
  cases cs with
  | nil => cases h
  | cons c cs =>
    have hkind := kind_next_inBrackets c cs pos
    rw [h] at hkind
    obtain ⟨-, hc⟩ | ⟨rfl, -⟩ | ⟨-, hc⟩ | hc := hkind
    · simp at hc
    · exact ⟨cs, rfl⟩
    · simp at hc
    · cases hc

/-! ## The end of the text -/

theorem endPos_nextOutside (s : Scanner) (c : Char) (rest : List Char) :
    (s.nextOutside c rest).2.endPos = s.pos + (rest.length + 1) := by
  have hrun := length_takeWhile_add_dropWhile (!endsBareName ·) rest
  unfold nextOutside
  repeat' split
  -- the four marks take one character, a bare name takes all that belong to it
  all_goals
    simp only [endPos, advance]
    omega

theorem endPos_nextQuoted (s : Scanner) (quote : Char) (rest : List Char) :
    (s.nextQuoted quote rest).2.endPos = s.pos + (rest.length + 1) := by
  have hwidth := QuotedName.width_read_add quote rest
  unfold nextQuoted
  split
  next h =>
    rw [h] at hwidth
    simp only [QuotedName.width, QuotedName.remaining] at hwidth
    simp only [endPos, advance]
    omega
  next h =>
    rw [h] at hwidth
    simp only [QuotedName.width, QuotedName.remaining] at hwidth
    simp only [endPos, advance]
    omega
  next h =>
    rw [h] at hwidth
    simp only [QuotedName.width, QuotedName.remaining, List.length_nil] at hwidth
    simp only [endPos, advance, List.length_nil]
    omega

theorem endPos_nextInside (s : Scanner) (c : Char) (rest : List Char) :
    (s.nextInside c rest).2.endPos = s.pos + (rest.length + 1) := by
  have hrun := length_takeWhile_add_dropWhile Text.isDecimalDigit rest
  unfold nextInside
  repeat' split
  · exact endPos_nextQuoted s c rest
  · simp only [endPos, advance]
    omega
  · simp only [nextNumber, endPos, advance]
    omega
  · simp only [endPos, advance]
    omega

/-- Reading a token does not move the end of the text. -/
@[simp]
theorem endPos_next (s : Scanner) : s.next.2.endPos = s.endPos := by
  unfold next
  split
  next h => rfl
  next c rest h =>
    have hend : s.endPos = s.pos + (rest.length + 1) := by rw [endPos, h, List.length_cons]
    rw [hend]
    split
    · exact endPos_nextInside s c rest
    · exact endPos_nextOutside s c rest

end Scanner

end ValuePath
