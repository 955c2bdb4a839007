import ValuePath.Node
import ValuePath.SyntaxError
import ValuePath.Token.Scanner

/-!
# Parsing a written path

A path is a root marker or a bare name, either of which may be missing, and then segments: `.name`,
`['name']` or `[7]`. Reading goes on behind an error, so that all errors of a path are found
together. Only a path that begins with a token that can begin none is given up at once; its other
tokens are left to a second reading.

* `readSegments` reads everything behind the head of a path.
* `Parser.parse` reads a path, and gives its chain of nodes or its errors.
-/

namespace ValuePath

/-- What has been read of a path: its links, and the errors in it. -/
structure Reading where
  /-- The links, innermost first. -/
  links : List Link
  /-- The errors, in the order of the text. -/
  errors : List SyntaxError
  deriving DecidableEq

/-- A reading with one more link in front, and the errors in that link. -/
def Reading.push (link : Link) (errors : List SyntaxError) (r : Reading) : Reading :=
  ⟨link :: r.links, errors ++ r.errors⟩

/-- The error of a token that is none of the expected ones. -/
def expect (expected : List TokenKind) (found : Lexeme) : List SyntaxError :=
  if found.token.kind ∈ expected then []
  else [⟨found.pos, .unexpected expected found.token.kind⟩]

/-- The position that digits write. Only ASCII digits write one, and it is below `2 ^ 64`. -/
def index? (digits : String) : Option UInt64 :=
  let n := Text.readDecimal digits.toList
  if digits.toList.all Text.isAsciiDigit && n < UInt64.size then some (UInt64.ofNat n) else none

/-- The step between two brackets, and what is wrong with it. -/
def readContent (content : Lexeme) : Step × List SyntaxError :=
  match content.token with
  | .string name => (.key name, [])
  | .int digits =>
    match index? digits with
    | some position => (.index position, [])
    | none => (.index 0, [⟨content.pos, .notAnIndex digits⟩])
  | _ => (.index 0, expect [.string, .int] content)

/-- Reads the segments of a path. Where a token is missing, the end of the text is found. -/
def readSegments (endPos : Nat) : List Lexeme → Reading
  | [] => ⟨[], []⟩
  | ⟨pos, .period⟩ :: [] =>
    ⟨[.step pos (.key "")], expect [.string] ⟨endPos, .eof⟩⟩
  | ⟨pos, .period⟩ :: name :: rest =>
    (readSegments endPos rest).push (.step pos (.key name.token.literal)) (expect [.string] name)
  | ⟨pos, .leftBracket⟩ :: [] =>
    let content := readContent ⟨endPos, .eof⟩
    ⟨[.step pos content.1], content.2 ++ expect [.rightBracket] ⟨endPos, .eof⟩⟩
  | ⟨pos, .leftBracket⟩ :: content :: [] =>
    let content := readContent content
    ⟨[.step pos content.1], content.2 ++ expect [.rightBracket] ⟨endPos, .eof⟩⟩
  | ⟨pos, .leftBracket⟩ :: content :: close :: rest =>
    let content := readContent content
    (readSegments endPos rest).push (.step pos content.1)
      (content.2 ++ expect [.rightBracket] close)
  | other :: rest =>
    let reading := readSegments endPos rest
    { reading with errors := expect [.period, .leftBracket] other ++ reading.errors }

/-- The chain of a reading without errors, or else its errors. -/
def Reading.result (r : Reading) : Except (List SyntaxError) (Option Node) :=
  if r.errors = [] then .ok (Node.ofLinks? r.links) else .error r.errors

/-- The tokens of a path that are still to be read. -/
structure Parser where
  /-- The tokens before the end of the text. -/
  pending : List Lexeme
  /-- The place of the end of the text. -/
  endPos : Nat

namespace Parser

/-- A parser at the beginning of a text. -/
def ofString (s : String) : Parser :=
  let scanner := Scanner.ofString s
  { pending := scanner.lexemes, endPos := scanner.endPos }

/-- Reads a path. There is none at the end of the text. -/
def parse (p : Parser) : Except (List SyntaxError) (Option Node) × Parser :=
  match p.pending with
  | [] => (.ok none, p)
  | head :: rest =>
    let done : Parser := { p with pending := [] }
    match head.token with
    | .root => (((readSegments p.endPos rest).push (.root head.pos) []).result, done)
    | .string name =>
      (((readSegments p.endPos rest).push (.step head.pos (.key name)) []).result, done)
    | .period => ((readSegments p.endPos (head :: rest)).result, done)
    | .leftBracket => ((readSegments p.endPos (head :: rest)).result, done)
    | _ => (.error (expect [.root, .string, .leftBracket] head), { p with pending := rest })

end Parser

end ValuePath
