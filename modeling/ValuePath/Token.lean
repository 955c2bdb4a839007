/-!
# Tokens of a written path

A token keeps the text that it was read from, so that it can be shown where it is not expected.
A lexeme is a token with the place where it stands: the number of its first character, counted
from one.
-/

namespace ValuePath

/-- The categories of tokens. -/
inductive TokenKind where
  | illegal
  | eof
  | string
  | int
  | period
  | leftBracket
  | rightBracket
  | root
  deriving DecidableEq

/-- The name of a category in messages. -/
def TokenKind.name : TokenKind → String
  | illegal => "illegal"
  | eof => "EOF"
  | string => "string"
  | int => "int"
  | period => "period"
  | leftBracket => "lbrack"
  | rightBracket => "rbrack"
  | root => "root"

/-- A token of a written path. -/
inductive Token where
  /-- Characters that are not allowed where they stand. The text is empty for an unterminated
  quoted name and for a bad escape. -/
  | illegal (text : String)
  /-- The end of the text. -/
  | eof
  /-- A name, bare or quoted; without its quotes and escapes. -/
  | string (text : String)
  /-- A position in a sequence, with the digits as they are written. -/
  | int (digits : String)
  /-- The separator before a bare name. -/
  | period
  /-- Opens a quoted name or a position. -/
  | leftBracket
  /-- Closes a quoted name or a position. -/
  | rightBracket
  /-- The root marker, which only the first character of a path can be. -/
  | root
  deriving DecidableEq

namespace Token

/-- The text of a token. -/
def literal : Token → String
  | illegal text => text
  | eof => ""
  | string text => text
  | int digits => digits
  | period => "."
  | leftBracket => "["
  | rightBracket => "]"
  | root => "$"

/-- The category of a token. -/
def kind : Token → TokenKind
  | illegal _ => .illegal
  | eof => .eof
  | string _ => .string
  | int _ => .int
  | period => .period
  | leftBracket => .leftBracket
  | rightBracket => .rightBracket
  | root => .root

end Token

/-- A token and its place in the text. -/
structure Lexeme where
  /-- The number of the character where the token stands, counted from one. -/
  pos : Nat
  /-- The token. -/
  token : Token
  deriving DecidableEq

end ValuePath
