import PegKit.Location

/-! Tokens: pieces of grammar text with their class and the place where they start. Blanks and
comments are trivia, which carries no structure. -/

namespace PegKit

inductive TokenKind where
  | identifier
  | arrow
  | leftParen
  | rightParen
  | operator
  | stringLiteral
  | comment
  | whitespace
  | endOfInput
deriving DecidableEq, Repr, Inhabited

namespace TokenKind

def isTrivia : TokenKind → Bool
  | whitespace | comment => true
  | _ => false

/-- The name under which reports in a data format list the kind. -/
def code : TokenKind → String
  | identifier => "Identifier"
  | arrow => "Arrow"
  | leftParen => "LParen"
  | rightParen => "RParen"
  | operator => "Operator"
  | stringLiteral => "StringLiteral"
  | comment => "Comment"
  | whitespace => "Whitespace"
  | endOfInput => "EOF"

/-- The name under which messages mention the kind. -/
def label : TokenKind → String
  | identifier => "identifier"
  | arrow => "arrow"
  | leftParen => "left paren"
  | rightParen => "right paren"
  | operator => "operator"
  | stringLiteral => "string literal"
  | comment => "comment"
  | whitespace => "whitespace"
  | endOfInput => "end of input"

end TokenKind

structure Token where
  kind : TokenKind
  text : String
  location : Location
  /-- False only for a string literal that lacks its closing delimiter. -/
  closed : Bool
deriving DecidableEq, Repr, Inhabited

namespace Token

def isTrivia (t : Token) : Bool := t.kind.isTrivia

def span (t : Token) : Span :=
  ⟨t.location.offset, t.location.offset + t.text.utf8ByteSize, Nat.le_add_right ..⟩

end Token

end PegKit
