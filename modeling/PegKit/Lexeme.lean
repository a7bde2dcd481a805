import PegKit.Token
import PegKit.LexicalRules

/-! The next lexeme of a text. The classes are tried in a fixed order and the first that matches
decides: blanks, block comments, line comments, strings, the definition sign and parentheses,
identifiers; any other character stands alone as an operator. So every text that is not empty has
a next lexeme, and no lexeme is empty. -/

namespace PegKit

/-- A piece of text with its class, before it has a place in a source. -/
structure Lexeme where
  kind : TokenKind
  text : List Char
  closed : Bool
deriving DecidableEq, Repr

def isBlank (c : Char) : Bool := c == ' ' || c == '\t' || c == '\r' || c == '\n'

def isLineBreak (c : Char) : Bool := c == '\n' || c == '\r'

def isNameStart (c : Char) : Bool := c.isAlpha || c == '_'

def isNamePart (c : Char) : Bool := c.isAlphanum || c == '_'

/-- `text` up to and including the first occurrence of `mark`, or all of it without one. -/
def throughFirst (mark : List Char) : List Char → List Char
  | [] => []
  | c :: rest =>
    if mark.isPrefixOf (c :: rest) then mark else c :: throughFirst mark rest

/-- What follows the opening delimiter of a string, and whether it ends with a closing one. A
line break ends the string even after an escape character; otherwise a character after an escape
character has no meaning of its own. -/
def literalBody (delimiter : Char) (escape : Option Char) : Bool → List Char → List Char × Bool
  | _, [] => ([], false)
  | escaped, c :: rest =>
    if isLineBreak c then ([], false)
    else if !escaped && escape != some c && c == delimiter then ([c], true)
    else
      let (body, closed) := literalBody delimiter escape (!escaped && escape == some c) rest
      (c :: body, closed)

namespace Lexeme

def whitespace? (input : List Char) : Option Lexeme :=
  match input.takeWhile isBlank with
  | [] => none
  | blanks => some ⟨.whitespace, blanks, true⟩

/-- A block comment without its closing mark runs to the end of the text. -/
def blockComment? (input opening closing : List Char) : Option Lexeme :=
  if !opening.isEmpty && !closing.isEmpty && opening.isPrefixOf input then
    some ⟨.comment, opening ++ throughFirst closing (input.drop opening.length), true⟩
  else none

def lineComment? (input mark : List Char) : Option Lexeme :=
  if !mark.isEmpty && mark.isPrefixOf input then
    some ⟨.comment, mark ++ (input.drop mark.length).takeWhile (fun c => !isLineBreak c), true⟩
  else none

def stringLiteral? (rules : LexicalRules) : List Char → Option Lexeme
  | [] => none
  | c :: rest =>
    if rules.stringDelimiters.contains c then
      let (body, closed) := literalBody c rules.escape false rest
      some ⟨.stringLiteral, c :: body, closed⟩
    else none

def symbol? : List Char → Option Lexeme
  | '<' :: '-' :: _ => some ⟨.arrow, ['<', '-'], true⟩
  | '(' :: _ => some ⟨.leftParen, ['('], true⟩
  | ')' :: _ => some ⟨.rightParen, [')'], true⟩
  | _ => none

def identifier? : List Char → Option Lexeme
  | [] => none
  | c :: rest =>
    if isNameStart c then some ⟨.identifier, c :: rest.takeWhile isNamePart, true⟩ else none

/-- The first class that matches at the head of `input`, operators apart. -/
def classified? (rules : LexicalRules) (input : List Char) : Option Lexeme :=
  whitespace? input
    <|> rules.blockComments.findSome? (fun b =>
      blockComment? input b.opening.toList b.closing.toList)
    <|> rules.lineComments.findSome? (fun mark => lineComment? input mark.toList)
    <|> stringLiteral? rules input
    <|> symbol? input
    <|> identifier? input

def first (rules : LexicalRules) (c : Char) (rest : List Char) : Lexeme :=
  (classified? rules (c :: rest)).getD ⟨.operator, [c], true⟩

theorem whitespace?_text_ne_nil {input : List Char} {x : Lexeme}
    (h : whitespace? input = some x) : x.text ≠ [] := by
  unfold whitespace? at h
  split at h
  · simp at h
  · rename_i blanks hne
    cases h
    simpa using hne

theorem blockComment?_text_ne_nil {input opening closing : List Char} {x : Lexeme}
    (h : blockComment? input opening closing = some x) : x.text ≠ [] := by
  unfold blockComment? at h
  split at h
  · cases h
    simp_all
  · simp at h

theorem lineComment?_text_ne_nil {input mark : List Char} {x : Lexeme}
    (h : lineComment? input mark = some x) : x.text ≠ [] := by
  unfold lineComment? at h
  split at h
  · cases h
    simp_all
  · simp at h

theorem stringLiteral?_text_ne_nil {rules : LexicalRules} {input : List Char} {x : Lexeme}
    (h : stringLiteral? rules input = some x) : x.text ≠ [] := by
  unfold stringLiteral? at h
  split at h
  · simp at h
  · split at h
    · cases h
      simp
    · simp at h

theorem symbol?_text_ne_nil {input : List Char} {x : Lexeme}
    (h : symbol? input = some x) : x.text ≠ [] := by
  unfold symbol? at h
  split at h <;> cases h <;> simp

theorem identifier?_text_ne_nil {input : List Char} {x : Lexeme}
    (h : identifier? input = some x) : x.text ≠ [] := by
  unfold identifier? at h
  split at h
  · simp at h
  · split at h
    · cases h
      simp
    · simp at h

theorem classified?_text_ne_nil {rules : LexicalRules} {input : List Char} {x : Lexeme}
    (h : classified? rules input = some x) : x.text ≠ [] := by
  simp only [classified?, Option.orElse_eq_orElse, Option.orElse_eq_or,
    Option.or_eq_some_iff] at h
  rcases h with h | ⟨_, h | ⟨_, h | ⟨_, h | ⟨_, h | ⟨_, h⟩⟩⟩⟩⟩
  · exact whitespace?_text_ne_nil h
  · obtain ⟨b, _, hb⟩ := List.exists_of_findSome?_eq_some h
    exact blockComment?_text_ne_nil hb
  · obtain ⟨m, _, hm⟩ := List.exists_of_findSome?_eq_some h
    exact lineComment?_text_ne_nil hm
  · exact stringLiteral?_text_ne_nil h
  · exact symbol?_text_ne_nil h
  · exact identifier?_text_ne_nil h

/-- Every lexeme takes at least one character, whatever the rules say. -/
theorem first_text_ne_nil (rules : LexicalRules) (c : Char) (rest : List Char) :
    (first rules c rest).text ≠ [] := by
  unfold first
  cases h : classified? rules (c :: rest) with
  | none => simp
  | some x => simpa using classified?_text_ne_nil h

end Lexeme

end PegKit
