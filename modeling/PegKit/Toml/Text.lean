import PegKit.Text.Basic

/-! The lexical ground of TOML: blanks, line ends, comments, and the four kinds of strings. A
reader takes the characters that are left and gives what it read with the rest behind it, or
nothing if the text is not well formed there. -/

namespace PegKit.Toml

abbrev Reader (α : Type) := List Char → Option (α × List Char)

def isSpace (c : Char) : Bool := c == ' ' || c == '\t'

/-- Whether a comment or a string may hold `c` as it is: any character but a control, and tabs. -/
def isPlain (c : Char) : Bool := c == '\t' || (' ' ≤ c && c ≠ '\x7f')

def skipSpaces (cs : List Char) : List Char := cs.dropWhile isSpace

/-- What is left of a line: spaces, a comment, and the line break or the end of the text. -/
def lineEnd? (cs : List Char) : Option (List Char) :=
  let rest := match skipSpaces cs with
    | '#' :: comment => comment.dropWhile isPlain
    | cs => cs
  match rest with
  | [] => some []
  | '\n' :: rest => some rest
  | '\r' :: '\n' :: rest => some rest
  | _ => none

/-- Skips blanks, line breaks and comments; the flag says whether a comment has begun. It stops
before a character that none of them can hold. -/
def skipLayout : Bool → List Char → List Char
  | _, [] => []
  | _, '\n' :: rest => skipLayout false rest
  | _, '\r' :: '\n' :: rest => skipLayout false rest
  | true, c :: rest => if isPlain c then skipLayout true rest else c :: rest
  | false, c :: rest =>
    if isSpace c then skipLayout false rest
    else if c = '#' then skipLayout true rest
    else c :: rest

def escaped? : Char → Option Char
  | 'b' => some '\x08'
  | 't' => some '\t'
  | 'n' => some '\n'
  | 'f' => some '\x0c'
  | 'r' => some '\r'
  | '"' => some '"'
  | '\\' => some '\\'
  | _ => none

def before (c : Char) : Option (List Char × List Char) → Option (List Char × List Char)
  | some (s, rest) => some (c :: s, rest)
  | none => none

def basicString : Reader (List Char)
  | [] => none
  | '"' :: rest => some ([], rest)
  | '\\' :: 'u' :: a :: b :: c :: d :: rest =>
    (Text.numberedChar? [a, b, c, d]).bind fun x => before x (basicString rest)
  | '\\' :: 'U' :: a :: b :: c :: d :: e :: f :: g :: h :: rest =>
    (Text.numberedChar? [a, b, c, d, e, f, g, h]).bind fun x => before x (basicString rest)
  | '\\' :: c :: rest => (escaped? c).bind fun x => before x (basicString rest)
  | c :: rest => if isPlain c && c ≠ '\\' then before c (basicString rest) else none

def literalString : Reader (List Char)
  | [] => none
  | '\'' :: rest => some ([], rest)
  | c :: rest => if isPlain c then before c (literalString rest) else none

/-- The closing mark of a string over several lines: up to two quotes before it still belong to the
string. -/
def closingQuotes (quote : Char) : Reader (List Char)
  | a :: b :: rest =>
    if a = quote && b = quote then some ([quote, quote], rest)
    else if a = quote then some ([quote], b :: rest)
    else some ([], a :: b :: rest)
  | [a] => if a = quote then some ([quote], []) else some ([], [a])
  | [] => some ([], [])

def endsLine (cs : List Char) : Bool :=
  match skipSpaces cs with
  | '\n' :: _ | '\r' :: '\n' :: _ => true
  | _ => false

/-- A string with escapes over several lines, behind its opening mark. After a backslash at the end
of a line, which sets the flag, all blanks and line breaks are skipped. -/
def multilineBasic : Bool → Reader (List Char)
  | _, [] => none
  | true, '\r' :: '\n' :: rest => multilineBasic true rest
  | false, '\r' :: '\n' :: rest => before '\n' (multilineBasic false rest)
  | _, '"' :: '"' :: '"' :: rest => closingQuotes '"' rest
  | _, '\\' :: 'u' :: a :: b :: c :: d :: rest =>
    (Text.numberedChar? [a, b, c, d]).bind fun x => before x (multilineBasic false rest)
  | _, '\\' :: 'U' :: a :: b :: c :: d :: e :: f :: g :: h :: rest =>
    (Text.numberedChar? [a, b, c, d, e, f, g, h]).bind fun x => before x (multilineBasic false rest)
  | _, '\\' :: c :: rest =>
    if endsLine (c :: rest) then multilineBasic true (c :: rest)
    else (escaped? c).bind fun x => before x (multilineBasic false rest)
  | skipping, c :: rest =>
    if skipping && (isSpace c || c = '\n') then multilineBasic true rest
    else if c = '\n' || (isPlain c && c ≠ '\\') then before c (multilineBasic false rest)
    else none

def multilineLiteral : Reader (List Char)
  | [] => none
  | '\r' :: '\n' :: rest => before '\n' (multilineLiteral rest)
  | '\'' :: '\'' :: '\'' :: rest => closingQuotes '\'' rest
  | c :: rest =>
    if c = '\n' || isPlain c then before c (multilineLiteral rest) else none

/-- A line break right behind the opening mark is not part of the string. -/
def dropLineBreak : List Char → List Char
  | '\n' :: rest => rest
  | '\r' :: '\n' :: rest => rest
  | cs => cs

def anyString : Reader (List Char)
  | '"' :: '"' :: '"' :: rest => multilineBasic false (dropLineBreak rest)
  | '"' :: rest => basicString rest
  | '\'' :: '\'' :: '\'' :: rest => multilineLiteral (dropLineBreak rest)
  | '\'' :: rest => literalString rest
  | _ => none

end PegKit.Toml
