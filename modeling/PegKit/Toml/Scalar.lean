import PegKit.Number.Binary64
import PegKit.Toml.Datum
import PegKit.Toml.Text

/-! The scalars of TOML that are not strings: booleans, dates and times, integers of 64 bits, and
numbers with a fraction or an exponent. -/

namespace PegKit.Toml

def exactly (word : List Char) (cs : List Char) : Option (List Char) :=
  if word.isPrefixOf cs then some (cs.drop word.length) else none

/-- Digits behind the first one. An underscore may stand between two digits. -/
def moreDigits (isDigit : Char → Bool) : List Char → List Char × List Char
  | [] => ([], [])
  | c :: rest =>
    if isDigit c then
      let (ds, rest) := moreDigits isDigit rest
      (c :: ds, rest)
    else
      match c, rest with
      | '_', d :: rest =>
        if isDigit d then
          let (ds, rest) := moreDigits isDigit rest
          (d :: ds, rest)
        else ([], c :: d :: rest)
      | _, _ => ([], c :: rest)

def digits? (isDigit : Char → Bool) : Reader (List Char)
  | [] => none
  | c :: rest =>
    if isDigit c then
      let (ds, rest) := moreDigits isDigit rest
      some (c :: ds, rest)
    else none

def numeral (base : Nat) (digits : List Char) : Nat :=
  digits.foldl (fun n c => base * n + (Text.hexDigit? c).getD 0) 0

def sign : List Char → Bool × List Char
  | '-' :: rest => (true, rest)
  | '+' :: rest => (false, rest)
  | cs => (false, cs)

/-- The digits of a decimal integer, where a zero at the front stands alone. -/
def integerPart : Reader (List Char)
  | '0' :: rest => some (['0'], rest)
  | cs => digits? Char.isDigit cs

def integerOf (negative : Bool) (n : Nat) : Option Datum :=
  if negative then
    if n ≤ Nat.pow 2 63 then some (.integer (-n)) else none
  else if n < Nat.pow 2 63 then some (.integer n) else none

def integer : Reader Datum
  | '0' :: 'x' :: cs => based 16 (fun c => (Text.hexDigit? c).isSome) cs
  | '0' :: 'o' :: cs => based 8 (fun c => '0' ≤ c && c ≤ '7') cs
  | '0' :: 'b' :: cs => based 2 (fun c => c = '0' || c = '1') cs
  | cs => do
    let (negative, cs) := sign cs
    let (ds, cs) ← integerPart cs
    return (← integerOf negative (numeral 10 ds), cs)
where
  based (base : Nat) (isDigit : Char → Bool) (cs : List Char) : Option (Datum × List Char) := do
    let (ds, cs) ← digits? isDigit cs
    return (← integerOf false (numeral base ds), cs)

def fraction : Reader (List Char)
  | '.' :: cs => digits? Char.isDigit cs
  | _ => none

def exponent : Reader Int
  | c :: cs =>
    if c = 'e' || c = 'E' then do
      let (negative, cs) := sign cs
      let (ds, cs) ← digits? Char.isDigit cs
      let n : Int := numeral 10 ds
      some (if negative then -n else n, cs)
    else none
  | [] => none

/-- Too large a number is not well formed, unless it is negative. -/
def floatOf (x : Decimal) : Option Datum :=
  match Binary64.ofDecimal x with
  | .infinite false => none
  | b => some (.float b.positional)

def special : Reader Datum := fun cs =>
  let (negative, cs) := sign cs
  match exactly "inf".toList cs, exactly "nan".toList cs with
  | some rest, _ => some (.float (Binary64.infinite negative).positional, rest)
  | none, some rest => some (.float Binary64.notANumber.positional, rest)
  | none, none => none

def plainFloat : Reader Datum := fun cs => do
  let (negative, cs) := sign cs
  let (whole, cs) ← integerPart cs
  match fraction cs with
  | some (places, cs) =>
    let (e, cs) := (exponent cs).getD (0, cs)
    return (← floatOf ⟨negative, numeral 10 (whole ++ places), e - places.length⟩, cs)
  | none =>
    let (e, cs) ← exponent cs
    return (← floatOf ⟨negative, numeral 10 whole, e⟩, cs)

def float : Reader Datum := fun cs => plainFloat cs <|> special cs

def fixedDigits (n low high : Nat) : Reader Nat := fun cs =>
  let ds := cs.take n
  let value := numeral 10 ds
  if ds.length = n && ds.all Char.isDigit && low ≤ value && value ≤ high then
    some (value, cs.drop n)
  else none

def daysIn (year month : Nat) : Nat :=
  let leap := year % 4 = 0 && (year % 100 ≠ 0 || year % 400 = 0)
  match month with
  | 2 => if leap then 29 else 28
  | 4 | 6 | 9 | 11 => 30
  | _ => 31

def date (cs : List Char) : Option (List Char) := do
  let (year, cs) ← fixedDigits 4 0 9999 cs
  let cs ← exactly ['-'] cs
  let (month, cs) ← fixedDigits 2 1 12 cs
  let cs ← exactly ['-'] cs
  let (_, cs) ← fixedDigits 2 1 (daysIn year month) cs
  return cs

def hourAndMinute (cs : List Char) : Option (List Char) := do
  let (_, cs) ← fixedDigits 2 0 23 cs
  let cs ← exactly [':'] cs
  let (_, cs) ← fixedDigits 2 0 59 cs
  return cs

/-- A time of day. The second may be a leap second. -/
def time (cs : List Char) : Option (List Char) := do
  let cs ← hourAndMinute cs
  let cs ← exactly [':'] cs
  let (_, cs) ← fixedDigits 2 0 60 cs
  match cs with
  | '.' :: d :: rest => if d.isDigit then some (rest.dropWhile Char.isDigit) else some cs
  | _ => some cs

def zone : List Char → Option (List Char)
  | 'Z' :: rest | 'z' :: rest => some rest
  | '+' :: rest | '-' :: rest => hourAndMinute rest
  | _ => none

/-- A time behind a date, with the letter T or a space between, and perhaps a time zone. -/
def timeBehindDate : List Char → Option (List Char)
  | c :: rest =>
    if c = 'T' || c = 't' || c = ' ' then do
      let cs ← time rest
      return (zone cs).getD cs
    else none
  | [] => none

def moment (cs : List Char) : Option (List Char) :=
  match date cs with
  | some rest => some ((timeBehindDate rest).getD rest)
  | none => time cs

def momentDatum : Reader Datum := fun cs => do
  let rest ← moment cs
  let shown := String.ofList (cs.take (cs.length - rest.length))
  return (.moment shown, rest)

def scalar : Reader Datum
  | [] => none
  | c :: rest =>
    if c = '"' || c = '\'' then do
      let (s, rest) ← anyString (c :: rest)
      return (.text (String.ofList s), rest)
    else if c = 't' then do
      let rest ← exactly "true".toList (c :: rest)
      return (.boolean true, rest)
    else if c = 'f' then do
      let rest ← exactly "false".toList (c :: rest)
      return (.boolean false, rest)
    else if c = '+' || c = '-' || c.isDigit then
      momentDatum (c :: rest) <|> float (c :: rest) <|> integer (c :: rest)
    else special (c :: rest)

end PegKit.Toml
