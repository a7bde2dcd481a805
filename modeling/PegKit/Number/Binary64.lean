/-! Numbers with a fraction. A decimal numeral stands for the nearest number with a significand of
53 bits, ties going to an even significand, and such a number is written with the fewest digits
that still stand for it. All of it is exact arithmetic on natural numbers. -/

namespace PegKit

/-- The number `digits` times ten to the power `exponent`, or its opposite. -/
structure Decimal where
  negative : Bool
  digits : Nat
  exponent : Int
deriving DecidableEq, Repr

inductive Binary64 where
  /-- The number `significand` times two to the power `exponent`, or its opposite. -/
  | finite (negative : Bool) (significand : Nat) (exponent : Int)
  | infinite (negative : Bool)
  | notANumber
deriving DecidableEq, Repr

def decimalLength (n : Nat) : Nat := (Nat.toDigits 10 n).length

namespace Binary64

/-- `num / den` rounded to the nearest natural number, a tie to the even one. -/
def roundHalfEven (num den : Nat) : Nat :=
  let floor := num / den
  let twice := 2 * (num % den)
  if twice < den then floor
  else if den < twice then floor + 1
  else floor + floor % 2

def scaled (base a b : Nat) (e : Int) : Nat × Nat :=
  match e with
  | .ofNat k => (a * base.pow k, b)
  | .negSucc k => (a, b * base.pow (k + 1))

/-- The exponent of the significand for `num / den`: 53 bits, fewer below the normal range. -/
def exponentFor (num den : Nat) : Int :=
  let guess : Int := max ((num.log2 : Int) - den.log2 - 53) (-1074)
  let (n, d) := scaled 2 num den (-guess)
  if n / d < Nat.pow 2 53 then guess else guess + 1

def ofFraction (negative : Bool) (num den : Nat) : Binary64 :=
  let e := exponentFor num den
  let (n, d) := scaled 2 num den (-e)
  let m := roundHalfEven n d
  let (m, e) := if m = Nat.pow 2 53 then (Nat.pow 2 52, e + 1) else (m, e)
  if 971 < e then infinite negative else finite negative m e

/-- The nearest number to a decimal. Decimals that lie far out of range are decided by their
length, so that no large power is ever computed for them. -/
def ofDecimal (x : Decimal) : Binary64 :=
  let length : Int := decimalLength x.digits + x.exponent
  if x.digits = 0 || length < -330 then finite x.negative 0 (-1074)
  else if 310 < length then infinite x.negative
  else
    let (num, den) := scaled 10 x.digits 1 x.exponent
    ofFraction x.negative num den

inductive Tie where
  | larger
  | even
deriving DecidableEq, Repr

/-- Of the decimals with `n` digits that stand for `m` times two to the power `e`, the nearest
one. -/
def nearestWith (tie : Tie) (m : Nat) (e : Int) (magnitude : Int) (n : Nat) :
    Option (Nat × Int) :=
  let p := magnitude - n
  let below := if m = Nat.pow 2 52 && -1074 < e then 1 else 2
  let (value, unit) := scaled 2 (4 * m) 1 (e - 2)
  let (value, unit) := scaled 10 value unit (-p)
  let (quarter, _) := scaled 2 1 1 (e - 2)
  let (quarter, _) := scaled 10 quarter 1 (-p)
  let inside (k : Nat) : Bool :=
    let low := value - below * quarter
    let high := value + 2 * quarter
    if m % 2 = 0 then low ≤ k * unit && k * unit ≤ high else low < k * unit && k * unit < high
  let down := value / unit
  let up := down + 1
  if inside down && inside up then
    let twice := 2 * (value % unit)
    let stays := twice < unit || (twice = unit && tie = .even && down % 2 = 0)
    some (if stays then down else up, p)
  else if inside down then some (down, p)
  else if inside up then some (up, p)
  else none

/-- The fewest digits that stand for `m` times two to the power `e`, and their exponent. -/
def shortest (tie : Tie) (m : Nat) (e : Int) : Nat × Int :=
  let (num, den) := scaled 2 m 1 e
  let guess : Int := (decimalLength num : Int) - decimalLength den
  let (n, d) := scaled 10 num den (-guess)
  let magnitude := if n < d then guess else guess + 1
  ((List.range 17).findSome? fun k => nearestWith tie m e magnitude (k + 1)).getD (0, 0)

def trimmed (fuel : Nat) (digits : Nat) (e : Int) : Nat × Int :=
  match fuel with
  | 0 => (digits, e)
  | k + 1 =>
    if digits % 10 = 0 && digits ≠ 0 then trimmed k (digits / 10) (e + 1) else (digits, e)

def sign (negative : Bool) : String := if negative then "-" else ""

def zeros (n : Nat) : String := String.ofList (List.replicate n '0')

def pointed (numeral : String) (places : Int) : String :=
  let digits := numeral.toList
  match places with
  | .ofNat (k + 1) =>
    if digits.length ≤ k + 1 then numeral ++ zeros (k + 1 - digits.length) ++ ".0"
    else String.ofList (digits.take (k + 1)) ++ "." ++ String.ofList (digits.drop (k + 1))
  | _ => "0." ++ zeros places.natAbs ++ numeral

def positional : Binary64 → String
  | notANumber => "NaN"
  | infinite negative => sign negative ++ "inf"
  | finite negative 0 _ => sign negative ++ "0.0"
  | finite negative m e =>
    let (digits, p) := shortest .larger m e
    let (digits, p) := trimmed 20 digits p
    sign negative ++ pointed (toString digits) (decimalLength digits + p)

/-- The number with an exponent, which has a sign, where it is very large or very small: all places
are written from four zeros behind the point up to sixteen digits before it. -/
def scientific : Binary64 → String
  | finite negative (m + 1) e =>
    let (digits, p) := shortest .even (m + 1) e
    let (digits, p) := trimmed 20 digits p
    let numeral := toString digits
    let places := decimalLength digits + p
    if -5 < places && places ≤ 16 then sign negative ++ pointed numeral places
    else
      sign negative ++ (if numeral.length = 1 then numeral else pointed numeral 1) ++
        (if 0 < places then "e+" else "e") ++ toString (places - 1)
  | x => x.positional

end Binary64

end PegKit
