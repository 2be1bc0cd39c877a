import SiteFilter.Text.Basic
import SiteFilter.Text.Blank
import SiteFilter.Text.DecimalDigit

/-!
# Numbers from text

Reading integers and floating-point numbers that people typed. Blanks around the number, digits of
any script and single low lines between digits are accepted.
-/

namespace SiteFilter

namespace CodePoint

def asciiDigit? (c : CodePoint) : Option Nat :=
  if 0x30 ≤ c.val && c.val ≤ 0x39 then some (c.val - 0x30) else none

def isAsciiDigit (c : CodePoint) : Bool :=
  c.asciiDigit?.isSome

def isNumberBlank (c : CodePoint) : Bool :=
  c.val = 0x20 || (0x09 ≤ c.val && c.val ≤ 0x0D)

end CodePoint

namespace Numeral

def value (digits : Text) : Nat :=
  digits.foldl (fun n c => n * 10 + (c.val - 0x30)) 0

/--
A code point of a number in ASCII: digits of any script become ASCII digits and blanks beyond
ASCII become spaces. What has no place in a number becomes a question mark.
-/
def plainPoint (c : CodePoint) : CodePoint :=
  if c.val < 0x7F then c
  else if c.isBlank then CodePoint.ofChar ' '
  else
    match c.decimalValue? with
    | some d => CodePoint.ofNat (0x30 + d)
    | none => CodePoint.ofChar '?'

def plain (t : Text) : Text :=
  (if t.all CodePoint.isAscii then t else t.map plainPoint).trimWhile CodePoint.isNumberBlank

/-- Takes out low lines that stand between two digits; any other low line is refused. -/
def joinDigits? (afterDigit : Bool) : Text → Option Text
  | [] => some []
  | c :: rest =>
      if c.val = 0x5F then
        match rest with
        | d :: _ => if afterDigit && d.isAsciiDigit then joinDigits? false rest else none
        | [] => none
      else
        (joinDigits? c.isAsciiDigit rest).map (c :: ·)

def splitSign (t : Text) : Bool × Text :=
  match t with
  | c :: rest =>
      if c.val = 0x2D then (true, rest) else if c.val = 0x2B then (false, rest) else (false, t)
  | [] => (false, [])

def spanDigits (t : Text) : Text × Text :=
  (t.takeWhile CodePoint.isAsciiDigit, t.dropWhile CodePoint.isAsciiDigit)

/-- The most digits that a whole number may have where it is read. -/
def digitLimit : Nat := 4300

/-- How a whole number with too many digits is refused; where it is read, they are counted. -/
def tooManyDigits (count : Option Nat) : Text :=
  let counted :=
    match count with
    | some n => Text.ofString ": value has " ++ Text.ofNat n ++ Text.ofString " digits"
    | none => []
  Text.ofString "Exceeds the limit (" ++ Text.ofNat digitLimit
    ++ Text.ofString " digits) for integer string conversion" ++ counted
    ++ Text.ofString "; use sys.set_int_max_str_digits() to increase the limit"

/-- Digits and low lines at the front: how many digits, unless a low line stands wrong. -/
def frontDigits? (afterDigit : Bool) : Text → Option Nat
  | [] => if afterDigit then some 0 else none
  | c :: rest =>
      if c.val = 0x5F then if afterDigit then frontDigits? false rest else none
      else if c.isAsciiDigit then (frontDigits? true rest).map (· + 1)
      else if afterDigit then some 0 else none

/-- How many digits a text has at its front that are too many for a number, whatever follows. -/
def excessDigits? (t : Text) : Option Nat :=
  (frontDigits? false (splitSign (plain t)).2).filter (digitLimit < ·)

def readInt? (t : Text) : Option Int := do
  let body ← joinDigits? false (plain t)
  let (negative, digits) := splitSign body
  if digits.isEmpty || !digits.all CodePoint.isAsciiDigit then none
  else if negative then some (-(value digits : Int)) else some (value digits)

/--
The floating-point number nearest to `digits * 10 ^ exponent`. Beyond the range of the format the
answer is known without the power: zero below it, infinity above it.
-/
def nearestFloat (digits : Nat) (exponent : Int) : Float :=
  let lead := exponent + (Nat.toDigits 10 digits).length
  if digits = 0 || lead < -400 then 0.0
  else if 400 < lead then Float.ofBits 0x7FF0000000000000
  else Float.ofScientific digits (exponent < 0) exponent.natAbs

def splitExponent? (t : Text) : Option (Int × Text) :=
  match t with
  | c :: rest =>
      if c.val = 0x65 || c.val = 0x45 then
        let (negative, body) := splitSign rest
        let (digits, after) := spanDigits body
        if digits.isEmpty then none
        else some (if negative then -(value digits : Int) else value digits, after)
      else none
  | [] => none

def asciiLower (t : Text) : Text :=
  t.map fun c => if 0x41 ≤ c.val && c.val ≤ 0x5A then CodePoint.ofNat (c.val + 32) else c

def readMagnitude? (t : Text) : Option Float :=
  let name := asciiLower t
  if name = Text.ofString "inf" || name = Text.ofString "infinity" then
    some (Float.ofBits 0x7FF0000000000000)
  else if name = Text.ofString "nan" then
    some (Float.ofBits 0x7FF8000000000000)
  else
    let (whole, rest) := spanDigits t
    let (fraction, rest) :=
      match rest with
      | c :: after => if c.val = 0x2E then spanDigits after else ([], rest)
      | [] => ([], rest)
    let (exponent, rest) := (splitExponent? rest).getD (0, rest)
    if (whole.isEmpty && fraction.isEmpty) || !rest.isEmpty then none
    else some (nearestFloat (value (whole ++ fraction)) (exponent - fraction.length))

def readFloat? (t : Text) : Option Float := do
  let body ← joinDigits? false (plain t)
  let (negative, magnitude) := splitSign body
  let x ← readMagnitude? magnitude
  some (if negative then -x else x)

end Numeral

end SiteFilter
