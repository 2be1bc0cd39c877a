import SiteFilter.Text.Basic
import SiteFilter.Number.Shortest

/-!
# Numbers as text

How a number that is not an integer is written: its digits, and where point and exponent go.
-/

namespace SiteFilter

/-- What a format of numbers decides once the digits are known. -/
structure NumberLayout where
  /-- Leading digits worth less than ten to this power are written without an exponent. -/
  plainBelow : Int
  /-- A whole number shows a point and a zero. -/
  pointZero : Bool
  notANumber : String
  infinity : String

namespace NumberLayout

def digitsOf (d : Decimal) : Text :=
  Text.ofNat d.digits

/-- The text of a decimal. Numbers below a ten-thousandth get an exponent of two digits or more. -/
def layOut (layout : NumberLayout) (d : Decimal) : Text :=
  let digits := digitsOf d
  let count : Int := digits.length
  let lead := d.exponent + count - 1
  if d.digits = 0 then
    Text.ofString (if layout.pointZero then "0.0" else "0")
  else if -4 ≤ lead && lead < layout.plainBelow then
    if lead < 0 then
      Text.ofString "0." ++ List.replicate (-lead - 1).toNat (CodePoint.ofChar '0') ++ digits
    else if 0 ≤ d.exponent then
      digits ++ List.replicate d.exponent.toNat (CodePoint.ofChar '0')
        ++ (if layout.pointZero then Text.ofString ".0" else [])
    else
      digits.take (lead + 1).toNat ++ CodePoint.ofChar '.' :: digits.drop (lead + 1).toNat
  else
    let power := Text.ofNat lead.natAbs
    digits.take 1
      ++ (if digits.length = 1 then [] else CodePoint.ofChar '.' :: digits.drop 1)
      ++ Text.ofString (if lead < 0 then "e-" else "e+")
      ++ (if power.length < 2 then CodePoint.ofChar '0' :: power else power)

/-- The text of a number whose magnitude has the decimal that `digits` chooses. -/
def write (layout : NumberLayout) (digits : Binary → Decimal) (x : Float) : Text :=
  let negative := x.toBits >>> 63 == 1
  if x.isNaN then Text.ofString layout.notANumber
  else
    (if negative then Text.ofString "-" else [])
      ++ (if x.isInf then Text.ofString layout.infinity
          else layout.layOut (digits (Binary.ofBits x.toBits)))

def display : NumberLayout where
  plainBelow := 16
  pointZero := true
  notANumber := "nan"
  infinity := "inf"

def document : NumberLayout where
  plainBelow := 16
  pointZero := true
  notANumber := "NaN"
  infinity := "Infinity"

/-- Durations: six digits, and no point where none is needed. -/
def duration : NumberLayout where
  plainBelow := 6
  pointZero := false
  notANumber := "nan"
  infinity := "inf"

end NumberLayout

def durationText (x : Float) : Text :=
  NumberLayout.duration.write (Binary.nearest 6) x

end SiteFilter
