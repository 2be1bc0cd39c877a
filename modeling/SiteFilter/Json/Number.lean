import SiteFilter.Json.Kind
import SiteFilter.Number.Reading

/-!
# Values taken as numbers

Where a number is needed, numbers, truth values and texts that spell a number will do.
-/

namespace SiteFilter.Json

/-- The floating-point number nearest to an integer, unless the integer is too large for any. -/
def floatOfInt (i : Int) : Except Mismatch Float :=
  let x := Numeral.nearestFloat i.natAbs 0
  if x.isInf then .error .numberTooLarge else .ok (if i < 0 then -x else x)

def asFloat : Json → Except Mismatch Float
  | .float x => .ok x
  | .int i => floatOfInt i
  | .bool b => .ok (if b then 1.0 else 0.0)
  | .text t =>
      match Numeral.readFloat? t with
      | some x => .ok x
      | none => .error (.numberText t)
  | v => .error (.notANumber v.kind)

/-- A whole floating-point number as an integer: the number without its fraction. -/
def intOfFloat (x : Float) : Except Mismatch Int :=
  if x.isNaN then .error .integerOfNaN
  else if x.isInf then .error .integerOfInfinity
  else
    let (num, den) := (Binary.ofBits x.toBits).quotient 0
    let magnitude := num / den
    .ok (if x < 0.0 then -(magnitude : Int) else magnitude)

def asInt : Json → Except Mismatch Int
  | .int i => .ok i
  | .bool b => .ok (if b then 1 else 0)
  | .float x => intOfFloat x
  | .text t =>
      match Numeral.excessDigits? t, Numeral.readInt? t with
      | some count, _ => .error (.integerDigits count)
      | none, some i => .ok i
      | none, none => .error (.integerText t)
  | v => .error (.notAnInteger v.kind)

end SiteFilter.Json
