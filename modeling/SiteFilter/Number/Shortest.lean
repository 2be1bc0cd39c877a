/-!
# Decimals of binary numbers

The finite binary numbers of 64 bits as exact products `mantissa * 2 ^ exponent`, the decimal
with the fewest digits that reads back as such a number, and the decimal with a set count of
digits that is nearest to it. All of it is exact arithmetic on naturals.
-/

namespace SiteFilter

/-- A finite number that is not negative: `mantissa * 2 ^ exponent`. -/
structure Binary where
  mantissa : Nat
  exponent : Int
  /-- The gap to the number below is half the gap to the number above. -/
  narrowBelow : Bool

/-- The number `digits * 10 ^ exponent`. -/
structure Decimal where
  digits : Nat
  exponent : Int
deriving DecidableEq

namespace Binary

def ofBits (bits : UInt64) : Binary :=
  let e := ((bits >>> 52) &&& 0x7FF).toNat
  let f := (bits &&& 0xFFFFFFFFFFFFF).toNat
  if e = 0 then ⟨f, -1074, false⟩ else ⟨Nat.pow 2 52 + f, (e : Int) - 1075, f = 0 && 1 < e⟩

/-- Compares `a * 10 ^ i` with `m * 2 ^ j`. -/
def compareScaled (a : Nat) (i : Int) (m : Nat) (j : Int) : Ordering :=
  compare (a * Nat.pow 10 i.toNat * Nat.pow 2 (-j).toNat)
    (m * Nat.pow 2 j.toNat * Nat.pow 10 (-i).toNat)

/--
Whether `d` lies among the numbers that round to `x`: between the two midpoints with its
neighbours, the midpoints included when the mantissa is even.
-/
def readsBack (x : Binary) (d : Decimal) : Bool :=
  let low := if x.narrowBelow then 4 * x.mantissa - 1 else 4 * x.mantissa - 2
  let high := 4 * x.mantissa + 2
  let closed := x.mantissa % 2 == 0
  let atLow := compareScaled d.digits d.exponent low (x.exponent - 2)
  let atHigh := compareScaled d.digits d.exponent high (x.exponent - 2)
  (atLow == .gt || (closed && atLow == .eq)) && (atHigh == .lt || (closed && atHigh == .eq))

/-- The least `k` from `start` on with `x < 10 ^ k`, looked for `fuel` steps far. -/
def scaleFrom (x : Binary) : (fuel : Nat) → Int → Int
  | 0, k => k
  | fuel + 1, k =>
      if compareScaled 1 k x.mantissa x.exponent == .gt then k else scaleFrom x fuel (k + 1)

def scale (x : Binary) : Int :=
  let log := (Nat.log2 x.mantissa : Int) + x.exponent
  scaleFrom x 6 (Int.fdiv (log * 30103) 100000 - 1)

def quotient (x : Binary) (grid : Int) : Nat × Nat :=
  (x.mantissa * Nat.pow 2 x.exponent.toNat * Nat.pow 10 (-grid).toNat,
   Nat.pow 2 (-x.exponent).toNat * Nat.pow 10 grid.toNat)

/-- The point of the grid of `10 ^ grid` that reads back as `x` and is nearest to it, if any. -/
def onGrid? (x : Binary) (grid : Int) : Option Decimal :=
  let (num, den) := x.quotient grid
  let low := num / den
  match x.readsBack ⟨low, grid⟩, x.readsBack ⟨low + 1, grid⟩ with
  | true, false => some ⟨low, grid⟩
  | false, true => some ⟨low + 1, grid⟩
  | false, false => none
  | true, true =>
      match compare (2 * num) ((2 * low + 1) * den) with
      | .lt => some ⟨low, grid⟩
      | .gt => some ⟨low + 1, grid⟩
      | .eq => some ⟨if low % 2 == 0 then low else low + 1, grid⟩

def exact (x : Binary) : Decimal :=
  if 0 ≤ x.exponent then ⟨x.mantissa * Nat.pow 2 x.exponent.toNat, 0⟩
  else ⟨x.mantissa * Nat.pow 5 (-x.exponent).toNat, x.exponent⟩

end Binary

namespace Decimal

/-- Moves zeros at the end of the digits into the exponent, at most `fuel` of them. -/
def trimZeros : (fuel : Nat) → Decimal → Decimal
  | 0, d => d
  | fuel + 1, d =>
      if d.digits ≠ 0 && d.digits % 10 == 0 then trimZeros fuel ⟨d.digits / 10, d.exponent + 1⟩
      else d

def trimmed (d : Decimal) : Decimal :=
  trimZeros (Nat.log2 d.digits + 1) d

end Decimal

namespace Binary

/--
The decimal with the fewest digits that reads back as `x`, and of those the nearest to it; a tie
goes to the even digit.
-/
def shortest (x : Binary) : Decimal :=
  if x.mantissa = 0 then ⟨0, 0⟩
  else
    let k := x.scale
    match (List.range 17).findSome? fun (n : Nat) => x.onGrid? (k - 1 - (n : Int)) with
    | some d => d.trimmed
    | none => x.exact.trimmed

/-- `num / den` rounded to the nearest integer, a half to the even one. -/
def roundHalfEven (num den : Nat) : Nat :=
  let q := num / den
  match compare (2 * (num % den)) den with
  | .lt => q
  | .gt => q + 1
  | .eq => if q % 2 == 0 then q else q + 1

def nearest (count : Nat) (x : Binary) : Decimal :=
  if x.mantissa = 0 then ⟨0, 0⟩
  else
    let grid := x.scale - (count : Int)
    let (num, den) := x.quotient grid
    (Decimal.mk (roundHalfEven num den) grid).trimmed

end Binary

end SiteFilter
