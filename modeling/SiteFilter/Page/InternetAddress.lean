import SiteFilter.Number.Reading
import SiteFilter.Json.Reader

/-!
# Internet addresses

Which texts are numeric addresses: four decimal numbers between points, or eight groups of up to
four digits in base 16 between colons, of which a run can be left out once and the last two can be
written as four decimal numbers. A zone can follow behind a percent sign.
-/

namespace SiteFilter.InternetAddress

/-- A number of at most 255, without needless zeros. -/
def isOctet (t : Text) : Bool :=
  !t.isEmpty && t.all CodePoint.isAsciiDigit && t.length ≤ 3
    && (t.length = 1 || t.head? ≠ some (CodePoint.ofChar '0')) && Numeral.value t ≤ 255

def isFourOctets (t : Text) : Bool :=
  let parts := Text.splitOn (Text.ofString ".") t
  parts.length = 4 && parts.all isOctet

def isGroup (t : Text) : Bool :=
  !t.isEmpty && t.length ≤ 4 && t.all fun c => (Json.hexDigit? c).isSome

/-- The parts of an address, with two groups in the place of four decimal numbers at the end. -/
def groups? (t : Text) : Option (List Text) :=
  let parts := Text.splitOn (Text.ofString ":") t
  if parts.length < 3 then none
  else
    match parts.getLast? with
    | some last =>
        if last.contains (CodePoint.ofChar '.') then
          if isFourOctets last then
            some (parts.dropLast ++ [Text.ofString "0", Text.ofString "0"])
          else none
        else some parts
    | none => none

/-- Whether the parts are groups with at most one run left out. -/
def areGroups (parts : List Text) : Bool :=
  let inner := (parts.drop 1).dropLast
  let first := parts.head?.getD []
  let last := parts.getLast?.getD []
  match inner.findIdx? List.isEmpty with
  | none => parts.length = 8 && parts.all isGroup
  | some i =>
      let before := parts.take (i + 1)
      let after := parts.drop (i + 2)
      let high := if first.isEmpty then [] else before
      let low := if last.isEmpty then [] else after
      parts.length ≤ 9
        && (!first.isEmpty || before.length = 1) && (!last.isEmpty || after.length = 1)
        && high.length + low.length < 8 && (high ++ low).all isGroup

def isEightGroups (t : Text) : Bool :=
  let percent := CodePoint.ofChar '%'
  let zone := (t.dropWhile (· ≠ percent)).drop 1
  (!t.contains percent || (!zone.isEmpty && !zone.contains percent))
    && (groups? (Text.beforeFirst percent t)).any areGroups

end SiteFilter.InternetAddress
