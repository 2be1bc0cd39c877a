import SiteFilter.Text.Basic
import SiteFilter.Text.LowercaseTable

/-!
# Lower-casing

The full lower-casing of a text. Two rules go beyond one code point for one code point: U+0130
becomes `i` with a combining dot above, and a capital sigma becomes the final form where it ends a
word, that is, where a cased code point precedes it and none follows, case-ignorable code points
aside.
-/

namespace SiteFilter

namespace CodePoint

/-- The code point that stands for `c` in lower case, when that is one code point. -/
def lowerPoint (c : CodePoint) : CodePoint :=
  if c.val < 0x80 then
    if 0x41 ≤ c.val && c.val ≤ 0x5A then ofNat (c.val + 32) else c
  else
    match lowercaseRuns.find? (·.has c.val) with
    | some run => ofNat (c.val + run.up - run.down)
    | none => c

def isCased (c : CodePoint) : Bool :=
  casedRanges.has c.val

def isCaseIgnorable (c : CodePoint) : Bool :=
  caseIgnorableRanges.has c.val

end CodePoint

namespace Text

/-- Whether the first code point that is not case-ignorable is cased. -/
def startsCased (t : Text) : Bool :=
  match t.dropWhile CodePoint.isCaseIgnorable with
  | [] => false
  | c :: _ => c.isCased

/--
The lower-case form of `c` between what went before and `rest`. `afterCased` says whether the last
code point before `c` that is not case-ignorable is cased.
-/
def lowerIn (afterCased : Bool) (c : CodePoint) (rest : Text) : Text :=
  if c.val = 0x130 then [CodePoint.ofNat 0x69, CodePoint.ofNat 0x307]
  else if c.val = 0x3A3 then
    [CodePoint.ofNat (if afterCased && !startsCased rest then 0x3C2 else 0x3C3)]
  else [c.lowerPoint]

def lowerFrom (afterCased : Bool) : Text → Text
  | [] => []
  | c :: rest =>
      lowerIn afterCased c rest ++
        lowerFrom (if c.isCaseIgnorable then afterCased else c.isCased) rest

def lower (t : Text) : Text :=
  lowerFrom false t

end Text

end SiteFilter
