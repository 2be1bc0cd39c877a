import SiteFilter.Text.Basic
import SiteFilter.Text.Ranges

/-!
# White space

The blank code points, and the text without them at its ends. U+200B, U+FEFF and U+180E are not
blank; the separators U+001C to U+001F are.
-/

namespace SiteFilter

/-- The blank code points. -/
def blankRanges : Ranges :=
  [(0x09, 0x0D), (0x1C, 0x20), (0x85, 0x85), (0xA0, 0xA0), (0x1680, 0x1680), (0x2000, 0x200A),
   (0x2028, 0x2029), (0x202F, 0x202F), (0x205F, 0x205F), (0x3000, 0x3000)]

def CodePoint.isBlank (c : CodePoint) : Bool :=
  blankRanges.has c.val

namespace Text

def strip (t : Text) : Text :=
  t.trimWhile CodePoint.isBlank

def stripEnd (t : Text) : Text :=
  t.dropEndWhile CodePoint.isBlank

def isBlank (t : Text) : Bool :=
  t.all CodePoint.isBlank

end Text

end SiteFilter
