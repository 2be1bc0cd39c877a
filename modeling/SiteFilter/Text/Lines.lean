import SiteFilter.Text.Basic
import SiteFilter.Text.Ranges

/-!
# Lines

Where a text breaks into lines, and the reading of text files, in which a carriage return ends a
line as a line feed does.
-/

namespace SiteFilter

def lineBoundaryRanges : Ranges :=
  [(0x0A, 0x0D), (0x1C, 0x1E), (0x85, 0x85), (0x2028, 0x2029)]

def CodePoint.isLineBoundary (c : CodePoint) : Bool :=
  lineBoundaryRanges.has c.val

namespace Text

/--
The lines of a text, without their ends. `current` holds the open line in reverse, and
`afterReturn` says that the code point before was a CR; a line that is still open at the end
counts unless it is empty.
-/
def linesFrom (afterReturn : Bool) (current : Text) : Text → List Text
  | [] => if current.isEmpty then [] else [current.reverse]
  | c :: rest =>
      if c.val = 0x0A && afterReturn then linesFrom false current rest
      else if c.isLineBoundary then current.reverse :: linesFrom (c.val = 0x0D) [] rest
      else linesFrom false (c :: current) rest

/-- The lines of a text. A carriage return and a line feed together end one line. -/
def lines (t : Text) : List Text :=
  linesFrom false [] t

/--
Makes every line end of a text file a line feed: CR LF and a CR alone both become LF. `afterReturn`
says that the code point before was a CR.
-/
def unifyLineEndsFrom (afterReturn : Bool) (done : Text) : Text → Text
  | [] => done.reverse
  | c :: rest =>
      if c.val = 0x0D then unifyLineEndsFrom true (CodePoint.ofChar '\n' :: done) rest
      else if c.val = 0x0A && afterReturn then unifyLineEndsFrom false done rest
      else unifyLineEndsFrom false (c :: done) rest

def unifyLineEnds (t : Text) : Text :=
  unifyLineEndsFrom false [] t

end Text

end SiteFilter
