import SiteFilter.Rule.Basic
import SiteFilter.Text.Blank
import SiteFilter.Text.Lines

/-!
# Rule documents

The text form of element rules: one `domain##selector` a line, with blank lines and comments in
between. A line that is none of these is left out, so that one bad line does not cost the others.
-/

namespace SiteFilter

namespace RuleDocument

def commentMark : Text :=
  Text.ofString "!"

/-- Whether nothing can be wrong with a stripped line, since it is empty or a comment. -/
def isRemark (stripped : Text) : Bool :=
  stripped.isEmpty || stripped.startsWith commentMark

/-- The rule of a line. The delimiter stands in it once, with something on both sides. -/
def parseLine (line : Text) : Option ElementRule :=
  let stripped := line.strip
  if isRemark stripped then none
  else
    match Text.splitOn ruleDelimiter stripped with
    | [domain, selector] => (ElementRule.make domain.strip selector.strip).toOption
    | _ => none

/-- The rules of a document, in its order and with its repetitions. -/
def parse (document : Text) : List ElementRule :=
  document.lines.filterMap parseLine

/-- How many lines of a document are neither rule nor remark. -/
def malformedLines (document : Text) : Nat :=
  document.lines.countP fun line => (parseLine line).isNone && !isRemark line.strip

def headerLines (header : Text) : List Text :=
  header.lines.map fun line => (commentMark ++ CodePoint.ofChar ' ' :: line).stripEnd

def format (rules : List ElementRule) (header : Text) : Text :=
  (headerLines header ++ rules.map ElementRule.key).flatMap (· ++ [CodePoint.ofChar '\n'])

end RuleDocument

end SiteFilter
