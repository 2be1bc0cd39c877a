import SiteFilter.Text.Basic
import SiteFilter.Text.Printable

/-!
# Quoted texts

How messages quote a text. The quote is an apostrophe, or a quotation mark when the text holds an
apostrophe and no quotation mark. The quote and the backslash are escaped, and so is every code
point that would not show.
-/

namespace SiteFilter.Text

/-- The quote that a text is written in. -/
def quoteFor (t : Text) : CodePoint :=
  if t.any (·.val = 0x27) && !t.any (·.val = 0x22) then ⟨0x22, by decide⟩ else ⟨0x27, by decide⟩

/-- A number as `\xhh`, `\uhhhh` or `\Uhhhhhhhh`, the shortest that has room for it. -/
def numericEscape (n : Nat) : Text :=
  if n < 0x100 then ofString "\\x" ++ ofHex 2 n
  else if n < 0x10000 then ofString "\\u" ++ ofHex 4 n
  else ofString "\\U" ++ ofHex 8 n

def quotedPoint (quote c : CodePoint) : Text :=
  if c = quote || c.val = 0x5C then [CodePoint.ofChar '\\', c]
  else if c.val = 0x0A then ofString "\\n"
  else if c.val = 0x0D then ofString "\\r"
  else if c.val = 0x09 then ofString "\\t"
  else if c.isPrintable then [c]
  else numericEscape c.val

def quoted (t : Text) : Text :=
  let quote := quoteFor t
  quote :: t.flatMap (quotedPoint quote) ++ [quote]

end SiteFilter.Text
