import SiteFilter.Text.Utf8

/-!
# Texts of the operating system

Paths, arguments and variables are octet sequences that need not be UTF-8. Octets that were no text
when they were read are kept as the surrogates U+DC80 to U+DCFF, one for each, and become the same
octets again. Any other surrogate stands for nothing.
-/

namespace SiteFilter

/-- A code point that stands for a single octet. -/
def CodePoint.isOctetMark (c : CodePoint) : Bool :=
  0xDC80 ≤ c.val && c.val ≤ 0xDCFF

namespace Text

def pointOctets (c : CodePoint) : Bytes :=
  if c.isOctetMark then [UInt8.ofNat (c.val - 0xDC00)] else Utf8.encodePoint c

def octetCount (t : Text) : Nat :=
  (t.flatMap pointOctets).length

/-- The first surrogates that stand for no octet, with the surrogates behind them. -/
def octetFault? (t : Text) : Option EncodeError :=
  match t.findIdx? fun c => c.isSurrogate && !c.isOctetMark with
  | none => none
  | some first =>
      let run := (t.drop first).takeWhile CodePoint.isSurrogate
      run.head?.map fun point => ⟨point, first, first + run.length - 1⟩

end Text

end SiteFilter
