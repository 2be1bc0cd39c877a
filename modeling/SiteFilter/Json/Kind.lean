import SiteFilter.Json.Printer
import SiteFilter.Number.Reading

/-!
# Values of the wrong kind

Settings and stored documents are used as they are found, so a value can turn up where a value of
another kind is needed.
-/

namespace SiteFilter.Json

def kind : Json → String
  | .null => "NoneType"
  | .bool _ => "bool"
  | .int _ => "int"
  | .float _ => "float"
  | .text _ => "str"
  | .array _ => "list"
  | .object _ => "dict"

/-- How a value is named where it is an argument: by its kind, or as the value that is none. -/
def argumentKind : Json → String
  | .null => "None"
  | v => v.kind

/-- What a value cannot be used for. A `kind` is that of the value. -/
inductive Mismatch
  | noMember (kind : String) (member : String)
  | notIterable (kind : String)
  | notAPathPart (kind : String)
  | notAPath (kind : String)
  | notANumber (kind : String)
  | notAnInteger (kind : String)
  /-- A value is compared with a number. -/
  | notComparable (kind : String)
  /-- A value is needed as the text that replaces another. -/
  | notAReplacement (value : String)
  | numberText (t : Text)
  | numberTooLarge
  | integerText (t : Text)
  /-- A text spells a whole number with too many digits. -/
  | integerDigits (count : Nat)
  | integerOfNaN
  | integerOfInfinity

namespace Mismatch

def message : Mismatch → Text
  | noMember kind member =>
      Text.ofString "'" ++ Text.ofString kind ++ Text.ofString "' object has no attribute '"
        ++ Text.ofString member ++ Text.ofString "'"
  | notIterable kind =>
      Text.ofString "'" ++ Text.ofString kind ++ Text.ofString "' object is not iterable"
  | notAPathPart kind =>
      Text.ofString "unsupported operand type(s) for /: 'PosixPath' and '" ++ Text.ofString kind
        ++ Text.ofString "'"
  | notAPath kind =>
      Text.ofString "expected str, bytes or os.PathLike object, not " ++ Text.ofString kind
  | notANumber kind =>
      Text.ofString "float() argument must be a string or a real number, not '"
        ++ Text.ofString kind ++ Text.ofString "'"
  | notAnInteger kind =>
      Text.ofString "int() argument must be a string, a bytes-like object or a real number, not '"
        ++ Text.ofString kind ++ Text.ofString "'"
  | notComparable kind =>
      Text.ofString "'<=' not supported between instances of '" ++ Text.ofString kind
        ++ Text.ofString "' and 'int'"
  | notAReplacement value =>
      Text.ofString "replace() argument 2 must be str, not " ++ Text.ofString value
  | numberText t => Text.ofString "could not convert string to float: " ++ t.quoted
  | numberTooLarge => Text.ofString "int too large to convert to float"
  | integerText t =>
      Text.ofString "invalid literal for int() with base 10: " ++ t.quoted.take 200
  | integerDigits count => Numeral.tooManyDigits (some count)
  | integerOfNaN => Text.ofString "cannot convert float NaN to integer"
  | integerOfInfinity => Text.ofString "cannot convert float infinity to integer"

end Mismatch

/-- The values that a loop over a value runs through: items, keys or single code points. -/
def elements : Json → Except Mismatch (List Json)
  | .array items => .ok items
  | .object members => .ok (members.map fun member => .text member.1)
  | .text t => .ok (t.map fun c => .text [c])
  | v => .error (.notIterable v.kind)

end SiteFilter.Json
