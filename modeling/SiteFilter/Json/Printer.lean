import SiteFilter.Json.Value
import SiteFilter.Number.Layout
import SiteFilter.Text.Quoted

/-!
# Writing JSON

The written forms of a value: on one line, or spread over lines with two blanks a level; in ASCII
alone, or with every code point from U+0020 on as it is. Members keep their order. The third form,
`display`, is the one that messages show.
-/

namespace SiteFilter.Json

structure Style where
  /-- Everything outside U+0020 to U+007E is written as an escape. -/
  asciiOnly : Bool
  /-- Items and members stand on lines of their own. -/
  spread : Bool

/-- Stored values: spread over lines, code points as they are. -/
def Style.stored : Style := ⟨false, true⟩

/-- Settings: spread over lines, in ASCII. -/
def Style.settings : Style := ⟨true, true⟩

/-- Requests: one line in ASCII. -/
def Style.request : Style := ⟨true, false⟩

/-- Replies: one line, code points as they are. -/
def Style.reply : Style := ⟨false, false⟩

def unicodeEscape (n : Nat) : Text :=
  Text.ofString "\\u" ++ Text.ofHex 4 n

def letterEscape? (n : Nat) : Option Char :=
  if n = 0x22 then some (Char.ofNat 0x22)
  else if n = 0x5C then some '\\'
  else if n = 0x0A then some 'n'
  else if n = 0x0D then some 'r'
  else if n = 0x09 then some 't'
  else if n = 0x0C then some 'f'
  else if n = 0x08 then some 'b'
  else none

def textPoint (asciiOnly : Bool) (c : CodePoint) : Text :=
  match letterEscape? c.val with
  | some letter => [CodePoint.ofChar '\\', CodePoint.ofChar letter]
  | none =>
      if c.val < 0x20 then unicodeEscape c.val
      else if !asciiOnly || c.val < 0x7F then [c]
      else if c.val < 0x10000 then unicodeEscape c.val
      else
        unicodeEscape (0xD800 + (c.val - 0x10000) / 0x400)
          ++ unicodeEscape (0xDC00 + (c.val - 0x10000) % 0x400)

def writeText (asciiOnly : Bool) (t : Text) : Text :=
  CodePoint.ofNat 0x22 :: t.flatMap (textPoint asciiOnly) ++ [CodePoint.ofNat 0x22]

def lineStart (level : Nat) : Text :=
  CodePoint.ofChar '\n' :: List.replicate (2 * level) (CodePoint.ofChar ' ')

def separator (style : Style) (level : Nat) : Text :=
  if style.spread then CodePoint.ofChar ',' :: lineStart level else Text.ofString ", "

def margin (style : Style) (level : Nat) : Text :=
  if style.spread then lineStart level else []

mutual

def writeAt (style : Style) (level : Nat) : Json → Text
  | .null => Text.ofString "null"
  | .bool b => Text.ofString (if b then "true" else "false")
  | .int i => Text.ofInt i
  | .float x => NumberLayout.document.write Binary.shortest x
  | .text t => writeText style.asciiOnly t
  | .array [] => Text.ofString "[]"
  | .array (item :: items) =>
      CodePoint.ofChar '[' :: margin style level ++ writeAt style (level + 1) item
        ++ writeItems style level items ++ margin style (level - 1) ++ [CodePoint.ofChar ']']
  | .object [] => [CodePoint.ofNat 0x7B, CodePoint.ofNat 0x7D]
  | .object ((key, value) :: members) =>
      CodePoint.ofNat 0x7B :: margin style level ++ writeText style.asciiOnly key
        ++ Text.ofString ": " ++ writeAt style (level + 1) value
        ++ writeMembers style level members ++ margin style (level - 1) ++ [CodePoint.ofNat 0x7D]

def writeItems (style : Style) (level : Nat) : List Json → Text
  | [] => []
  | item :: items =>
      separator style level ++ writeAt style (level + 1) item ++ writeItems style level items

def writeMembers (style : Style) (level : Nat) : List (Text × Json) → Text
  | [] => []
  | (key, value) :: members =>
      separator style level ++ writeText style.asciiOnly key ++ Text.ofString ": "
        ++ writeAt style (level + 1) value ++ writeMembers style level members

end

def write (style : Style) (v : Json) : Text :=
  writeAt style 1 v

mutual

def display : Json → Text
  | .null => Text.ofString "None"
  | .bool b => Text.ofString (if b then "True" else "False")
  | .int i => Text.ofInt i
  | .float x => NumberLayout.display.write Binary.shortest x
  | .text t => t.quoted
  | .array [] => Text.ofString "[]"
  | .array (item :: items) =>
      CodePoint.ofChar '[' :: display item ++ displayItems items ++ [CodePoint.ofChar ']']
  | .object [] => [CodePoint.ofNat 0x7B, CodePoint.ofNat 0x7D]
  | .object ((key, value) :: members) =>
      CodePoint.ofNat 0x7B :: Text.quoted key ++ Text.ofString ": " ++ display value
        ++ displayMembers members ++ [CodePoint.ofNat 0x7D]

def displayItems : List Json → Text
  | [] => []
  | item :: items => Text.ofString ", " ++ display item ++ displayItems items

def displayMembers : List (Text × Json) → Text
  | [] => []
  | (key, value) :: members =>
      Text.ofString ", " ++ Text.quoted key ++ Text.ofString ": " ++ display value
        ++ displayMembers members

end

/-- A value inside running text: a text stands for itself, anything else is displayed. -/
def plainText : Json → Text
  | .text t => t
  | v => display v

end SiteFilter.Json
