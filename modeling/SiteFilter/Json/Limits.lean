import SiteFilter.Json.Value
import SiteFilter.Number.Reading

/-!
# Limits of documents

A document can be well formed and a value can be proper, and still there is too much in them: whole
numbers have a limited number of digits, and values stand in each other to a limited depth. The
first limit is fixed. The second hangs on how much room a process has left where it reads or writes.
-/

namespace SiteFilter.Json

inductive Excess
  /-- A whole number that is read has too many digits. -/
  | digits (count : Nat)
  | nestedArray
  | nestedObject
  /-- A whole number that is to be written has too many digits. -/
  | wideNumber
  /-- Values that are to be written stand too deep in each other. -/
  | deepValue
deriving DecidableEq

/-- How deep values stand in each other in the documents that the program makes up itself. -/
def ownDepth : Nat := 4

/-- How many arrays and objects may stand in each other, where values are read and written. -/
structure Limits where
  reading : Nat
  writing : Nat
  reads : ownDepth ≤ reading
  writes : ownDepth ≤ writing
deriving DecidableEq

/-- The limits near the bottom of a stack of a thousand calls. -/
def Limits.usual : Limits :=
  ⟨985, 985, by decide, by decide⟩

mutual

/-- The first thing that is too much in a value that is to be written, with room for so much depth. -/
def excess? (room : Nat) : Json → Option Excess
  | .int i => if Numeral.digitLimit < (Text.ofNat i.natAbs).length then some .wideNumber else none
  | .array items => if room = 0 then some .deepValue else excessOfItems? (room - 1) items
  | .object members => if room = 0 then some .deepValue else excessOfMembers? (room - 1) members
  | .null | .bool _ | .float _ | .text _ => none

def excessOfItems? (room : Nat) : List Json → Option Excess
  | [] => none
  | item :: items => (excess? room item).or (excessOfItems? room items)

def excessOfMembers? (room : Nat) : List (Text × Json) → Option Excess
  | [] => none
  | (_, value) :: members => (excess? room value).or (excessOfMembers? room members)

end

def Excess.message : Excess → Text
  | .digits count => Numeral.tooManyDigits (some count)
  | .nestedArray =>
      Text.ofString
        "maximum recursion depth exceeded while decoding a JSON array from a unicode string"
  | .nestedObject =>
      Text.ofString
        "maximum recursion depth exceeded while decoding a JSON object from a unicode string"
  | .wideNumber => Numeral.tooManyDigits none
  | .deepValue => Text.ofString "maximum recursion depth exceeded"

end SiteFilter.Json
