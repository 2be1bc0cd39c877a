import SiteFilter.Json.Limits

/-!
# Reading JSON

A reader that follows the text from left to right. Its steps take the text that is still to be
read and return what they found with the text behind it; a step that fails returns the flaw with
the text at which it shows. Positions are worked out only at the end, from the length of that text.

A document may also be well formed and still be refused: whole numbers have a limited number of
digits, and values are nested in each other to a limited depth.
-/

namespace SiteFilter.Json

inductive Flaw
  | value
  | propertyName
  | colon
  | comma
  | extraData
  | unterminatedText
  | controlCharacter
  | escape
  | unicodeEscape
  | byteOrderMark
deriving DecidableEq

/-- A flaw and its place in a document: code points before it, line from 1, column from 1. -/
structure SyntaxError where
  flaw : Flaw
  offset : Nat
  line : Nat
  column : Nat
deriving DecidableEq

inductive ReadError
  | malformed (e : SyntaxError)
  | excessive (e : Excess)
deriving DecidableEq

/-- Where a step stops: at a flaw, with the text it is at, or at an excess. -/
inductive Stop
  | flaw (flaw : Flaw) (place : Text)
  | excess (excess : Excess)
deriving DecidableEq

/-- The result of a step: a value with the rest of the text, or where it stopped. -/
abbrev Step (α : Type) := Except Stop (α × Text)

def isSpace (c : CodePoint) : Bool :=
  c.val = 0x20 || c.val = 0x09 || c.val = 0x0A || c.val = 0x0D

def skipSpace (t : Text) : Text :=
  t.dropWhile isSpace

def hexDigit? (c : CodePoint) : Option Nat :=
  if 0x30 ≤ c.val && c.val ≤ 0x39 then some (c.val - 0x30)
  else if 0x41 ≤ c.val && c.val ≤ 0x46 then some (c.val - 0x37)
  else if 0x61 ≤ c.val && c.val ≤ 0x66 then some (c.val - 0x57)
  else none

def hexNumber? (a b c d : CodePoint) : Option Nat := do
  let a ← hexDigit? a
  let b ← hexDigit? b
  let c ← hexDigit? c
  let d ← hexDigit? d
  some (((a * 16 + b) * 16 + c) * 16 + d)

def escapeOf? (c : CodePoint) : Option CodePoint :=
  if c.val = 0x22 || c.val = 0x5C || c.val = 0x2F then some c
  else if c.val = 0x62 then some (CodePoint.ofNat 0x08)
  else if c.val = 0x66 then some (CodePoint.ofNat 0x0C)
  else if c.val = 0x6E then some (CodePoint.ofNat 0x0A)
  else if c.val = 0x72 then some (CodePoint.ofNat 0x0D)
  else if c.val = 0x74 then some (CodePoint.ofNat 0x09)
  else none

def isHighSurrogate (n : Nat) : Bool :=
  0xD800 ≤ n && n ≤ 0xDBFF

def isLowSurrogate (n : Nat) : Bool :=
  0xDC00 ≤ n && n ≤ 0xDFFF

def joinSurrogates (high low : Nat) : CodePoint :=
  CodePoint.ofNat (0x10000 + (high - 0xD800) * 0x400 + (low - 0xDC00))

inductive Piece
  | close (rest : Text)
  | point (c : CodePoint) (rest : Text)
  | flaw (flaw : Flaw) (place : Text)
  | unfinished

/--
The number of a `\u` escape at the front of `t`, which starts with the `u`, and what follows. There
has to be something behind the digits.
-/
def escapedNumber? : Text → Option (Nat × Text)
  | _ :: a :: b :: c :: d :: next :: rest =>
      (hexNumber? a b c d).map fun n => (n, next :: rest)
  | _ => none

/-- The escape behind a high surrogate, when a `\u` escape can stand there. -/
def escapeBehind? : Text → Option Text
  | b :: u :: g₁ :: g₂ :: g₃ :: g₄ :: next :: rest =>
      if b.val = 0x5C && u.val = 0x75 then some (u :: g₁ :: g₂ :: g₃ :: g₄ :: next :: rest)
      else none
  | _ => none

/--
The code point of a `\u` escape; `t` starts with its `u`. An escaped high surrogate takes an
escaped low surrogate behind it along.
-/
def unicodePiece (t : Text) : Piece :=
  match escapedNumber? t with
  | none => .flaw .unicodeEscape t
  | some (high, rest) =>
      match if isHighSurrogate high then escapeBehind? rest else none with
      | none => .point (CodePoint.ofNat high) rest
      | some second =>
          match escapedNumber? second with
          | none => .flaw .unicodeEscape second
          | some (low, after) =>
              if isLowSurrogate low then .point (joinSurrogates high low) after
              else .point (CodePoint.ofNat high) rest

def piece : Text → Piece
  | [] => .unfinished
  | c :: rest =>
      if c.val = 0x22 then .close rest
      else if c.val = 0x5C then
        match rest with
        | [] => .unfinished
        | e :: behind =>
            if e.val = 0x75 then unicodePiece (e :: behind)
            else
              match escapeOf? e with
              | some d => .point d behind
              | none => .flaw .escape (c :: rest)
      else if c.val ≤ 0x1F then .flaw .controlCharacter (c :: rest)
      else .point c rest

/--
Reads a text behind its opening quote; `opening` is the document from that quote on, and `done`
holds what has been read, in reverse. `fuel` bounds the pieces, of which there are at most as many
as code points behind the quote, and one more for the end.
-/
def textBody (opening : Text) : (fuel : Nat) → (done t : Text) → Step Text
  | 0, _, _ => .error (.flaw .unterminatedText opening)
  | fuel + 1, done, t =>
      match piece t with
      | .close rest => .ok (done.reverse, rest)
      | .point c rest => textBody opening fuel (c :: done) rest
      | .flaw flaw place => .error (.flaw flaw place)
      | .unfinished => .error (.flaw .unterminatedText opening)

def quotedText (fuel : Nat) (t : Text) : Step Text :=
  textBody t fuel [] (t.drop 1)

/-- The part of a number behind its point, when a point with a digit behind it comes next. -/
def splitFraction (t : Text) : Text × Text :=
  match t with
  | c :: d :: rest =>
      if c.val = 0x2E && d.isAsciiDigit then Numeral.spanDigits (d :: rest) else ([], t)
  | _ => ([], t)

/-- The digits of a whole number: a zero alone, or digits that do not start with one. -/
def wholeDigits (t : Text) : Text × Text :=
  match t with
  | c :: rest => if c.val = 0x30 then ([c], rest) else Numeral.spanDigits t
  | [] => ([], [])

/-- Reads a number. A fraction or an exponent makes it a floating-point one. -/
def number (t : Text) : Step Json :=
  let (negative, body) :=
    match t with
    | c :: rest => if c.val = 0x2D then (true, rest) else (false, t)
    | [] => (false, t)
  let (whole, afterWhole) := wholeDigits body
  if whole.isEmpty then .error (.flaw .value t)
  else
    let (fraction, afterFraction) := splitFraction afterWhole
    let exponent := Numeral.splitExponent? afterFraction
    if fraction.isEmpty && exponent.isNone then
      if Numeral.digitLimit < whole.length then .error (.excess (.digits whole.length)) else
      let n : Int := Numeral.value whole
      .ok (.int (if negative then -n else n), afterFraction)
    else
      let (exponent, rest) := exponent.getD (0, afterFraction)
      let x := Numeral.nearestFloat (Numeral.value (whole ++ fraction)) (exponent - fraction.length)
      .ok (.float (if negative then -x else x), rest)

def words : List (String × Json) :=
  [("null", .null), ("true", .bool true), ("false", .bool false),
   ("NaN", .float (Float.ofBits 0x7FF8000000000000)),
   ("Infinity", .float (Float.ofBits 0x7FF0000000000000)),
   ("-Infinity", .float (Float.ofBits 0xFFF0000000000000))]

def word? (t : Text) : Option (Json × Text) :=
  words.findSome? fun (name, value) =>
    if t.startsWith (Text.ofString name) then some (value, t.drop name.length) else none

mutual

/--
Reads a value, in which arrays and objects may be nested `room` deep. `fuel` bounds the steps: two
for each code point and one more are enough, since an array takes a step for its bracket and another
for the item behind it.
-/
def value : (fuel room : Nat) → Text → Step Json
  | 0, _, t => .error (.flaw .value t)
  | fuel + 1, room, t =>
      match t with
      | [] => .error (.flaw .value t)
      | c :: rest =>
          if c.val = 0x22 then
            match quotedText fuel t with
            | .error e => .error e
            | .ok (body, after) => .ok (.text body, after)
          else if c.val = 0x7B then
            match room, skipSpace rest with
            | 0, _ => .error (.excess .nestedObject)
            | room + 1, d :: after =>
                if d.val = 0x7D then .ok (.object [], after) else members fuel room [] (d :: after)
            | _, [] => .error (.flaw .propertyName [])
          else if c.val = 0x5B then
            match room, skipSpace rest with
            | 0, _ => .error (.excess .nestedArray)
            | room + 1, d :: after =>
                if d.val = 0x5D then .ok (.array [], after) else items fuel room [] (d :: after)
            | _, [] => .error (.flaw .value [])
          else
            match word? t with
            | some found => .ok found
            | none => number t

/-- Reads the items of an array up to its end; `done` holds the ones before, in reverse. -/
def items : (fuel room : Nat) → List Json → Text → Step Json
  | 0, _, _, t => .error (.flaw .value t)
  | fuel + 1, room, done, t =>
      match value fuel room t with
      | .error e => .error e
      | .ok (item, after) =>
          match skipSpace after with
          | [] => .error (.flaw .comma [])
          | c :: rest =>
              if c.val = 0x5D then .ok (.array (item :: done).reverse, rest)
              else if c.val = 0x2C then items fuel room (item :: done) (skipSpace rest)
              else .error (.flaw .comma (c :: rest))

def members : (fuel room : Nat) → List (Text × Json) → Text → Step Json
  | 0, _, _, t => .error (.flaw .value t)
  | _ + 1, _, _, [] => .error (.flaw .propertyName [])
  | fuel + 1, room, done, q :: t =>
      if q.val ≠ 0x22 then .error (.flaw .propertyName (q :: t))
      else
        match quotedText fuel (q :: t) with
        | .error e => .error e
        | .ok (key, afterKey) =>
            match skipSpace afterKey with
            | [] => .error (.flaw .colon [])
            | d :: afterColon =>
                if d.val ≠ 0x3A then .error (.flaw .colon (d :: afterColon))
                else
                  match value fuel room (skipSpace afterColon) with
                  | .error e => .error e
                  | .ok (item, after) =>
                      match skipSpace after with
                      | [] => .error (.flaw .comma [])
                      | c :: rest =>
                          if c.val = 0x7D then
                            .ok (ofMembers ((key, item) :: done).reverse, rest)
                          else if c.val = 0x2C then
                            members fuel room ((key, item) :: done) (skipSpace rest)
                          else .error (.flaw .comma (c :: rest))

end

def document (limits : Limits) (t : Text) : Except Stop Json :=
  match t with
  | c :: _ =>
      if c.val = 0xFEFF then .error (.flaw .byteOrderMark t)
      else
        match value (2 * t.length + 1) limits.reading (skipSpace t) with
        | .error e => .error e
        | .ok (v, after) =>
            match skipSpace after with
            | [] => .ok v
            | rest => .error (.flaw .extraData rest)
  | [] => .error (.flaw .value [])

/-- The place of a flaw in the document `t`, of which `rest` is still to be read. -/
def locate (t : Text) (flaw : Flaw) (rest : Text) : SyntaxError :=
  let before := t.take (t.length - rest.length)
  let lineStart := (before.reverse.takeWhile (·.val ≠ 0x0A)).length
  ⟨flaw, before.length, before.countP (·.val = 0x0A) + 1, lineStart + 1⟩

def read (limits : Limits) (t : Text) : Except ReadError Json :=
  match document limits t with
  | .ok v => .ok v
  | .error (.flaw flaw rest) => .error (.malformed (locate t flaw rest))
  | .error (.excess excess) => .error (.excessive excess)

def Flaw.message : Flaw → String
  | .value => "Expecting value"
  | .propertyName => "Expecting property name enclosed in double quotes"
  | .colon => "Expecting ':' delimiter"
  | .comma => "Expecting ',' delimiter"
  | .extraData => "Extra data"
  | .unterminatedText => "Unterminated string starting at"
  | .controlCharacter => "Invalid control character at"
  | .escape => "Invalid \\escape"
  | .unicodeEscape => "Invalid \\uXXXX escape"
  | .byteOrderMark => "Unexpected UTF-8 BOM (decode using utf-8-sig)"

def SyntaxError.message (e : SyntaxError) : Text :=
  Text.ofString e.flaw.message ++ Text.ofString ": line " ++ Text.ofNat e.line
    ++ Text.ofString " column " ++ Text.ofNat e.column
    ++ Text.ofString " (char " ++ Text.ofNat e.offset ++ Text.ofString ")"

end SiteFilter.Json
