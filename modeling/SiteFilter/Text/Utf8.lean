import SiteFilter.Text.Basic

/-!
# UTF-8

Writing texts as octets and reading them back. A surrogate has no octets: writing refuses it and
says where it stands. Reading goes from left to right, one code point or one ill-formed part at a
time; the strict reader stops at the first ill-formed part, the lenient one puts U+FFFD in the
place of each.
-/

namespace SiteFilter

/-- A run of neighbouring surrogates, from the code point at `first` to the one at `last`. -/
structure EncodeError where
  point : CodePoint
  first : Nat
  last : Nat
deriving DecidableEq

inductive Utf8Fault
  | startByte
  | continuationByte
  | endOfData
deriving DecidableEq

/-- An ill-formed part: its first octet, its place and its length. -/
structure DecodeError where
  fault : Utf8Fault
  octet : UInt8
  position : Nat
  length : Nat
deriving DecidableEq

namespace Utf8

def encodePoint (c : CodePoint) : Bytes :=
  let n := c.val
  if n < 0x80 then [UInt8.ofNat n]
  else if n < 0x800 then [UInt8.ofNat (0xC0 + n / 0x40), UInt8.ofNat (0x80 + n % 0x40)]
  else if n < 0x10000 then
    [UInt8.ofNat (0xE0 + n / 0x1000), UInt8.ofNat (0x80 + n / 0x40 % 0x40),
     UInt8.ofNat (0x80 + n % 0x40)]
  else
    [UInt8.ofNat (0xF0 + n / 0x40000), UInt8.ofNat (0x80 + n / 0x1000 % 0x40),
     UInt8.ofNat (0x80 + n / 0x40 % 0x40), UInt8.ofNat (0x80 + n % 0x40)]

/-- The octets of a text, surrogates included as if they were any other code point. -/
def encodeAny (t : Text) : Bytes :=
  t.flatMap encodePoint

def surrogateRun? (t : Text) : Option EncodeError :=
  match t.findIdx? CodePoint.isSurrogate with
  | none => none
  | some first =>
      let run := (t.drop first).takeWhile CodePoint.isSurrogate
      run.head?.map fun point => ⟨point, first, first + run.length - 1⟩

def encode (t : Text) : Except EncodeError Bytes :=
  match surrogateRun? t with
  | some e => .error e
  | none => .ok (encodeAny t)

def isContinuation (b : UInt8) : Bool :=
  0x80 ≤ b.toNat && b.toNat ≤ 0xBF

inductive Front
  | point (c : CodePoint)
  | illFormed (fault : Utf8Fault)

/--
Reads the front of the octets that start with `lead`, and says how many octets it takes. The
second octet of a sequence of three or four is held to the range that keeps out overlong forms,
surrogates and numbers beyond U+10FFFF.
-/
def front (lead : UInt8) (rest : Bytes) : Front × Nat :=
  let a := lead.toNat
  if a < 0x80 then (.point (CodePoint.ofNat a), 1)
  else if a < 0xC2 then (.illFormed .startByte, 1)
  else if a < 0xE0 then
    match rest with
    | [] => (.illFormed .endOfData, 1)
    | b :: _ =>
        if isContinuation b then
          (.point (CodePoint.ofNat ((a - 0xC0) * 0x40 + (b.toNat - 0x80))), 2)
        else (.illFormed .continuationByte, 1)
  else if a < 0xF0 then
    match rest with
    | [] => (.illFormed .endOfData, 1)
    | b :: rest' =>
        if !isContinuation b || (a == 0xE0 && b.toNat < 0xA0) || (a == 0xED && 0xA0 ≤ b.toNat) then
          (.illFormed .continuationByte, 1)
        else
          match rest' with
          | [] => (.illFormed .endOfData, 2)
          | c :: _ =>
              if isContinuation c then
                (.point (CodePoint.ofNat
                  ((a - 0xE0) * 0x1000 + (b.toNat - 0x80) * 0x40 + (c.toNat - 0x80))), 3)
              else (.illFormed .continuationByte, 2)
  else if a < 0xF5 then
    match rest with
    | [] => (.illFormed .endOfData, 1)
    | b :: rest' =>
        if !isContinuation b || (a == 0xF0 && b.toNat < 0x90) || (a == 0xF4 && 0x90 ≤ b.toNat) then
          (.illFormed .continuationByte, 1)
        else
          match rest' with
          | [] => (.illFormed .endOfData, 2)
          | c :: rest'' =>
              if !isContinuation c then (.illFormed .continuationByte, 2)
              else
                match rest'' with
                | [] => (.illFormed .endOfData, 3)
                | d :: _ =>
                    if isContinuation d then
                      (.point (CodePoint.ofNat
                        ((a - 0xF0) * 0x40000 + (b.toNat - 0x80) * 0x1000
                          + (c.toNat - 0x80) * 0x40 + (d.toNat - 0x80))), 4)
                    else (.illFormed .continuationByte, 3)
  else (.illFormed .startByte, 1)

/--
Reads octets from `position` on; `done` holds what has been read, in reverse. `fuel` bounds the
number of fronts, of which there are at most as many as octets.
-/
def decodeFrom : (fuel position : Nat) → Text → Bytes → Except DecodeError Text
  | 0, _, done, _ => .ok done.reverse
  | _ + 1, _, done, [] => .ok done.reverse
  | fuel + 1, position, done, lead :: rest =>
      match front lead rest with
      | (.point c, size) => decodeFrom fuel (position + size) (c :: done) (rest.drop (size - 1))
      | (.illFormed fault, size) => .error ⟨fault, lead, position, size⟩

def decode (bytes : Bytes) : Except DecodeError Text :=
  decodeFrom bytes.length 0 [] bytes

/-- As `decodeFrom`, with U+FFFD for every ill-formed part. -/
def decodeLenientFrom : (fuel : Nat) → Text → Bytes → Text
  | 0, done, _ => done.reverse
  | _ + 1, done, [] => done.reverse
  | fuel + 1, done, lead :: rest =>
      match front lead rest with
      | (.point c, size) => decodeLenientFrom fuel (c :: done) (rest.drop (size - 1))
      | (.illFormed _, size) =>
          decodeLenientFrom fuel (CodePoint.replacement :: done) (rest.drop (size - 1))

def decodeLenient (bytes : Bytes) : Text :=
  decodeLenientFrom bytes.length [] bytes

end Utf8

def EncodeError.message (e : EncodeError) : Text :=
  if e.first = e.last then
    Text.ofString "'utf-8' codec can't encode character '\\u" ++ Text.ofHex 4 e.point.val
      ++ Text.ofString "' in position " ++ Text.ofNat e.first
      ++ Text.ofString ": surrogates not allowed"
  else
    Text.ofString "'utf-8' codec can't encode characters in position " ++ Text.ofNat e.first
      ++ Text.ofString "-" ++ Text.ofNat e.last ++ Text.ofString ": surrogates not allowed"

def Utf8Fault.message : Utf8Fault → String
  | .startByte => "invalid start byte"
  | .continuationByte => "invalid continuation byte"
  | .endOfData => "unexpected end of data"

def DecodeError.message (e : DecodeError) : Text :=
  if e.length = 1 then
    Text.ofString "'utf-8' codec can't decode byte 0x" ++ Text.ofHex 2 e.octet.toNat
      ++ Text.ofString " in position " ++ Text.ofNat e.position
      ++ Text.ofString ": " ++ Text.ofString e.fault.message
  else
    Text.ofString "'utf-8' codec can't decode bytes in position " ++ Text.ofNat e.position
      ++ Text.ofString "-" ++ Text.ofNat (e.position + e.length - 1)
      ++ Text.ofString ": " ++ Text.ofString e.fault.message

end SiteFilter
