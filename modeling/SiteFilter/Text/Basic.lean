/-!
# Code points and texts

A text is a list of Unicode code points, and a code point may be a surrogate on its own: rule
files, stored documents and command-line arguments can hold such code points, and they have to
be carried along until somebody tries to encode them. The functions below are the plain
list-level vocabulary (cutting at a separator, joining, replacing) that rule text and messages
are built from.
-/

namespace SiteFilter

/-- One Unicode code point. Unlike a `Char` it may be a surrogate. -/
structure CodePoint where
  val : Nat
  lt : val < 0x110000
deriving DecidableEq

namespace CodePoint

def ofChar (c : Char) : CodePoint where
  val := c.toNat
  lt := by
    have h := c.valid
    simp only [UInt32.isValidChar, Nat.isValidChar] at h
    have e : c.val.toNat = c.toNat := rfl
    omega

instance : Coe Char CodePoint := ⟨ofChar⟩

instance : Inhabited CodePoint := ⟨ofChar ' '⟩

def ofNat? (n : Nat) : Option CodePoint :=
  if h : n < 0x110000 then some ⟨n, h⟩ else none

/-- U+FFFD, which stands for what could not be decoded. -/
def replacement : CodePoint := ⟨0xFFFD, by decide⟩

/-- The code point with a given number; numbers out of range become U+FFFD. -/
def ofNat (n : Nat) : CodePoint :=
  (ofNat? n).getD replacement

/-- Surrogates have no UTF-8 form. -/
def isSurrogate (c : CodePoint) : Bool :=
  0xD800 ≤ c.val && c.val ≤ 0xDFFF

def isAscii (c : CodePoint) : Bool :=
  c.val < 0x80

theorem ext_val {a b : CodePoint} (h : a.val = b.val) : a = b := by
  cases a; cases b; simp_all

theorem ofNat_val (c : CodePoint) : ofNat c.val = c := by
  simp [ofNat, ofNat?, c.lt]

theorem val_ofNat {n : Nat} (h : n < 0x110000) : (ofNat n).val = n := by
  simp [ofNat, ofNat?, h]

end CodePoint

/-- A text: any sequence of code points. -/
abbrev Text := List CodePoint

instance : LawfulBEq Text := inferInstance

abbrev Bytes := List UInt8

namespace Text

def ofString (s : String) : Text :=
  s.toList.map CodePoint.ofChar

instance : Coe String Text := ⟨ofString⟩

def startsWith (t lead : Text) : Bool :=
  lead.isPrefixOf t

def endsWith (t tail : Text) : Bool :=
  tail.isSuffixOf t

/-- As `cut?`, with the code points that were passed already, in reverse. -/
def cutFrom (sep passed : Text) : Text → Option (Text × Text)
  | [] => if sep.isEmpty then some (passed.reverse, []) else none
  | c :: rest =>
      if sep.isPrefixOf (c :: rest) then
        some (passed.reverse, (c :: rest).drop sep.length)
      else
        cutFrom sep (c :: passed) rest

/-- The text before the first occurrence of `sep`, and the text after it. -/
def cut? (sep t : Text) : Option (Text × Text) :=
  cutFrom sep [] t

def hasInfix (sep t : Text) : Bool :=
  (cut? sep t).isSome

theorem length_lt_of_cutFrom {sep passed t before after : Text} (hs : sep ≠ [])
    (h : cutFrom sep passed t = some (before, after)) : after.length < t.length := by
  induction t generalizing passed with
  | nil => simp [cutFrom, hs] at h
  | cons c rest ih =>
    unfold cutFrom at h
    split at h
    · have := List.length_pos_iff.2 hs
      simp only [Option.some.injEq, Prod.mk.injEq] at h
      simp only [← h.2, List.length_drop, List.length_cons]
      omega
    · have := ih h
      simp only [List.length_cons]
      omega

/-- The pieces of `t` between the occurrences of a separator, taken from the left. -/
def splitOn (sep t : Text) : List Text :=
  if hs : sep = [] then [t]
  else
    match h : cut? sep t with
    | none => [t]
    | some (before, after) =>
        have : after.length < t.length := length_lt_of_cutFrom hs h
        before :: splitOn sep after
termination_by t.length

def join (sep : Text) : List Text → Text
  | [] => []
  | [part] => part
  | part :: parts => part ++ sep ++ join sep parts

def replaceAll (old new t : Text) : Text :=
  join new (splitOn old t)

def dropEndWhile (p : CodePoint → Bool) (t : Text) : Text :=
  (t.reverse.dropWhile p).reverse

def trimWhile (p : CodePoint → Bool) (t : Text) : Text :=
  dropEndWhile p (t.dropWhile p)

/-- The part after the last `c`, or the whole text when there is none. -/
def afterLast (c : CodePoint) (t : Text) : Text :=
  (t.reverse.takeWhile (· ≠ c)).reverse

/-- The part before the first `c`, or the whole text when there is none. -/
def beforeFirst (c : CodePoint) (t : Text) : Text :=
  t.takeWhile (· ≠ c)

def ofNat (n : Nat) : Text :=
  (Nat.toDigits 10 n).map CodePoint.ofChar

def ofInt : Int → Text
  | .ofNat n => ofNat n
  | .negSucc n => CodePoint.ofChar '-' :: ofNat (n + 1)

/-- The lower-case digits of `n` in base 16, at least `width` of them. -/
def ofHex (width n : Nat) : Text :=
  let digits := (Nat.toDigits 16 n).map CodePoint.ofChar
  List.replicate (width - digits.length) (CodePoint.ofChar '0') ++ digits

end Text

end SiteFilter
