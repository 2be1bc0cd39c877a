import SiteFilter.Json.Printer
import SiteFilter.Json.Reader
import SiteFilter.Proofs.Text.Encoding

/-!
# Reading back the texts of a document

A text is written as one piece for each code point, and the reader finds the same pieces. Only a
document in ASCII needs care: two escaped surrogates next to each other would be read as one code
point, so such a document has to be made of texts without surrogates.
-/

namespace SiteFilter.Json

/-! ## Digits in base 16 -/

def hexPoint (n : Nat) : CodePoint :=
  CodePoint.ofChar (Nat.digitChar n)

theorem hexDigit?_hexPoint {n : Nat} (h : n < 16) : hexDigit? (hexPoint n) = some n := by
  revert n
  decide

theorem ofHex_four {n : Nat} (h : n < 0x10000) :
    Text.ofHex 4 n =
      [hexPoint (n / 0x1000), hexPoint (n / 0x100 % 16), hexPoint (n / 0x10 % 16),
        hexPoint (n % 16)] := by
  have zero : CodePoint.ofChar '0' = hexPoint 0 := rfl
  unfold Text.ofHex
  by_cases h1 : n < 16
  · have e1 : n / 0x1000 = 0 := by omega
    have e2 : n / 0x100 % 16 = 0 := by omega
    have e3 : n / 0x10 % 16 = 0 := by omega
    have e4 : n % 16 = n := by omega
    simp [Nat.toDigits_of_lt_base h1, e1, e2, e3, e4, zero, hexPoint, List.replicate]
  by_cases h2 : n < 0x100
  · have e1 : n / 0x1000 = 0 := by omega
    have e2 : n / 0x100 % 16 = 0 := by omega
    have e3 : n / 0x10 % 16 = n / 16 := by omega
    have d : n / 16 < 16 := by omega
    simp [Nat.toDigits_of_base_le (b := 16) (n := n) (by omega) (by omega),
      Nat.toDigits_of_lt_base d, e1, e2, e3, zero, hexPoint, List.replicate]
  by_cases h3 : n < 0x1000
  · have e1 : n / 0x1000 = 0 := by omega
    have e2 : n / 0x100 % 16 = n / 16 / 16 := by omega
    have d : n / 16 / 16 < 16 := by omega
    simp [Nat.toDigits_of_base_le (b := 16) (n := n) (by omega) (by omega),
      Nat.toDigits_of_base_le (b := 16) (n := n / 16) (by omega) (by omega),
      Nat.toDigits_of_lt_base d, e1, e2, zero, hexPoint]
  · have e1 : n / 0x1000 = n / 16 / 16 / 16 := by omega
    have e2 : n / 0x100 % 16 = n / 16 / 16 % 16 := by omega
    have d : n / 16 / 16 / 16 < 16 := by omega
    simp [Nat.toDigits_of_base_le (b := 16) (n := n) (by omega) (by omega),
      Nat.toDigits_of_base_le (b := 16) (n := n / 16) (by omega) (by omega),
      Nat.toDigits_of_base_le (b := 16) (n := n / 16 / 16) (by omega) (by omega),
      Nat.toDigits_of_lt_base d, e1, e2, hexPoint]

theorem hexNumber?_hexPoints {n : Nat} (h : n < 0x10000) :
    hexNumber? (hexPoint (n / 0x1000)) (hexPoint (n / 0x100 % 16)) (hexPoint (n / 0x10 % 16))
      (hexPoint (n % 16)) = some n := by
  have d1 := hexDigit?_hexPoint (n := n / 0x1000) (by omega)
  have d2 := hexDigit?_hexPoint (n := n / 0x100 % 16) (by omega)
  have d3 := hexDigit?_hexPoint (n := n / 0x10 % 16) (by omega)
  have d4 := hexDigit?_hexPoint (n := n % 16) (by omega)
  simp only [hexNumber?, d1, d2, d3, d4, bind, Option.bind]
  congr 1
  omega

/-! ## Escapes -/

/-- A `\u` escape behind its backslash is read as its number. -/
theorem escapedNumber?_escape {n : Nat} (h : n < 0x10000) (next : CodePoint) (rest : Text) :
    escapedNumber? (CodePoint.ofChar 'u' :: Text.ofHex 4 n ++ next :: rest) =
      some (n, next :: rest) := by
  rw [ofHex_four h]
  simp only [escapedNumber?, List.cons_append, List.nil_append, hexNumber?_hexPoints h,
    Option.map_some]

theorem unicodeEscape_append (n : Nat) (rest : Text) :
    unicodeEscape n ++ rest =
      CodePoint.ofChar '\\' :: (CodePoint.ofChar 'u' :: Text.ofHex 4 n ++ rest) := by
  simp [unicodeEscape, Text.ofString]

theorem piece_unicode (rest : Text) :
    piece (CodePoint.ofChar '\\' :: CodePoint.ofChar 'u' :: rest) =
      unicodePiece (CodePoint.ofChar 'u' :: rest) := by
  simp [piece, CodePoint.ofChar]

/-- The escape of a code point that is no surrogate. -/
theorem piece_unicodeEscape {c : CodePoint} (basic : c.val < 0x10000)
    (plain : c.isSurrogate = false) (next : CodePoint) (rest : Text) :
    piece (unicodeEscape c.val ++ next :: rest) = .point c (next :: rest) := by
  have single : isHighSurrogate c.val = false := by
    simp only [CodePoint.isSurrogate, Bool.and_eq_false_iff, decide_eq_false_iff_not] at plain
    simp only [isHighSurrogate, Bool.and_eq_false_iff, decide_eq_false_iff_not]
    omega
  rw [unicodeEscape_append, List.cons_append, piece_unicode, ← List.cons_append, unicodePiece,
    escapedNumber?_escape basic]
  simp [single, CodePoint.ofNat_val]

theorem escapeBehind?_escape {n : Nat} (h : n < 0x10000) (next : CodePoint) (rest : Text) :
    escapeBehind? (unicodeEscape n ++ next :: rest) =
      some (CodePoint.ofChar 'u' :: Text.ofHex 4 n ++ next :: rest) := by
  rw [unicodeEscape_append, ofHex_four h]
  simp [escapeBehind?, CodePoint.ofChar]

/-- The escapes of a high and a low surrogate are read together. -/
theorem piece_surrogates {high low : Nat} (isHigh : isHighSurrogate high = true)
    (isLow : isLowSurrogate low = true) (next : CodePoint) (rest : Text) :
    piece (unicodeEscape high ++ (unicodeEscape low ++ next :: rest)) =
      .point (joinSurrogates high low) (next :: rest) := by
  have highBound : high < 0x10000 := by
    simp only [isHighSurrogate, Bool.and_eq_true, decide_eq_true_eq] at isHigh
    omega
  have lowBound : low < 0x10000 := by
    simp only [isLowSurrogate, Bool.and_eq_true, decide_eq_true_eq] at isLow
    omega
  have first : escapedNumber? (CodePoint.ofChar 'u' :: Text.ofHex 4 high ++
      (unicodeEscape low ++ next :: rest)) = some (high, unicodeEscape low ++ next :: rest) := by
    rw [unicodeEscape_append, escapedNumber?_escape highBound]
  rw [unicodeEscape_append, List.cons_append, piece_unicode, ← List.cons_append, unicodePiece,
    first]
  simp only [isHigh, if_true, escapeBehind?_escape lowBound, escapedNumber?_escape lowBound, isLow]

/-- The surrogates for a code point beyond the first plane stand for it. -/
theorem joinSurrogates_split {c : CodePoint} (beyond : 0x10000 ≤ c.val) :
    isHighSurrogate (0xD800 + (c.val - 0x10000) / 0x400) = true ∧
      isLowSurrogate (0xDC00 + (c.val - 0x10000) % 0x400) = true ∧
      joinSurrogates (0xD800 + (c.val - 0x10000) / 0x400)
        (0xDC00 + (c.val - 0x10000) % 0x400) = c := by
  have hlt := c.lt
  refine ⟨?_, ?_, ?_⟩
  · simp only [isHighSurrogate, Bool.and_eq_true, decide_eq_true_eq]
    omega
  · simp only [isLowSurrogate, Bool.and_eq_true, decide_eq_true_eq]
    omega
  · have total (n : Nat) (h : n = c.val) : CodePoint.ofNat n = c := by
      rw [h, CodePoint.ofNat_val]
    exact total _ (by omega)

/-! ## Pieces and texts -/

theorem letterEscape?_eq_none {n : Nat} (h : 0x60 ≤ n) : letterEscape? n = none := by
  unfold letterEscape?
  repeat rw [if_neg (by omega)]

/-- The numbers of the code points with a short escape, with the letters of the escapes. -/
def letterEscapes : List (Nat × Char) :=
  [(0x22, Char.ofNat 0x22), (0x5C, '\\'), (0x0A, 'n'), (0x0D, 'r'), (0x09, 't'), (0x0C, 'f'),
    (0x08, 'b')]

theorem mem_letterEscapes {n : Nat} {letter : Char} (h : letterEscape? n = some letter) :
    (n, letter) ∈ letterEscapes := by
  unfold letterEscape? at h
  repeat' split at h
  all_goals cases h
  all_goals simp [letterEscapes, *]

/-- The letters of the short escapes stand for what was escaped, and none of them is `u`. -/
theorem escapeOf?_letterEscape :
    ∀ entry ∈ letterEscapes,
      escapeOf? (CodePoint.ofChar entry.2) = some (CodePoint.ofNat entry.1) ∧
        (CodePoint.ofChar entry.2).val ≠ 0x75 := by
  decide

theorem piece_letterEscape {c : CodePoint} {letter : Char}
    (short : letterEscape? c.val = some letter) (rest : Text) :
    piece (CodePoint.ofChar '\\' :: CodePoint.ofChar letter :: rest) = .point c rest := by
  obtain ⟨stands, notU⟩ := escapeOf?_letterEscape _ (mem_letterEscapes short)
  rw [CodePoint.ofNat_val] at stands
  have backslash : (CodePoint.ofChar '\\').val = 0x5C := rfl
  simp [piece, backslash, notU, stands]

/-- A code point without a short escape is neither the quote nor the backslash. -/
theorem piece_self {c : CodePoint} (long : letterEscape? c.val = none) (visible : 0x20 ≤ c.val)
    (rest : Text) : piece (c :: rest) = .point c rest := by
  have quote : c.val ≠ 0x22 := by
    intro h
    simp [letterEscape?, h] at long
  have backslash : c.val ≠ 0x5C := by
    intro h
    simp [letterEscape?, h] at long
  simp only [piece, if_neg quote, if_neg backslash]
  rw [if_neg (by omega)]

/-- What is written for a code point is read as that code point. -/
theorem piece_textPoint (asciiOnly : Bool) {c : CodePoint}
    (plain : asciiOnly = true → c.isSurrogate = false) (next : CodePoint) (rest : Text) :
    piece (textPoint asciiOnly c ++ next :: rest) = .point c (next :: rest) := by
  unfold textPoint
  cases short : letterEscape? c.val with
  | some letter => exact piece_letterEscape short (next :: rest)
  | none =>
      dsimp only
      split
      case isTrue control =>
        have single : c.isSurrogate = false := by
          simp only [CodePoint.isSurrogate, Bool.and_eq_false_iff, decide_eq_false_iff_not]
          omega
        exact piece_unicodeEscape (by omega) single next rest
      case isFalse control =>
      split
      case isTrue direct => exact piece_self short (by omega) (next :: rest)
      case isFalse escaped =>
      have single : c.isSurrogate = false := by
        cases asciiOnly with
        | true => exact plain rfl
        | false => simp at escaped
      split
      case isTrue basic => exact piece_unicodeEscape basic single next rest
      case isFalse beyond =>
        obtain ⟨high, low, joined⟩ := joinSurrogates_split (c := c) (by omega)
        rw [List.append_assoc, piece_surrogates high low, joined]

/-- A text that a document in this style can hold. -/
def Style.Holds (style : Style) (t : Text) : Prop :=
  style.asciiOnly = true → Utf8.Encodable t

theorem Style.holds_of_plain {style : Style} (plain : style.asciiOnly = false) (t : Text) :
    style.Holds t := by
  intro ascii
  rw [plain] at ascii
  cases ascii

theorem textBody_pieces (style : Style) {t : Text} (holds : style.Holds t)
    (opening done rest : Text) (fuel : Nat) (enough : t.length < fuel) :
    textBody opening fuel done
        (t.flatMap (textPoint style.asciiOnly) ++ CodePoint.ofNat 0x22 :: rest) =
      .ok (done.reverse ++ t, rest) := by
  induction t generalizing done fuel with
  | nil =>
      cases fuel with
      | zero => simp at enough
      | succ fuel => simp [textBody, piece, CodePoint.ofNat, CodePoint.ofNat?]
  | cons c t ih =>
      cases fuel with
      | zero => simp at enough
      | succ fuel =>
          have first : style.asciiOnly = true → c.isSurrogate = false :=
            fun ascii => holds ascii c (by simp)
          have others : style.Holds t :=
            fun ascii d member => holds ascii d (List.mem_cons_of_mem c member)
          obtain ⟨next, behind, split⟩ : ∃ next behind,
              t.flatMap (textPoint style.asciiOnly) ++ CodePoint.ofNat 0x22 :: rest =
                next :: behind := by
            cases t.flatMap (textPoint style.asciiOnly) with
            | nil => exact ⟨_, _, rfl⟩
            | cons d ds => exact ⟨_, _, rfl⟩
          have h := ih others (c :: done) fuel (by simpa using enough)
          rw [List.flatMap_cons, List.append_assoc]
          rw [split] at h ⊢
          simp only [textBody, piece_textPoint style.asciiOnly first, h]
          simp

/-- A written text is read back. -/
theorem quotedText_writeText (style : Style) {t : Text} (holds : style.Holds t) (rest : Text)
    (fuel : Nat) (enough : t.length < fuel) :
    quotedText fuel (writeText style.asciiOnly t ++ rest) = .ok (t, rest) := by
  have body := textBody_pieces style holds (writeText style.asciiOnly t ++ rest) [] rest fuel enough
  simpa [quotedText, writeText] using body

theorem length_unicodeEscape_pos (n : Nat) : 0 < (unicodeEscape n).length := by
  simp [unicodeEscape, Text.ofString]

theorem length_textPoint_pos (asciiOnly : Bool) (c : CodePoint) :
    0 < (textPoint asciiOnly c).length := by
  unfold textPoint
  cases letterEscape? c.val with
  | some letter => simp
  | none =>
      dsimp only
      split
      · exact length_unicodeEscape_pos _
      split
      · simp
      split
      · exact length_unicodeEscape_pos _
      · rw [List.length_append]
        exact Nat.add_pos_left (length_unicodeEscape_pos _) _

theorem length_lt_writeText (asciiOnly : Bool) (t : Text) :
    t.length + 1 < (writeText asciiOnly t).length := by
  have pieces : t.length ≤ (t.flatMap (textPoint asciiOnly)).length := by
    induction t with
    | nil => simp
    | cons c t ih =>
        have := length_textPoint_pos asciiOnly c
        simp only [List.flatMap_cons, List.length_append, List.length_cons]
        omega
  simp only [writeText, List.cons_append, List.length_cons, List.length_append, List.length_nil]
  omega

end SiteFilter.Json
