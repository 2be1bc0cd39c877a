import SiteFilter.Number.Reading

/-!
# Decimal digits and their value

The text of a natural number is made of ASCII digits, starts with a zero only for zero itself, and
has the number as its value. Zeros in front do not change a value.
-/

namespace SiteFilter

theorem CodePoint.isAsciiDigit_iff (c : CodePoint) :
    c.isAsciiDigit = true ↔ 0x30 ≤ c.val ∧ c.val ≤ 0x39 := by
  unfold isAsciiDigit asciiDigit?
  split <;> simp_all

namespace Text

theorem isAsciiDigit_of_mem_ofNat {n : Nat} {c : CodePoint} (member : c ∈ ofNat n) :
    c.isAsciiDigit = true := by
  obtain ⟨d, inDigits, rfl⟩ := List.mem_map.1 member
  have h := Nat.isDigit_of_mem_toDigits (by decide) (by decide) inDigits
  rw [Char.isDigit_iff_toNat] at h
  exact (CodePoint.isAsciiDigit_iff _).2 h

theorem ofNat_ne_nil (n : Nat) : ofNat n ≠ [] := by
  simp [ofNat]

theorem exists_digit_ofNat (n : Nat) :
    ∃ d ds, ofNat n = d :: ds ∧ d.isAsciiDigit = true := by
  obtain ⟨d, ds, split⟩ := List.exists_cons_of_ne_nil (ofNat_ne_nil n)
  exact ⟨d, ds, split, isAsciiDigit_of_mem_ofNat (n := n) (by simp [split])⟩

/-- Only zero starts with a zero. -/
theorem head_ofNat {n : Nat} (pos : 0 < n) : ∀ c ∈ (ofNat n).head?, c.val ≠ 0x30 := by
  induction n using Nat.base_induction 10 (by decide) with
  | single m small =>
      intro c head
      rw [ofNat, Nat.toDigits_of_lt_base small] at head
      cases head
      have := Nat.toNat_digitChar_of_lt_ten small
      simp only [CodePoint.ofChar]
      omega
  | digit m k digit rest ih =>
      intro c head
      obtain ⟨d, ds, split⟩ := List.exists_cons_of_ne_nil (ofNat_ne_nil m)
      rw [ofNat, ← Nat.toDigits_append_toDigits (by decide) rest digit, List.map_append, ← ofNat,
        split] at head
      rw [split] at ih
      exact ih rest c (by simpa using head)

end Text

namespace Numeral

theorem value_ofNat (n : Nat) : value (Text.ofNat n) = n := by
  have chars : ∀ (l : List Char) (start : Nat),
      (l.map CodePoint.ofChar).foldl (fun n c => n * 10 + (c.val - 0x30)) start =
        Nat.ofDigitChars 10 l start := by
    intro l
    induction l with
    | nil => simp
    | cons c l ih =>
        intro start
        rw [List.map_cons, List.foldl_cons, ih, Nat.ofDigitChars_cons, Nat.mul_comm start]
        rfl
  rw [value, Text.ofNat, chars, Nat.ofDigitChars_ten_toDigits]

theorem value_replicate_zero (k : Nat) (digits : Text) :
    value (List.replicate k (CodePoint.ofChar '0') ++ digits) = value digits := by
  induction k with
  | zero => rfl
  | succ k ih =>
      rw [← ih]
      simp [value, List.replicate_succ, CodePoint.ofChar]

end Numeral

end SiteFilter
