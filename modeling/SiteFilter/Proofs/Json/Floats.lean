import SiteFilter.Proofs.Json.Written

/-!
# Floating-point numbers inside documents

A number that is read back from a document of its own is read back wherever it is written: reading
it takes all of its text, and does not depend on what stands behind, as long as that does not go on
with the number.
-/

namespace SiteFilter.Json

open Numeral (spanDigits splitExponent? splitSign)

/-! ## What reading a number leaves -/

theorem wholeDigits_suffix (t : Text) : (wholeDigits t).2 <:+ t := by
  unfold wholeDigits
  split
  · split
    · exact List.suffix_cons _ _
    · exact List.dropWhile_suffix _
  · exact List.suffix_refl _

theorem splitFraction_suffix (t : Text) : (splitFraction t).2 <:+ t := by
  unfold splitFraction
  split
  · split
    · exact (List.dropWhile_suffix _).trans (List.suffix_cons _ _)
    · exact List.suffix_refl _
  · exact List.suffix_refl _

theorem splitSign_suffix (t : Text) : (splitSign t).2 <:+ t := by
  unfold splitSign
  split
  · split
    · exact List.suffix_cons _ _
    split
    · exact List.suffix_cons _ _
    · exact List.suffix_refl _
  · exact List.suffix_refl _

theorem splitExponent?_suffix {t after : Text} {exponent : Int}
    (h : splitExponent? t = some (exponent, after)) : after <:+ t := by
  unfold splitExponent? at h
  split at h
  · rename_i c rest
    split at h
    · dsimp only at h
      split at h
      · cases h
      · cases h
        exact ((List.dropWhile_suffix _).trans (splitSign_suffix rest)).trans (List.suffix_cons _ _)
    · cases h
  · cases h

def magnitude (negative : Bool) (place body : Text) : Step Json :=
  let (whole, afterWhole) := wholeDigits body
  if whole.isEmpty then .error (.flaw .value place)
  else
    let (fraction, afterFraction) := splitFraction afterWhole
    let exponent := splitExponent? afterFraction
    if fraction.isEmpty && exponent.isNone then
      if Numeral.digitLimit < whole.length then .error (.excess (.digits whole.length)) else
      let n : Int := Numeral.value whole
      .ok (.int (if negative then -n else n), afterFraction)
    else
      let (exponent, rest) := exponent.getD (0, afterFraction)
      let x := Numeral.nearestFloat (Numeral.value (whole ++ fraction)) (exponent - fraction.length)
      .ok (.float (if negative then -x else x), rest)

theorem number_minus {c : CodePoint} (minus : c.val = 0x2D) (t : Text) :
    number (c :: t) = magnitude true (c :: t) t := by
  simp only [number, if_pos minus]
  rfl

theorem number_unsigned {c : CodePoint} (unsigned : c.val ≠ 0x2D) (t : Text) :
    number (c :: t) = magnitude false (c :: t) (c :: t) := by
  simp only [number, if_neg unsigned]
  rfl

theorem magnitude_suffix {negative : Bool} {place body after : Text} {v : Json}
    (h : magnitude negative place body = .ok (v, after)) : after <:+ body := by
  have left := (splitFraction_suffix (wholeDigits body).2).trans (wholeDigits_suffix body)
  unfold magnitude at h
  dsimp only at h
  split at h
  · cases h
  split at h
  · split at h
    · cases h
    · cases h
      exact left
  · cases exponent : splitExponent? (splitFraction (wholeDigits body).2).2 with
    | none =>
        rw [exponent] at h
        cases h
        exact left
    | some found =>
        rw [exponent] at h
        cases h
        exact (splitExponent?_suffix exponent).trans left

theorem number_suffix {t after : Text} {v : Json} (h : number t = .ok (v, after)) :
    after <:+ t := by
  cases t with
  | nil => cases h
  | cons c t =>
      by_cases minus : c.val = 0x2D
      · rw [number_minus minus] at h
        exact (magnitude_suffix h).trans (List.suffix_cons _ _)
      · rw [number_unsigned minus] at h
        exact magnitude_suffix h

/-! ## What stands behind a number -/

section Behind

variable {rest : Text} (ends : EndsValue rest)

include ends

theorem wholeDigits_behind (t : Text) :
    wholeDigits (t ++ rest) = ((wholeDigits t).1, (wholeDigits t).2 ++ rest) := by
  have span := spanDigits_behind t ends
  cases t with
  | nil =>
      unfold wholeDigits
      cases rest with
      | nil => rfl
      | cons c rest =>
          have other := (ends c rfl).1
          rw [← Bool.not_eq_true, CodePoint.isAsciiDigit_iff] at other
          rw [List.nil_append] at span ⊢
          simp only [if_neg (show ¬ c.val = 0x30 by omega), span]
          rfl
  | cons c t =>
      unfold wholeDigits
      rw [List.cons_append] at span ⊢
      dsimp only
      split
      · rfl
      · exact span

theorem splitFraction_behind (t : Text) :
    splitFraction (t ++ rest) = ((splitFraction t).1, (splitFraction t).2 ++ rest) := by
  match t with
  | [] => exact splitFraction_of_ends ends
  | [c] =>
      -- A point at the end starts no fraction, since no digit is behind it.
      cases rest with
      | nil => rfl
      | cons d rest =>
          have other := (ends d rfl).1
          simp [splitFraction, other]
  | c :: d :: t =>
      have span := spanDigits_behind (d :: t) ends
      unfold splitFraction
      rw [List.cons_append] at span
      simp only [List.cons_append]
      split
      · exact span
      · rfl

theorem splitExponent?_behind {t after : Text} {exponent : Int}
    (h : splitExponent? t = some (exponent, after)) :
    splitExponent? (t ++ rest) = some (exponent, after ++ rest) := by
  cases t with
  | nil => cases h
  | cons c t =>
      unfold splitExponent? at h ⊢
      rw [List.cons_append]
      dsimp only at h ⊢
      split at h
      · rename_i letter
        rw [if_pos letter]
        -- Nothing but the letter would be no exponent, so the sign is not looked for in `rest`.
        have sign : splitSign (t ++ rest) = ((splitSign t).1, (splitSign t).2 ++ rest) := by
          cases t with
          | nil => cases h
          | cons d t =>
              unfold splitSign
              rw [List.cons_append]
              dsimp only
              split
              · rfl
              split <;> rfl
        rw [sign, spanDigits_behind _ ends]
        split at h
        · cases h
        · rename_i filled
          cases h
          exact if_neg filled
      · cases h

theorem magnitude_behind {negative : Bool} {place other body : Text} {v : Json}
    (h : magnitude negative place body = .ok (v, [])) :
    magnitude negative other (body ++ rest) = .ok (v, rest) := by
  unfold magnitude at h ⊢
  simp only [wholeDigits_behind ends, splitFraction_behind ends]
  generalize wholeDigits body = wholePart at h ⊢
  obtain ⟨whole, afterWhole⟩ := wholePart
  dsimp only at h ⊢
  split at h
  · cases h
  rename_i filled
  rw [if_neg filled]
  generalize splitFraction afterWhole = fractionPart at h ⊢
  obtain ⟨fraction, left⟩ := fractionPart
  dsimp only at h ⊢
  cases exponent : splitExponent? left with
  | none =>
      have none : splitExponent? rest = none := splitExponent?_of_ends ends
      rw [exponent] at h
      split at h
      · rename_i isWhole
        split at h
        · cases h
        · rename_i short
          cases h
          rw [List.nil_append, none, if_pos isWhole, if_neg short]
      · rename_i isFraction
        cases h
        rw [List.nil_append, none, if_neg isFraction]
        rfl
  | some found =>
      obtain ⟨power, after⟩ := found
      have isFraction {e : Int × Text} : ¬ (fraction.isEmpty && (some e).isNone) = true := by simp
      rw [exponent, if_neg isFraction] at h
      rw [splitExponent?_behind ends exponent, if_neg isFraction]
      cases h
      rfl

theorem number_behind {t : Text} {v : Json} (h : number t = .ok (v, [])) :
    number (t ++ rest) = .ok (v, rest) := by
  cases t with
  | nil => cases h
  | cons c t =>
      rw [List.cons_append]
      by_cases minus : c.val = 0x2D
      · rw [number_minus minus] at h ⊢
        exact magnitude_behind ends h
      · rw [number_unsigned minus] at h ⊢
        exact magnitude_behind ends h

end Behind

/-! ## Numbers that are read back -/

/-- A word that is found is one of the words, and stands at the front. -/
theorem exists_of_word? {t after : Text} {v : Json} (h : word? t = some (v, after)) :
    ∃ name, (name, v) ∈ words ∧ t = Text.ofString name ++ after := by
  obtain ⟨⟨name, named⟩, listed, found⟩ := List.exists_of_findSome?_eq_some h
  dsimp only at found
  split at found
  · rename_i leads
    cases found
    obtain ⟨behind, rfl⟩ := List.isPrefixOf_iff_prefix.mp leads
    refine ⟨name, listed, ?_⟩
    have whole : (Text.ofString name).length = name.length := by
      simp [Text.ofString, String.length_toList]
    rw [← whole, List.drop_left]
  · cases found

theorem exists_digit_of_wholeDigits {t : Text} (filled : ¬ (wholeDigits t).1.isEmpty = true) :
    ∃ c behind, t = c :: behind ∧ c.isAsciiDigit = true := by
  cases t with
  | nil => exact absurd rfl filled
  | cons c t =>
      refine ⟨c, t, rfl, ?_⟩
      unfold wholeDigits at filled
      dsimp only at filled
      split at filled
      · rename_i zero
        rw [CodePoint.isAsciiDigit_iff]
        omega
      · by_contra other
        exact filled (List.isEmpty_iff.mpr (List.takeWhile_cons_of_neg other))

theorem exists_digit_of_magnitude {negative : Bool} {place body after : Text} {v : Json}
    (h : magnitude negative place body = .ok (v, after)) :
    ∃ c behind, body = c :: behind ∧ c.isAsciiDigit = true := by
  refine exists_digit_of_wholeDigits fun isEmpty => ?_
  unfold magnitude at h
  dsimp only at h
  rw [if_pos isEmpty] at h
  cases h

/-- What is read as a number is never taken for a word. -/
theorem word?_of_number {t after : Text} {v : Json} (h : number t = .ok (v, after))
    (rest : Text) : word? (t ++ rest) = none := by
  cases t with
  | nil => cases h
  | cons c t =>
      by_cases minus : c.val = 0x2D
      · rw [number_minus minus] at h
        obtain ⟨d, behind, rfl, digit⟩ := exists_digit_of_magnitude h
        obtain rfl : c = CodePoint.ofChar '-' := CodePoint.ext_val minus
        exact word?_minus digit _
      · rw [number_unsigned minus] at h
        obtain ⟨d, behind, same, digit⟩ := exists_digit_of_magnitude h
        cases same
        exact word?_digit digit _

/-- A document that is read holds one value with nothing but space around it. -/
theorem exists_value_of_read {limits : Limits} {t : Text} {v : Json} (h : read limits t = .ok v) :
    ∃ after, value (2 * t.length + 1) limits.reading (skipSpace t) = .ok (v, after) ∧
      skipSpace after = [] := by
  cases t with
  | nil => cases h
  | cons c t =>
      unfold read document at h
      dsimp only at h
      split at h
      · rename_i found given
        cases h
        split at given
        · cases given
        split at given
        · cases given
        · rename_i after found
          split at given
          · rename_i ended
            cases given
            exact ⟨after, found, ended⟩
          · cases given
      · cases h
      · cases h

/-- A floating-point number that is read back alone is read back inside a document. -/
theorem readsBack_float {limits : Limits} {style : Style} {x : Float} {room : Nat}
    (given : read limits (write style (.float x)) = .ok (.float x)) :
    ReadsBack style room (.float x) := by
  intro level fuel rest ends enough
  obtain ⟨c, behind, split, low, high⟩ := NumberLayout.document_head x
  have visible : ∀ c ∈ NumberLayout.document.write Binary.shortest x, isSpace c = false := by
    refine NumberLayout.forall_mem_document (fun c digit => ?_) (by decide) (by decide) x
    rw [CodePoint.isAsciiDigit_iff] at digit
    exact isSpace_eq_false (by omega)
  unfold write at given
  unfold writeAt at given enough ⊢
  generalize NumberLayout.document.write Binary.shortest x = t at *
  obtain ⟨quote, brace, bracket⟩ : c.val ≠ 0x22 ∧ c.val ≠ 0x7B ∧ c.val ≠ 0x5B := by omega
  have start : skipSpace t = t := by
    rw [split, skipSpace_cons (visible c (by simp [split]))]
  -- Nothing of the text is left, since what is left would have to be space.
  have used {after : Text} (left : after <:+ t) (ended : skipSpace after = []) : after = [] := by
    refine List.eq_nil_iff_forall_not_mem.mpr fun c inside => ?_
    have space := List.dropWhile_eq_nil_iff.mp ended c inside
    rw [visible c (left.subset inside)] at space
    cases space
  obtain ⟨after, found, ended⟩ := exists_value_of_read given
  rw [start, value_scalar _ _ behind split quote brace bracket] at found
  cases fuel with
  | zero => omega
  | succ fuel =>
      rw [value_scalar fuel room (behind ++ rest) (by rw [split, List.cons_append]) quote brace
        bracket]
      cases word : word? t with
      | some pair =>
          rw [word] at found
          cases found
          obtain ⟨name, listed, rfl⟩ := exists_of_word? word
          obtain rfl := used (List.suffix_append _ _) ended
          rw [List.append_nil, word?_of_mem listed]
      | none =>
          rw [word] at found
          obtain rfl := used (number_suffix found) ended
          rw [word?_of_number found]
          exact number_behind ends found

end SiteFilter.Json
