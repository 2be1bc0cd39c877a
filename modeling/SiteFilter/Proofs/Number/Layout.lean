import SiteFilter.Number.Layout
import SiteFilter.Proofs.Number.Decimal

/-!
# The text of a number

The text of a decimal is made of digits, a point and an exponent, and starts with a digit. In a
document a number starts with a digit, a minus or the letter of a word.
-/

namespace SiteFilter.NumberLayout

/-- What holds of digits and of the marks between them holds of the text of a decimal. -/
theorem forall_mem_layOut {P : CodePoint → Prop} (digit : ∀ c, c.isAsciiDigit = true → P c)
    (mark : ∀ c ∈ Text.ofString ".e-+", P c) (layout : NumberLayout) (d : Decimal) :
    ∀ c ∈ layout.layOut d, P c := by
  have zero : P (CodePoint.ofChar '0') := digit _ (by decide)
  have point : P (CodePoint.ofChar '.') := mark _ (by decide)
  have letter : P (CodePoint.ofChar 'e') := mark _ (by decide)
  have minus : P (CodePoint.ofChar '-') := mark _ (by decide)
  have plus : P (CodePoint.ofChar '+') := mark _ (by decide)
  have number (n : Nat) : ∀ c ∈ Text.ofNat n, P c :=
    fun c inside => digit c (Text.isAsciiDigit_of_mem_ofNat inside)
  have front (n k : Nat) : ∀ c ∈ (Text.ofNat n).take k, P c :=
    fun c inside => number n c (List.mem_of_mem_take inside)
  have behind (n k : Nat) : ∀ c ∈ (Text.ofNat n).drop k, P c :=
    fun c inside => number n c (List.mem_of_mem_drop inside)
  have zeros (k : Nat) : ∀ c ∈ List.replicate k (CodePoint.ofChar '0'), P c := by
    intro c inside
    rw [List.eq_of_mem_replicate inside]
    exact zero
  unfold layOut digitsOf
  dsimp only
  split
  · cases layout.pointZero <;> simp [Text.ofString, zero, point]
  split
  · split
    · simp only [List.forall_mem_append]
      exact ⟨⟨by simp [Text.ofString, zero, point], zeros _⟩, number _⟩
    split
    · simp only [List.forall_mem_append]
      refine ⟨⟨number _, zeros _⟩, ?_⟩
      cases layout.pointZero <;> simp [Text.ofString, zero, point]
    · simp only [List.forall_mem_append, List.forall_mem_cons]
      exact ⟨front _ _, point, behind _ _⟩
  · simp only [List.forall_mem_append]
    refine ⟨⟨⟨front _ _, ?_⟩, ?_⟩, ?_⟩
    · split
      · exact nofun
      · exact List.forall_mem_cons.mpr ⟨point, behind _ _⟩
    · split <;> simp [Text.ofString, letter, minus, plus]
    · split
      · exact List.forall_mem_cons.mpr ⟨zero, number _⟩
      · exact number _

theorem layOut_head (layout : NumberLayout) (d : Decimal) :
    ∃ c behind, layout.layOut d = c :: behind ∧ c.isAsciiDigit = true := by
  obtain ⟨c, digits, split, digit⟩ := Text.exists_digit_ofNat d.digits
  have zero : (CodePoint.ofChar '0').isAsciiDigit = true := by decide
  unfold layOut digitsOf
  simp only [split]
  split
  · cases layout.pointZero <;> exact ⟨_, _, rfl, zero⟩
  split
  · split
    · exact ⟨_, _, rfl, zero⟩
    rename_i leads
    split
    · exact ⟨_, _, rfl, digit⟩
    · obtain ⟨k, same⟩ : ∃ k, (d.exponent + ((c :: digits).length : Int) - 1 + 1).toNat = k + 1 :=
        Nat.exists_eq_succ_of_ne_zero (by omega)
      rw [same]
      exact ⟨_, _, rfl, digit⟩
  · exact ⟨_, _, rfl, digit⟩

theorem document_head (x : Float) :
    ∃ c behind, document.write Binary.shortest x = c :: behind ∧ 0x2D ≤ c.val ∧ c.val ≤ 0x4E := by
  unfold write
  dsimp only
  split
  · exact ⟨_, _, rfl, by decide, by decide⟩
  split
  · exact ⟨_, _, rfl, by decide, by decide⟩
  split
  · exact ⟨_, _, rfl, by decide, by decide⟩
  · obtain ⟨c, behind, split, digit⟩ :=
      layOut_head document (Binary.shortest (Binary.ofBits x.toBits))
    rw [CodePoint.isAsciiDigit_iff] at digit
    rw [List.nil_append, split]
    exact ⟨c, behind, rfl, by omega, by omega⟩

/-- What holds of digits, of the marks between them and of two words holds of a number. -/
theorem forall_mem_document {P : CodePoint → Prop} (digit : ∀ c, c.isAsciiDigit = true → P c)
    (mark : ∀ c ∈ Text.ofString ".e-+", P c) (word : ∀ c ∈ Text.ofString "NaNInfinity", P c)
    (x : Float) : ∀ c ∈ document.write Binary.shortest x, P c := by
  have minus : P (CodePoint.ofChar '-') := mark _ (by decide)
  have words {t : Text} (listed : t ⊆ Text.ofString "NaNInfinity") : ∀ c ∈ t, P c :=
    fun c inside => word c (listed inside)
  unfold write
  dsimp only
  split
  · exact words (by decide)
  · rw [List.forall_mem_append]
    constructor
    · split
      · simp [Text.ofString, minus]
      · exact nofun
    · split
      · exact words (by decide)
      · exact forall_mem_layOut digit mark document _

end SiteFilter.NumberLayout
