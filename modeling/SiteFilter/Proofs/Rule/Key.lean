import SiteFilter.Proofs.Text.Cutting
import SiteFilter.Rule.Basic

/-!
# Keys of element rules

The delimiter in a key is made of two equal halves. A key is cut behind the domain unless one more
half stands at the end of the domain; then it is cut too early, and the key is also that of the rule
with this half in front of its selector.
-/

namespace SiteFilter

def delimiterHalf : CodePoint :=
  CodePoint.ofChar '#'

theorem ruleDelimiter_eq : ruleDelimiter = [delimiterHalf, delimiterHalf] :=
  rfl

theorem ruleDelimiter_ne : ruleDelimiter ≠ [] := by
  decide

/-- A text leaves no room for an early delimiter when it holds none and does not end in a half. -/
theorem infix_append_half {t : Text} :
    ruleDelimiter <:+: t ++ ruleDelimiter.dropLast ↔
      ruleDelimiter <:+: t ∨ t.getLast? = some delimiterHalf := by
  have last : [delimiterHalf] <:+ t ↔ t.getLast? = some delimiterHalf := by
    constructor
    · rintro ⟨front, rfl⟩
      simp
    · intro h
      obtain ⟨front, rfl⟩ := List.getLast?_eq_some_iff.mp h
      exact List.suffix_append _ _
  have behind : ruleDelimiter <:+ t ++ [delimiterHalf] ↔ [delimiterHalf] <:+ t := by
    rw [← and_iff_left (a := [delimiterHalf] <:+ t) (rfl : [delimiterHalf] = [delimiterHalf]),
      ← List.suffix_append_inj_of_length_eq rfl]
    rfl
  rw [← last, ← behind, or_comm]
  exact List.infix_concat_iff

namespace ElementRule

theorem make_eq_ok_iff {domain selector : Text} {rule : ElementRule} :
    make domain selector = .ok rule ↔ rule.domain = domain ∧ rule.selector = selector := by
  constructor
  · intro h
    unfold make at h
    split at h
    · cases h
    split at h
    · cases h
    split at h
    · cases h
      exact ⟨rfl, rfl⟩
    · cases h
  · rintro ⟨rfl, rfl⟩
    simp [make, rule.domain_ne, rule.selector_ne, rule.no_delimiter]

theorem ext_parts {a b : ElementRule} (domain : a.domain = b.domain)
    (selector : a.selector = b.selector) : a = b := by
  cases a
  cases b
  cases domain
  cases selector
  rfl

/-- The domain ends in half a delimiter. -/
def EndsInHalf (rule : ElementRule) : Prop :=
  rule.domain.getLast? = some delimiterHalf

instance (rule : ElementRule) : Decidable rule.EndsInHalf :=
  inferInstanceAs (Decidable (_ = _))

theorem infix_domain_half {rule : ElementRule} :
    ruleDelimiter <:+: rule.domain ++ ruleDelimiter.dropLast ↔ rule.EndsInHalf := by
  have none := (Text.hasInfix_eq_false_iff ruleDelimiter_ne).mp rule.no_delimiter
  rw [infix_append_half, EndsInHalf, or_iff_right none]

/-- A key is cut into domain and selector unless half a delimiter is left over. -/
theorem cut?_key_iff {rule : ElementRule} :
    Text.cut? ruleDelimiter rule.key = some (rule.domain, rule.selector) ↔ ¬ rule.EndsInHalf := by
  rw [Text.cut?_eq_some_iff ruleDelimiter_ne, infix_domain_half]
  simp [key]

/-- Just the keys of these rules lead back to them. -/
theorem ofKey_key_iff {rule : ElementRule} : ofKey rule.key = .ok rule ↔ ¬ rule.EndsInHalf := by
  rw [← cut?_key_iff, ofKey]
  cases Text.cut? ruleDelimiter rule.key with
  | none => simp
  | some pieces =>
      rw [Option.some_inj, Prod.ext_iff]
      exact make_eq_ok_iff.trans (and_congr eq_comm eq_comm)

/-- Keys that are equal although one domain is longer differ in the place of half a delimiter. -/
theorem half_of_key_eq {a b : ElementRule} {more : Text} (h : a.key = b.key)
    (longer : b.domain = a.domain ++ more) (filled : more ≠ []) : ¬ a.EndsInHalf ∧ b.EndsInHalf := by
  have none := (Text.hasInfix_eq_false_iff ruleDelimiter_ne).mp b.no_delimiter
  rw [longer] at none
  simp only [key, longer, List.append_assoc, List.append_cancel_left_eq, ruleDelimiter_eq] at h
  match more with
  | [] => exact absurd rfl filled
  | [c] =>
      simp only [List.cons_append, List.nil_append, List.cons.injEq] at h
      obtain ⟨rfl, -⟩ := h
      constructor
      · intro ends
        exact none (infix_append_half.mpr (.inr ends))
      · simp [EndsInHalf, longer]
  | c :: d :: rest =>
      simp only [List.cons_append, List.nil_append, List.cons.injEq] at h
      obtain ⟨rfl, rfl, -⟩ := h
      exact absurd ⟨a.domain, rest, by simp [ruleDelimiter_eq]⟩ none

/-- A key determines the rule, together with whether its domain ends in half a delimiter. -/
theorem key_eq_iff {a b : ElementRule} :
    a.key = b.key ∧ (a.EndsInHalf ↔ b.EndsInHalf) ↔ a = b := by
  constructor
  · rintro ⟨h, alike⟩
    have split := h
    simp only [key, List.append_assoc] at split
    rcases List.append_eq_append_iff.mp split with ⟨more, longer, rest⟩ | ⟨more, longer, rest⟩
    · by_cases empty : more = []
      · subst empty
        simp only [List.append_nil, List.nil_append, List.append_cancel_left_eq] at longer rest
        exact ext_parts longer.symm rest
      · have half := half_of_key_eq h longer empty
        exact absurd (alike.mpr half.2) half.1
    · by_cases empty : more = []
      · subst empty
        simp only [List.append_nil, List.nil_append, List.append_cancel_left_eq] at longer rest
        exact ext_parts longer rest.symm
      · have half := half_of_key_eq h.symm longer empty
        exact absurd (alike.mp half.2) half.1
  · rintro rfl
    exact ⟨rfl, Iff.rfl⟩

end ElementRule

end SiteFilter
