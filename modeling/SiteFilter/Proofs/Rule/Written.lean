import Mathlib.Data.List.Basic
import SiteFilter.Proofs.Json.RoundTrip
import SiteFilter.Rule.Matching

/-!
# Element rules as JSON

Rules are objects with two texts, so they can be written in every style that keeps texts as they
are, and are taken back unchanged.
-/

namespace SiteFilter

namespace ElementRule

/-- A rule is taken back from its document. -/
theorem ofJson_toJson (rule : ElementRule) : ofJson rule.toJson = .ok rule := by
  have domain : Json.lookup domainName
      [(domainName, .text rule.domain), (selectorName, .text rule.selector)]
        = some (.text rule.domain) := by
    simp [Json.lookup]
  have selector : Json.lookup selectorName
      [(domainName, .text rule.domain), (selectorName, .text rule.selector)]
        = some (.text rule.selector) := by
    have apart : domainName ≠ selectorName := by decide
    simp [Json.lookup, apart]
  simp only [toJson, ofJson, ofMembers, domain, selector, make, dif_neg rule.domain_ne,
    dif_neg rule.selector_ne, dif_pos rule.no_delimiter]

theorem filterMap_toJson (rules : List ElementRule) :
    (rules.map toJson).filterMap (fun value => (ofJson value).toOption) = rules := by
  rw [List.filterMap_map, List.filterMap_eq_map_iff_forall_eq_some.mpr, List.map_id]
  intro rule _
  simp only [Function.comp, ofJson_toJson]
  rfl

theorem readable_toJson {style : Json.Style} (plain : style.asciiOnly = false) {room : Nat}
    (rule : ElementRule) : Json.Readable style (room + 1) rule.toJson :=
  .pair plain (by decide) (.text (Json.Style.holds_of_plain plain _))
    (.text (Json.Style.holds_of_plain plain _))

theorem readable_toJsons {style : Json.Style} (plain : style.asciiOnly = false) {room : Nat}
    (rules : List ElementRule) : Json.Readable style (room + 2) (.array (rules.map toJson)) := by
  refine .array fun item inside => ?_
  obtain ⟨rule, -, rfl⟩ := List.mem_map.mp inside
  exact readable_toJson plain rule

end ElementRule

/-- The rules of a payload that apply on a page, taken from published rules. -/
theorem selectApplicable_published (rules : List ElementRule) (hostname : Text) :
    selectApplicable (.array (rules.map ElementRule.toJson)) hostname =
      .ok (rules.filter fun rule => domainMatches rule.domain hostname) := by
  have coerced : coerceRules (.array (rules.map ElementRule.toJson)) = .ok rules := by
    unfold coerceRules Json.elements
    simp only [bind, Except.bind, ElementRule.filterMap_toJson]
    rfl
  unfold selectApplicable
  rw [coerced]
  rfl

end SiteFilter
