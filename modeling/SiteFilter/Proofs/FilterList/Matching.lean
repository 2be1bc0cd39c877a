import SiteFilter.FilterList
import SiteFilter.Proofs.Rule.Matching
import SiteFilter.Proofs.Rule.Written
import SiteFilter.Propagation

/-!
# What the engine and the pages hide

The engine finds the rules for a page by the patterns of its list, the page itself by their domains.
The two agree unless a rule strays: its domain is nothing but `www.`, or `www.` is still in front of
it once it was dropped.
-/

namespace SiteFilter

/-- The pattern of a rule for `domain` covers `hostname`, and the page does not apply the rule. -/
def Strays (domain hostname : Text) : Prop :=
  stripWww domain = [] ∧ hostname.endsWith [CodePoint.ofChar '.'] = true ∨
    stripWww domain = hostname ∧ hostname.startsWith wwwLead = true

instance (domain hostname : Text) : Decidable (Strays domain hostname) :=
  inferInstanceAs (Decidable (_ ∨ _))

theorem not_domainMatches_of_strays {domain hostname : Text} (strays : Strays domain hostname) :
    domainMatches domain hostname = false := by
  rw [← Bool.not_eq_true, domainMatches_iff]
  intro ⟨filled, _, within⟩
  rcases strays with ⟨empty, _⟩ | ⟨same, lead⟩
  · exact filled empty
  · rcases lead_or_bare hostname with ⟨rest, rfl⟩ | bare
    · rw [same, stripWww_lead, isWithin_iff] at within
      -- What is left of the host is shorter than the domain that was left of the rule.
      have long : (wwwLead ++ rest).length = 4 + rest.length := List.length_append
      rcases within with equal | below
      · have := congrArg List.length equal
        omega
      · have := below.length_le
        simp only [List.length_cons] at this
        omega
    · rw [bare] at lead
      cases lead

/-- A page is within the rest of a domain just when the rule applies there or strays. -/
theorem isWithin_stripWww_iff {domain hostname : Text} (named : hostname ≠ []) :
    IsWithin (stripWww domain) hostname ↔
      domainMatches domain hostname = true ∨ Strays domain hostname := by
  rw [domainMatches_iff, isWithin_iff, isWithin_iff, Strays, Text.endsWith,
    List.isSuffixOf_iff_suffix]
  by_cases empty : stripWww domain = []
  · have other : ¬ ([] : Text) = hostname := fun h => named h.symm
    simp [empty, named, other]
  · rcases lead_or_bare hostname with ⟨rest, rfl⟩ | bare
    · have lead : (wwwLead ++ rest).startsWith wwwLead = true := by simp [Text.startsWith]
      have rest_ne : rest = stripWww domain ∨ CodePoint.ofChar '.' :: stripWww domain <:+ rest →
          rest ≠ [] := by
        intro within gone
        simp [gone, Ne.symm empty] at within
      rw [stripWww_lead, dot_suffix_lead]
      simp only [empty, lead, ne_eq, not_false_eq_true, true_and, false_and, and_true, false_or]
      constructor
      · intro h
        rcases h with same | within
        · exact .inr same.symm
        · exact .inl ⟨rest_ne within, within⟩
      · intro h
        rcases h with within | same
        · exact .inr within.2
        · exact .inl same.symm
    · simp [stripWww_of_not bare, empty, named, bare]

/-- Which rules never stray. -/
theorem never_strays_iff {domain : Text} :
    (∀ hostname, hostname ≠ [] → ¬ Strays domain hostname) ↔
      stripWww domain ≠ [] ∧ (stripWww domain).startsWith wwwLead = false := by
  constructor
  · intro never
    have filled : stripWww domain ≠ [] := by
      intro empty
      exact never [CodePoint.ofChar '.'] (by simp) (.inl ⟨empty, by decide⟩)
    refine ⟨filled, ?_⟩
    rw [← Bool.not_eq_true]
    intro lead
    exact never (stripWww domain) filled (.inr ⟨rfl, lead⟩)
  · intro ⟨filled, bare⟩ hostname _ strays
    rcases strays with ⟨empty, _⟩ | ⟨same, lead⟩
    · exact filled empty
    · rw [same, lead] at bare
      cases bare

namespace FilterList

/-- How the engine reads the patterns that stand for a domain and everything below it. -/
structure ReadsPatterns (covers : Text → Text → Bool) : Prop where
  star : ∀ domain hostname,
    covers (CodePoint.ofChar '*' :: domain) hostname = true ↔ IsWithin domain hostname

def hides? (covers : Text → Text → Bool) (hostname : Text) : FilterEntry → Option Text
  | .block _ => none
  | .hide pattern selector => if covers pattern hostname then some selector else none

/-- The selectors that a list hides on the pages of `hostname`, in its order. -/
def hidden (covers : Text → Text → Bool) (entries : List FilterEntry) (hostname : Text) :
    List Text :=
  entries.filterMap (hides? covers hostname)

variable {covers : Text → Text → Bool}

theorem hidden_compile (rules : RuleSet) (hostname : Text) :
    hidden covers (compile rules) hostname =
      (rules.elementRules.filter fun rule => covers (domainPattern rule.domain) hostname).map
        (·.selector) := by
  have blocks : (rules.hosts.map fun rule => FilterEntry.block rule.hostname).filterMap
      (hides? covers hostname) = [] := by
    simp [List.filterMap_eq_nil_iff, hides?]
  rw [hidden, compile, List.filterMap_append, blocks, List.nil_append]
  induction rules.elementRules with
  | nil => rfl
  | cons rule others ih =>
      rw [List.map_cons, List.filterMap_cons, ih]
      by_cases covered : covers (domainPattern rule.domain) hostname
      · simp [hides?, covered]
      · simp [hides?, covered]

/-- A filter that lets more through gives another list as soon as it does so once. -/
theorem map_filter_eq_iff {rules : List ElementRule} {few many : ElementRule → Bool}
    (weaker : ∀ rule, few rule = true → many rule = true) :
    (rules.filter many).map (·.selector) = (rules.filter few).map (·.selector) ↔
      ∀ rule ∈ rules, many rule = few rule := by
  constructor
  · intro same rule listed
    have lengths := congrArg List.length same
    simp only [List.length_map] at lengths
    have equal := (List.monotone_filter_right rules weaker).eq_of_length lengths.symm
    have both : rule ∈ rules.filter few ↔ rule ∈ rules.filter many := by rw [equal]
    simp only [List.mem_filter, listed, true_and] at both
    exact Bool.eq_iff_iff.mpr both.symm
  · intro same
    rw [List.filter_congr same]

theorem covers_iff (reads : ReadsPatterns covers) {domain hostname : Text}
    (named : hostname ≠ []) :
    covers (domainPattern domain) hostname = true ↔
      domainMatches domain hostname = true ∨ Strays domain hostname := by
  rw [domainPattern, reads.star, isWithin_stripWww_iff named]

theorem covers_eq_iff (reads : ReadsPatterns covers) {domain hostname : Text}
    (named : hostname ≠ []) :
    covers (domainPattern domain) hostname = domainMatches domain hostname ↔
      ¬ Strays domain hostname := by
  have told : covers (domainPattern domain) hostname = true ↔ _ := covers_iff reads named
  by_cases strays : Strays domain hostname
  · simp [told.mpr (.inr strays), not_domainMatches_of_strays strays, strays]
  · rw [Bool.eq_iff_iff, told]
    simp [strays]

/--
The engine hides what the pages hide and, besides, what the rules hide that stray. Rules agree on
all pages when something is left of their domain that has no `www.` in front.
-/
theorem hidden_eq_selected_iff (reads : ReadsPatterns covers) :
    (∀ rule : ElementRule,
      (∀ hostname, hostname ≠ [] →
        covers (domainPattern rule.domain) hostname = domainMatches rule.domain hostname) ↔
      stripWww rule.domain ≠ [] ∧ (stripWww rule.domain).startsWith wwwLead = false) ∧
    ∀ (rules : RuleSet) (hostname : Text), hostname ≠ [] →
      ∃ kept, selectApplicable (channelPayload rules) hostname = .ok kept ∧
        hidden covers (compile rules) hostname =
          (rules.elementRules.filter fun rule =>
            domainMatches rule.domain hostname || Strays rule.domain hostname).map (·.selector) ∧
        (hidden covers (compile rules) hostname = kept.map (·.selector) ↔
          ∀ rule ∈ rules.elementRules, ¬ Strays rule.domain hostname) := by
  constructor
  · intro rule
    rw [← never_strays_iff]
    exact forall₂_congr fun hostname named => covers_eq_iff reads named
  · intro rules hostname named
    refine ⟨_, selectApplicable_published rules.elementRules hostname, ?_, ?_⟩
    · rw [hidden_compile]
      congr 2
      funext rule
      rw [Bool.eq_iff_iff, covers_iff reads named]
      simp
    · rw [hidden_compile, map_filter_eq_iff]
      · exact forall₂_congr fun rule _ => covers_eq_iff reads named
      · intro rule applies
        exact (covers_iff reads named).mpr (.inl applies)

def readPattern (pattern hostname : Text) : Bool :=
  match pattern with
  | [] => false
  | c :: domain =>
      if c = CodePoint.ofChar '*' then decide (IsWithin domain hostname)
      else hostname == c :: domain

theorem readsPatterns_readPattern : ReadsPatterns readPattern := by
  constructor
  intro domain hostname
  simp [readPattern]

def shopRules : RuleSet :=
  ⟨[⟨Text.ofString "ads.example", by decide⟩],
    [⟨Text.ofString "example.com", Text.ofString ".banner", by decide, by decide, by decide⟩,
      ⟨Text.ofString "notexample.com", Text.ofString ".note", by decide, by decide, by decide⟩,
      ⟨Text.ofString "www.shop.example.com", Text.ofString "#offer", by decide, by decide,
        by decide⟩]⟩

theorem hidden_eq_selected_shop :
    ReadsPatterns readPattern ∧
      ∃ kept, selectApplicable (channelPayload shopRules)
          (Text.ofString "www.shop.example.com") = .ok kept ∧
        hidden readPattern (compile shopRules) (Text.ofString "www.shop.example.com") =
          kept.map (·.selector) ∧
        kept.map (·.selector) = [Text.ofString ".banner", Text.ofString "#offer"] := by
  have agree := (hidden_eq_selected_iff readsPatterns_readPattern).2 shopRules
    (Text.ofString "www.shop.example.com") (by decide)
  obtain ⟨kept, selected, -, same⟩ := agree
  have hides := same.mpr (by decide)
  exact ⟨readsPatterns_readPattern, kept, selected, hides, hides.symm.trans (by decide)⟩

def strayRules : RuleSet :=
  ⟨[], [⟨Text.ofString "www.www.com", Text.ofString ".banner", by decide, by decide, by decide⟩,
    ⟨Text.ofString "www.", Text.ofString ".note", by decide, by decide, by decide⟩]⟩

theorem hidden_ne_selected_stray :
    ReadsPatterns readPattern ∧
      hidden readPattern (compile strayRules) (Text.ofString "www.com") =
        [Text.ofString ".banner"] ∧
      selectRules strayRules.elementRules (Text.ofString "www.com") = [] ∧
      hidden readPattern (compile strayRules) (Text.ofString "a.") = [Text.ofString ".note"] ∧
      selectRules strayRules.elementRules (Text.ofString "a.") = [] :=
  ⟨readsPatterns_readPattern, by decide⟩

end FilterList

end SiteFilter
