import Mathlib.Data.List.Basic
import SiteFilter.Rule.Matching

/-!
# Domains and what is below them

A rule applies where the rest of its domain is the rest of the host, or ends the host behind a dot.
In other words, the labels of the one end the labels of the other. The first is what is computed;
the second says that no part of a label counts, and that what is below a domain stays below it
whatever labels come in front.
-/

namespace SiteFilter

/-! ## Names without `www.` in front -/

theorem wwwLead_eq : wwwLead = "www.".toList.map CodePoint.ofChar :=
  rfl

theorem stripWww_lead (rest : Text) : stripWww (wwwLead ++ rest) = rest := by
  simp [stripWww, Text.startsWith]

theorem stripWww_of_not {t : Text} (h : t.startsWith wwwLead = false) : stripWww t = t := by
  simp [stripWww, h]

/-- A text either has `www.` in front or is left alone. -/
theorem lead_or_bare (t : Text) :
    (∃ rest, t = wwwLead ++ rest) ∨ t.startsWith wwwLead = false := by
  by_cases h : wwwLead <+: t
  · obtain ⟨rest, same⟩ := h
    exact .inl ⟨rest, same.symm⟩
  · rw [← List.isPrefixOf_iff_prefix, Bool.not_eq_true] at h
    exact .inr h

/-- The only dot of `www.` is its last code point. -/
theorem dot_suffix_lead {domain rest : Text} :
    CodePoint.ofChar '.' :: domain <:+ wwwLead ++ rest ↔
      rest = domain ∨ CodePoint.ofChar '.' :: domain <:+ rest := by
  have apart : CodePoint.ofChar '.' ≠ CodePoint.ofChar 'w' := by decide
  simp [wwwLead_eq, List.suffix_cons_iff, apart, eq_comm]

def IsWithin (domain hostname : Text) : Prop :=
  hostname = domain ∨ hostname.endsWith (CodePoint.ofChar '.' :: domain) = true

instance (domain hostname : Text) : Decidable (IsWithin domain hostname) :=
  inferInstanceAs (Decidable (_ ∨ _))

theorem isWithin_iff {domain hostname : Text} :
    IsWithin domain hostname ↔
      hostname = domain ∨ CodePoint.ofChar '.' :: domain <:+ hostname := by
  rw [IsWithin, Text.endsWith, List.isSuffixOf_iff_suffix]

theorem domainMatches_iff {domain hostname : Text} :
    domainMatches domain hostname = true ↔
      stripWww domain ≠ [] ∧ stripWww hostname ≠ [] ∧
        IsWithin (stripWww domain) (stripWww hostname) := by
  simp [domainMatches, IsWithin, and_assoc]

/-! ## Below a domain -/

theorem isWithin_self (domain : Text) : IsWithin domain domain :=
  .inl rfl

theorem IsWithin.trans {domain host below : Text} (h : IsWithin domain host)
    (h' : IsWithin host below) : IsWithin domain below := by
  rw [isWithin_iff] at h h' ⊢
  rcases h' with rfl | under
  · exact h
  · rcases h with rfl | above
    · exact .inr under
    · exact .inr (above.trans ((List.suffix_cons _ _).trans under))

theorem IsWithin.ne_nil {domain host : Text} (h : IsWithin domain host) (named : domain ≠ []) :
    host ≠ [] := by
  rintro rfl
  simp [isWithin_iff, Ne.symm named] at h

/-- No more than a part of a dotted name is lost with `www.`, and never the part behind the dot. -/
theorem isWithin_stripWww_dotted (front host : Text) :
    IsWithin host (stripWww (front ++ CodePoint.ofChar '.' :: host)) := by
  have dotted : CodePoint.ofChar '.' :: host <:+ front ++ CodePoint.ofChar '.' :: host :=
    List.suffix_append _ _
  rw [isWithin_iff]
  rcases lead_or_bare (front ++ CodePoint.ofChar '.' :: host) with ⟨rest, same⟩ | bare
  · rw [same, dot_suffix_lead] at dotted
    rw [same, stripWww_lead]
    exact dotted
  · rw [stripWww_of_not bare]
    exact .inr dotted

theorem isWithin_stripWww_self (domain : Text) : IsWithin (stripWww domain) domain := by
  rcases lead_or_bare domain with ⟨rest, rfl⟩ | bare
  · rw [stripWww_lead, isWithin_iff]
    exact .inr (dot_suffix_lead.mpr (.inl rfl))
  · rw [stripWww_of_not bare]
    exact isWithin_self domain

/-- To be within a domain stays true without `www.` in front of the two names. -/
theorem IsWithin.stripWww {domain host : Text} (h : IsWithin domain host) :
    IsWithin (stripWww domain) (stripWww host) := by
  rcases isWithin_iff.mp h with rfl | ⟨front, rfl⟩
  · exact isWithin_self _
  · exact (isWithin_stripWww_self domain).trans (isWithin_stripWww_dotted front domain)

/-- A rule applies within the rest of its domain, if there is any. -/
theorem domainMatches_iff_isWithin {domain host : Text} :
    domainMatches domain host = true ↔
      stripWww domain ≠ [] ∧ IsWithin (stripWww domain) (stripWww host) := by
  rw [domainMatches_iff]
  constructor
  · exact fun ⟨named, _, within⟩ => ⟨named, within⟩
  · exact fun ⟨named, within⟩ => ⟨named, within.ne_nil named, within⟩

/-- A page below a domain has the rules for the domain. -/
theorem domainMatches_of_isWithin {domain host : Text} (named : stripWww domain ≠ [])
    (h : IsWithin domain host) : domainMatches domain host = true :=
  domainMatches_iff_isWithin.mpr ⟨named, h.stripWww⟩

/-- Where a rule applies, the host of the page holds each code point of its domain but `www.`. -/
theorem mem_of_domainMatches {domain host : Text} (h : domainMatches domain host = true) :
    ∀ c ∈ domain, c ∈ wwwLead ∨ c ∈ host := by
  obtain ⟨-, -, within⟩ := domainMatches_iff.mp h
  have below := isWithin_iff.mp (within.trans (isWithin_stripWww_self host))
  have held : ∀ c ∈ stripWww domain, c ∈ host := by
    intro c inside
    rcases below with same | suffix
    · rwa [same]
    · exact suffix.subset (List.mem_cons_of_mem _ inside)
  intro c inside
  rcases lead_or_bare domain with ⟨rest, rfl⟩ | bare
  · rw [stripWww_lead] at held
    exact (List.mem_append.mp inside).imp_right (held c)
  · rw [stripWww_of_not bare] at held
    exact .inr (held c inside)

/-! ## Labels -/

/-- The labels of a name, which stand between its dots. -/
def labels (name : Text) : List Text :=
  List.splitOn (CodePoint.ofChar '.') name

theorem labels_append (front back : Text) :
    labels (front ++ CodePoint.ofChar '.' :: back) = labels front ++ labels back :=
  List.splitOn_append_cons_self front back

theorem labels_ne_nil (name : Text) : labels name ≠ [] :=
  List.splitOn_ne_nil _ name

theorem intercalate_labels (name : Text) :
    [CodePoint.ofChar '.'].intercalate (labels name) = name :=
  List.intercalate_splitOn _

theorem intercalate_append {sep : Text} {front back : List Text} (hf : front ≠ [])
    (hb : back ≠ []) :
    sep.intercalate (front ++ back) = sep.intercalate front ++ sep ++ sep.intercalate back := by
  induction front with
  | nil => exact absurd rfl hf
  | cons first others ih =>
      cases others with
      | nil => simp [List.intercalate_cons_of_ne_nil hb]
      | cons second others =>
          have rest := ih (List.cons_ne_nil _ _)
          simp only [List.cons_append] at rest
          simp [List.intercalate_cons_cons, rest]

/-- A name is within another when its labels end with the labels of the other. -/
theorem isWithin_iff_labels {domain host : Text} :
    IsWithin domain host ↔ labels domain <:+ labels host := by
  rw [isWithin_iff]
  constructor
  · intro h
    rcases h with rfl | ⟨front, rfl⟩
    · exact List.suffix_refl _
    · rw [labels_append]
      exact List.suffix_append _ _
  · rintro ⟨front, split⟩
    -- Joined again, what stands in front of the domain ends in a dot, unless it has no labels.
    have joined := congrArg [CodePoint.ofChar '.'].intercalate split
    rw [intercalate_labels] at joined
    by_cases empty : front = []
    · rw [empty, List.nil_append, intercalate_labels] at joined
      exact .inl joined.symm
    · rw [intercalate_append empty (labels_ne_nil domain), intercalate_labels] at joined
      rw [← joined, List.append_assoc]
      exact .inr (List.suffix_append _ _)

/-- What stands in front of a domain ends in a dot, unless there is nothing. -/
theorem isWithin_append_iff {front domain : Text} :
    IsWithin domain (front ++ domain) ↔
      front = [] ∨ front.getLast? = some (CodePoint.ofChar '.') := by
  have behind : CodePoint.ofChar '.' :: domain <:+ front ++ domain ↔
      ∃ labels, front = labels ++ [CodePoint.ofChar '.'] := by
    refine exists_congr fun labels => ?_
    rw [← List.singleton_append, ← List.append_assoc, List.append_cancel_right_eq, eq_comm]
  rw [isWithin_iff, behind, List.getLast?_eq_some_iff, List.append_left_eq_self]

/-! ## Matching -/

/--
A rule applies just where the labels that are left of its domain end those that are left of the
host. So a part of a label never counts; a domain has what is below the hosts below it; it has
itself, if anything is left of it; and where a rule applies it applies to everything below.
-/
theorem domainMatches_labels :
    (∀ domain host, domainMatches domain host = true ↔
      stripWww domain ≠ [] ∧ stripWww host ≠ [] ∧
        labels (stripWww domain) <:+ labels (stripWww host)) ∧
    (∀ domain host front, stripWww host = front ++ stripWww domain →
      (domainMatches domain host = true ↔
        stripWww domain ≠ [] ∧ (front = [] ∨ front.getLast? = some (CodePoint.ofChar '.')))) ∧
    (∀ domain host below, domainMatches domain host = true → domainMatches host below = true →
      domainMatches domain below = true) ∧
    (∀ domain, stripWww domain ≠ [] → domainMatches domain domain = true) ∧
    ∀ domain host front, domainMatches domain host = true →
      domainMatches domain (front ++ CodePoint.ofChar '.' :: host) = true := by
  refine ⟨?_, ?_, ?_, ?_, ?_⟩
  · intro domain host
    rw [domainMatches_iff, isWithin_iff_labels]
  · intro domain host front split
    rw [domainMatches_iff_isWithin, split, isWithin_append_iff]
  · intro domain host below h h'
    rw [domainMatches_iff_isWithin] at h h' ⊢
    exact ⟨h.1, h.2.trans h'.2⟩
  · intro domain named
    exact domainMatches_of_isWithin named (isWithin_self domain)
  · intro domain host front h
    rw [domainMatches_iff_isWithin] at h ⊢
    -- The name in front may be `www` itself; then no more than it is lost with the dot behind it.
    have whole := h.2.trans (isWithin_stripWww_self host)
    exact ⟨h.1, whole.trans (isWithin_stripWww_dotted front host)⟩

def paperDomain : Text :=
  Text.ofString "www.example.com"

def newsDomain : Text :=
  Text.ofString "www.news.example.com"

def liveDomain : Text :=
  Text.ofString "live.news.example.com"

theorem domainMatches_labels_news :
    domainMatches paperDomain newsDomain = true ∧
      stripWww newsDomain = Text.ofString "news." ++ stripWww paperDomain ∧
      domainMatches newsDomain liveDomain = true ∧ domainMatches paperDomain liveDomain = true ∧
      stripWww paperDomain ≠ [] ∧ domainMatches paperDomain paperDomain = true ∧
      domainMatches paperDomain (Text.ofString "www" ++ CodePoint.ofChar '.' :: liveDomain) =
        true := by
  obtain ⟨byLabels, byPart, onward, own, below⟩ := domainMatches_labels
  have split : stripWww newsDomain = Text.ofString "news." ++ stripWww paperDomain := by decide
  have named : stripWww paperDomain ≠ [] := by decide
  have news := (byPart paperDomain newsDomain _ split).mpr ⟨named, .inr (by decide)⟩
  have live := (byLabels newsDomain liveDomain).mpr
    ⟨by decide, by decide, ⟨[Text.ofString "live"], by decide⟩⟩
  have both := onward _ _ _ news live
  exact ⟨news, split, live, both, named, own _ named, below _ _ _ both⟩

end SiteFilter
