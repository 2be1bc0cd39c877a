import SiteFilter.Proofs.Page.Authority
import SiteFilter.Proofs.Rule.Matching
import SiteFilter.Proofs.Text.Normalization

/-!
# The pages of a rule's own domain

A page of a domain has in its address the scheme, some labels, the domain and a path. The address
gives the host in lower case, the domain of a rule is taken as it is written. So a rule applies on
the pages of its own domain just when the domain is written in lower case.
-/

namespace SiteFilter

/-! ## Names made of labels -/

namespace CodePoint

def isCapital (c : CodePoint) : Bool :=
  0x41 ≤ c.val && c.val ≤ 0x5A

def isLabelPoint (c : CodePoint) : Bool :=
  c.isCapital || (0x61 ≤ c.val && c.val ≤ 0x7A) || (0x30 ≤ c.val && c.val ≤ 0x39) || c.val = 0x2D

def dot : CodePoint := ofChar '.'

def IsOfName (c : CodePoint) : Prop :=
  c.isLabelPoint = true ∨ c = dot

instance (c : CodePoint) : Decidable c.IsOfName :=
  inferInstanceAs (Decidable (_ ∨ _))

theorem IsOfName.val {c : CodePoint} (h : c.IsOfName) :
    c.val = 0x2D ∨ c.val = 0x2E ∨ 0x30 ≤ c.val ∧ c.val ≤ 0x39 ∨ 0x41 ≤ c.val ∧ c.val ≤ 0x5A ∨
      0x61 ≤ c.val ∧ c.val ≤ 0x7A := by
  rcases h with label | rfl
  · simp only [isLabelPoint, isCapital, Bool.or_eq_true, Bool.and_eq_true,
      decide_eq_true_eq] at label
    omega
  · decide

theorem IsOfName.ascii {c : CodePoint} (h : c.IsOfName) : c.val < 0x80 := by
  have := h.val
  omega

theorem IsSettled.not_capital {c : CodePoint} (h : c.IsSettled) : c.isCapital = false := by
  rw [← Bool.not_eq_true]
  intro capital
  simp only [isCapital, Bool.and_eq_true, decide_eq_true_eq] at capital
  have form : c.lowerPoint = ofNat (c.val + 32) := by
    rw [lowerPoint, if_pos (by omega), if_pos (by simpa using capital)]
  have number := congrArg CodePoint.val (form.symm.trans h.2.2)
  rw [val_ofNat (by omega)] at number
  omega

end CodePoint

open CodePoint (dot)

/-- A label of a host name: letters, digits and hyphens, at least one. -/
def IsLabel (label : Text) : Prop :=
  label ≠ [] ∧ ∀ c ∈ label, c.isLabelPoint = true

instance (label : Text) : Decidable (IsLabel label) :=
  inferInstanceAs (Decidable (_ ∧ _))

/-- Labels with a dot between neighbours, at least one. -/
def IsDomain (domain : Text) : Prop :=
  ∃ labels, labels ≠ [] ∧ (∀ label ∈ labels, IsLabel label) ∧ domain = Text.join [dot] labels

def IsChain (front : Text) : Prop :=
  ∃ labels : List Text, (∀ label ∈ labels, IsLabel label) ∧
    front = labels.flatMap fun label : Text => label ++ [dot]

theorem IsLabel.isOfName {label : Text} (h : IsLabel label) : ∀ c ∈ label, c.IsOfName :=
  fun c inside => .inl (h.2 c inside)

theorem IsChain.isOfName {front : Text} (h : IsChain front) : ∀ c ∈ front, c.IsOfName := by
  obtain ⟨labels, each, rfl⟩ := h
  intro c inside
  obtain ⟨label, listed, inside⟩ := List.mem_flatMap.mp inside
  rcases List.mem_append.mp inside with inside | inside
  · exact (each label listed).isOfName c inside
  · exact .inr (List.mem_singleton.mp inside)

/-- A chain ends with a dot. -/
theorem IsChain.ends {front : Text} (h : IsChain front) :
    front = [] ∨ ∃ labels, front = labels ++ [dot] := by
  obtain ⟨labels, -, rfl⟩ := h
  rcases List.eq_nil_or_concat labels with rfl | ⟨others, last, rfl⟩
  · exact .inl rfl
  · exact .inr ⟨others.flatMap (fun label => label ++ [dot]) ++ last, by simp⟩

/-- A domain is the chain of its first labels and its last label. -/
theorem IsDomain.split {domain : Text} (h : IsDomain domain) :
    ∃ front last, IsChain front ∧ IsLabel last ∧ domain = front ++ last := by
  obtain ⟨labels, filled, each, rfl⟩ := h
  induction labels with
  | nil => exact absurd rfl filled
  | cons first others ih =>
      have here := each first List.mem_cons_self
      cases others with
      | nil => exact ⟨[], first, ⟨[], by simp, rfl⟩, here, rfl⟩
      | cons second others =>
          obtain ⟨front, last, ⟨labels, chained, same⟩, isLabel, split⟩ :=
            ih (List.cons_ne_nil _ _) fun label listed => each label (List.mem_cons_of_mem _ listed)
          refine ⟨first ++ [dot] ++ front, last, ⟨first :: labels, ?_, ?_⟩, isLabel, ?_⟩
          · exact List.forall_mem_cons.mpr ⟨here, chained⟩
          · rw [List.flatMap_cons, ← same]
          · rw [Text.join, split, List.append_assoc _ front]
            exact List.cons_ne_nil _ _

theorem IsDomain.isOfName {domain : Text} (h : IsDomain domain) : ∀ c ∈ domain, c.IsOfName := by
  obtain ⟨front, last, chain, isLabel, rfl⟩ := h.split
  intro c inside
  rcases List.mem_append.mp inside with inside | inside
  · exact chain.isOfName c inside
  · exact isLabel.isOfName c inside

/-- No domain ends with a dot, so something is left of it without `www.` in front. -/
theorem IsDomain.stripWww_ne {domain : Text} (h : IsDomain domain) : stripWww domain ≠ [] := by
  obtain ⟨front, last, -, isLabel, rfl⟩ := h.split
  rcases lead_or_bare (front ++ last) with ⟨rest, same⟩ | bare
  · rw [same, stripWww_lead]
    rintro rfl
    have ends := congrArg List.getLast? same
    rw [List.getLast?_append_of_ne_nil _ isLabel.1] at ends
    have inside := List.mem_of_getLast? (ends.trans (by decide : _ = some dot))
    exact absurd (isLabel.2 dot inside) (by decide)
  · rw [stripWww_of_not bare]
    simp [isLabel.1]

/-! ## Lower case -/

namespace Text

/-- A text without capitals is its own lower case, and only such a text is. -/
theorem lower_eq_self_iff {t : Text} (named : ∀ c ∈ t, c.IsOfName) :
    t.lower = t ↔ ∀ c ∈ t, c.isCapital = false := by
  rw [lower_eq_self_iff_settled]
  constructor
  · exact fun settled c inside => (settled c inside).not_capital
  · intro plain c inside
    refine CodePoint.isSettled_of_ascii (named c inside).ascii fun capital => ?_
    have isCapital := plain c inside
    simp only [CodePoint.isCapital, Bool.and_eq_false_iff, decide_eq_false_iff_not] at isCapital
    omega

/-- The code points of a name are put in lower case one by one. -/
theorem lower_of_named {t : Text} (named : ∀ c ∈ t, c.IsOfName) :
    t.lower = t.map CodePoint.lowerPoint := by
  have each (afterCased : Bool) : lowerFrom afterCased t = t.map CodePoint.lowerPoint := by
    induction t generalizing afterCased with
    | nil => rfl
    | cons c rest ih =>
        have small := (named c List.mem_cons_self).ascii
        rw [lowerFrom, lowerIn, if_neg (by omega), if_neg (by omega), List.map_cons,
          ih fun d inside => named d (List.mem_cons_of_mem _ inside)]
        rfl
  exact each false

end Text

/-! ## The host of a page -/

namespace PageAddress

/-- The path in an address, if there is one, starts with a slash. -/
def IsPath (path : Text) : Prop :=
  path = [] ∨ path.startsWith (Text.ofString "/") = true

instance (path : Text) : Decidable (IsPath path) :=
  inferInstanceAs (Decidable (_ ∨ _))

variable {scheme host path : Text}

/-- A name has none of the delimiters of an address. -/
theorem isHost_of_named (filled : host ≠ []) (named : ∀ c ∈ host, c.IsOfName) : IsHost host := by
  have shown : ∀ c ∈ Text.ofString "\t\n\r", ¬ c.IsOfName := by decide
  have other : ∀ c ∈ Text.ofString "/?#@:[]%", ¬ c.IsOfName := by decide
  refine ⟨filled, fun c inside => ?_⟩
  have name := named c inside
  exact ⟨name.ascii, fun listed => shown c listed name, fun listed => other c listed name⟩

theorem IsPath.isRest (hp : IsPath path) : IsRest path := by
  rcases hp with none | slash
  · exact .inl none
  · obtain ⟨rest, rfl⟩ := List.isPrefixOf_iff_prefix.mp slash
    exact .inr ⟨CodePoint.ofChar '/', by decide, rest, rfl⟩

/-- The host of an address that has only a scheme, a name and a path. -/
theorem hostname_of_named (hs : scheme ∈ schemes) (filled : host ≠ [])
    (named : ∀ c ∈ host, c.IsOfName) (hp : IsPath path) :
    hostname (scheme ++ host ++ path) = .ok (some host.lower) := by
  let parts : Parts :=
    { scheme, user := [], host, port := [], rest := path
      isScheme := by simpa [schemes] using hs
      isUserInfo := .inl rfl
      isHost := isHost_of_named filled named
      isPort := .inl rfl
      isRest := hp.isRest }
  have whole : parts.address = scheme ++ host ++ path := by simp [parts, Parts.address]
  rw [← whole]
  exact parts.hostname_of_address

end PageAddress

/-! ## Rules on the pages of their own domain -/

namespace ElementRule

/-- In lower case, a chain in front of a domain is still in front of it. -/
theorem isWithin_lower {front domain : Text} (chain : IsChain front) (isDomain : IsDomain domain) :
    IsWithin domain.lower (front ++ domain).lower := by
  have named : ∀ c ∈ front ++ domain, c.IsOfName := fun c inside =>
    (List.mem_append.mp inside).elim (chain.isOfName c) (isDomain.isOfName c)
  rw [Text.lower_of_named named, Text.lower_of_named isDomain.isOfName, List.map_append,
    isWithin_iff]
  rcases chain.ends with rfl | ⟨labels, rfl⟩
  · exact .inl rfl
  · refine .inr ⟨labels.map CodePoint.lowerPoint, ?_⟩
    have still : CodePoint.lowerPoint dot = dot := by decide
    rw [List.map_append, List.map_singleton, still, List.append_assoc]
    rfl

/--
The page of a rule's own domain, or of anything below it, has a host, and the rule applies there
just when its domain is written in lower case.
-/
theorem mem_selectRules_own_iff (rule : ElementRule) (isDomain : IsDomain rule.domain)
    {scheme front path : Text} (hs : scheme ∈ PageAddress.schemes) (chain : IsChain front)
    (hp : PageAddress.IsPath path) :
    ∃ host, PageAddress.hostname (scheme ++ (front ++ rule.domain) ++ path) = .ok (some host) ∧
      (rule ∈ selectRules [rule] host ↔ rule.domain.lower = rule.domain) := by
  have named : ∀ c ∈ front ++ rule.domain, c.IsOfName := fun c inside =>
    (List.mem_append.mp inside).elim (chain.isOfName c) (isDomain.isOfName c)
  refine ⟨_, PageAddress.hostname_of_named hs (by simp [rule.domain_ne]) named hp, ?_⟩
  have selected {host : Text} :
      rule ∈ selectRules [rule] host ↔ domainMatches rule.domain host = true := by
    simp [selectRules]
  rw [selected]
  constructor
  · intro applies
    -- The host of a page has no capitals, nor has `www.`, so the domain has none.
    rw [Text.lower_eq_self_iff isDomain.isOfName]
    intro c inside
    rcases mem_of_domainMatches applies c inside with lead | held
    · have small : ∀ c ∈ wwwLead, c.isCapital = false := by decide
      exact small c lead
    · exact (Text.lowerFrom_settled _ false c held).not_capital
  · intro small
    have within := isWithin_lower chain isDomain
    rw [small] at within
    exact domainMatches_of_isWithin isDomain.stripWww_ne within

def videoRule : ElementRule :=
  ⟨Text.ofString "youtube.com", Text.ofString "#related", by decide, by decide, by decide⟩

theorem isDomain_video : IsDomain videoRule.domain :=
  ⟨[Text.ofString "youtube", Text.ofString "com"], by decide, by decide, by decide⟩

theorem isChain_mobile : IsChain (Text.ofString "www.m.") :=
  ⟨[Text.ofString "www", Text.ofString "m"], by decide, by decide⟩

theorem mem_selectRules_video :
    ∃ host,
      PageAddress.hostname (Text.ofString "https://" ++
        (Text.ofString "www.m." ++ videoRule.domain) ++ Text.ofString "/Watch?v=1") =
          .ok (some host) ∧
      videoRule ∈ selectRules [videoRule] host := by
  obtain ⟨host, named, applies⟩ := mem_selectRules_own_iff videoRule isDomain_video
    (by decide : Text.ofString "https://" ∈ PageAddress.schemes) isChain_mobile
    (by decide : PageAddress.IsPath (Text.ofString "/Watch?v=1"))
  exact ⟨host, named, applies.mpr (by decide)⟩

/-- The domain of `videoRule`, written as its owner writes it. -/
def capitalRule : ElementRule :=
  ⟨Text.ofString "YouTube.com", Text.ofString "#related", by decide, by decide, by decide⟩

theorem isDomain_capital : IsDomain capitalRule.domain :=
  ⟨[Text.ofString "YouTube", Text.ofString "com"], by decide, by decide, by decide⟩

theorem isChain_www : IsChain wwwLead :=
  ⟨[Text.ofString "www"], by decide, by decide⟩

theorem not_mem_selectRules_capital :
    IsDomain capitalRule.domain ∧ IsChain wwwLead ∧
      PageAddress.hostname (Text.ofString "https://" ++ (wwwLead ++ capitalRule.domain) ++
        Text.ofString "/") = .ok (some (Text.ofString "www.youtube.com")) ∧
      capitalRule ∉ selectRules [capitalRule] (Text.ofString "www.youtube.com") := by
  have named : ∀ c ∈ wwwLead ++ capitalRule.domain, c.IsOfName := by decide
  have given := PageAddress.hostname_of_named (by decide : Text.ofString "https://" ∈ _)
    (by decide) named (by decide : PageAddress.IsPath (Text.ofString "/"))
  have small : (wwwLead ++ capitalRule.domain).lower = Text.ofString "www.youtube.com" := by decide
  rw [small] at given
  exact ⟨isDomain_capital, isChain_www, given, by decide⟩

end ElementRule

end SiteFilter
