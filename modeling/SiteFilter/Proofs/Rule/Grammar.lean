import SiteFilter.Proofs.Rule.Document

/-!
# The grammar of rule lines

Which lines are rules, told apart from how they are read, and that nothing a line can hold is
refused when its rule is made: the delimiter cannot be in the domain, since it was cut at the first
one and taking blanks away makes none.
-/

namespace SiteFilter

theorem ElementRule.make_isOk_iff {domain selector : Text} :
    (∃ rule, make domain selector = .ok rule) ↔
      domain ≠ [] ∧ selector ≠ [] ∧ ¬ ruleDelimiter <:+: domain := by
  constructor
  · rintro ⟨rule, made⟩
    obtain ⟨rfl, rfl⟩ := make_eq_ok_iff.mp made
    exact ⟨rule.domain_ne, rule.selector_ne,
      (Text.hasInfix_eq_false_iff ruleDelimiter_ne).mp rule.no_delimiter⟩
  · rintro ⟨hd, hs, plain⟩
    have noDelimiter := (Text.hasInfix_eq_false_iff ruleDelimiter_ne).mpr plain
    exact ⟨⟨domain, selector, hd, hs, noDelimiter⟩, make_eq_ok_iff.mpr ⟨rfl, rfl⟩⟩

namespace RuleDocument

/--
A line that stands for a rule. Without the blanks around it, it is no comment, and it is cut at the
first delimiter, which is the only one. The parts without the blanks around them are the domain and
the selector; neither is empty.
-/
structure IsRuleLine (line domain selector : Text) : Prop where
  no_comment : line.strip.startsWith commentMark = false
  parts : ∃ front back, line.strip = front ++ ruleDelimiter ++ back ∧
    ruleDelimiter.IsFirstAt front.length line.strip ∧ ¬ ruleDelimiter <:+: back ∧
    domain = front.strip ∧ selector = back.strip
  domain_ne : domain ≠ []
  selector_ne : selector ≠ []

def readLine (line : Text) : Except RuleError (Option ElementRule) :=
  let stripped := line.strip
  if isRemark stripped then .ok none
  else
    match Text.splitOn ruleDelimiter stripped with
    | [domain, selector] =>
        if domain.strip.isEmpty || selector.strip.isEmpty then .ok none
        else some <$> ElementRule.make domain.strip selector.strip
    | _ => .ok none

def readNext (rules : List ElementRule) (line : Text) : Except RuleError (List ElementRule) := do
  match ← readLine line with
  | none => return rules
  | some rule => return rules ++ [rule]

def read (document : Text) : Except RuleError (List ElementRule) :=
  document.lines.foldlM readNext []

/-- A part in front of which and in which no delimiter begins holds none without its blanks. -/
theorem make_parts_isOk {front back : Text} (hd : front.strip ≠ []) (hs : back.strip ≠ [])
    (first : ¬ ruleDelimiter <:+: front ++ ruleDelimiter.dropLast) :
    ∃ rule, ElementRule.make front.strip back.strip = .ok rule := by
  refine ElementRule.make_isOk_iff.mpr ⟨hd, hs, fun inside => first ?_⟩
  exact (inside.trans (Text.strip_isInfix front)).trans (List.prefix_append _ _).isInfix

theorem parseLine_isSome_iff {line domain selector : Text} :
    (∃ rule, parseLine line = some rule ∧ rule.domain = domain ∧ rule.selector = selector) ↔
      IsRuleLine line domain selector := by
  constructor
  · rintro ⟨rule, found, rfl, rfl⟩
    obtain ⟨visible, front, back, split, first, plain, parts⟩ := parseLine_eq_some_iff.mp found
    refine ⟨visible, ⟨front, back, split, ?_, plain, parts⟩, rule.domain_ne, rule.selector_ne⟩
    rw [split]
    exact (Text.isFirstAt_length_iff ruleDelimiter_ne).mpr first
  · rintro ⟨visible, ⟨front, back, split, first, plain, rfl, rfl⟩, hd, hs⟩
    rw [split, Text.isFirstAt_length_iff ruleDelimiter_ne] at first
    obtain ⟨rule, made⟩ := make_parts_isOk hd hs first
    obtain ⟨domain, selector⟩ := ElementRule.make_eq_ok_iff.mp made
    have found := parseLine_eq_some_iff.mpr
      ⟨visible, front, back, split, first, plain, domain, selector⟩
    exact ⟨rule, found, domain, selector⟩

/-- No line is refused as a rule. -/
theorem readLine_eq (line : Text) : readLine line = .ok (parseLine line) := by
  unfold readLine parseLine
  by_cases remark : isRemark line.strip = true
  · simp only [remark, if_true]
  · simp only [remark]
    -- A rule is made of a line in two parts only, and nothing but an empty part is refused there.
    rcases pieces : Text.splitOn ruleDelimiter line.strip with _ | ⟨front, _ | ⟨back, _ | others⟩⟩
    · rfl
    · rfl
    · by_cases hd : front.strip = []
      · simp [hd, ElementRule.make, Except.toOption]
      by_cases hs : back.strip = []
      · simp [hs, ElementRule.make, Except.toOption]
      obtain ⟨-, first, -⟩ := (Text.splitOn_eq_pair_iff ruleDelimiter_ne).mp pieces
      obtain ⟨rule, made⟩ := make_parts_isOk hd hs first
      simp [hd, hs, made, Except.toOption]
    · rfl

theorem readNext_eq (rules : List ElementRule) (line : Text) :
    readNext rules line = .ok (rules ++ (parseLine line).toList) := by
  unfold readNext
  rw [readLine_eq]
  cases parseLine line with
  | none => simp [bind, Except.bind, pure, Except.pure]
  | some rule => rfl

theorem foldlM_readNext (lines : List Text) (rules : List ElementRule) :
    lines.foldlM readNext rules = .ok (rules ++ lines.filterMap parseLine) := by
  induction lines generalizing rules with
  | nil => simp [pure, Except.pure]
  | cons line lines ih =>
      have rest := ih (rules ++ (parseLine line).toList)
      rw [List.append_assoc] at rest
      rw [List.foldlM_cons, readNext_eq]
      cases found : parseLine line <;> simpa [found, bind, Except.bind] using rest

/-- No line of a document is refused as a rule. -/
theorem read_eq (document : Text) : read document = .ok (parse document) :=
  foldlM_readNext document.lines []

/--
Just the lines of the grammar are rules, with the domain and the selector that it gives them; any
other line is none. Nothing is refused where a rule is made, on a line or in a document.
-/
theorem parseLine_accepts :
    (∀ line domain selector,
      (∃ rule, parseLine line = some rule ∧ rule.domain = domain ∧ rule.selector = selector) ↔
        IsRuleLine line domain selector) ∧
    (∀ line, parseLine line = none ↔ ∀ domain selector, ¬ IsRuleLine line domain selector) ∧
    (∀ line, readLine line = .ok (parseLine line)) ∧
    ∀ document, read document = .ok (parse document) := by
  refine ⟨fun line domain selector => parseLine_isSome_iff, ?_, readLine_eq, read_eq⟩
  intro line
  constructor
  · intro nothing domain selector grammatical
    obtain ⟨rule, found, -⟩ := parseLine_isSome_iff.mpr grammatical
    rw [nothing] at found
    cases found
  · intro never
    rw [Option.eq_none_iff_forall_ne_some]
    intro rule found
    exact never rule.domain rule.selector (parseLine_isSome_iff.mp ⟨rule, found, rfl, rfl⟩)

/-- The first two of three halves are the delimiter; two delimiters are one too many. -/
example : (parseLine (Text.ofString " a.com ### b")).map (fun rule => (rule.domain, rule.selector)) =
      some (Text.ofString "a.com", Text.ofString "# b") ∧
    (parseLine (Text.ofString "a.com##b##c")).isNone = true := by
  decide +kernel

end RuleDocument

end SiteFilter
