import SiteFilter.Proofs.Rule.Key
import SiteFilter.Proofs.Text.Lines
import SiteFilter.Rule.Document

/-!
# Reading back rule documents

What the lines of a document can say, and which rules are taken back from the lines that are written
for them. A rule of a document is tidy; its line stands for it again unless half a delimiter ends
its domain.
-/

namespace SiteFilter

/--
A rule as documents give them: without blanks at the ends of its parts, not to be taken for a
remark, and with no delimiter in its selector.
-/
structure ElementRule.IsTidy (rule : ElementRule) : Prop where
  domain_trimmed : rule.domain.IsTrimmed
  selector_trimmed : rule.selector.IsTrimmed
  no_remark : rule.domain.startsWith RuleDocument.commentMark = false
  no_delimiter : ¬ ruleDelimiter <:+: rule.selector

theorem ElementRule.IsTidy.key_isTrimmed {rule : ElementRule} (h : rule.IsTidy) :
    rule.key.IsTrimmed :=
  h.domain_trimmed.append h.selector_trimmed rule.domain_ne rule.selector_ne ruleDelimiter

/-- A rule for which its own line stands: it is tidy, is one line, and leaves no half over. -/
structure ElementRule.IsCanonical (rule : ElementRule) : Prop extends rule.IsTidy where
  domain_unbroken : rule.domain.IsUnbroken
  selector_unbroken : rule.selector.IsUnbroken
  whole : ¬ rule.EndsInHalf

theorem ElementRule.isUnbroken_key_iff {rule : ElementRule} :
    rule.key.IsUnbroken ↔ rule.domain.IsUnbroken ∧ rule.selector.IsUnbroken := by
  have delimiter : ruleDelimiter.IsUnbroken := by
    unfold Text.IsUnbroken
    decide
  unfold key Text.IsUnbroken at *
  rw [List.forall_mem_append, List.forall_mem_append, and_iff_left delimiter]

namespace RuleDocument

theorem commentMark_eq : commentMark = [CodePoint.ofChar '!'] :=
  rfl

/-- Whether a text is a comment is told by its first code point. -/
theorem startsWith_commentMark {t other : Text} (h : t.head? = other.head?) :
    t.startsWith commentMark = other.startsWith commentMark := by
  have first (t : Text) : t.startsWith commentMark =
      (t.head?.any fun c => CodePoint.ofChar '!' == c) := by
    rw [commentMark_eq]
    cases t with
    | nil => rfl
    | cons c rest => simp [Text.startsWith, List.isPrefixOf]
  rw [first, first, h]

/-- The lines that are rules, and the rule that each of them is. -/
theorem parseLine_eq_some_iff {line : Text} {rule : ElementRule} :
    parseLine line = some rule ↔
      line.strip.startsWith commentMark = false ∧ ∃ front back,
        line.strip = front ++ ruleDelimiter ++ back ∧
          ¬ ruleDelimiter <:+: front ++ ruleDelimiter.dropLast ∧ ¬ ruleDelimiter <:+: back ∧
          rule.domain = front.strip ∧ rule.selector = back.strip := by
  have made {domain selector : Text} :
      (ElementRule.make domain selector).toOption = some rule ↔
        rule.domain = domain ∧ rule.selector = selector := by
    rw [← ElementRule.make_eq_ok_iff]
    cases ElementRule.make domain selector with
    | error e => simp [Except.toOption]
    | ok other => simp [Except.toOption]
  unfold parseLine isRemark
  constructor
  · intro h
    simp only at h
    split at h
    · cases h
    · rename_i visible
      split at h
      · rename_i front back pieces
        obtain ⟨split, first, plain⟩ := (Text.splitOn_eq_pair_iff ruleDelimiter_ne).mp pieces
        simp only [Bool.or_eq_true, not_or, Bool.not_eq_true] at visible
        exact ⟨visible.2, front, back, split, first, plain, made.mp h⟩
      · cases h
  · rintro ⟨visible, front, back, split, first, plain, parts⟩
    have filled : line.strip.isEmpty = false := by
      rw [split]
      simp [ruleDelimiter_eq]
    have pieces := (Text.splitOn_eq_pair_iff ruleDelimiter_ne).mpr ⟨split, first, plain⟩
    simp only [filled, visible, pieces]
    exact made.mpr parts

/-- The rule of a line is tidy. -/
theorem isTidy_of_parseLine {line : Text} {rule : ElementRule} (h : parseLine line = some rule) :
    rule.IsTidy := by
  obtain ⟨visible, front, back, split, -, plain, domain, selector⟩ := parseLine_eq_some_iff.mp h
  refine ⟨domain ▸ Text.isTrimmed_strip front, selector ▸ Text.isTrimmed_strip back, ?_, ?_⟩
  · rw [← visible]
    apply startsWith_commentMark
    rw [List.append_assoc] at split
    rw [domain, split]
    apply Text.head?_strip_of_append
    · rw [← split]
      exact Text.isTrimmed_strip line
    · rw [← domain]
      exact rule.domain_ne
  · rw [selector]
    exact fun inside => plain (inside.trans (Text.strip_isInfix back))

/-- No line ends in the key of the rule of a line. -/
theorem isUnbroken_key_of_parseLine {line : Text} {rule : ElementRule}
    (h : parseLine line = some rule) (unbroken : line.IsUnbroken) : rule.key.IsUnbroken := by
  obtain ⟨-, front, back, split, -, -, domain, selector⟩ := parseLine_eq_some_iff.mp h
  have whole := unbroken.of_infix (Text.strip_isInfix line)
  rw [split] at whole
  rw [ElementRule.isUnbroken_key_iff]
  constructor
  · rw [domain]
    refine whole.of_infix ((Text.strip_isInfix front).trans ?_)
    rw [List.append_assoc]
    exact (List.prefix_append front _).isInfix
  · rw [selector]
    exact whole.of_infix ((Text.strip_isInfix back).trans (List.suffix_append _ back).isInfix)

/-- Just the tidy rules without a half left over are taken back from their keys. -/
theorem parseLine_key_iff {rule : ElementRule} :
    parseLine rule.key = some rule ↔ rule.IsTidy ∧ ¬ rule.EndsInHalf := by
  rw [← ElementRule.infix_domain_half]
  constructor
  · intro h
    have tidy := isTidy_of_parseLine h
    refine ⟨tidy, ?_⟩
    obtain ⟨-, front, back, split, first, -, domain, selector⟩ := parseLine_eq_some_iff.mp h
    rw [Text.strip_of_isTrimmed tidy.key_isTrimmed, ElementRule.key] at split
    -- Nothing was stripped from the two parts: together they would have become too short.
    have front_le := (Text.strip_isInfix front).length_le
    have back_le := (Text.strip_isInfix back).length_le
    have total := congrArg List.length split
    rw [← domain] at front_le
    rw [← selector] at back_le
    simp only [List.length_append] at total
    rw [List.append_assoc, List.append_assoc] at split
    have same := (List.append_inj split (by omega)).1
    rwa [same]
  · rintro ⟨tidy, first⟩
    have whole : rule.key.strip = rule.key := Text.strip_of_isTrimmed tidy.key_isTrimmed
    rw [parseLine_eq_some_iff, whole]
    refine ⟨?_, rule.domain, rule.selector, rfl, first, tidy.no_delimiter,
      (Text.strip_of_isTrimmed tidy.domain_trimmed).symm,
      (Text.strip_of_isTrimmed tidy.selector_trimmed).symm⟩
    rw [← tidy.no_remark]
    apply startsWith_commentMark
    rw [ElementRule.key, List.append_assoc, List.head?_append_of_ne_nil _ rule.domain_ne]

/-! ## Documents -/

/-- A document without a header has the keys of its rules as its lines. -/
theorem parse_format {rules : List ElementRule} (unbroken : ∀ rule ∈ rules, rule.key.IsUnbroken) :
    parse (format rules []) = rules.filterMap fun rule => parseLine rule.key := by
  have lines : (format rules []).lines = rules.map ElementRule.key := by
    apply Text.lines_flatMap
    intro part inside
    obtain ⟨rule, listed, rfl⟩ := List.mem_map.mp inside
    exact unbroken rule listed
  rw [parse, lines, List.filterMap_map]
  rfl

theorem mem_parse {document : Text} {rule : ElementRule} (h : rule ∈ parse document) :
    rule.IsTidy ∧ rule.key.IsUnbroken := by
  obtain ⟨line, listed, found⟩ := List.mem_filterMap.mp h
  exact ⟨isTidy_of_parseLine found,
    isUnbroken_key_of_parseLine found (Text.isUnbroken_of_mem_lines listed)⟩

/-- Rules of documents come back from their own document unless a half is left over. -/
theorem parse_format_eq_iff {rules : List ElementRule}
    (given : ∀ rule ∈ rules, rule.IsTidy ∧ rule.key.IsUnbroken) :
    parse (format rules []) = rules ↔ ∀ rule ∈ rules, ¬ rule.EndsInHalf := by
  rw [parse_format fun rule inside => (given rule inside).2]
  conv_lhs => rhs; rw [← List.map_id rules]
  rw [List.filterMap_eq_map_iff_forall_eq_some]
  refine forall₂_congr fun rule inside => ?_
  rw [id, parseLine_key_iff, and_iff_right (given rule inside).1]

/-! ## Headers -/

/-- What starts as a comment is no rule. -/
theorem parseLine_of_comment {line : Text} (first : line.head? = some (CodePoint.ofChar '!')) :
    parseLine line = none := by
  rw [Option.eq_none_iff_forall_ne_some]
  intro rule found
  obtain ⟨visible, -⟩ := parseLine_eq_some_iff.mp found
  have same := startsWith_commentMark ((Text.head?_strip (by decide) first).trans first.symm)
  rw [same, commentMark_eq] at visible
  cases line with
  | nil => cases first
  | cons c rest =>
      cases first
      simp [Text.startsWith] at visible

/-- A line of a header is one line and a comment. -/
theorem mem_headerLines {header line : Text} (h : line ∈ headerLines header) :
    line.IsUnbroken ∧ parseLine line = none := by
  obtain ⟨own, listed, rfl⟩ := List.mem_map.mp h
  constructor
  · refine Text.IsUnbroken.of_infix ?_ (Text.stripEnd_isPrefix _).isInfix
    refine List.forall_mem_cons.mpr ⟨by decide, List.forall_mem_cons.mpr ⟨by decide, ?_⟩⟩
    exact Text.isUnbroken_of_mem_lines listed
  · apply parseLine_of_comment
    rw [commentMark_eq, List.singleton_append, Text.stripEnd_cons (by decide)]
    rfl

/-- A header does not change which rules are read. -/
theorem parse_format_header (rules : List ElementRule) (header : Text) :
    parse (format rules header) = parse (format rules []) := by
  have comments : (headerLines header).filterMap parseLine = [] :=
    List.filterMap_eq_nil_iff.mpr fun _ inside => (mem_headerLines inside).2
  have split : format rules header =
      (headerLines header).flatMap (· ++ [CodePoint.ofChar '\n']) ++ format rules [] := by
    rw [format, List.flatMap_append]
    rfl
  rw [parse, split, Text.lines_flatMap_append fun _ inside => (mem_headerLines inside).1,
    List.filterMap_append, comments, List.nil_append, parse]

/-- Just the rules for which their own lines stand come back from their document. -/
theorem parse_format_eq_self_iff (rules : List ElementRule) (header : Text) :
    (parse (format rules header) = rules ↔ ∀ rule ∈ rules, rule.IsCanonical) ∧
      parse (format rules header) = parse (format rules []) := by
  refine ⟨?_, parse_format_header rules header⟩
  rw [parse_format_header]
  constructor
  · intro back rule inside
    -- What comes back was read from a document, so only a half that is left over is in question.
    have given : ∀ rule ∈ rules, rule.IsTidy ∧ rule.key.IsUnbroken := by
      intro rule inside
      rw [← back] at inside
      exact mem_parse inside
    obtain ⟨tidy, unbroken⟩ := given rule inside
    obtain ⟨domain, selector⟩ := ElementRule.isUnbroken_key_iff.mp unbroken
    exact ⟨tidy, domain, selector, (parse_format_eq_iff given).mp back rule inside⟩
  · intro canonical
    have given : ∀ rule ∈ rules, rule.IsTidy ∧ rule.key.IsUnbroken := by
      intro rule inside
      obtain ⟨tidy, domain, selector, -⟩ := canonical rule inside
      exact ⟨tidy, ElementRule.isUnbroken_key_iff.mpr ⟨domain, selector⟩⟩
    exact (parse_format_eq_iff given).mpr fun rule inside => (canonical rule inside).whole

end RuleDocument

end SiteFilter
