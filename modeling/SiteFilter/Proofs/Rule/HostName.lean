import SiteFilter.Proofs.Text.Lines

/-!
# The host name in a text

A text names a host by what stands between its blanks, as it is or in lower case. Lower case is told
here from a code point and the whole text around it: what stands for a capital sigma hangs on the
word that the sigma is in. The name that is kept is just this one, and taking the name of a name
changes nothing.
-/

namespace SiteFilter

namespace CodePoint

theorem lowercaseRuns_noSurrogates :
    (lowercaseRuns.all fun run => run.last < 0xD800 || 0xDFFF < run.first) = true := by
  decide +kernel

/-- A surrogate on its own has no other case. -/
theorem lowerPoint_of_isSurrogate {c : CodePoint} (h : c.isSurrogate = true) :
    c.lowerPoint = c := by
  simp only [isSurrogate, Bool.and_eq_true, decide_eq_true_eq] at h
  apply lowerPoint_of_noRun (by omega)
  rw [List.find?_eq_none]
  intro run inside has
  have apart := List.all_eq_true.mp lowercaseRuns_noSurrogates run inside
  simp only [Bool.or_eq_true, decide_eq_true_eq] at apart
  simp only [CaseRun.has, Bool.and_eq_true, decide_eq_true_eq] at has
  omega

end CodePoint

namespace Text

/-! ## The context of a sigma -/

/-- The last code point that is not skipped around a sigma is cased. -/
def EndsCased (before : Text) : Prop :=
  ∃ front c skipped, before = front ++ c :: skipped ∧ c.isCased = true ∧
    c.isCaseIgnorable = false ∧ ∀ d ∈ skipped, d.isCaseIgnorable = true

/-- The first code point that is not skipped around a sigma is cased. -/
def StartsCased (behind : Text) : Prop :=
  ∃ skipped c rest, behind = skipped ++ c :: rest ∧ c.isCased = true ∧
    c.isCaseIgnorable = false ∧ ∀ d ∈ skipped, d.isCaseIgnorable = true

theorem not_endsCased_nil : ¬ EndsCased [] := by
  rintro ⟨front, c, skipped, split, -⟩
  simp at split

/-- How a text ends, from its last code point and the text before it. -/
theorem endsCased_concat {before : Text} {c : CodePoint} :
    EndsCased (before ++ [c]) ↔
      if c.isCaseIgnorable then EndsCased before else c.isCased = true := by
  constructor
  · rintro ⟨front, d, skipped, split, cased, stays, each⟩
    -- The last code point is the cased one itself, or one of those skipped behind it.
    rcases List.eq_nil_or_concat skipped with rfl | ⟨others, last, rfl⟩
    · obtain ⟨-, same⟩ := List.append_inj' split rfl
      obtain rfl := List.singleton_inj.mp same
      rwa [stays]
    · rw [List.concat_eq_append, ← List.cons_append, ← List.append_assoc] at split
      obtain ⟨rfl, same⟩ := List.append_inj' split rfl
      obtain rfl := List.singleton_inj.mp same
      rw [List.concat_eq_append, List.forall_mem_append, List.forall_mem_singleton] at each
      rw [if_pos each.2]
      exact ⟨front, d, others, rfl, cased, stays, each.1⟩
  · intro h
    by_cases skip : c.isCaseIgnorable = true
    · rw [if_pos skip] at h
      obtain ⟨front, d, skipped, rfl, cased, stays, each⟩ := h
      refine ⟨front, d, skipped ++ [c], by simp, cased, stays, ?_⟩
      exact List.forall_mem_append.mpr ⟨each, List.forall_mem_singleton.mpr skip⟩
    · rw [if_neg skip] at h
      exact ⟨before, c, [], rfl, h, Bool.eq_false_iff.mpr skip, fun d inside => nomatch inside⟩

theorem startsCased_iff {behind : Text} : behind.startsCased = true ↔ StartsCased behind := by
  constructor
  · intro h
    unfold startsCased at h
    split at h
    · cases h
    · rename_i c rest left
      have stays := List.head?_dropWhile_not CodePoint.isCaseIgnorable behind
      rw [left] at stays
      refine ⟨behind.takeWhile CodePoint.isCaseIgnorable, c, rest, ?_, h, stays,
        fun d inside => List.mem_takeWhile_imp inside⟩
      rw [← left, List.takeWhile_append_dropWhile]
  · rintro ⟨skipped, c, rest, rfl, cased, stays, each⟩
    rw [startsCased, List.dropWhile_append_of_pos each,
      List.dropWhile_cons_of_neg (by simp [stays])]
    exact cased

/-! ## Lower case -/

/--
What stands in lower case for a code point between two texts. A capital sigma is final where a cased
code point precedes it and none follows.
-/
inductive LowerForm (before : Text) (c : CodePoint) (behind : Text) : Text → Prop
  | dotted : c.val = 0x130 →
      LowerForm before c behind [CodePoint.ofNat 0x69, CodePoint.ofNat 0x307]
  | finalSigma : c.val = 0x3A3 → EndsCased before → ¬ StartsCased behind →
      LowerForm before c behind [CodePoint.ofNat 0x3C2]
  | sigma : c.val = 0x3A3 → (EndsCased before → StartsCased behind) →
      LowerForm before c behind [CodePoint.ofNat 0x3C3]
  | surrogate : c.isSurrogate = true → LowerForm before c behind [c]
  | single : c.val ≠ 0x130 → c.val ≠ 0x3A3 → c.isSurrogate = false →
      LowerForm before c behind [c.lowerPoint]

inductive LowersBehind : Text → Text → Text → Prop
  | nil {before : Text} : LowersBehind before [] []
  | cons {before : Text} {c : CodePoint} {rest form lowered : Text} :
      LowerForm before c rest form → LowersBehind (before ++ [c]) rest lowered →
        LowersBehind before (c :: rest) (form ++ lowered)

def LowersTo (t lowered : Text) : Prop :=
  LowersBehind [] t lowered

section

variable {before behind : Text} {afterCased : Bool}

/-- A sigma is taken for a final one by the flag that goes along and what is looked up behind it. -/
theorem isFinal_iff (h : afterCased = true ↔ EndsCased before) :
    (afterCased && !startsCased behind) = true ↔ EndsCased before ∧ ¬ StartsCased behind := by
  rw [Bool.and_eq_true, Bool.not_eq_true', ← Bool.not_eq_true, h, startsCased_iff]

theorem lowerForm_iff (h : afterCased = true ↔ EndsCased before) {c : CodePoint} {form : Text} :
    LowerForm before c behind form ↔ form = lowerIn afterCased c behind := by
  constructor
  · intro stands
    cases stands with
    | dotted number => rw [lowerIn, if_pos number]
    | finalSigma number cased last =>
        rw [lowerIn, if_neg (by omega), if_pos number,
          if_pos ((isFinal_iff h).mpr ⟨cased, last⟩)]
    | sigma number inside =>
        rw [lowerIn, if_neg (by omega), if_pos number, if_neg]
        exact fun final => ((isFinal_iff h).mp final).2 (inside ((isFinal_iff h).mp final).1)
    | surrogate alone =>
        -- Neither of the two code points with forms of their own is a surrogate.
        have range := alone
        simp only [CodePoint.isSurrogate, Bool.and_eq_true, decide_eq_true_eq] at range
        rw [lowerIn, if_neg (by omega), if_neg (by omega),
          CodePoint.lowerPoint_of_isSurrogate alone]
    | single dotted sigma _ => rw [lowerIn, if_neg dotted, if_neg sigma]
  · rintro rfl
    by_cases dotted : c.val = 0x130
    · rw [lowerIn, if_pos dotted]
      exact .dotted dotted
    · by_cases sigma : c.val = 0x3A3
      · rw [lowerIn, if_neg dotted, if_pos sigma]
        split
        · rename_i final
          obtain ⟨cased, last⟩ := (isFinal_iff h).mp final
          exact .finalSigma sigma cased last
        · rename_i inner
          exact .sigma sigma fun cased =>
            Classical.byContradiction fun last => inner ((isFinal_iff h).mpr ⟨cased, last⟩)
      · rw [lowerIn, if_neg dotted, if_neg sigma]
        by_cases alone : c.isSurrogate = true
        · rw [CodePoint.lowerPoint_of_isSurrogate alone]
          exact .surrogate alone
        · exact .single dotted sigma (Bool.eq_false_iff.mpr alone)

/-- The flag that goes along tells of the text that was passed how it ends. -/
theorem afterCased_concat (h : afterCased = true ↔ EndsCased before) (c : CodePoint) :
    (if c.isCaseIgnorable then afterCased else c.isCased) = true ↔ EndsCased (before ++ [c]) := by
  rw [endsCased_concat]
  split
  · exact h
  · exact Iff.rfl

theorem lowersBehind_iff (h : afterCased = true ↔ EndsCased before) {t lowered : Text} :
    LowersBehind before t lowered ↔ lowered = lowerFrom afterCased t := by
  -- Of all that was passed the flag keeps how it ends, which is what a sigma further on asks for.
  induction t generalizing before afterCased lowered with
  | nil =>
      constructor
      · rintro ⟨⟩
        rfl
      · rintro rfl
        exact .nil
  | cons c rest ih =>
      have along := afterCased_concat h c
      constructor
      · rintro (_ | ⟨form, later⟩)
        rw [lowerFrom, (lowerForm_iff h).mp form, (ih along).mp later]
      · rintro rfl
        exact .cons ((lowerForm_iff h).mpr rfl) ((ih along).mpr rfl)

end

/-- Every text has one lower case, the one that is computed with a flag going along. -/
theorem lowersTo_iff {t lowered : Text} : LowersTo t lowered ↔ lowered = t.lower :=
  lowersBehind_iff (iff_of_false Bool.false_ne_true not_endsCased_nil)

/-! ## Blanks at the ends -/

theorem strip_blanks_append {front t : Text} (blank : ∀ c ∈ front, c.isBlank = true) :
    (front ++ t).strip = t.strip := by
  rw [strip, strip, trimWhile, trimWhile, List.dropWhile_append_of_pos blank]

theorem strip_append_blanks {t back : Text} (blank : ∀ c ∈ back, c.isBlank = true) :
    (t ++ back).strip = t.strip := by
  unfold strip trimWhile dropEndWhile
  rw [List.dropWhile_append]
  split
  · rename_i empty
    rw [List.isEmpty_iff.mp empty, List.dropWhile_eq_nil_iff.mpr blank]
  · rw [List.reverse_append,
      List.dropWhile_append_of_pos fun c inside => blank c (List.mem_reverse.mp inside)]

/-- Only one text without blanks at its ends stands between the blanks around it. -/
theorem strip_between {front core back : Text} (blank : ∀ c ∈ front, c.isBlank = true)
    (blank' : ∀ c ∈ back, c.isBlank = true) (h : core.IsTrimmed) :
    (front ++ core ++ back).strip = core := by
  rw [strip_append_blanks blank', strip_blanks_append blank, strip_of_isTrimmed h]

end Text

/-! ## Host names -/

/-- The host name in a text: what stands between its blanks, in lower case if so set. -/
def HasHostName (lowersHosts : Bool) (t name : Text) : Prop :=
  ∃ front core back, t = front ++ core ++ back ∧ (∀ c ∈ front, c.isBlank = true) ∧
    (∀ c ∈ back, c.isBlank = true) ∧ core.IsTrimmed ∧
    if lowersHosts then core.LowersTo name else name = core

theorem hasHostName_iff {lowersHosts : Bool} {t name : Text} :
    HasHostName lowersHosts t name ↔ name = normalizeHost lowersHosts t := by
  have taken (core : Text) : (if lowersHosts then core.LowersTo name else name = core) ↔
      name = if lowersHosts then core.lower else core := by
    cases lowersHosts with
    | true => exact Text.lowersTo_iff
    | false => exact Iff.rfl
  constructor
  · rintro ⟨front, core, back, rfl, blank, blank', trimmed, named⟩
    rw [normalizeHost, Text.strip_between blank blank' trimmed]
    exact (taken core).mp named
  · intro named
    obtain ⟨front, back, split, blank, blank'⟩ := Text.exists_blanks_strip t
    exact ⟨front, t.strip, back, split, blank, blank', Text.isTrimmed_strip t,
      (taken t.strip).mpr named⟩

/--
Taking the host name in a text is a projection: a name that was taken is taken again. It has no
blanks at its ends, and it is empty just when nothing but blanks is in the text. The names that are
taken as they are have no blanks at their ends and, where names are lowered, no code point that has
another lower case. Of any text just the host name in it is taken, by the full rules of lower case.
-/
theorem normalizeHost_projection (lowersHosts : Bool) (t : Text) :
    normalizeHost lowersHosts (normalizeHost lowersHosts t) = normalizeHost lowersHosts t ∧
      (normalizeHost lowersHosts t).IsTrimmed ∧
      (normalizeHost lowersHosts t = [] ↔ t.strip = []) ∧
      (normalizeHost lowersHosts t = t ↔
        t.IsTrimmed ∧ (lowersHosts = true → ∀ c ∈ t, c.IsSettled)) ∧
      ∀ name, HasHostName lowersHosts t name ↔ name = normalizeHost lowersHosts t := by
  refine ⟨isNormalized_normalizeHost lowersHosts t, normalizeHost_isTrimmed lowersHosts t, ?_,
    isNormalized_iff, fun name => hasHostName_iff⟩
  rw [normalizeHost_eq_nil_iff, Text.strip_eq_nil_iff]

/-- Two sigmas in one word, a surrogate on its own, and a capital that becomes two code points. -/
example : normalizeHost true ([0x20, 0x3A3, 0x391, 0x3A3, 0xD800, 0x130, 0x3000].map .ofNat) =
    [0x3C3, 0x3B1, 0x3C2, 0xD800, 0x69, 0x307].map .ofNat := by
  decide +kernel

end SiteFilter
