import Mathlib.Data.List.Basic
import Mathlib.Data.List.TakeWhile
import SiteFilter.Store.Basic

/-!
# Normalized host names

Stripping and lower-casing are done once and for all: a text that is stripped or in lower case
stays as it is, and lower-casing brings no blanks to the ends. So a normalized name is normalized.
-/

namespace SiteFilter

/-! ## Lower case -/

namespace CodePoint

/-- The number of the lower-case form that a run gives for one of its numbers. -/
def lowered (run : CaseRun) (n : Nat) : Nat :=
  n + run.up - run.down

def numbers (run : CaseRun) : List Nat :=
  (List.range ((run.last - run.first) / run.stride + 1)).map fun k => run.first + run.stride * k

/-- Whether no lower-case form that a run gives is a number of another run. -/
def isApart (run other : CaseRun) : Bool :=
  lowered run run.last < other.first || other.last < lowered run run.first
    || (numbers run).all fun n => !other.has (lowered run n)

/-- Whether a number is that of a code point that is neither a capital outside the runs nor blank. -/
def isPlainNumber (n : Nat) : Bool :=
  n < 0x110000 && n != 0x130 && !(0x41 ≤ n && n ≤ 0x5A) && !blankRanges.has n

theorem lowercaseRuns_apart :
    (lowercaseRuns.all fun run => lowercaseRuns.all fun other => isApart run other) = true := by
  decide +kernel

theorem lowercaseRuns_plain :
    (lowercaseRuns.all fun run => (numbers run).all fun n => isPlainNumber (lowered run n)) =
      true := by
  decide +kernel

theorem mem_numbers {run : CaseRun} {n : Nat} (h : run.has n = true) : n ∈ numbers run := by
  simp only [CaseRun.has, Bool.and_eq_true, decide_eq_true_eq, beq_iff_eq] at h
  obtain ⟨⟨low, high⟩, step⟩ := h
  have split := Nat.div_add_mod (n - run.first) run.stride
  refine List.mem_map.mpr ⟨(n - run.first) / run.stride, ?_, by omega⟩
  have few := Nat.div_le_div_right (c := run.stride) (show n - run.first ≤ run.last - run.first by
    omega)
  exact List.mem_range.mpr (by omega)

/-- Lower-case forms that runs give are in no run. -/
theorem has_lowered {run other : CaseRun} (hr : run ∈ lowercaseRuns) (ho : other ∈ lowercaseRuns)
    {n : Nat} (h : run.has n = true) : other.has (lowered run n) = false := by
  have apart := List.all_eq_true.mp (List.all_eq_true.mp lowercaseRuns_apart run hr) other ho
  have range : run.first ≤ n ∧ n ≤ run.last := by
    simp only [CaseRun.has, Bool.and_eq_true, decide_eq_true_eq] at h
    exact h.1
  simp only [isApart, Bool.or_eq_true, decide_eq_true_eq] at apart
  rcases apart with (below | above) | each
  · apply Bool.eq_false_iff.mpr
    intro has
    simp only [CaseRun.has, Bool.and_eq_true, decide_eq_true_eq] at has
    unfold lowered at has below
    omega
  · apply Bool.eq_false_iff.mpr
    intro has
    simp only [CaseRun.has, Bool.and_eq_true, decide_eq_true_eq] at has
    unfold lowered at has above
    omega
  · simpa using List.all_eq_true.mp each n (mem_numbers h)

/-- Lower-casing leaves a code point as it is, in any context. -/
def IsSettled (c : CodePoint) : Prop :=
  c.val ≠ 0x130 ∧ c.val ≠ 0x3A3 ∧ c.lowerPoint = c

theorem lowerPoint_of_noRun {c : CodePoint} (wide : 0x80 ≤ c.val)
    (none : lowercaseRuns.find? (·.has c.val) = none) : c.lowerPoint = c := by
  rw [lowerPoint, if_neg (by omega), none]

theorem isSettled_of_ascii {c : CodePoint} (small : c.val < 0x80)
    (capital : ¬ (0x41 ≤ c.val ∧ c.val ≤ 0x5A)) : c.IsSettled := by
  refine ⟨by omega, by omega, ?_⟩
  rw [lowerPoint, if_pos small, if_neg]
  simp only [Bool.and_eq_true, decide_eq_true_eq]
  exact capital

theorem sigma_inRun : (lowercaseRuns.any fun run => run.has 0x3A3) = true := by
  decide +kernel

theorem isSettled_of_noRun {c : CodePoint} (h : c.val ≠ 0x130)
    (capital : ¬ (0x41 ≤ c.val ∧ c.val ≤ 0x5A))
    (runs : ∀ run ∈ lowercaseRuns, run.has c.val = false) : c.IsSettled := by
  by_cases small : c.val < 0x80
  · exact isSettled_of_ascii small capital
  · refine ⟨h, ?_, lowerPoint_of_noRun (by omega) ?_⟩
    · intro sigma
      obtain ⟨run, inside, has⟩ := List.any_eq_true.mp sigma_inRun
      rw [← sigma, runs run inside] at has
      cases has
    · rw [List.find?_eq_none]
      intro run inside
      simp [runs run inside]

/-- A lower-case form is settled, and it is not blank when its code point is not. -/
theorem lowerPoint_spec {c : CodePoint} (h : c.val ≠ 0x130) :
    c.lowerPoint.IsSettled ∧ (c.isBlank = false → c.lowerPoint.isBlank = false) := by
  by_cases small : c.val < 0x80
  · by_cases capital : 0x41 ≤ c.val ∧ c.val ≤ 0x5A
    · have form : c.lowerPoint = ofNat (c.val + 32) := by
        rw [lowerPoint, if_pos small, if_pos (by simpa using capital)]
      have number : (ofNat (c.val + 32)).val = c.val + 32 := val_ofNat (by omega)
      rw [form]
      refine ⟨isSettled_of_ascii (by omega) (by omega), fun _ => ?_⟩
      rw [isBlank, number]
      have letters : ∀ n < 26, blankRanges.has (0x61 + n) = false := by decide
      have letter := letters (c.val - 0x41) (by omega)
      rwa [show 0x61 + (c.val - 0x41) = c.val + 32 by omega] at letter
    · have same := (isSettled_of_ascii small capital).2.2
      rw [same]
      exact ⟨isSettled_of_ascii small capital, id⟩
  · cases found : lowercaseRuns.find? (·.has c.val) with
    | none =>
        have same := lowerPoint_of_noRun (by omega) found
        rw [same]
        refine ⟨isSettled_of_noRun h (by omega) fun run inside => ?_, id⟩
        simpa using List.find?_eq_none.mp found run inside
    | some run =>
        have inside := List.mem_of_find?_eq_some found
        have has : run.has c.val = true := by
          have here := List.find?_some found
          exact here
        have plain := List.all_eq_true.mp (List.all_eq_true.mp lowercaseRuns_plain run inside)
          c.val (mem_numbers has)
        simp only [isPlainNumber, Bool.and_eq_true, bne_iff_ne, ne_eq, Bool.not_eq_true',
          Bool.and_eq_false_iff, decide_eq_false_iff_not, decide_eq_true_eq] at plain
        obtain ⟨⟨⟨within, dotted⟩, capital⟩, visible⟩ := plain
        have form : c.lowerPoint = ofNat (lowered run c.val) := by
          rw [lowerPoint, if_neg small, found]
          rfl
        have number := val_ofNat within
        rw [form]
        refine ⟨isSettled_of_noRun ?_ ?_ fun other here => ?_, fun _ => ?_⟩
        · rwa [number]
        · rw [number]
          omega
        · rw [number]
          exact has_lowered inside here has
        · rw [isBlank, number]
          exact visible

end CodePoint

namespace Text

open CodePoint

/-- What stands for a code point in lower case is settled, and not blank unless it is. -/
theorem lowerIn_spec (afterCased : Bool) (c : CodePoint) (rest : Text) :
    lowerIn afterCased c rest ≠ [] ∧
      ∀ d ∈ lowerIn afterCased c rest,
        d.IsSettled ∧ (c.isBlank = false → d.isBlank = false) := by
  have small {n : Nat} (h : n < 0x80) (capital : ¬ (0x41 ≤ n ∧ n ≤ 0x5A)) :
      (CodePoint.ofNat n).IsSettled := by
    have number := val_ofNat (show n < 0x110000 by omega)
    exact isSettled_of_ascii (by omega) (by omega)
  have form {n : Nat} (range : n < 0x110000) (dotted : n ≠ 0x130) (large : ¬ n < 0x80)
      (runs : (lowercaseRuns.all fun run => !run.has n) = true) :
      (CodePoint.ofNat n).IsSettled := by
    have number := val_ofNat range
    refine isSettled_of_noRun (by omega) (by omega) fun run inside => ?_
    have out := List.all_eq_true.mp runs run inside
    rw [number]
    simpa using out
  unfold lowerIn
  split
  · refine ⟨List.cons_ne_nil _ _, fun d inside => ?_⟩
    simp only [List.mem_cons, List.not_mem_nil, or_false] at inside
    rcases inside with rfl | rfl
    · exact ⟨small (by decide) (by decide), fun _ => by decide⟩
    · exact ⟨form (by decide) (by decide) (by decide) (by decide +kernel), fun _ => by decide⟩
  · split
    · refine ⟨List.cons_ne_nil _ _, fun d inside => ?_⟩
      obtain rfl := List.mem_singleton.mp inside
      split
      · exact ⟨form (by decide) (by decide) (by decide) (by decide +kernel), fun _ => by decide⟩
      · exact ⟨form (by decide) (by decide) (by decide) (by decide +kernel), fun _ => by decide⟩
    · rename_i dotted _
      refine ⟨List.cons_ne_nil _ _, fun d inside => ?_⟩
      obtain rfl := List.mem_singleton.mp inside
      exact lowerPoint_spec dotted

theorem lowerFrom_settled (t : Text) (afterCased : Bool) :
    ∀ d ∈ lowerFrom afterCased t, d.IsSettled := by
  induction t generalizing afterCased with
  | nil => exact fun d inside => nomatch inside
  | cons c rest ih =>
      intro d inside
      rcases List.mem_append.mp inside with first | later
      · exact ((lowerIn_spec afterCased c rest).2 d first).1
      · exact ih _ d later

theorem lowerFrom_of_settled {t : Text} (h : ∀ c ∈ t, c.IsSettled) (afterCased : Bool) :
    lowerFrom afterCased t = t := by
  induction t generalizing afterCased with
  | nil => rfl
  | cons c rest ih =>
      obtain ⟨dotted, sigma, same⟩ := h c List.mem_cons_self
      rw [lowerFrom, lowerIn, if_neg dotted, if_neg sigma, same,
        ih fun d inside => h d (List.mem_cons_of_mem _ inside)]
      rfl

/-- Lower case is what lower-casing leaves as it is, code point by code point. -/
theorem lower_eq_self_iff_settled {t : Text} : t.lower = t ↔ ∀ c ∈ t, c.IsSettled := by
  constructor
  · intro same
    rw [← same]
    exact lowerFrom_settled t false
  · exact fun settled => lowerFrom_of_settled settled false

/-! ## Blanks at the ends -/

def IsTrimmed (t : Text) : Prop :=
  (∀ c ∈ t.head?, c.isBlank = false) ∧ ∀ c ∈ t.getLast?, c.isBlank = false

theorem strip_of_isTrimmed {t : Text} (h : t.IsTrimmed) : t.strip = t := by
  have front (t : Text) (h : ∀ c ∈ t.head?, c.isBlank = false) :
      t.dropWhile CodePoint.isBlank = t := by
    cases t with
    | nil => rfl
    | cons c rest => simp [h c rfl]
  have behind : t.reverse.dropWhile CodePoint.isBlank = t.reverse := by
    apply front
    rw [List.head?_reverse]
    exact h.2
  rw [strip, trimWhile, dropEndWhile, front t h.1, behind, List.reverse_reverse]

theorem isTrimmed_strip (t : Text) : t.strip.IsTrimmed := by
  have front (t : Text) : ∀ c ∈ (t.dropWhile CodePoint.isBlank).head?, c.isBlank = false := by
    intro c head
    have first := List.head?_dropWhile_not CodePoint.isBlank t
    rw [Option.mem_def.mp head] at first
    exact first
  have kept : t.strip <+: t.dropWhile CodePoint.isBlank := by
    unfold strip trimWhile dropEndWhile
    rw [← List.reverse_suffix, List.reverse_reverse]
    exact List.dropWhile_suffix _
  constructor
  · intro c head
    apply front t
    obtain ⟨behind, split⟩ := kept
    rw [← split, List.head?_append, Option.mem_def.mp head]
    rfl
  · intro c last
    unfold strip trimWhile dropEndWhile at last
    rw [List.getLast?_reverse] at last
    exact front _ c last

theorem strip_strip (t : Text) : t.strip.strip = t.strip :=
  strip_of_isTrimmed (isTrimmed_strip t)

/-- Stripping leaves nothing just of a text that has only blanks. -/
theorem strip_eq_nil_iff {t : Text} : t.strip = [] ↔ t.isBlank = true := by
  unfold strip trimWhile dropEndWhile isBlank
  rw [List.reverse_eq_nil_iff, List.dropWhile_eq_nil_iff, List.all_eq_true]
  constructor
  · intro each
    cases left : t.dropWhile CodePoint.isBlank with
    | nil => exact List.dropWhile_eq_nil_iff.mp left
    | cons c rest =>
        have visible := List.head?_dropWhile_not CodePoint.isBlank t
        rw [left] at visible each
        have blank := each c (List.mem_reverse.mpr List.mem_cons_self)
        simp [blank] at visible
  · intro each c inside
    exact each c ((List.dropWhile_suffix _).mem (List.mem_reverse.mp inside))

/-- Every code point has a lower case. -/
theorem lowerFrom_eq_nil_iff {t : Text} {afterCased : Bool} :
    lowerFrom afterCased t = [] ↔ t = [] := by
  constructor
  · intro none
    cases t with
    | nil => rfl
    | cons c rest =>
        exact absurd (List.append_eq_nil_iff.mp none).1 (lowerIn_spec afterCased c rest).1
  · rintro rfl
    rfl

/-- Lower-casing brings no blank to the start. -/
theorem head?_lowerFrom_visible {t : Text} (visible : ∀ c ∈ t.head?, c.isBlank = false)
    (afterCased : Bool) : ∀ c ∈ (lowerFrom afterCased t).head?, c.isBlank = false := by
  cases t with
  | nil => exact fun c inside => nomatch inside
  | cons c rest =>
      obtain ⟨some, each⟩ := lowerIn_spec afterCased c rest
      rw [lowerFrom, List.head?_append_of_ne_nil _ some]
      exact fun d first => (each d (List.mem_of_mem_head? first)).2 (visible c rfl)

/-- Lower-casing brings no blank to the end. -/
theorem getLast?_lowerFrom_visible {t : Text} (visible : ∀ c ∈ t.getLast?, c.isBlank = false)
    (afterCased : Bool) : ∀ c ∈ (lowerFrom afterCased t).getLast?, c.isBlank = false := by
  induction t generalizing afterCased with
  | nil => exact fun c inside => nomatch inside
  | cons c rest ih =>
      rw [lowerFrom]
      cases rest with
      | nil =>
          rw [lowerFrom, List.append_nil]
          intro d last
          exact ((lowerIn_spec afterCased c []).2 d (List.mem_of_getLast? last)).2 (visible c rfl)
      | cons second rest =>
          rw [List.getLast?_append_of_ne_nil _ (mt lowerFrom_eq_nil_iff.mp (List.cons_ne_nil _ _))]
          exact ih (by simpa using visible) _

theorem isTrimmed_lower {t : Text} (h : t.IsTrimmed) : t.lower.IsTrimmed :=
  ⟨head?_lowerFrom_visible h.1 false, getLast?_lowerFrom_visible h.2 false⟩

end Text

/-! ## Host names -/

/-- A name that is kept as it is. -/
def IsNormalized (lowersHosts : Bool) (name : Text) : Prop :=
  normalizeHost lowersHosts name = name

theorem normalizeHost_isTrimmed (lowersHosts : Bool) (name : Text) :
    (normalizeHost lowersHosts name).IsTrimmed := by
  unfold normalizeHost
  split
  · exact Text.isTrimmed_lower (Text.isTrimmed_strip name)
  · exact Text.isTrimmed_strip name

/-- The names that are kept as they are. -/
theorem isNormalized_iff {lowersHosts : Bool} {name : Text} :
    IsNormalized lowersHosts name ↔
      name.IsTrimmed ∧ (lowersHosts = true → ∀ c ∈ name, c.IsSettled) := by
  constructor
  · intro kept
    have trimmed := kept ▸ normalizeHost_isTrimmed lowersHosts name
    refine ⟨trimmed, fun on => ?_⟩
    rw [IsNormalized, normalizeHost, if_pos on, Text.strip_of_isTrimmed trimmed] at kept
    exact Text.lower_eq_self_iff_settled.mp kept
  · rintro ⟨trimmed, settled⟩
    rw [IsNormalized, normalizeHost, Text.strip_of_isTrimmed trimmed]
    split
    · rename_i on
      exact Text.lower_eq_self_iff_settled.mpr (settled on)
    · rfl

theorem isNormalized_normalizeHost (lowersHosts : Bool) (name : Text) :
    IsNormalized lowersHosts (normalizeHost lowersHosts name) := by
  refine isNormalized_iff.mpr ⟨normalizeHost_isTrimmed lowersHosts name, fun on => ?_⟩
  rw [normalizeHost, if_pos on]
  exact Text.lowerFrom_settled name.strip false

theorem normalizeHost_strip (lowersHosts : Bool) (name : Text) :
    normalizeHost lowersHosts name.strip = normalizeHost lowersHosts name := by
  unfold normalizeHost
  rw [Text.strip_strip]

/-- There is no name just in a text that has only blanks. -/
theorem normalizeHost_eq_nil_iff (lowersHosts : Bool) (name : Text) :
    normalizeHost lowersHosts name = [] ↔ name.isBlank = true := by
  unfold normalizeHost
  split
  · rw [Text.lower, Text.lowerFrom_eq_nil_iff, Text.strip_eq_nil_iff]
  · exact Text.strip_eq_nil_iff

end SiteFilter
