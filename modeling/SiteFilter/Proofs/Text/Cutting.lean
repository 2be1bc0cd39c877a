import Mathlib.Data.List.Infix
import SiteFilter.Text.Basic

/-!
# Cutting at a separator

A text is cut where a separator first occurs. Since a separator can overlap with what stands in
front of it, the place is told by the part before it: this part holds no separator, not even
together with all but the last code point of the separator behind it.
-/

namespace SiteFilter.Text

/-- The code points that were passed come back in front of the first piece. -/
theorem cutFrom_passed (sep passed t : Text) :
    cutFrom sep passed t =
      (cutFrom sep [] t).map fun pieces => (passed.reverse ++ pieces.1, pieces.2) := by
  induction t generalizing passed with
  | nil =>
      unfold cutFrom
      split
      · simp
      · rfl
  | cons c rest ih =>
      unfold cutFrom
      split
      · simp
      · rw [ih (c :: passed), ih [c]]
        cases cutFrom sep [] rest with
        | none => rfl
        | some pieces => simp

variable {sep t : Text}

theorem cut?_nil (filled : sep ≠ []) : cut? sep [] = none := by
  simp [cut?, cutFrom, filled]

theorem cut?_here {c : CodePoint} {rest : Text} (here : sep <+: c :: rest) :
    cut? sep (c :: rest) = some ([], (c :: rest).drop sep.length) := by
  rw [← List.isPrefixOf_iff_prefix] at here
  simp [cut?, cutFrom, here]

theorem cut?_later {c : CodePoint} {rest : Text} (later : ¬ sep <+: c :: rest) :
    cut? sep (c :: rest) = (cut? sep rest).map fun pieces => (c :: pieces.1, pieces.2) := by
  rw [← List.isPrefixOf_iff_prefix, Bool.not_eq_true] at later
  simp only [cut?, cutFrom, later]
  rw [cutFrom_passed]
  rfl

/-- There is something to cut just where the separator occurs. -/
theorem hasInfix_iff (filled : sep ≠ []) : hasInfix sep t = true ↔ sep <:+: t := by
  unfold hasInfix
  induction t with
  | nil => simp [cut?_nil filled, filled]
  | cons c rest ih =>
      rw [List.infix_cons_iff]
      by_cases here : sep <+: c :: rest
      · simp [cut?_here here, here]
      · simp [cut?_later here, here, ih]

theorem hasInfix_eq_false_iff (filled : sep ≠ []) : hasInfix sep t = false ↔ ¬ sep <:+: t := by
  rw [← hasInfix_iff filled, Bool.not_eq_true]

theorem cut?_eq_none_iff (filled : sep ≠ []) : cut? sep t = none ↔ ¬ sep <:+: t := by
  rw [← hasInfix_eq_false_iff filled, hasInfix, Option.isSome_eq_false_iff, Option.isNone_iff_eq_none]

theorem append_dropLast_isPrefix (front back : Text) :
    front ++ sep.dropLast <+: front ++ sep ++ back := by
  rw [List.append_assoc]
  exact (List.prefix_append_right_inj _).mpr
    ((List.dropLast_prefix sep).trans (List.prefix_append _ _))

/-- A separator that begins early in a text begins in the part of the text that is in sight. -/
theorem prefix_append_dropLast {front back : Text} {c : CodePoint} :
    sep <+: c :: front ++ sep ++ back ↔ sep <+: c :: front ++ sep.dropLast := by
  have first : c :: front ++ sep.dropLast <+: c :: front ++ sep ++ back :=
    append_dropLast_isPrefix _ _
  constructor
  · intro here
    refine List.prefix_of_prefix_length_le here first ?_
    simp only [List.cons_append, List.length_cons, List.length_append, List.length_dropLast]
    omega
  · exact fun here => here.trans first

theorem not_infix_dropLast (filled : sep ≠ []) : ¬ sep <:+: sep.dropLast := by
  intro inside
  have short := inside.length_le
  have long := List.length_pos_iff.mpr filled
  rw [List.length_dropLast] at short
  omega

theorem cut?_later_iff {c d : CodePoint} {rest front after : Text}
    (later : ¬ sep <+: c :: rest) :
    cut? sep (c :: rest) = some (d :: front, after) ↔
      c = d ∧ cut? sep rest = some (front, after) := by
  rw [cut?_later later]
  cases cut? sep rest with
  | none => simp
  | some pieces => simp [Prod.ext_iff, and_assoc]

/-- Where a text is cut: the first part leaves no room for an earlier separator. -/
theorem cut?_eq_some_iff (filled : sep ≠ []) {before after : Text} :
    cut? sep t = some (before, after) ↔
      t = before ++ sep ++ after ∧ ¬ sep <:+: before ++ sep.dropLast := by
  induction t generalizing before with
  | nil => simp [cut?_nil filled, filled]
  | cons c rest ih =>
      by_cases here : sep <+: c :: rest
      · rw [cut?_here here]
        cases before with
        | nil =>
            obtain ⟨behind, split⟩ := here
            simp [← split, not_infix_dropLast filled, eq_comm]
        | cons d front =>
            refine iff_of_false (by simp) ?_
            rintro ⟨split, none⟩
            rw [split] at here
            exact none (prefix_append_dropLast.mp here).isInfix
      · cases before with
        | nil =>
            refine iff_of_false (by simp [cut?_later here]) ?_
            rintro ⟨split, -⟩
            exact here ⟨after, split.symm⟩
        | cons d front =>
            rw [cut?_later_iff here, ih]
            constructor
            · rintro ⟨rfl, rfl, none⟩
              refine ⟨rfl, fun inside => ?_⟩
              rcases List.infix_cons_iff.mp inside with first | later
              · exact here (prefix_append_dropLast.mpr first)
              · exact none later
            · rintro ⟨split, none⟩
              cases split
              exact ⟨rfl, rfl, fun inside => none (List.infix_cons_iff.mpr (.inr inside))⟩

/-! ## First occurrences -/

/-- The separator stands in `t` behind `place` code points, and nowhere before. -/
def IsFirstAt (sep : Text) (place : Nat) (t : Text) : Prop :=
  sep <+: t.drop place ∧ ∀ earlier < place, ¬ sep <+: t.drop earlier

/-- Where a separator comes first is told by the part in front of it. -/
theorem isFirstAt_length_iff (filled : sep ≠ []) {before after : Text} :
    IsFirstAt sep before.length (before ++ sep ++ after) ↔ ¬ sep <:+: before ++ sep.dropLast := by
  constructor
  · rintro ⟨_, none⟩ ⟨front, back, split⟩
    have inFront : before ++ sep.dropLast <+: before ++ sep ++ after :=
      append_dropLast_isPrefix before after
    obtain ⟨more, whole⟩ := inFront
    have lengths := congrArg List.length split
    have long := List.length_pos_iff.mpr filled
    simp only [List.length_append, List.length_dropLast] at lengths
    refine none front.length (by omega) ?_
    rw [← whole, ← split, List.append_assoc, List.append_assoc, List.drop_left]
    exact List.prefix_append _ _
  · intro none
    constructor
    · rw [List.append_assoc, List.drop_left]
      exact List.prefix_append _ _
    · intro earlier here found
      have left : before.drop earlier ≠ [] := by
        simp only [ne_eq, List.drop_eq_nil_iff]
        omega
      obtain ⟨c, front, behind⟩ := List.exists_cons_of_ne_nil left
      rw [List.append_assoc, List.drop_append_of_le_length (by omega), behind, ← List.append_assoc,
        prefix_append_dropLast, ← behind] at found
      apply none
      rw [← List.take_append_drop earlier before, List.append_assoc]
      exact found.isInfix.trans (List.suffix_append _ _).isInfix

/-! ## Pieces -/

theorem splitOn_of_none (filled : sep ≠ []) (h : cut? sep t = none) : splitOn sep t = [t] := by
  rw [splitOn, dif_neg filled]
  split
  · rfl
  · rename_i found
    rw [h] at found
    cases found

theorem splitOn_of_some (filled : sep ≠ []) {before after : Text}
    (h : cut? sep t = some (before, after)) :
    splitOn sep t = before :: splitOn sep after := by
  rw [splitOn, dif_neg filled]
  split
  · rename_i found
    rw [h] at found
    cases found
  · rename_i found
    rw [h] at found
    cases found
    rfl

theorem splitOn_ne_nil (filled : sep ≠ []) (t : Text) : splitOn sep t ≠ [] := by
  cases found : cut? sep t with
  | none => simp [splitOn_of_none filled found]
  | some pieces => simp [splitOn_of_some filled found]

/-- Two pieces are those around the only separator. -/
theorem splitOn_eq_pair_iff (filled : sep ≠ []) {front back : Text} :
    splitOn sep t = [front, back] ↔
      t = front ++ sep ++ back ∧ ¬ sep <:+: front ++ sep.dropLast ∧ ¬ sep <:+: back := by
  rw [← and_assoc, ← cut?_eq_some_iff filled, ← cut?_eq_none_iff filled]
  cases found : cut? sep t with
  | none => simp [splitOn_of_none filled found]
  | some pieces =>
      obtain ⟨before, after⟩ := pieces
      rw [splitOn_of_some filled found]
      cases next : cut? sep after with
      | none =>
          rw [splitOn_of_none filled next]
          constructor
          · intro same
            cases same
            exact ⟨rfl, next⟩
          · rintro ⟨same, -⟩
            cases same
            rfl
      | some others =>
          rw [splitOn_of_some filled next]
          have more := splitOn_ne_nil filled others.2
          constructor
          · intro same
            simp only [List.cons.injEq] at same
            exact absurd same.2.2 more
          · rintro ⟨same, none⟩
            cases same
            rw [next] at none
            cases none

end SiteFilter.Text
