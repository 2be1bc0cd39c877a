import Mathlib.Data.List.Infix
import Mathlib.Data.List.TakeWhile
import SiteFilter.Proofs.Text.Normalization
import SiteFilter.Text.Lines

/-!
# Lines and the blanks around them

The lines of a text hold no line boundaries, and lines without boundaries are found again in the
document that is made of them. Two texts with the end of a line between them have the lines of both,
but for empty ones: a return at the end of the first and a line feed behind it end one line. A text
file has the lines of its text. What is stripped of blanks is a part of the text.
-/

namespace SiteFilter.Text

/-- A part of a line: no line ends in it. -/
def IsUnbroken (t : Text) : Prop :=
  ∀ c ∈ t, c.isLineBoundary = false

instance (t : Text) : Decidable t.IsUnbroken :=
  inferInstanceAs (Decidable (∀ c ∈ t, c.isLineBoundary = false))

theorem isUnbroken_nil : IsUnbroken [] :=
  List.forall_mem_nil _

theorem IsUnbroken.of_infix {s t : Text} (ht : t.IsUnbroken) (inside : s <:+: t) : s.IsUnbroken :=
  fun c here => ht c (inside.subset here)

theorem linesFrom_isUnbroken (t : Text) (afterReturn : Bool) {current : Text}
    (open' : current.IsUnbroken) :
    ∀ line ∈ linesFrom afterReturn current t, line.IsUnbroken := by
  have closed {line : Text} (h : line.IsUnbroken) : IsUnbroken line.reverse :=
    fun c here => h c (List.mem_reverse.mp here)
  induction t generalizing afterReturn current with
  | nil =>
      intro line inside
      unfold linesFrom at inside
      split at inside
      · cases inside
      · rw [List.mem_singleton.mp inside]
        exact closed open'
  | cons c rest ih =>
      intro line inside
      unfold linesFrom at inside
      split at inside
      · exact ih false open' line inside
      split at inside
      · rcases List.mem_cons.mp inside with rfl | later
        · exact closed open'
        · exact ih _ isUnbroken_nil line later
      · rename_i plain
        refine ih false ?_ line inside
        exact List.forall_mem_cons.mpr ⟨Bool.not_eq_true _ ▸ plain, open'⟩

theorem isUnbroken_of_mem_lines {t line : Text} (h : line ∈ t.lines) : line.IsUnbroken :=
  linesFrom_isUnbroken t false isUnbroken_nil line h

/-- What is unbroken goes on with the open line. -/
theorem linesFrom_append {part : Text} (plain : part.IsUnbroken) (current rest : Text) :
    linesFrom false current (part ++ rest) = linesFrom false (part.reverse ++ current) rest := by
  induction part generalizing current with
  | nil => rfl
  | cons c part ih =>
      have first := plain c List.mem_cons_self
      have others : IsUnbroken part := fun d inside => plain d (List.mem_cons_of_mem c inside)
      simp [linesFrom, first, ih others]

/-- Lines that are unbroken are found again in front of the other lines of a document. -/
theorem lines_flatMap_append {parts : List Text} (plain : ∀ part ∈ parts, part.IsUnbroken)
    (rest : Text) :
    lines (parts.flatMap (· ++ [CodePoint.ofChar '\n']) ++ rest) = parts ++ lines rest := by
  unfold lines
  induction parts with
  | nil => rfl
  | cons part parts ih =>
      have feed (current rest : Text) : linesFrom false current (CodePoint.ofChar '\n' :: rest) =
          current.reverse :: linesFrom false [] rest := rfl
      rw [List.flatMap_cons, List.append_assoc, List.append_assoc,
        linesFrom_append (plain part List.mem_cons_self), List.singleton_append, feed,
        ih fun other inside => plain other (List.mem_cons_of_mem part inside)]
      simp

theorem lines_flatMap {parts : List Text} (plain : ∀ part ∈ parts, part.IsUnbroken) :
    lines (parts.flatMap (· ++ [CodePoint.ofChar '\n'])) = parts := by
  have whole := lines_flatMap_append plain []
  rwa [List.append_nil, show lines [] = [] from rfl, List.append_nil] at whole

/-! ## Ends of lines -/

inductive IsLineEnd : Text → Prop
  | single {c : CodePoint} (ends : c.isLineBoundary = true) : IsLineEnd [c]
  | pair : IsLineEnd [CodePoint.ofChar '\r', CodePoint.ofChar '\n']

/-- A boundary closes the open line, unless it is a line feed that belongs to a return. -/
theorem linesFrom_boundary {c : CodePoint} (ends : c.isLineBoundary = true) {afterReturn : Bool}
    (own : ¬ (c.val = 0x0A ∧ afterReturn = true)) (current rest : Text) :
    linesFrom afterReturn current (c :: rest) =
      current.reverse :: linesFrom (c.val = 0x0D) [] rest := by
  simp [linesFrom, own, ends]

section Selecting

variable {α : Type} {select : Text → Option α}

theorem filterMap_line_cons (line : Text) (rest : List Text) :
    (line :: rest).filterMap select = (select line).toList ++ rest.filterMap select := by
  cases found : select line <;> simp [found]

variable (empty : select [] = none)

include empty

theorem filterMap_linesFrom_nil (afterReturn : Bool) (current : Text) :
    (linesFrom afterReturn current []).filterMap select = (select current.reverse).toList := by
  cases current with
  | nil => simp [linesFrom, empty]
  | cons c rest =>
      have one : linesFrom afterReturn (c :: rest) [] = [(c :: rest).reverse] := rfl
      rw [one, filterMap_line_cons, List.filterMap_nil, List.append_nil]

/-- A line feed that ends no line of its own would end an empty one. -/
theorem filterMap_linesFrom_afterReturn (afterReturn : Bool) (t : Text) :
    (linesFrom afterReturn [] t).filterMap select = (lines t).filterMap select := by
  cases t with
  | nil => rfl
  | cons c rest =>
      by_cases feed : c.val = 0x0A ∧ afterReturn = true
      · have boundary : c.isLineBoundary = true := by
          simp [CodePoint.isLineBoundary, feed, lineBoundaryRanges, Ranges.has]
        simp [lines, linesFrom, feed, boundary, empty]
      · simp [lines, linesFrom, feed]

/-- The lines before and behind a boundary, up to empty ones, whatever was read before. -/
theorem filterMap_linesFrom_append {c : CodePoint} (ends : c.isLineBoundary = true)
    (first second : Text) (afterReturn : Bool) (current : Text)
    (closed : afterReturn = true → current = []) :
    (linesFrom afterReturn current (first ++ c :: second)).filterMap select =
      (linesFrom afterReturn current first).filterMap select ++
        (lines second).filterMap select := by
  -- On the text in front. That a line is open behind a return never happens, and a line feed there
  -- is either passed over or ends an empty line.
  induction first generalizing afterReturn current with
  | nil =>
      by_cases passed : c.val = 0x0A ∧ afterReturn = true
      · have none := closed passed.2
        simp [linesFrom, passed, none, lines]
      · have behind := filterMap_linesFrom_afterReturn empty (c.val = 0x0D) second
        rw [List.nil_append, linesFrom_boundary ends passed, filterMap_line_cons, behind,
          filterMap_linesFrom_nil empty]
  | cons d first ih =>
      by_cases passed : d.val = 0x0A ∧ afterReturn = true
      · have go := ih false current nofun
        simpa [linesFrom, passed] using go
      by_cases boundary : d.isLineBoundary = true
      · have go := ih (d.val = 0x0D) [] fun _ => rfl
        rw [List.cons_append, linesFrom_boundary boundary passed, linesFrom_boundary boundary passed,
          filterMap_line_cons, filterMap_line_cons, go, List.append_assoc]
      · have go := ih false (d :: current) nofun
        simpa [linesFrom, passed, boundary] using go

theorem filterMap_lines_append {sep : Text} (isEnd : IsLineEnd sep) (first second : Text) :
    (lines (first ++ sep ++ second)).filterMap select =
      (lines first).filterMap select ++ (lines second).filterMap select := by
  have single {c : CodePoint} (ends : c.isLineBoundary = true) (first second : Text) :
      (lines (first ++ c :: second)).filterMap select =
        (lines first).filterMap select ++ (lines second).filterMap select :=
    filterMap_linesFrom_append empty ends first second false [] nofun
  cases isEnd with
  | single ends =>
      rw [List.append_assoc]
      exact single ends first second
  | pair =>
      have feed : (lines (CodePoint.ofChar '\n' :: second)).filterMap select =
          (lines second).filterMap select := single (by decide) [] second
      rw [List.append_assoc, ← feed]
      exact single (by decide) first _

end Selecting

/-! ## The lines of text files -/

theorem unifyLineEndsFrom_eq (afterReturn : Bool) (done t : Text) :
    unifyLineEndsFrom afterReturn done t = done.reverse ++ unifyLineEndsFrom afterReturn [] t := by
  induction t generalizing afterReturn done with
  | nil => simp [unifyLineEndsFrom]
  | cons c rest ih =>
      unfold unifyLineEndsFrom
      split
      · rw [ih true (_ :: done), ih true [_]]
        simp
      split
      · exact ih false done
      · rw [ih false (c :: done), ih false [c]]
        simp

/-- A line feed in the place of a return ends the same line. -/
theorem linesFrom_unifyLineEndsFrom (afterReturn : Bool) (current t : Text) :
    linesFrom false current (unifyLineEndsFrom afterReturn [] t) =
      linesFrom afterReturn current t := by
  induction t generalizing afterReturn current with
  | nil => simp [unifyLineEndsFrom, linesFrom]
  | cons c rest ih =>
      by_cases isReturn : c.val = 0x0D
      · have unified : unifyLineEndsFrom afterReturn [] (c :: rest) =
            CodePoint.ofChar '\n' :: unifyLineEndsFrom true [] rest := by
          rw [unifyLineEndsFrom, if_pos isReturn, unifyLineEndsFrom_eq]
          rfl
        have boundary : c.isLineBoundary = true := by
          simp [CodePoint.isLineBoundary, isReturn, lineBoundaryRanges, Ranges.has]
        have feed (rest : Text) : linesFrom false current (CodePoint.ofChar '\n' :: rest) =
            current.reverse :: linesFrom false [] rest := rfl
        rw [unified, feed, ih true []]
        simp [linesFrom, isReturn, boundary]
      by_cases skipped : c.val = 0x0A ∧ afterReturn = true
      · have go := ih false current
        simpa [unifyLineEndsFrom, linesFrom, skipped] using go
      · have unified : unifyLineEndsFrom afterReturn [] (c :: rest) =
            c :: unifyLineEndsFrom false [] rest := by
          have kept := unifyLineEndsFrom_eq false [c] rest
          simpa [unifyLineEndsFrom, isReturn, skipped] using kept
        rw [unified]
        simp [linesFrom, skipped, isReturn, ih]

/-- A text file has the lines of the text that its octets stand for. -/
theorem lines_unifyLineEnds (t : Text) : t.unifyLineEnds.lines = t.lines :=
  linesFrom_unifyLineEndsFrom false [] t

/-! ## Stripped texts -/

/-- A stripped text is what is left of the text when blanks are taken away at both ends. -/
theorem exists_blanks_strip (t : Text) : ∃ front back, t = front ++ t.strip ++ back ∧
    (∀ c ∈ front, c.isBlank = true) ∧ ∀ c ∈ back, c.isBlank = true := by
  refine ⟨t.takeWhile CodePoint.isBlank,
    ((t.dropWhile CodePoint.isBlank).reverse.takeWhile CodePoint.isBlank).reverse, ?_,
    fun c inside => List.mem_takeWhile_imp inside,
    fun c inside => List.mem_takeWhile_imp (List.mem_reverse.mp inside)⟩
  rw [strip, trimWhile, dropEndWhile, List.append_assoc, ← List.reverse_append,
    List.takeWhile_append_dropWhile, List.reverse_reverse, List.takeWhile_append_dropWhile]

theorem strip_isInfix (t : Text) : t.strip <:+: t := by
  obtain ⟨front, back, split, -⟩ := exists_blanks_strip t
  exact ⟨front, back, split.symm⟩

/-- A text that starts with no blank starts with the same code point when it is stripped. -/
theorem head?_strip {t : Text} {c : CodePoint} (visible : c.isBlank = false)
    (first : t.head? = some c) : t.strip.head? = some c := by
  obtain ⟨front, back, split, blank, blank'⟩ := exists_blanks_strip t
  rw [split] at first
  cases front with
  | cons d front =>
      cases first
      rw [blank c List.mem_cons_self] at visible
      cases visible
  | nil =>
      cases stripped : t.strip with
      | cons d rest =>
          rw [stripped] at first
          exact first
      | nil =>
          rw [stripped] at first
          rw [blank' c (List.mem_of_mem_head? first)] at visible
          cases visible

/-- What is stripped at the end of a text leaves a code point that is no blank. -/
theorem stripEnd_cons {c : CodePoint} (visible : c.isBlank = false) (t : Text) :
    stripEnd (c :: t) = c :: stripEnd t := by
  unfold stripEnd dropEndWhile
  rw [List.reverse_cons, List.dropWhile_append]
  cases left : t.reverse.dropWhile CodePoint.isBlank with
  | nil => simp [visible]
  | cons d rest => simp

theorem stripEnd_isPrefix (t : Text) : t.stripEnd <+: t := by
  unfold stripEnd dropEndWhile
  rw [← List.reverse_suffix, List.reverse_reverse]
  exact List.dropWhile_suffix _

/-- Two stripped texts with something between them are stripped. -/
theorem IsTrimmed.append {s t : Text} (hs : s.IsTrimmed) (ht : t.IsTrimmed) (first : s ≠ [])
    (last : t ≠ []) (between : Text) : (s ++ between ++ t).IsTrimmed := by
  constructor
  · rw [List.append_assoc, List.head?_append_of_ne_nil _ first]
    exact hs.1
  · rw [List.getLast?_append_of_ne_nil _ last]
    exact ht.2

/-- The front of a stripped text begins as it does when it is stripped itself. -/
theorem head?_strip_of_append {front back : Text} (h : (front ++ back).IsTrimmed)
    (filled : front.strip ≠ []) : front.strip.head? = (front ++ back).head? := by
  obtain ⟨blanks, behind, split, blank, -⟩ := exists_blanks_strip front
  have none : blanks = [] := by
    cases blanks with
    | nil => rfl
    | cons c blanks =>
        have visible := h.1 c (by rw [split]; rfl)
        rw [blank c List.mem_cons_self] at visible
        cases visible
  rw [none, List.nil_append] at split
  conv_rhs => rw [split]
  rw [List.append_assoc, List.head?_append_of_ne_nil _ filled]

end SiteFilter.Text
