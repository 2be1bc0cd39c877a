import SiteFilter.Proofs.Text.Lines
import SiteFilter.Rule.Document

/-!
# Documents line by line

A document gives the rules of its lines, each read by itself. Two documents with the end of a line
between them give the rules of both, also where the first ends in a return and what follows begins
with a line feed: an end of a line more or less is an empty line more or less, which is no rule.
-/

namespace SiteFilter.RuleDocument

open Text

/-- A line of a document with the end that it has there. -/
structure EndedLine where
  line : Text
  ending : Text
  unbroken : line.IsUnbroken
  isEnd : ending.IsLineEnd

def EndedLine.text (ended : EndedLine) : Text :=
  ended.line ++ ended.ending

theorem parseLine_nil : parseLine [] = none :=
  rfl

theorem parse_append {ending : Text} (isEnd : ending.IsLineEnd) (first second : Text) :
    parse (first ++ ending ++ second) = parse first ++ parse second :=
  filterMap_lines_append parseLine_nil isEnd first second

/-- A document of one line, which is not ended. -/
theorem parse_of_isUnbroken {line : Text} (unbroken : line.IsUnbroken) :
    parse line = (parseLine line).toList := by
  have lines : line.lines = if line.isEmpty then [] else [line] := by
    have fed := linesFrom_append unbroken [] []
    simpa [Text.lines, linesFrom] using fed
  unfold parse
  rw [lines]
  cases line with
  | nil => simp [parseLine_nil]
  | cons c rest => cases found : parseLine (c :: rest) <;> simp [found]

theorem parse_endedLine (ended : EndedLine) (rest : Text) :
    parse (ended.text ++ rest) = (parseLine ended.line).toList ++ parse rest := by
  have seam := parse_append ended.isEnd ended.line rest
  rwa [parse_of_isUnbroken ended.unbroken] at seam

theorem parse_endedLines (ended : List EndedLine) (rest : Text) :
    parse (ended.flatMap (·.text) ++ rest) =
      (ended.map (·.line)).filterMap parseLine ++ parse rest := by
  induction ended with
  | nil => simp
  | cons line ended ih =>
      have here := parse_endedLine line (ended.flatMap (·.text) ++ rest)
      rw [List.flatMap_cons, List.append_assoc, here, ih]
      cases found : parseLine line.line <;> simp [found]

theorem exists_endedLines (document : Text) :
    ∃ ended : List EndedLine, ∃ last, last.IsUnbroken ∧
      document = ended.flatMap (·.text) ++ last := by
  induction document with
  | nil => exact ⟨[], [], isUnbroken_nil, rfl⟩
  | cons c rest ih =>
      obtain ⟨ended, last, unbroken, rfl⟩ := ih
      by_cases boundary : c.isLineBoundary = true
      · exact ⟨⟨[], [c], isUnbroken_nil, .single boundary⟩ :: ended, last, unbroken, rfl⟩
      -- The code point goes in front of the line that is first so far, whether it is ended or not.
      have plain {line : Text} (h : line.IsUnbroken) : IsUnbroken (c :: line) := by
        have here : c.isLineBoundary = false := by simpa using boundary
        exact List.forall_mem_cons.mpr ⟨here, h⟩
      cases ended with
      | nil => exact ⟨[], c :: last, plain unbroken, rfl⟩
      | cons line ended =>
          exact ⟨⟨c :: line.line, line.ending, plain line.unbroken, line.isEnd⟩ :: ended, last,
            unbroken, rfl⟩

/--
Two documents with the end of a line between them give the rules of the first and then those of the
second. So a line that is no rule can be left out wherever it stands, and a document, which is a
number of ended lines and one that is not, gives the rules of its lines in their order, each as
often as it stands there.
-/
theorem parse_lineByLine :
    (∀ first ending second, IsLineEnd ending →
      parse (first ++ ending ++ second) = parse first ++ parse second) ∧
    (∀ (before : List EndedLine) (ended : EndedLine) rest, parseLine ended.line = none →
      parse (before.flatMap (·.text) ++ (ended.text ++ rest)) =
        parse (before.flatMap (·.text) ++ rest)) ∧
    (∀ (before : List EndedLine) line, IsUnbroken line → parseLine line = none →
      parse (before.flatMap (·.text) ++ line) = parse (before.flatMap (·.text))) ∧
    ∀ document, ∃ ended : List EndedLine, ∃ last, IsUnbroken last ∧
      document = ended.flatMap (·.text) ++ last ∧
      parse document = (ended.map (·.line) ++ [last]).filterMap parseLine := by
  refine ⟨fun first ending second isEnd => parse_append isEnd first second, ?_, ?_, ?_⟩
  · intro before ended rest noRule
    have skipped : parse (ended.text ++ rest) = parse rest := by
      simp [parse_endedLine, noRule]
    rw [parse_endedLines, parse_endedLines, skipped]
  · intro before line unbroken noRule
    have nothing : parse line = [] := by
      simp [parse_of_isUnbroken unbroken, noRule]
    have whole := parse_endedLines before []
    rw [List.append_nil] at whole
    rw [parse_endedLines, whole, nothing]
    rfl
  · intro document
    obtain ⟨ended, last, unbroken, rfl⟩ := exists_endedLines document
    have run := parse_endedLines ended last
    rw [parse_of_isUnbroken unbroken] at run
    refine ⟨ended, last, unbroken, rfl, ?_⟩
    rw [run]
    cases found : parseLine last <;> simp [found]

def remarkLine : EndedLine where
  line := Text.ofString "! remark"
  ending := Text.ofString "\u2028"
  unbroken := by decide +kernel
  isEnd := .single (by decide)

/-- A rule that stands twice, before and behind an end of a line that only the seam makes one. -/
theorem parse_lineByLine_seam :
    parse (Text.ofString "a.com##.x\r" ++ Text.ofString "\n" ++ Text.ofString "a.com##.x\r\n") =
        parse (Text.ofString "a.com##.x\r") ++ parse (Text.ofString "a.com##.x\r\n") ∧
      (parse (Text.ofString "a.com##.x\r\na.com##.x\r\n")).length = 2 ∧
      parse (remarkLine.text ++ Text.ofString "a.com##.x") = parse (Text.ofString "a.com##.x") ∧
      parse (remarkLine.text ++ Text.ofString "a.com##.x##.y") = parse remarkLine.text := by
  obtain ⟨seam, remark, last, -⟩ := parse_lineByLine
  have feed : IsLineEnd (Text.ofString "\n") := .single (by decide)
  refine ⟨seam _ _ _ feed, by decide +kernel, remark [] remarkLine _ (by decide +kernel), ?_⟩
  have skipped := last [remarkLine] (Text.ofString "a.com##.x##.y") (by decide +kernel)
    (by decide +kernel)
  simpa using skipped

end SiteFilter.RuleDocument
