import Mathlib.Data.List.TakeWhile
import SiteFilter.Channel.Line

/-!
# Lines of a stream

The first line of a stream is what stands before the first line end, or all of the stream. What is
received next is that line, unless it is too long or nothing is left.
-/

namespace SiteFilter.Channel

/-- The first line of a stream, with or without its end. -/
def IsFirstLine (line stream : Bytes) : Prop :=
  lineEnd ∉ line ∧ (stream = line ∨ ∃ rest, stream = line ++ lineEnd :: rest)

variable {line stream content : Bytes}

theorem IsFirstLine.closed (single : lineEnd ∉ line) (rest : Bytes) :
    IsFirstLine line (line ++ lineEnd :: rest) :=
  ⟨single, .inr ⟨rest, rfl⟩⟩

theorem IsFirstLine.whole (single : lineEnd ∉ line) : IsFirstLine line line :=
  ⟨single, .inl rfl⟩

/-- Octets of a line are not its end. -/
theorem passed_of_single (single : lineEnd ∉ line) :
    ∀ octet ∈ line, decide (octet ≠ lineEnd) = true := by
  intro octet inside
  rw [decide_eq_true_eq]
  rintro rfl
  exact single inside

theorem IsFirstLine.takeWhile (h : IsFirstLine line stream) :
    stream.takeWhile (· ≠ lineEnd) = line := by
  obtain ⟨single, shape⟩ := h
  rcases shape with rfl | ⟨rest, rfl⟩
  · exact List.takeWhile_eq_self_iff.mpr (passed_of_single single)
  · rw [List.takeWhile_append_of_pos (passed_of_single single)]
    simp

theorem isFirstLine_takeWhile (stream : Bytes) :
    IsFirstLine (stream.takeWhile (· ≠ lineEnd)) stream := by
  constructor
  · intro inside
    have passed := List.mem_takeWhile_imp inside
    exact of_decide_eq_true passed rfl
  · have cut := List.takeWhile_append_dropWhile (p := (· ≠ lineEnd)) (l := stream)
    cases behind : stream.dropWhile (· ≠ lineEnd) with
    | nil =>
        rw [behind, List.append_nil] at cut
        exact .inl cut.symm
    | cons octet rest =>
        have atEnd : octet = lineEnd := by
          have refused := List.head?_dropWhile_not (· ≠ lineEnd) stream
          rw [behind] at refused
          simpa using refused
        rw [behind, atEnd] at cut
        exact .inr ⟨rest, cut.symm⟩

theorem IsFirstLine.unique {other : Bytes} (h : IsFirstLine line stream)
    (h' : IsFirstLine other stream) : line = other :=
  h.takeWhile.symm.trans h'.takeWhile

/-- What is received of a stream with a first line. -/
theorem receive_eq (h : IsFirstLine line stream) :
    receive stream = if lineLimit < line.length then .tooLong
      else if stream = [] then .ended else .line line := by
  unfold receive
  simp only [h.takeWhile, List.isEmpty_iff]

/-- A line that is not too long is received. -/
theorem receive_line (single : lineEnd ∉ content) (short : content.length ≤ lineLimit)
    (rest : Bytes) : receive (content ++ lineEnd :: rest) = .line content := by
  rw [receive_eq (.closed single rest), if_neg (by omega), if_neg (by simp)]

/-! ## All lines -/

theorem behindLine_whole (single : lineEnd ∉ line) : behindLine line = [] := by
  have through : line.dropWhile (· ≠ lineEnd) = [] :=
    List.dropWhile_eq_nil_iff.mpr (passed_of_single single)
  rw [behindLine, through, List.drop_nil]

theorem behindLine_closed (single : lineEnd ∉ line) (rest : Bytes) :
    behindLine (line ++ lineEnd :: rest) = rest := by
  have through : (line ++ lineEnd :: rest).dropWhile (· ≠ lineEnd) = lineEnd :: rest := by
    rw [List.dropWhile_append_of_pos (passed_of_single single)]
    simp
  rw [behindLine, through, List.drop_one, List.tail_cons]

theorem linesWithin_nil (fuel : Nat) : linesWithin fuel [] = [] := by
  cases fuel <;> rfl

/-- The lines of a stream in which no line is too long are its pieces, but for an empty last one. -/
theorem splitOn_eq_lines {stream : Bytes}
    (short : ∀ piece ∈ stream.splitOn lineEnd, piece.length ≤ lineLimit) :
    stream.splitOn lineEnd = lines stream ∨ stream.splitOn lineEnd = lines stream ++ [[]] := by
  have within (fuel : Nat) : ∀ stream : Bytes, stream.length ≤ fuel →
      (∀ piece ∈ stream.splitOn lineEnd, piece.length ≤ lineLimit) →
      stream.splitOn lineEnd = linesWithin fuel stream ∨
        stream.splitOn lineEnd = linesWithin fuel stream ++ [[]] := by
    induction fuel with
    | zero =>
        intro stream none _
        obtain rfl := List.length_eq_zero_iff.mp (Nat.le_zero.mp none)
        exact .inr rfl
    | succ fuel ih =>
        intro stream room short
        obtain ⟨single, whole | ⟨rest, closed⟩⟩ := isFirstLine_takeWhile stream
        · rw [← whole] at single
          rw [List.splitOn_eq_singleton single] at short ⊢
          by_cases none : stream = []
          · subst none
            exact .inr (by rw [linesWithin_nil]; rfl)
          · have line := short stream (List.mem_singleton.mpr rfl)
            rw [linesWithin, receive_eq (.whole single), if_neg (by omega), if_neg none]
            dsimp only
            rw [behindLine_whole single, linesWithin_nil]
            exact .inl rfl
        · generalize stream.takeWhile (· ≠ lineEnd) = first at single closed
          subst closed
          rw [List.splitOn_append_cons_self_of_not_mem single] at short ⊢
          obtain ⟨here, behind⟩ := List.forall_mem_cons.mp short
          simp only [List.length_append, List.length_cons] at room
          rw [linesWithin, receive_line single here]
          dsimp only
          rw [behindLine_closed single, List.cons_append]
          rcases ih rest (by omega) behind with same | same
          · exact .inl (by rw [same])
          · exact .inr (by rw [same])
  exact within _ stream (le_refl _) short

end SiteFilter.Channel
