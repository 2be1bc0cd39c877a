import SiteFilter.Environment
import SiteFilter.Machine
import SiteFilter.Proofs.FileTree.AtomicWrite

/-!
# What actions do to the files of a machine

The elementary actions on a machine, with what they leave of its files.
-/

namespace SiteFilter

def bareMachine : Machine :=
  Machine.start ⟨[], []⟩

/-- Nothing is set, there are no homes and no programs, and what is printed is taken. -/
def bareEnvironment : Environment where
  bindings := []
  platform := .other
  userId := 0
  ownHome := []
  homes := []
  programs := .none
  limits := .usual
  outlets := .open

def Machine.Alike (machine other : Machine) : Prop :=
  ∃ journal, other = { machine with journal := journal }

namespace Machine.Alike

variable {machine middle other : Machine}

theorem refl (machine : Machine) : machine.Alike machine :=
  ⟨machine.journal, rfl⟩

theorem symm (h : machine.Alike other) : other.Alike machine := by
  obtain ⟨journal, rfl⟩ := h
  exact ⟨machine.journal, rfl⟩

theorem trans (h : machine.Alike middle) (h' : middle.Alike other) : machine.Alike other := by
  obtain ⟨journal, rfl⟩ := h
  obtain ⟨journal', rfl⟩ := h'
  exact ⟨journal', rfl⟩

theorem files (h : machine.Alike other) : other.files = machine.files := by
  obtain ⟨journal, rfl⟩ := h
  rfl

end Machine.Alike

namespace Action

open FileTree Effect

variable {α β : Type} {machine : Machine}

theorem recordThen {event : Event} {next : PUnit → Action β}
    {post : Except Fault β → Machine → Prop}
    (h : Ensures (next ⟨⟩) { machine with journal := event :: machine.journal } post) :
    Ensures (record event >>= next) machine post :=
  Ensures.changeThen h

theorem noteThen {level : Level} {source : String} {message : Text} {next : PUnit → Action β}
    {post : Except Fault β → Machine → Prop}
    (h : ∀ journal, Ensures (next ⟨⟩) { machine with journal := journal } post) :
    Ensures (note level source message >>= next) machine post :=
  Ensures.changeThen (h _)

theorem note_spec (level : Level) (source : String) (message : Text) (machine : Machine) :
    Ensures (note level source message) machine fun result after =>
      result = .ok () ∧ machine.Alike after :=
  Ensures.change ⟨rfl, _, rfl⟩

theorem ofExceptThen {answer : Except Fault α} {next : α → Action β}
    {post : Except Fault β → Machine → Prop}
    (ok : ∀ a, answer = .ok a → Ensures (next a) machine post)
    (failed : ∀ e, answer = .error e → post (.error e) machine) :
    Ensures (ofExcept answer >>= next) machine post := by
  cases answer with
  | ok a => exact Ensures.pureThen (ok a rfl)
  | error e => simpa [Ensures] using failed e rfl

theorem ofExcept_spec {answer : Except Fault α} {post : Except Fault α → Machine → Prop}
    (h : post answer machine) : Ensures (ofExcept answer) machine post := by
  simpa [Ensures] using h

theorem ask_spec (question : FileTree → Except Fault α) (machine : Machine) :
    Ensures (ask question) machine fun result after =>
      result = question machine.files ∧ after = machine := by
  simp [Ensures]

/-- A change of the files is one of the machine. -/
theorem onFiles_spec {change : FileAction α} {known : Except Fault α → FileTree → Prop}
    (h : Ensures change machine.files known) :
    Ensures (onFiles change) machine fun result after => known result after.files := by
  simpa [Ensures] using h

theorem outcome_spec {action : Action α} {known : Except Fault α → Machine → Prop}
    (h : Ensures action machine known) :
    Ensures (outcome action) machine fun result after =>
      ∃ ended, result = .ok ended ∧ known ended after := by
  simpa [Ensures] using h

theorem nextRefusal_spec (machine : Machine) :
    Ensures nextRefusal machine fun result after =>
      (∃ refusal, result = .ok refusal) ∧ after.files = machine.files := by
  apply Ensures.getThen
  split
  · exact .pure ⟨⟨none, rfl⟩, rfl⟩
  · exact Ensures.setThen (.pure ⟨⟨_, rfl⟩, rfl⟩)

/-- Replacing a file on a machine. -/
theorem replaceFile_spec (path : Path) (data : Bytes) (machine : Machine) :
    Ensures (replaceFile path data) machine fun result after =>
      Replaces machine.files path data result after.files := by
  apply recordThen
  refine .bind (nextRefusal_spec _) ?_ ?_
  · rintro refusal after ⟨-, same⟩
    rw [← show after.files = machine.files from same]
    exact onFiles_spec (AtomicWrite.run_spec refusal path data after.files)
  · rintro e _ ⟨⟨_, same⟩, -⟩
    cases same

end Action

end SiteFilter
