import SiteFilter.Proofs.Effects
import SiteFilter.Proofs.Machine
import SiteFilter.Reload.Run

/-!
# What a request to reload can do

A request always ends in a result. What it does to the files is up to the program that is run, but
the place that relative paths start from stays.
-/

namespace SiteFilter

open Effect

namespace Reloader

/-- What was written to the journal and what a program did to the files, no more than that. -/
def Changes (machine after : Machine) : Prop :=
  ∃ files journal, after = { machine with files := files, journal := journal } ∧
    files.current = machine.files.current

theorem launch_changes (programs : Programs) (timeout : Float) (words : List Text)
    (machine : Machine) :
    Ensures (launch programs timeout words) machine fun _ after => Changes machine after := by
  have unchanged : Changes machine machine := ⟨machine.files, machine.journal, rfl, rfl⟩
  unfold launch
  cases words.findSome? wordFault? with
  | some e => exact .throw unchanged
  | none =>
      apply Ensures.getThen
      dsimp only
      split
      · exact .pure unchanged
      · exact .setThen (.pure ⟨_, machine.journal, rfl, rfl⟩)
      · exact .setThen (.pure ⟨_, machine.journal, rfl, rfl⟩)

theorem attempt_changes (reloader : Reloader) (engine : Json) (machine : Machine) :
    Ensures (attempt reloader engine) machine fun _ after => Changes machine after := by
  cases reloader with
  | none => exact .pure ⟨machine.files, machine.journal, rfl, rfl⟩
  | custom answer =>
      exact Action.ofExcept_spec ⟨machine.files, machine.journal, rfl, rfl⟩
  | command programs words timeout =>
      apply Action.ofExceptThen
      · intro words _
        apply Action.noteThen
        intro journal
        refine (launch_changes programs timeout words _).mono ?_
        rintro _ after ⟨files, journal, rfl, current⟩
        exact ⟨files, journal, rfl, current⟩
      · intro e _
        exact ⟨machine.files, machine.journal, rfl, rfl⟩

/-- A request ends in a result. -/
theorem ask_changes (reloader : Reloader) (engine : Json) (machine : Machine) :
    Ensures (reloader.ask engine) machine fun result after =>
      (∃ r, result = .ok r) ∧ Changes machine after := by
  apply Action.recordThen
  refine .tryCatch (attempt_changes reloader engine _) ?_ ?_
  · rintro r after ⟨files, journal, rfl, current⟩
    exact ⟨⟨r, rfl⟩, files, journal, rfl, current⟩
  · rintro e after ⟨files, journal, rfl, current⟩
    exact .pure ⟨⟨_, rfl⟩, files, journal, rfl, current⟩

theorem ask_spec (reloader : Reloader) (engine : Json) (machine : Machine) :
    Ensures (reloader.ask engine) machine fun result after =>
      (∃ r, result = .ok r) ∧ after.files.current = machine.files.current := by
  refine (ask_changes reloader engine machine).mono ?_
  rintro result after ⟨ended, files, journal, rfl, current⟩
  exact ⟨ended, current⟩

/-! ## Requests that leave files alone -/

def LeavesAlone (reloader : Reloader) (engine : Json) (place : Route) : Prop :=
  ∀ machine, ((reloader.ask engine).runOn machine).2.files.node? place =
    machine.files.node? place

def LeavesFiles (reloader : Reloader) (engine : Json) : Prop :=
  ∀ machine, ((reloader.ask engine).runOn machine).2.files = machine.files

theorem LeavesFiles.leavesAlone {reloader : Reloader} {engine : Json}
    (h : reloader.LeavesFiles engine) (place : Route) : reloader.LeavesAlone engine place :=
  fun machine => congrArg (·.node? place) (h machine)

theorem leavesFiles_none (engine : Json) : LeavesFiles .none engine :=
  fun _ => rfl

theorem leavesAlone_none (engine : Json) (place : Route) : LeavesAlone .none engine place :=
  (leavesFiles_none engine).leavesAlone place

/-- What is reported of an answer for the engine: a failure is a result that is not good. -/
def reported : Except Fault ReloadResult → ReloadResult
  | .ok result => result
  | .error e =>
      ⟨false, Text.ofString "reload raised " ++ Text.ofString e.label ++ Text.ofString ": "
        ++ e.message⟩

theorem ask_custom (answer : Json → Except Fault ReloadResult) (engine : Json)
    (machine : Machine) :
    Ensures ((Reloader.custom answer).ask engine) machine fun result after =>
      result = .ok (reported (answer engine)) ∧ after.files = machine.files := by
  apply Action.recordThen
  have attempts : Ensures (attempt (.custom answer) engine)
      { machine with journal := .asking engine :: machine.journal } fun result after =>
        result = answer engine ∧ after.files = machine.files :=
    Action.ofExcept_spec ⟨rfl, rfl⟩
  refine .tryCatch attempts ?_ ?_
  · rintro result after ⟨same, files⟩
    rw [← same]
    exact ⟨rfl, files⟩
  · rintro e after ⟨same, files⟩
    rw [← same]
    exact .pure ⟨rfl, files⟩

theorem leavesFiles_custom (answer : Json → Except Fault ReloadResult) (engine : Json) :
    LeavesFiles (.custom answer) engine :=
  fun machine => (ask_custom answer engine machine).2

/-- Whether requests end in one result, whenever they are made. -/
def Answers (reloader : Reloader) (engine : Json) (result : ReloadResult) : Prop :=
  ∀ machine, ((reloader.ask engine).runOn machine).1 = .ok result

theorem answers_custom (answer : Json → Except Fault ReloadResult) (engine : Json) :
    Answers (.custom answer) engine (reported (answer engine)) :=
  fun machine => (ask_custom answer engine machine).1

end Reloader

end SiteFilter
