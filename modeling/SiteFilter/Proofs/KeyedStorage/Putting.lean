import SiteFilter.Proofs.FileTree.Writing
import SiteFilter.Proofs.KeyedStorage

/-!
# When a value can be put

A value is put just when it has octets and its file can be written. Otherwise the fault says which
of the two was missing.
-/

namespace SiteFilter

open FileTree Effect

namespace Machine

def refusal? (machine : Machine) : Option OsCause :=
  machine.refusals.head?.join

end Machine

namespace Action

theorem nextRefusal_eq (machine : Machine) :
    Ensures nextRefusal machine fun result after =>
      result = .ok machine.refusal? ∧ after.files = machine.files ∧
        after.refusals = machine.refusals.tail := by
  unfold Machine.refusal?
  apply Ensures.getThen
  split
  · rename_i none
    have none : machine.refusals = [] := none
    exact .pure ⟨by rw [none]; rfl, rfl, by rw [none]; rfl⟩
  · rename_i refusal refusals some
    have some : machine.refusals = refusal :: refusals := some
    exact Ensures.setThen (.pure ⟨by rw [some]; rfl, rfl, by rw [some]; rfl⟩)

theorem onFiles_refusals {α : Type} (change : FileAction α) (machine : Machine) :
    Ensures (onFiles change) machine fun _ after => after.refusals = machine.refusals := by
  simp [Ensures]

theorem replaceFile_refusals (path : Path) (data : Bytes) (machine : Machine) :
    Ensures (replaceFile path data) machine fun _ after =>
      after.refusals = machine.refusals.tail := by
  apply recordThen
  refine .bindOk (nextRefusal_eq _) ?_
  rintro after ⟨-, taken⟩
  exact (onFiles_refusals _ after).mono fun _ _ same => same.trans taken

/-- A file is replaced just when no refusal is met and it is writable. -/
theorem replaceFile_isOk {path : Path} {machine : Machine} (wellFormed : machine.files.WellFormed)
    (room : machine.files.HasRoom path [path]) (data : Bytes) :
    Ensures (replaceFile path data) machine fun result _ =>
      result = .ok () ↔ machine.refusal? = none ∧ machine.files.Writable path := by
  apply recordThen
  refine .bindOk (nextRefusal_eq _) ?_
  rintro after ⟨same, -⟩
  have same : after.files = machine.files := same
  rw [← same] at wellFormed room ⊢
  exact onFiles_spec (AtomicWrite.run_isOk wellFormed _ data room)

end Action

namespace KeyedStorage

variable {storage : KeyedStorage} {key : Text} {machine : Machine}

/-- A value is put just when it has octets and its file can be written. -/
theorem put_isOk (valid : isKey key = true) (wellFormed : machine.files.WellFormed)
    (room : machine.files.HasRoom (storage.fileOf key) [storage.fileOf key]) (value : Json) :
    Ensures (storage.put key value) machine fun result _ =>
      result = .ok () ↔ (∃ data, encodeValue storage.limits value = .ok data) ∧
        machine.refusal? = none ∧ machine.files.Writable (storage.fileOf key) := by
  apply Action.ofExceptThen
  · intro path found
    rw [pathOf_eq storage valid] at found
    cases found
    cases encoded : encodeValue storage.limits value with
    | error e => exact .throw ⟨nofun, fun ⟨⟨_, same⟩, _⟩ => nomatch same⟩
    | ok data =>
        refine .bind (Q := fun result _ => result = .ok () ↔
          machine.refusal? = none ∧ machine.files.Writable (storage.fileOf key)) ?_ ?_ ?_
        · refine .tryCatch (Action.replaceFile_isOk wellFormed room data)
            (fun _ _ known => known) ?_
          intro e after refused
          have no : ¬ (machine.refusal? = none ∧ machine.files.Writable (storage.fileOf key)) :=
            fun possible => nomatch refused.mpr possible
          split
          · exact .throw ⟨nofun, fun possible => absurd possible no⟩
          · exact .throw ⟨nofun, fun possible => absurd possible no⟩
        · intro _ after written
          exact Ensures.change ⟨fun _ => ⟨⟨data, rfl⟩, written.mp rfl⟩, fun _ => rfl⟩
        · intro e after refused
          exact ⟨nofun, fun ⟨_, possible⟩ => nomatch refused.mpr possible⟩
  · intro e refused
    rw [pathOf_eq storage valid] at refused
    cases refused

/-- A value without octets changes nothing. -/
theorem put_unencodable (valid : isKey key = true) {value : Json} {cause : Fault}
    (refused : encodeValue storage.limits value = .error cause) :
    Ensures (storage.put key value) machine fun result after =>
      result = .error (encodingFault key cause) ∧ after = machine := by
  apply Action.ofExceptThen
  · intro path _
    rw [refused]
    exact .throw ⟨rfl, rfl⟩
  · intro e refused
    rw [pathOf_eq storage valid] at refused
    cases refused

/-- Putting a value on a machine that refuses nothing leaves it so. -/
theorem put_refusals (storage : KeyedStorage) (key : Text) (value : Json) (machine : Machine) :
    Ensures (storage.put key value) machine fun _ after =>
      machine.refusals = [] → after.refusals = [] := by
  apply Action.ofExceptThen
  · intro path _
    cases encodeValue storage.limits value with
    | error cause => exact .throw id
    | ok data =>
        refine .bind (Q := fun _ after => machine.refusals = [] → after.refusals = []) ?_ ?_ ?_
        · have taken : Ensures (Action.replaceFile path data) machine fun _ after =>
              machine.refusals = [] → after.refusals = [] :=
            (Action.replaceFile_refusals path data machine).mono
              fun _ _ same none => same.trans (by rw [none]; rfl)
          refine .tryCatch taken (fun _ _ known => known) ?_
          intro e after known
          split
          · exact .throw known
          · exact .throw known
        · exact fun _ _ known => Ensures.change known
        · exact fun _ _ known => known
  · exact fun _ _ => id

/-- The fault of a value that was not put, in a directory that can be named. -/
theorem put_fault (valid : isKey key = true)
    (nameable : machine.files.IsNameable storage.directory) (value : Json) :
    Ensures (storage.put key value) machine fun result _ =>
      ∀ e, result = .error e →
        match encodeValue storage.limits value with
        | .error cause => e = encodingFault key cause
        | .ok _ => ∃ cause, e = .unwritableKey key (storage.fileOf key) cause := by
  apply Action.ofExceptThen
  · intro path found
    rw [pathOf_eq storage valid] at found
    cases found
    cases encodeValue storage.limits value with
    | error cause => exact .throw fun _ same => by cases same; rfl
    | ok data =>
        refine .bind (Q := fun result _ => ∀ e, result = .error e →
          ∃ cause, e = .unwritableKey key (storage.fileOf key) cause) ?_ ?_ ?_
        · refine .tryCatch (Action.replaceFile_spec _ data machine) (fun _ _ _ => nofun) ?_
          rintro e after ⟨-, os⟩
          obtain ⟨cause, rfl⟩ := os ⟨isNamed_fileOf nameable.1 valid, nameable.2⟩
          exact .throw fun _ same => ⟨cause, (Except.error.inj same).symm⟩
        · intro _ after _
          exact Ensures.change nofun
        · exact fun _ _ known => known
  · intro e refused
    rw [pathOf_eq storage valid] at refused
    cases refused

end KeyedStorage

end SiteFilter
