import SiteFilter.Proofs.FileTree.Retaining
import SiteFilter.Proofs.FileTree.WellFormed

/-!
# What a replacement leaves alone

Whether a file is replaced or not, no other file changes and no temporary file is left. What is new
in the tree stands on the way to the file: directories with nothing in them but each other and, in
the end, the file. A file that is not replaced is as it was before, unless its path leads back to
its own place, where a directory is made then.
-/

namespace SiteFilter

open FileTree Effect

namespace FileTree

structure NewParent (tree after : FileTree) (target : Path) (r : Route) : Prop where
  missing : tree.node? r = none
  made : after.node? r = some .directory
  passed : r ∈ tree.wayOf target.parent

/-- Nothing changed but some files, and directories that were made with nothing else in them. -/
structure Spares (tree after : FileTree) (target : Path) (files : List Route) : Prop where
  current : after.current = tree.current
  elsewhere : ∀ r ∉ files, after.node? r = tree.node? r ∨ NewParent tree after target r
  inside : ∀ r, NewParent tree after target r → ∀ below, r <+: below → after.node? below ≠ none →
    below ∈ files ∨ NewParent tree after target below

/-- Whether no directory is made in the place of a file itself on the way to it. -/
def Apart (tree : FileTree) (target : Path) : Prop :=
  tree.node? (tree.placeOf target) = none → tree.placeOf target ∉ tree.wayOf target.parent

instance (tree : FileTree) (target : Path) : Decidable (tree.Apart target) :=
  inferInstanceAs (Decidable (_ → _))

variable {tree after : FileTree} {target : Path} {data : Bytes} {e : Fault}

theorem newParent_of_follow {r : Route} {front : List Text} (missing : tree.node? r = none)
    (made : after.node? r = some .directory) (isFront : front <+: target.parts.dropLast)
    (reached : after.follow (tree.origin target) front = .ok r) :
    NewParent tree after target r :=
  ⟨missing, made, mem_way_iff.mpr ⟨front, isFront, (follow_eq_walk reached).symm⟩⟩

theorem Spares.of_elsewhere {files : List Route} (closed : tree.Closed)
    (current : after.current = tree.current)
    (elsewhere : ∀ r ∉ files, after.node? r = tree.node? r ∨ NewParent tree after target r) :
    Spares tree after target files := by
  refine ⟨current, elsewhere, fun r new below isBelow there => ?_⟩
  by_cases listed : below ∈ files
  · exact .inl listed
  · rcases elsewhere below listed with same | newBelow
    · -- Nothing stood below a place where nothing was, so this cannot have been there before.
      obtain ⟨names, rfl⟩ := isBelow
      exact absurd (same.trans (closed.below new.missing names)) there
    · exact .inr newBelow

theorem Replaced.spares (h : Replaced tree after target data) (closed : tree.Closed) :
    Spares tree after target [tree.placeOf target] := by
  refine .of_elsewhere closed h.current fun r other => ?_
  have apart : r ≠ tree.placeOf target := fun same => other (List.mem_singleton.mpr same)
  refine (h.elsewhere r apart).imp_right ?_
  rintro ⟨missing, made, front, isFront, reached⟩
  exact newParent_of_follow missing made isFront reached

theorem Furnished.spares (h : Furnished tree after (tree.origin target) target.parts.dropLast)
    (closed : tree.Closed) : Spares tree after target [] := by
  refine .of_elsewhere closed h.current fun r _ => (h.node r).imp_right ?_
  rintro ⟨missing, made, front, isFront, reached⟩
  exact newParent_of_follow missing made isFront reached

theorem Spares.place (h : Spares tree after target []) (apart : tree.Apart target) :
    after.node? (tree.placeOf target) = tree.node? (tree.placeOf target) := by
  rcases h.elsewhere (tree.placeOf target) List.not_mem_nil with same | new
  · exact same
  · exact absurd new.passed (apart new.missing)

end FileTree

namespace AtomicWrite

/--
A write gives the file all of the data, or fails and leaves it as it was; a path that is steady then
shows what it showed. In either case nothing else changes, but for directories that are made on the
way to the file.
-/
theorem run_spares (refusal : Option OsCause) (target : Path) (data : Bytes) {tree : FileTree}
    (closed : tree.Closed) (apart : tree.Apart target) :
    Ensures (run refusal target data) tree fun result after =>
      match result with
      | .ok _ => after.read target = .ok data ∧ Spares tree after target [tree.placeOf target]
      | .error _ =>
          after.node? (tree.placeOf target) = tree.node? (tree.placeOf target) ∧
            (tree.Steady target → after.look target = tree.look target) ∧
            Spares tree after target [] := by
  refine (run_spec refusal target data tree).mono ?_
  intro result after ended
  cases result with
  | ok _ => exact ⟨Replaced.read ended, Replaced.spares ended closed⟩
  | error e =>
      have spares := ended.1.spares closed
      have same := spares.place apart
      exact ⟨same, fun steady => look_of_steady closed steady ended.current ended.persists same,
        spares⟩

def usedTree : FileTree :=
  ⟨[([Text.ofString "d"], .directory),
    ([Text.ofString "d", Text.ofString "f"], .file [0x31])], []⟩

theorem closed_usedTree : usedTree.Closed := by
  have wellFormed : usedTree.WellFormed :=
    wellFormed_of_nodes (by decide) rfl (by simp [usedTree])
  exact wellFormed.closed

/-- A way to the directory `/d`, behind a directory that is not there yet. -/
def occupiedPath : Path :=
  ⟨1, [Text.ofString "n", parentName, Text.ofString "d"]⟩

/-- A directory is made on the way, and no file takes the place of the other. -/
theorem run_spares_occupied :
    usedTree.Closed ∧ usedTree.Apart occupiedPath ∧
      Ensures (run none occupiedPath [0x32]) usedTree fun result after =>
        (result.isOk = false ∧ after.node? [Text.ofString "n"] = some .directory) ∧
          after.node? (usedTree.placeOf occupiedPath) = some .directory ∧
          Spares usedTree after occupiedPath [] := by
  have apart : usedTree.Apart occupiedPath := by decide
  have made : Ensures (run none occupiedPath [0x32]) usedTree fun result after =>
      result.isOk = false ∧ after.node? [Text.ofString "n"] = some .directory := by
    unfold Ensures
    decide +kernel
  refine ⟨closed_usedTree, apart, ?_⟩
  refine (made.and (run_spares none occupiedPath [0x32] closed_usedTree apart)).mono ?_
  rintro (e | _) after ⟨⟨failed, directory⟩, ended⟩
  · obtain ⟨same, -, spares⟩ := ended
    exact ⟨⟨failed, directory⟩, same, spares⟩
  · cases failed

def ownPath : Path :=
  ⟨1, [Text.ofString "d", Text.ofString "g", parentName, Text.ofString "g"]⟩

/-- On such a path a directory is made in the place of the file, and the write fails then. -/
theorem run_not_spares_own :
    usedTree.Closed ∧ usedTree.node? (usedTree.placeOf ownPath) = none ∧
      Ensures (run none ownPath [0x32]) usedTree fun result after =>
        result.isOk = false ∧ after.node? (usedTree.placeOf ownPath) = some .directory := by
  refine ⟨closed_usedTree, by decide, ?_⟩
  unfold Ensures
  decide +kernel

end AtomicWrite

end SiteFilter
