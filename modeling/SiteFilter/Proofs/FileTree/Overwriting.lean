import SiteFilter.Proofs.FileTree.Writing

/-!
# Writing over a file

A file may also be written in its place, over what it held. That is done just when its path offers
a place and no socket is there; then the file holds what was written.
-/

namespace SiteFilter

open FileTree Effect

namespace FileTree

/-- Whether a file can be written at a path, once the directories above it are made. -/
structure Takes (tree : FileTree) (path : Path) : Prop extends Offers tree path where
  noSocket : tree.node? (tree.placeOf path) ≠ some .socket

end FileTree

namespace FileAction

variable {tree : FileTree} {path : Path}

theorem openForWriting_spec (path : Path) (tree : FileTree) :
    Ensures (openForWriting path) tree fun result after =>
      match result with
      | .ok route => tree.find path = .ok route ∧ tree.node? route ≠ some .directory ∧
          AtomicWrite.Accepts tree path ∧ tree.node? (tree.placeOf path) ≠ some .socket ∧
          after = tree.put route (.file [])
      | .error _ => ¬ (AtomicWrite.Accepts tree path ∧
          tree.node? (tree.placeOf path) ≠ some .socket) := by
  refine .bind (AtomicWrite.place_isOk path tree) ?_ ?_
  · rintro route tree ⟨rfl, placed⟩
    obtain ⟨found, stands⟩ := (placed route).mp rfl
    obtain rfl : route = tree.placeOf path := follow_eq_walk (find_eq_ok_iff.mp found).2
    apply Ensures.getThen
    split
    · rename_i directory
      refine .throw ?_
      rintro ⟨⟨other, found', -, leaf⟩, -⟩
      rw [found] at found'
      cases found'
      exact leaf directory
    · rename_i socket
      exact .throw fun ⟨_, noSocket⟩ => noSocket socket
    · rename_i leaf noSocket
      exact Ensures.changeThen (.pure ⟨found, leaf, ⟨_, found, stands, leaf⟩, noSocket, rfl⟩)
  · rintro e _ ⟨rfl, none⟩ ⟨⟨route, found, stands, -⟩, -⟩
    cases (none route).mpr ⟨found, stands⟩

/-- Once the directories are made, a file is written where the path takes one. -/
theorem takes_iff {middle : FileTree} (wellFormed : tree.WellFormed)
    (furnished : Furnished tree middle (tree.origin path.parent) path.parent.parts)
    (above : middle.hasDirectory path.parent = .ok true) :
    AtomicWrite.Accepts middle path ∧ middle.node? (middle.placeOf path) ≠ some .socket ↔
      tree.Takes path := by
  rw [AtomicWrite.accepts_iff wellFormed furnished above, placeOf_eq furnished.current]
  constructor
  · rintro ⟨offers, noSocket⟩
    rw [furnished.node?_off offers.off] at noSocket
    exact ⟨offers, noSocket⟩
  · rintro ⟨offers, noSocket⟩
    rw [furnished.node?_off offers.off]
    exact ⟨offers, noSocket⟩

/-- A file that is written is found with what was written. -/
theorem write_spec (path : Path) (content : Bytes) (tree : FileTree) :
    Ensures (write path content) tree fun result after =>
      (result = .ok () ↔
          AtomicWrite.Accepts tree path ∧ tree.node? (tree.placeOf path) ≠ some .socket) ∧
        (result = .ok () → after.look path = .ok (some (.file content))) := by
  refine .bind (openForWriting_spec path tree) ?_ ?_
  · rintro route emptied ⟨found, leaf, accepts, noSocket, rfl⟩
    have below := ne_nil_of_ne_directory leaf
    refine .change ⟨⟨fun _ => ⟨accepts, noSocket⟩, fun _ => rfl⟩, fun _ => ?_⟩
    -- The file stands in the way of no path, since no directory stood in its place.
    have node (r : Route) : ((tree.put route (.file [])).put route (.file content)).node? r =
        if r = route then some (.file content) else tree.node? r := by
      rw [node?_put _ below, node?_put _ below]
      split <;> rfl
    have emptied : (tree.put route (.file [])).node? route ≠ some .directory := by simp [below]
    have found' : ((tree.put route (.file [])).put route (.file content)).find path = .ok route :=
      find_put (find_put found below (.inr leaf)) below (.inr emptied)
    rw [look_of_find found', node, if_pos rfl]
  · intro e after refused
    exact ⟨⟨nofun, fun possible => absurd possible refused⟩, nofun⟩

end FileAction

end SiteFilter
