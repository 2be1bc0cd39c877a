import SiteFilter.Proofs.FileTree.AtomicWrite

/-!
# What a path goes on to show

What stands in the place of a path stays there when only directories are made, or other files
change. A steady path then goes on to show it, and what was read can be read again.
-/

namespace SiteFilter

open FileTree Effect

namespace FileTree

/-! ## Files that are read -/

theorem read_of_find {tree : FileTree} {path : Path} {r : Route} {content : Bytes}
    (found : tree.find path = .ok r) (there : tree.node? r = some (.file content)) :
    tree.read path = .ok content := by
  obtain ⟨fits, followed⟩ := find_eq_ok_iff.mp found
  have shows := shows_of_follow followed
  rw [there] at shows
  exact read_of_shows fits shows

theorem find_of_read {tree : FileTree} {path : Path} {content : Bytes}
    (h : tree.read path = .ok content) :
    tree.find path = .ok (tree.placeOf path) ∧
      tree.node? (tree.placeOf path) = some (.file content) := by
  obtain ⟨fits, shows⟩ := read_eq_ok_iff.mp h
  obtain ⟨followed, there⟩ := follow_of_shows_some shows
  exact ⟨find_eq_ok_iff.mpr ⟨fits, followed⟩, there⟩

/-! ## Files that are left as they are -/

def contentOf (tree : FileTree) (path : Path) : Option Bytes :=
  match tree.node? (tree.placeOf path) with
  | some (.file content) => some content
  | _ => none

/--
Whether the file in the place of a path, if there is one, is left as it is and goes on to be found.
Where nothing is there may come to be a directory.
-/
structure Retains (files after : FileTree) (path : Path) : Prop where
  current : after.current = files.current
  persists : ∀ r ∈ files.wayOf path, Persists (files.node? r) (after.node? r)
  place : after.node? (files.placeOf path) = files.node? (files.placeOf path) ∨
    (files.node? (files.placeOf path) = none ∧
      after.node? (files.placeOf path) = some .directory)

namespace Retains

variable {files middle after : FileTree} {path : Path}

theorem of_eq (h : after = files) : Retains files after path :=
  h ▸ ⟨rfl, fun _ _ => .refl _, .inl rfl⟩

theorem trans (h : Retains files middle path) (h' : Retains middle after path) :
    Retains files after path := by
  have place := h'.place
  rw [placeOf_eq h.current] at place
  refine ⟨h'.current.trans h.current, fun r inside => ?_, ?_⟩
  · have inside' : r ∈ middle.wayOf path := by rwa [wayOf_eq h.current]
    exact (h.persists r inside).trans (h'.persists r inside')
  · rcases h.place with same | ⟨missing, made⟩
    · rwa [same] at place
    · rcases place with same' | ⟨missing', -⟩
      · exact .inr ⟨missing, same'.trans made⟩
      · rw [made] at missing'
        cases missing'

theorem contentOf (h : Retains files after path) : after.contentOf path = files.contentOf path := by
  unfold FileTree.contentOf
  rw [placeOf_eq h.current]
  rcases h.place with same | ⟨missing, made⟩
  · rw [same]
  · rw [missing, made]

theorem read (h : Retains files after path) {content : Bytes}
    (there : files.read path = .ok content) : after.read path = .ok content := by
  obtain ⟨fits, shows⟩ := read_eq_ok_iff.mp there
  have same : after.node? (files.placeOf path) = files.node? (files.placeOf path) := by
    rcases h.place with same | ⟨missing, -⟩
    · exact same
    · have found : files.node? (files.placeOf path) = some (.file content) :=
        (follow_of_shows_some shows).2
      rw [missing] at found
      cases found
  apply read_eq_ok_iff.mpr
  rw [origin_eq h.current]
  exact ⟨fits, shows.mono h.persists same⟩

end Retains

theorem Furnished.retains {files after : FileTree} {route : Route} {names : List Text}
    (h : Furnished files after route names) (path : Path) : Retains files after path := by
  refine ⟨h.current, fun r _ => h.persists r, ?_⟩
  rcases h.node (files.placeOf path) with same | ⟨missing, made, -⟩
  · exact .inl same
  · exact .inr ⟨missing, made⟩

theorem Replaced.retains {files after : FileTree} {target path : Path} {data : Bytes}
    (h : Replaced files after target data) (apart : files.placeOf path ≠ files.placeOf target) :
    Retains files after path := by
  refine ⟨h.current, fun r _ => h.persists r, ?_⟩
  rcases h.elsewhere _ apart with same | ⟨missing, made, -⟩
  · exact .inl same
  · exact .inr ⟨missing, made⟩

theorem Replaced.read {files after : FileTree} {target : Path} {data : Bytes}
    (h : Replaced files after target data) : after.read target = .ok data :=
  read_of_find h.found h.written

/-! ## Steady paths -/

theorem follow_nameTooLong {tree after : FileTree} {route : Route} {names : List Text}
    (directories : ∀ r, tree.node? r = some .directory → after.node? r = some .directory)
    (h : tree.follow route names = .error .nameTooLong) :
    after.follow route names = .error .nameTooLong := by
  induction names generalizing route with
  | nil => cases h
  | cons name names ih =>
      unfold follow at h
      split at h
      · cases h
      · rename_i directory
        rw [follow, directories _ directory]
        dsimp only
        split at h
        · rename_i back
          rw [if_pos back]
          exact ih h
        · rename_i back
          rw [if_neg back]
          split at h
          · rename_i long
            rw [if_pos long]
          · rename_i long
            rw [if_neg long]
            exact ih h
      · cases h

/-- A path that cannot be looked for is refused in the same way in every tree. -/
theorem find_eq_of_not_fits {tree after : FileTree} {path : Path} (unfit : ¬ Fits path) :
    after.find path = tree.find path := by
  unfold find
  unfold Fits at unfit
  dsimp only
  split
  · rfl
  · rename_i clean
    split
    · rfl
    · rename_i noNul
      rw [if_pos, if_pos]
      all_goals
        apply Classical.byContradiction
        intro short
        exact unfit ⟨clean, by simpa using noNul, by omega⟩

theorem look_eq_of_find {tree after : FileTree} {path : Path}
    (find : after.find path = tree.find path)
    (node : ∀ r, tree.find path = .ok r → after.node? r = tree.node? r) :
    after.look path = tree.look path := by
  have stat : after.stat path = tree.stat path := by
    cases found : tree.find path with
    | ok r =>
        rw [stat_of_find found, stat_of_find (find.trans found), node r found]
    | error e =>
        unfold FileTree.stat
        rw [find, found]
        rfl
  unfold look
  rw [stat]

/-- A steady path goes on to show what it showed when nothing changes in its own place. -/
theorem look_of_steady {tree after : FileTree} {path : Path} (closed : tree.Closed)
    (steady : tree.Steady path) (current : after.current = tree.current)
    (kept : ∀ r, Persists (tree.node? r) (after.node? r))
    (same : after.node? (tree.placeOf path) = tree.node? (tree.placeOf path)) :
    after.look path = tree.look path := by
  have directories (r : Route) (there : tree.node? r = some .directory) :
      after.node? r = some .directory := by
    have persists := kept r
    rw [there] at persists
    exact persists
  by_cases fits : Fits path
  · cases followed : tree.follow (tree.origin path) path.parts with
    | ok r =>
        have shows := (shows_of_follow followed).mono (fun r _ => kept r) same
        rw [look_of_find (find_eq_ok_iff.mpr ⟨fits, followed⟩)]
        rw [← origin_eq current] at shows
        exact look_of_shows fits shows
    | error cause =>
        by_cases long : cause = .nameTooLong
        · subst long
          have followed' := follow_nameTooLong directories followed
          rw [← origin_eq current] at followed'
          apply look_eq_of_find
          · rw [find_of_follow_error fits followed, find_of_follow_error fits followed']
          · intro r found
            rw [find_of_follow_error fits followed] at found
            cases found
        · have shows := shows_of_follow_error closed steady followed long
          have shows' := shows.mono (fun r _ => kept r) same
          rw [← origin_eq current] at shows'
          rw [look_of_shows fits shows, look_of_shows fits shows']
  · apply look_eq_of_find (find_eq_of_not_fits fits)
    intro r found
    exact absurd (find_eq_ok_iff.mp found).1 fits

end FileTree

end SiteFilter
