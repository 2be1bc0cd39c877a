import SiteFilter.Proofs.FileTree.WellFormed

/-!
# When directories can be made

In a tree as a file system shows it, the directories of a path are made just when the path can be
passed.
-/

namespace SiteFilter

open FileTree Effect

namespace FileAction

def Prepares (path : Path) (result : Except Fault Unit) (after : FileTree) : Prop :=
  result = .ok () → after.hasDirectory path = .ok true

theorem makeDirectory_prepares (path : Path) (tree : FileTree) :
    Ensures (makeDirectory path) tree (Prepares path) := by
  refine .bind (place_spec path tree) ?_ fun _ _ _ => nofun
  rintro route tree ⟨rfl, found, -⟩
  apply Ensures.getThen
  split
  · exact .throw nofun
  · rename_i missing
    have below : route ≠ [] := ne_nil_of_ne_directory (by rw [missing]; nofun)
    have there : (tree.put route .directory).node? route = some .directory := by simp [below]
    have found' : (tree.put route .directory).find path = .ok route :=
      find_put found below (.inl rfl)
    obtain ⟨fits, followed⟩ := find_eq_ok_iff.mp found'
    exact .change fun _ =>
      hasDirectory_iff.mpr ⟨fits, isShort_of_follow followed, way_of_follow followed there⟩

theorem unlessDirectory_prepares (path : Path) (e : Fault) (tree : FileTree) :
    Ensures (unlessDirectory path e) tree (Prepares path) := by
  cases e with
  | os refusal =>
      apply askThen
      · intro answer known
        cases answer with
        | true => exact .pure fun _ => known
        | false => exact .throw nofun
      · exact fun _ _ => nofun
  | _ => exact .throw nofun

theorem ensureDirectory_prepares (path : Path) (tree : FileTree) :
    Ensures (ensureDirectory path) tree (Prepares path) :=
  .tryCatch (makeDirectory_prepares path tree) (fun _ _ made => made)
    fun e middle _ => unlessDirectory_prepares path e middle

theorem makeDirectoriesFrom_prepares (fuel : Nat) (path : Path) (tree : FileTree) :
    Ensures (makeDirectoriesFrom fuel path) tree (Prepares path) := by
  cases fuel with
  | zero => exact ensureDirectory_prepares path tree
  | succ fuel =>
      refine .tryCatch (makeDirectory_prepares path tree) (fun _ _ made => made) ?_
      rintro e middle -
      split
      · split
        · exact .throw nofun
        · exact .bind (makeDirectoriesFrom_spec fuel path.parent middle)
            (fun _ above _ => ensureDirectory_prepares path above) fun _ _ _ => nofun
      · exact unlessDirectory_prepares path e middle

section Success

variable {tree : FileTree} {path : Path}

/-- In the directory above it, a path finds its place. -/
theorem find_below (wellFormed : tree.WellFormed) (fits : Fits path) (short : IsShort path.parts)
    (above : tree.hasDirectory path.parent = .ok true) :
    tree.find path = .ok (tree.placeOf path) ∧
      tree.node? (tree.placeOf path).dropLast = some .directory := by
  obtain ⟨-, -, directories⟩ := hasDirectory_iff.mp above
  rcases List.eq_nil_or_concat path.parts with none | ⟨front, name, same⟩
  · obtain ⟨-, -, here⟩ := hasDirectory_iff.mp (wellFormed.root fits none)
    exact ⟨find_eq_ok_iff.mpr ⟨fits, follow_of_way short here⟩,
      wellFormed.closed.dropLast (here _ (tree.placeOf_mem_wayOf path))⟩
  · rw [List.concat_eq_append] at same
    have parent : path.parent.parts = front := by
      rw [Path.parent, same, List.dropLast_concat]
    rw [same] at short
    have frontShort : IsShort front :=
      fun other inside => short other (List.mem_append_left _ inside)
    have frontWay : ∀ r ∈ way (tree.origin path) front, tree.node? r = some .directory := by
      rw [← parent]
      exact directories
    have last := frontWay _ (walk_mem_way _ _)
    have place : tree.placeOf path = advance (walk (tree.origin path) front) name := by
      rw [placeOf, same, walk_append]
      rfl
    constructor
    · refine find_eq_ok_iff.mpr ⟨fits, ?_⟩
      rw [same, follow_append (follow_of_way frontShort frontWay),
        follow_cons last (short name (by simp)), place]
      rfl
    · rw [place, advance]
      split
      · exact wellFormed.closed.dropLast (wellFormed.closed.dropLast last)
      · rwa [List.dropLast_concat]

/-- Where a directory above is missing, a path finds nothing. -/
theorem find_missing (wellFormed : tree.WellFormed) (passable : tree.Passable path)
    (missing : tree.hasDirectory path.parent ≠ .ok true) :
    tree.find path = .error (.os ⟨.noEntry, path.text, none⟩) := by
  apply find_of_follow_error passable.fits
  rcases follow_of_free passable.short passable.way with followed | refused
  · exfalso
    apply missing
    rcases List.eq_nil_or_concat path.parts with none | ⟨front, name, same⟩
    · exact wellFormed.root passable.fits.parent (by rw [Path.parent, none]; rfl)
    · rw [List.concat_eq_append] at same
      have parent : path.parent.parts = front := by
        rw [Path.parent, same, List.dropLast_concat]
      rw [same] at followed
      refine hasDirectory_iff.mpr ⟨passable.parent.fits, passable.parent.short, ?_⟩
      rw [wayOf, parent]
      exact way_of_follow_concat followed
  · exact refused

theorem place_of_find {route : Route} (found : tree.find path = .ok route)
    (stands : tree.node? route.dropLast = some .directory) :
    Ensures (place path) tree fun result after => result = .ok route ∧ after = tree := by
  apply askThen
  · intro r same
    rw [found] at same
    cases same
    apply Ensures.getThen
    rw [stands]
    exact .pure ⟨rfl, rfl⟩
  · intro e refused
    rw [found] at refused
    cases refused

/-- Below a directory, a directory is made, or one is there. -/
theorem makeDirectory_below (wellFormed : tree.WellFormed) (passable : tree.Passable path)
    (above : tree.hasDirectory path.parent = .ok true) :
    Ensures (makeDirectory path) tree fun result after =>
      match result with
      | .ok _ => True
      | .error e => after = tree ∧ e = .os ⟨.exists, path.text, none⟩ ∧
          tree.hasDirectory path = .ok true := by
  obtain ⟨found, stands⟩ := find_below wellFormed passable.fits passable.short above
  refine .bindOk (place_of_find found stands) ?_
  rintro tree rfl
  apply Ensures.getThen
  split
  · rename_i node there
    have directory : tree.node? (tree.placeOf path) = some .directory := by
      rcases passable.way _ (tree.placeOf_mem_wayOf path) with missing | directory
      · rw [there] at missing
        cases missing
      · exact directory
    refine .throw ⟨rfl, rfl, ?_⟩
    obtain ⟨fits, followed⟩ := find_eq_ok_iff.mp found
    exact hasDirectory_iff.mpr ⟨fits, passable.short, way_of_follow followed directory⟩
  · exact .change trivial

theorem makeDirectory_missing (wellFormed : tree.WellFormed) (passable : tree.Passable path)
    (missing : tree.hasDirectory path.parent ≠ .ok true) :
    Ensures (makeDirectory path) tree fun result after =>
      result = .error (.os ⟨.noEntry, path.text, none⟩) ∧ after = tree := by
  have nowhere := find_missing wellFormed passable missing
  refine .bind (Q := fun result after =>
    result = .error (.os ⟨.noEntry, path.text, none⟩) ∧ after = tree) ?_ ?_ ?_
  · apply askThen
    · intro r found
      rw [nowhere] at found
      cases found
    · intro e refused
      rw [nowhere] at refused
      cases refused
      exact ⟨rfl, rfl⟩
  · rintro _ _ ⟨same, -⟩
    cases same
  · rintro _ _ ⟨same, rfl⟩
    cases same
    exact ⟨rfl, rfl⟩

/-- A refusal is taken back where the directory is there. -/
theorem unlessDirectory_there (there : tree.hasDirectory path = .ok true) (refusal : OsError) :
    Ensures (unlessDirectory path (.os refusal)) tree fun result _ => result = .ok () := by
  apply askThen
  · intro answer known
    rw [there] at known
    cases known
    exact .pure rfl
  · intro e refused
    rw [there] at refused
    cases refused

theorem ensureDirectory_below (wellFormed : tree.WellFormed) (passable : tree.Passable path)
    (above : tree.hasDirectory path.parent = .ok true) :
    Ensures (ensureDirectory path) tree fun result _ => result = .ok () := by
  refine .tryCatch (makeDirectory_below wellFormed passable above) (fun _ _ _ => rfl) ?_
  rintro e _ ⟨rfl, rfl, there⟩
  exact unlessDirectory_there there _

theorem makeDirectoriesFrom_passable {fuel : Nat} (enough : path.parts.length ≤ fuel)
    (wellFormed : tree.WellFormed) (passable : tree.Passable path) :
    Ensures (makeDirectoriesFrom fuel path) tree fun result _ => result = .ok () := by
  -- The fuel bounds how many directories above the path may be missing.
  induction fuel generalizing path tree with
  | zero =>
      have none : path.parts = [] := List.length_eq_zero_iff.mp (Nat.le_zero.mp enough)
      apply ensureDirectory_below wellFormed passable
      apply wellFormed.root passable.fits.parent
      rw [Path.parent, none]
      rfl
  | succ fuel ih =>
      by_cases above : tree.hasDirectory path.parent = .ok true
      · refine .tryCatch (makeDirectory_below wellFormed passable above) (fun _ _ _ => rfl) ?_
        rintro e _ ⟨rfl, rfl, there⟩
        exact unlessDirectory_there there _
      · have lower : path.parent ≠ path := by
          intro same
          have none : path.parts = [] := by
            have shorter := congrArg (·.parts.length) same
            simp only [Path.parent, List.length_dropLast] at shorter
            exact List.length_eq_zero_iff.mp (by omega)
          apply above
          rw [same]
          exact wellFormed.root passable.fits none
        refine .tryCatch (makeDirectory_missing wellFormed passable above) ?_ ?_
        · rintro _ _ ⟨same, -⟩
          cases same
        rintro e _ ⟨same, rfl⟩
        cases same
        dsimp only
        rw [if_neg lower]
        have fewer : path.parent.parts.length ≤ fuel := by
          rw [Path.parent, List.length_dropLast]
          omega
        refine .bind (Ensures.and (ih fewer wellFormed passable.parent)
          (Ensures.and (makeDirectoriesFrom_prepares fuel path.parent _)
            (makeDirectoriesFrom_spec fuel path.parent _))) ?_ ?_
        · rintro _ middle ⟨-, there, furnished, -⟩
          refine ensureDirectory_below (furnished.wellFormed wellFormed) ?_ (there rfl)
          exact (passable_iff furnished.current fun r _ => furnished.madeAt r).mpr passable
        · rintro _ _ ⟨same, -⟩
          cases same

end Success

/-- The directories of a path are made just when the path can be passed. -/
theorem makeDirectories_isOk {tree : FileTree} (wellFormed : tree.WellFormed) (path : Path) :
    Ensures (makeDirectories path) tree fun result after =>
      (result = .ok () ↔ tree.Passable path) ∧
        (result = .ok () → after.hasDirectory path = .ok true) := by
  have possible : Ensures (makeDirectories path) tree fun result _ =>
      tree.Passable path → result = .ok () :=
    fun passable => makeDirectoriesFrom_passable (Nat.le_refl _) wellFormed passable
  refine (Ensures.and possible (Ensures.and (makeDirectoriesFrom_prepares _ path tree)
    (makeDirectories_spec path tree))).mono ?_
  rintro result after ⟨passed, there, furnished, -⟩
  refine ⟨⟨fun ok => ?_, passed⟩, there⟩
  exact (passable_iff furnished.current fun r _ => furnished.madeAt r).mp
    (passable_of_hasDirectory (there ok))

end FileAction

end SiteFilter
