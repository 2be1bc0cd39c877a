import SiteFilter.FileTree.Action
import SiteFilter.Proofs.Effects
import SiteFilter.Proofs.FileTree.Looking

/-!
# Making directories

Whether or not the directories above a file can all be made, nothing else changes in the tree:
every place is as before, or it was missing and is a directory on the way to the file now.
-/

namespace SiteFilter

def Fault.IsOs (e : Fault) : Prop :=
  ∃ refusal, e = .os refusal

namespace FileTree

/-- A tree with directories more, on the way that names lead from a place. -/
structure Furnished (tree after : FileTree) (route : Route) (names : List Text) : Prop where
  current : after.current = tree.current
  node : ∀ r, after.node? r = tree.node? r ∨
    (tree.node? r = none ∧ after.node? r = some .directory ∧
      ∃ front, front <+: names ∧ after.follow route front = .ok r)

namespace Furnished

theorem refl (tree : FileTree) (route : Route) (names : List Text) :
    Furnished tree tree route names :=
  ⟨rfl, fun _ => .inl rfl⟩

theorem directories {tree after : FileTree} {route : Route} {names : List Text}
    (h : Furnished tree after route names) {r : Route} (there : tree.node? r = some .directory) :
    after.node? r = some .directory := by
  rcases h.node r with same | ⟨missing, -⟩
  · exact same.trans there
  · rw [there] at missing
    cases missing

theorem persists {tree after : FileTree} {route : Route} {names : List Text}
    (h : Furnished tree after route names) (r : Route) :
    Persists (tree.node? r) (after.node? r) := by
  rcases h.node r with same | ⟨missing, -⟩
  · exact .of_eq same
  · rw [missing]
    trivial

theorem weaken {tree after : FileTree} {route : Route} {names more : List Text}
    (h : Furnished tree after route names) (front : names <+: more) :
    Furnished tree after route more := by
  refine ⟨h.current, fun r => ?_⟩
  rcases h.node r with same | ⟨missing, made, reach, isFront, reached⟩
  · exact .inl same
  · exact .inr ⟨missing, made, reach, isFront.trans front, reached⟩

theorem trans {tree middle after : FileTree} {route : Route} {names : List Text}
    (first : Furnished tree middle route names) (second : Furnished middle after route names) :
    Furnished tree after route names := by
  refine ⟨second.current.trans first.current, fun r => ?_⟩
  rcases second.node r with same | ⟨missing, made, reach, isFront, reached⟩
  · rcases first.node r with same' | ⟨missing, made, reach, isFront, reached⟩
    · exact .inl (same.trans same')
    · exact .inr ⟨missing, same.trans made, reach, isFront,
        follow_mono (fun _ => second.directories) reached⟩
  · refine .inr ⟨?_, made, reach, isFront, reached⟩
    rcases first.node r with same' | ⟨missing', -⟩
    · rw [← same', missing]
    · exact missing'

end Furnished

theorem look_error_of_isNamed {tree : FileTree} {path : Path} {e : Fault} (named : path.IsNamed)
    (h : tree.look path = .error e) : e.IsOs := by
  cases found : tree.find path with
  | ok r =>
      rw [look_of_find found] at h
      cases h
  | error e' =>
      obtain ⟨cause, rfl⟩ := find_error_of_isNamed named found
      rw [look_of_find_error found] at h
      split at h
      · cases h
      · cases h
        exact ⟨_, rfl⟩

theorem hasDirectory_error_of_isNamed {tree : FileTree} {path : Path} {e : Fault}
    (named : path.IsNamed) (h : tree.hasDirectory path = .error e) : e.IsOs := by
  unfold hasDirectory at h
  split at h
  · cases h
  · rename_i refused
    cases h
    exact look_error_of_isNamed named refused

end FileTree

namespace FileAction

open FileTree Effect

theorem askThen {α β : Type} {question : FileTree → Except Fault α} {next : α → FileAction β}
    {tree : FileTree} {post : Except Fault β → FileTree → Prop}
    (ok : ∀ a, question tree = .ok a → Ensures (next a) tree post)
    (failed : ∀ e, question tree = .error e → post (.error e) tree) :
    Ensures (ask question >>= next) tree post := by
  cases answer : question tree with
  | ok a => simpa [Ensures, answer] using ok a answer
  | error e => simpa [Ensures, answer] using failed e answer

/-- The place of a path: the path leads there, and it stands in a directory. -/
theorem place_spec (path : Path) (tree : FileTree) :
    Ensures (place path) tree fun result after =>
      after = tree ∧
        match result with
        | .ok route => tree.find path = .ok route ∧ tree.node? route.dropLast = some .directory
        | .error e => path.IsNamed → e.IsOs := by
  apply askThen
  · intro route found
    apply Ensures.getThen
    split
    · rename_i directory
      exact .pure ⟨rfl, found, directory⟩
    · exact .throw ⟨rfl, fun _ => ⟨_, rfl⟩⟩
    · exact .throw ⟨rfl, fun _ => ⟨_, rfl⟩⟩
  · intro e refused
    refine ⟨rfl, fun named => ?_⟩
    obtain ⟨cause, same⟩ := find_error_of_isNamed named refused
    exact ⟨_, same⟩

def Furnishes (tree : FileTree) (path : Path) (result : Except Fault Unit) (after : FileTree) :
    Prop :=
  Furnished tree after (tree.origin path) path.parts ∧
    ∀ e, result = .error e → path.IsNamed → e.IsOs

theorem Furnishes.refused {tree : FileTree} {path : Path} {e : Fault} (h : path.IsNamed → e.IsOs) :
    Furnishes tree path (.error e) tree :=
  ⟨.refl tree _ _, fun _ same => by cases same; exact h⟩

theorem makeDirectory_spec (path : Path) (tree : FileTree) :
    Ensures (makeDirectory path) tree fun result after =>
      Furnishes tree path result after ∧ ∀ e, result = .error e → after = tree := by
  refine .bind (place_spec path tree) ?_ ?_
  · rintro route tree ⟨rfl, found, -⟩
    apply Ensures.getThen
    split
    · exact .throw ⟨.refused fun _ => ⟨_, rfl⟩, fun _ _ => rfl⟩
    · rename_i missing
      refine .change ⟨⟨⟨rfl, fun r => ?_⟩, nofun⟩, nofun⟩
      have below : route ≠ [] := ne_nil_of_ne_directory (by rw [missing]; nofun)
      by_cases here : r = route
      · subst here
        have made : (tree.put r .directory).node? r = some .directory := by simp [below]
        have found' : (tree.put r .directory).find path = .ok r := find_put found below (.inl rfl)
        exact .inr ⟨missing, made, path.parts, List.prefix_refl _, (find_eq_ok_iff.mp found').2⟩
      · exact .inl (by simp [below, here])
  · rintro e _ ⟨rfl, os⟩
    exact ⟨.refused os, fun _ _ => rfl⟩

/-- A refusal that is taken back or not changes nothing. -/
theorem unlessDirectory_spec (path : Path) (e : Fault) (tree : FileTree)
    (os : path.IsNamed → e.IsOs) :
    Ensures (unlessDirectory path e) tree fun result after =>
      after = tree ∧ ∀ e', result = .error e' → path.IsNamed → e'.IsOs := by
  cases e with
  | os refusal =>
      apply askThen
      · intro answer _
        cases answer with
        | true => exact .pure ⟨rfl, nofun⟩
        | false => exact .throw ⟨rfl, fun _ same _ => by cases same; exact ⟨_, rfl⟩⟩
      · intro e' refused
        refine ⟨rfl, fun _ same named => ?_⟩
        cases same
        exact hasDirectory_error_of_isNamed named refused
  | _ => exact .throw ⟨rfl, fun _ same named => by cases same; exact os named⟩

theorem ensureDirectory_spec (path : Path) (tree : FileTree) :
    Ensures (ensureDirectory path) tree (Furnishes tree path) := by
  refine .tryCatch (makeDirectory_spec path tree) ?_ ?_
  · rintro _ after ⟨made, -⟩
    exact made
  · rintro e after ⟨⟨-, os⟩, unchanged⟩
    cases unchanged e rfl
    refine (unlessDirectory_spec path e tree (os e rfl)).mono ?_
    rintro result _ ⟨rfl, os'⟩
    exact ⟨.refl _ _ _, os'⟩

theorem makeDirectoriesFrom_spec (fuel : Nat) (path : Path) (tree : FileTree) :
    Ensures (makeDirectoriesFrom fuel path) tree (Furnishes tree path) := by
  induction fuel generalizing path tree with
  | zero => exact ensureDirectory_spec path tree
  | succ fuel ih =>
      refine .tryCatch (makeDirectory_spec path tree) ?_ ?_
      · rintro _ after ⟨made, -⟩
        exact made
      · rintro e after ⟨⟨-, os⟩, unchanged⟩
        cases unchanged e rfl
        have front : path.parent.parts <+: path.parts := List.dropLast_prefix _
        split
        · split
          · exact .throw (.refused fun _ => ⟨_, rfl⟩)
          · -- The directories above are made first, and the refusal may be one of theirs.
            refine .bind (ih path.parent tree) ?_ ?_
            · rintro _ middle ⟨above, -⟩
              have start : middle.origin path = tree.origin path := origin_eq above.current path
              refine (ensureDirectory_spec path middle).mono ?_
              rintro result last ⟨own, os'⟩
              rw [start] at own
              exact ⟨(above.weaken front).trans own, os'⟩
            · rintro e' middle ⟨above, os'⟩
              refine ⟨above.weaken front, fun _ same named => ?_⟩
              cases same
              exact os' e' rfl fun part inside => named part (front.subset inside)
        · refine (unlessDirectory_spec path e tree (os e rfl)).mono ?_
          rintro result _ ⟨rfl, os'⟩
          exact ⟨.refl _ _ _, os'⟩

/-- Making the directories of a path. -/
theorem makeDirectories_spec (path : Path) (tree : FileTree) :
    Ensures (makeDirectories path) tree (Furnishes tree path) :=
  makeDirectoriesFrom_spec _ path tree

end FileAction

end SiteFilter
