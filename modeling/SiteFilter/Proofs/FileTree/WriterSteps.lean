import Mathlib.Logic.Relation
import SiteFilter.Proofs.FileTree.Writing

/-!
# The steps of a writer

Replacing a file is a course of steps on the tree: directories are made, a temporary file is created
and filled, and it is moved to its place or taken away.
-/

namespace SiteFilter

open FileTree Effect

namespace AtomicWrite

open FileAction

/-! ## Stages and moves -/

/-- A temporary file that a writer has made, with what is in it so far. -/
structure Temporary where
  path : Path
  route : Route
  content : Bytes

/-- Where a writer is in its work. -/
inductive Stage
  /-- The directories are being made. -/
  | entering
  | writing (file : Temporary)
  /-- The temporary file is complete. -/
  | synced (file : Temporary)
  /-- A step failed, and the temporary file is to be taken away. -/
  | cleaning (file : Temporary)
  | returned
  | failed
  | crashed

namespace Stage

def file? : Stage → Option Temporary
  | .writing file | .synced file | .cleaning file => some file
  | .entering | .returned | .failed | .crashed => none

def Works : Stage → Prop
  | .returned | .failed | .crashed => False
  | _ => True

end Stage

/-- A path leads to a free place that is not the one of the target. -/
structure IsFresh (tree : FileTree) (target path : Path) (route : Route) : Prop where
  found : tree.find path = .ok route
  free : tree.node? route = none
  apart : route ≠ tree.placeOf target

def treeAfter (action : FileAction Unit) (tree : FileTree) : FileTree :=
  (exec action tree).2

def IsDone (action : FileAction Unit) (tree : FileTree) : Prop :=
  (exec action tree).1 = .ok ()

/--
A step of a writer that brings `data` to a target. The directories above the target are made one by
one, and the data comes in pieces. A step that fails leaves the tree as it is, after a part of the
data as if that had been a piece of its own; removing the temporary file may fail as well.
-/
inductive Moves (target : Path) (data : Bytes) : FileTree → Stage → FileTree → Stage → Prop
  | makeDirectory {tree : FileTree} (front : List Text) (above : front <+: target.parent.parts) :
      Moves target data tree .entering
        (treeAfter (FileAction.makeDirectory ⟨target.slashes, front⟩) tree) .entering
  | create {tree : FileTree} (name : Text) (route : Route)
      (fresh : IsFresh tree target (tree.temporaryPath target name) route)
      (done : IsDone (perform (tree.temporaryPath target name) target .create) tree) :
      Moves target data tree .entering
        (treeAfter (perform (tree.temporaryPath target name) target .create) tree)
        (.writing ⟨tree.temporaryPath target name, route, []⟩)
  | append {tree : FileTree} (file : Temporary) (chunk : Bytes)
      (part : file.content ++ chunk <+: data)
      (done : IsDone (perform file.path target (.append chunk)) tree) :
      Moves target data tree (.writing file)
        (treeAfter (perform file.path target (.append chunk)) tree)
        (.writing { file with content := file.content ++ chunk })
  | sync {tree : FileTree} (file : Temporary) (whole : file.content = data) :
      Moves target data tree (.writing file) (treeAfter (perform file.path target .sync) tree)
        (.synced file)
  | replace {tree : FileTree} (file : Temporary)
      (done : IsDone (perform file.path target .replace) tree) :
      Moves target data tree (.synced file) (treeAfter (perform file.path target .replace) tree)
        .returned
  | giveUp {tree : FileTree} : Moves target data tree .entering tree .failed
  | failWriting {tree : FileTree} {file : Temporary} :
      Moves target data tree (.writing file) tree (.cleaning file)
  | failReplacing {tree : FileTree} {file : Temporary} :
      Moves target data tree (.synced file) tree (.cleaning file)
  | discard {tree : FileTree} (file : Temporary) :
      Moves target data tree (.cleaning file) (treeAfter (AtomicWrite.discard file.path) tree)
        .failed
  | leave {tree : FileTree} {file : Temporary} :
      Moves target data tree (.cleaning file) tree .failed
  | crash {tree : FileTree} {stage : Stage} (works : stage.Works) :
      Moves target data tree stage tree .crashed

/-- Only a writer that has not ended takes steps. -/
theorem Moves.works {tree after : FileTree} {target : Path} {data : Bytes} {stage stage' : Stage}
    (moves : Moves target data tree stage after stage') : stage.Works := by
  cases moves with
  | crash works => exact works
  | _ => trivial

/-! ## The program takes these steps -/

def Stage.ended : Except Fault Unit → Stage
  | .ok _ => .returned
  | .error _ => .failed

/-- A writer takes some steps alone. -/
def Course (target : Path) (data : Bytes) : FileTree × Stage → FileTree × Stage → Prop :=
  Relation.ReflTransGen fun before after => Moves target data before.1 before.2 after.1 after.2

variable {tree after : FileTree} {target : Path} {data : Bytes} {stage stage' : Stage}

theorem Moves.course (moves : Moves target data tree stage after stage') :
    Course target data (tree, stage) (after, stage') :=
  .single moves

/-- Making a directory is a step, and then perhaps a refusal that changes nothing. -/
theorem makeDirectory_course (tree : FileTree) {front : List Text}
    (above : front <+: target.parent.parts) :
    Ensures (FileAction.makeDirectory ⟨target.slashes, front⟩) tree fun result after =>
      Course target data (tree, .entering) (after, .entering) ∧
        ∀ e, result = .error e → Path.IsNamed ⟨target.slashes, front⟩ → e.IsOs := by
  have step : Ensures (FileAction.makeDirectory ⟨target.slashes, front⟩) tree fun _ after =>
      Course target data (tree, .entering) (after, .entering) :=
    (Moves.makeDirectory _ above).course
  refine (step.and (makeDirectory_spec _ tree)).mono ?_
  rintro _ _ ⟨course, ⟨-, os⟩, -⟩
  exact ⟨course, os⟩

theorem ensureDirectory_course (tree : FileTree) {front : List Text}
    (above : front <+: target.parent.parts) :
    Ensures (ensureDirectory ⟨target.slashes, front⟩) tree fun _ after =>
      Course target data (tree, .entering) (after, .entering) := by
  refine .tryCatch (makeDirectory_course tree above) (fun _ _ course => course.1) ?_
  rintro e between ⟨course, os⟩
  refine (unlessDirectory_spec _ e between (os e rfl)).mono ?_
  rintro _ _ ⟨rfl, -⟩
  exact course

theorem makeDirectoriesFrom_course (fuel : Nat) (tree : FileTree) {front : List Text}
    (above : front <+: target.parent.parts) :
    Ensures (makeDirectoriesFrom fuel ⟨target.slashes, front⟩) tree fun _ after =>
      Course target data (tree, .entering) (after, .entering) := by
  induction fuel generalizing tree front with
  | zero => exact ensureDirectory_course tree above
  | succ fuel ih =>
      refine .tryCatch (makeDirectory_course tree above) (fun _ _ course => course.1) ?_
      rintro e between ⟨course, os⟩
      split
      · split
        · exact .throw course
        · refine .bind (ih between ((List.dropLast_prefix front).trans above)) ?_ ?_
          · intro _ middle fore
            exact (ensureDirectory_course middle above).mono fun _ _ last =>
              (course.trans fore).trans last
          · exact fun _ _ fore => course.trans fore
      · refine (unlessDirectory_spec _ e between (os e rfl)).mono ?_
        rintro _ _ ⟨rfl, -⟩
        exact course

theorem makeDirectories_course (target : Path) (data : Bytes) (tree : FileTree) :
    Ensures (makeDirectories target.parent) tree fun _ after =>
      Course target data (tree, .entering) (after, .entering) :=
  makeDirectoriesFrom_course _ tree (List.prefix_refl _)

/-- The place of the target is not that of a temporary file, which is free. -/
theorem apart_of_free (wellFormed : tree.WellFormed)
    (there : tree.hasDirectory target.parent = .ok true)
    (ordinary : ∀ n, target.parts.getLast? ≠ some (temporaryName n)) {directory : Route} {n : Nat}
    (free : tree.node? (directory ++ [temporaryName n]) = none) :
    directory ++ [temporaryName n] ≠ tree.placeOf target := by
  intro same
  rw [same] at free
  rcases List.eq_nil_or_concat target.parts with none | ⟨front, name, parts⟩
  · have start : tree.placeOf target = tree.origin target := by
      rw [placeOf, none]
      rfl
    rw [start, wellFormed.origin target] at free
    cases free
  · rw [List.concat_eq_append] at parts
    have place : tree.placeOf target = advance (tree.placeOf target.parent) name := by
      rw [placeOf, parts, walk_append, placeOf, Path.parent, parts, List.dropLast_concat]
      rfl
    rw [place, advance] at same free
    split at same
    · rename_i back
      have stands := (hasDirectory_iff.mp there).2.2 _ (placeOf_mem_wayOf _ _)
      rw [if_pos back, wellFormed.closed.dropLast stands] at free
      cases free
    · have last := (List.append_inj' same rfl).2
      refine ordinary n ?_
      rw [parts, List.getLast?_concat, List.singleton_inj.mp last]

/-- The temporary file is created in a fresh place. -/
theorem create_course (data : Bytes) (wellFormed : tree.WellFormed)
    (there : tree.hasDirectory target.parent = .ok true)
    (ordinary : ∀ n, target.parts.getLast? ≠ some (temporaryName n)) {directory : Route}
    (found : tree.find (settle tree.current target.parent) = .ok directory) {temporary : Path}
    (path : temporary = tree.temporaryPath target (freshName tree directory)) :
    Ensures (perform temporary target .create) tree fun result after =>
      match result with
      | .ok _ => ∃ route, Beside tree after temporary route [] ∧
          Course target data (tree, .entering) (after, .writing ⟨temporary, route, []⟩)
      | .error _ => after = tree := by
  subst path
  have step : Ensures (perform (tree.temporaryPath target (freshName tree directory)) target .create)
      tree fun result after => result = .ok () → ∀ route,
        IsFresh tree target (tree.temporaryPath target (freshName tree directory)) route →
          Course target data (tree, .entering)
            (after, .writing ⟨tree.temporaryPath target (freshName tree directory), route, []⟩) :=
    fun done _ fresh => (Moves.create _ _ fresh done).course
  have created : Ensures
      (perform (tree.temporaryPath target (freshName tree directory)) target .create) tree _ :=
    create_spec fun r placed => (free_temporary found placed).1
  refine (step.and created).mono ?_
  rintro result after ⟨course, created⟩
  cases result with
  | error _ => exact created.1
  | ok _ =>
      obtain ⟨route, placed, beside⟩ := created
      obtain ⟨free, n, rfl⟩ := free_temporary found placed
      exact ⟨_, beside, course rfl _ ⟨placed, free, apart_of_free wellFormed there ordinary free⟩⟩

/-- The data is brought in one piece, and the file is moved to its place. -/
theorem steps_course {temporary : Path} {route : Route}
    (beside : Beside tree after temporary route []) :
    Ensures ((steps data).forM (perform temporary target)) after fun result final =>
      match result with
      | .ok _ => Course target data (after, .writing ⟨temporary, route, []⟩) (final, .returned)
      | .error _ => Course target data (after, .writing ⟨temporary, route, []⟩)
          (final, .cleaning ⟨temporary, route, data⟩) := by
  change Ensures (do
    perform temporary target (.append data)
    perform temporary target .sync
    perform temporary target .replace
    pure PUnit.unit) after _
  have filled : Ensures (perform temporary target (.append data)) after fun result full =>
      result = .ok () → Course target data (after, .writing ⟨temporary, route, []⟩)
        (full, .writing ⟨temporary, route, data⟩) :=
    fun done => (Moves.append ⟨temporary, route, []⟩ data (List.prefix_refl _) done).course
  have appended : Ensures (perform temporary target (.append data)) after _ :=
    append_spec beside data
  refine .bindOk ((filled.and appended).mono
    fun _ _ ⟨course, done, beside⟩ => ⟨done, And.intro (course done) beside⟩) ?_
  rintro full ⟨filled, beside⟩
  apply Ensures.pureThen
  have synced : Course target data (after, .writing ⟨temporary, route, []⟩)
      (full, .synced ⟨temporary, route, data⟩) :=
    filled.trans (Moves.sync ⟨temporary, route, data⟩ rfl).course
  have moved : Ensures (perform temporary target .replace) full fun result final =>
      result = .ok () →
        Course target data (full, .synced ⟨temporary, route, data⟩) (final, .returned) :=
    fun done => (Moves.replace ⟨temporary, route, data⟩ done).course
  have replaced : Ensures (perform temporary target .replace) full _ := replace_spec beside
  refine .bind (moved.and replaced) ?_ ?_
  · rintro _ final ⟨moved, -⟩
    exact .pure (synced.trans (moved rfl))
  · rintro e _ ⟨-, rfl, -⟩
    exact synced.tail .failReplacing

/-- When the data cannot be brought, the temporary file is taken away. -/
theorem orDiscard_course {write : FileAction Unit} {temporary : Path} {route : Route}
    {start : FileTree × Stage}
    (written : Ensures write tree fun result final =>
      match result with
      | .ok _ => Course target data start (final, .returned)
      | .error _ => ∃ content, Course target data start
          (final, .cleaning ⟨temporary, route, content⟩)) :
    Ensures (tryCatch write fun e => do discard temporary; throw e) tree fun result final =>
      Course target data start (final, Stage.ended result) := by
  refine .tryCatch written (fun _ _ course => course) ?_
  rintro e between ⟨content, cleaning⟩
  have taken : Ensures (discard temporary) between fun _ after =>
      Course target data (between, .cleaning ⟨temporary, route, content⟩) (after, .failed) :=
    (Moves.discard ⟨temporary, route, content⟩).course
  exact .bind taken (fun _ _ course => .throw (cleaning.trans course))
    fun _ _ course => cleaning.trans course

/-- Writing, which may meet a refusal from outside. -/
theorem writing_course (refusal : Option OsCause) {temporary : Path} {route : Route}
    {start : FileTree × Stage} (beside : Beside tree after temporary route [])
    (before : Course target data start (after, .writing ⟨temporary, route, []⟩)) :
    Ensures
      (match refusal with
      | some cause => FileAction.refuse cause temporary
      | none => (steps data).forM (perform temporary target))
      after fun result final =>
        match result with
        | .ok _ => Course target data start (final, .returned)
        | .error _ => ∃ content, Course target data start
            (final, .cleaning ⟨temporary, route, content⟩) := by
  cases refusal with
  | some cause => exact .throw ⟨[], before.tail .failWriting⟩
  | none =>
      refine (steps_course beside).mono fun result final course => ?_
      cases result with
      | ok _ => exact before.trans course
      | error _ => exact ⟨data, before.trans course⟩

/-- Replacing a file takes the steps of a writer, to its return or its failure. -/
theorem run_course (wellFormed : tree.WellFormed)
    (ordinary : ∀ n, target.parts.getLast? ≠ some (temporaryName n)) (refusal : Option OsCause)
    (data : Bytes) :
    Ensures (run refusal target data) tree fun result after =>
      Course target data (tree, .entering) (after, Stage.ended result) := by
  refine .bind ((makeDirectories_course target data tree).and
    ((makeDirectories_isOk wellFormed target.parent).and (makeDirectories_spec target.parent tree)))
    ?_ ?_
  · rintro _ middle ⟨entering, ⟨-, there⟩, furnished, -⟩
    apply Ensures.getThen
    apply askThen
    · intro directory found
      refine .bind (create_course data (furnished.wellFormed wellFormed) (there rfl)
        ordinary found rfl) ?_ ?_
      · rintro _ created ⟨route, beside, course⟩
        exact orDiscard_course (writing_course refusal beside (entering.trans course))
      · rintro e _ rfl
        exact entering.tail .giveUp
    · intro e _
      exact entering.tail .giveUp
  · rintro e middle ⟨entering, -⟩
    exact entering.tail .giveUp

end AtomicWrite

end SiteFilter
