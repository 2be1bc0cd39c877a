import SiteFilter.Proofs.FileTree.Retaining
import SiteFilter.Proofs.FileTree.WriterSteps
import SiteFilter.Proofs.Machine

/-!
# Several writers of one file

Writers that replace the same file take their steps in any order, may fail at any of them, and may
stop for good between two. What a path shows is what it showed in the beginning, or the whole data
of one of the writers; once a writer has returned it is the latter.
-/

namespace SiteFilter

open FileTree Effect

namespace AtomicWrite

open FileAction

/-! ## Writers side by side -/

structure Scene (ι : Type) where
  tree : FileTree
  stage : ι → Stage

def Scene.begin {ι : Type} (tree : FileTree) : Scene ι :=
  ⟨tree, fun _ => .entering⟩

variable {ι : Type} {start tree after : FileTree} {target : Path} {data : ι → Bytes}

def Step (target : Path) (data : ι → Bytes) (before after : Scene ι) : Prop :=
  ∃ i, Moves target (data i) before.tree (before.stage i) after.tree (after.stage i) ∧
    ∀ j, j ≠ i → after.stage j = before.stage j

/-- The temporary file of a writer is there, in a place that was free in the beginning. -/
structure Keeps (start tree : FileTree) (target : Path) (file : Temporary) : Prop where
  found : tree.find file.path = .ok file.route
  there : tree.node? file.route = some (.file file.content)
  fresh : start.node? file.route = none
  apart : file.route ≠ start.placeOf target

/-- What holds as long as the writers work. -/
structure Invariant (start : FileTree) (target : Path) (data : ι → Bytes) (scene : Scene ι) :
    Prop where
  current : scene.tree.current = start.current
  persists : ∀ r, Persists (start.node? r) (scene.tree.node? r)
  keeps : ∀ i file, (scene.stage i).file? = some file → Keeps start scene.tree target file
  distinct : ∀ i j file file', i ≠ j → (scene.stage i).file? = some file →
    (scene.stage j).file? = some file' → file.route ≠ file'.route
  whole : ∀ i file, scene.stage i = .synced file → file.content = data i
  place : scene.tree.node? (start.placeOf target) = start.node? (start.placeOf target) ∨
    ∃ i, scene.tree.read target = .ok (data i)
  returned : ∀ i, scene.stage i = .returned → ∃ j, scene.tree.read target = .ok (data j)

theorem invariant_begin (start : FileTree) (target : Path) (data : ι → Bytes) :
    Invariant start target data (Scene.begin start) :=
  ⟨rfl, fun _ => .refl _, nofun, nofun, nofun, .inl rfl, nofun⟩

/--
How a step changes the tree. Behind it all places are as before, or directories now that were free,
but for the place of the writer's own temporary file and the place of the target. The latter is as
before, or it has the whole data.
-/
structure Changes (start : FileTree) (target : Path) (data : Bytes) (tree after : FileTree)
    (own : Option Route) : Prop where
  current : after.current = tree.current
  directories : ∀ r, tree.node? r = some .directory → after.node? r = some .directory
  elsewhere : ∀ r, own ≠ some r → r ≠ start.placeOf target → MadeAt tree after r
  place : after.node? (start.placeOf target) = tree.node? (start.placeOf target) ∨
    (tree.node? (start.placeOf target) ≠ some .directory ∧ after.read target = .ok data)

theorem Changes.refl (start : FileTree) (target : Path) (data : Bytes) (tree : FileTree)
    (own : Option Route) : Changes start target data tree tree own :=
  ⟨rfl, fun _ => id, fun _ _ _ => .inl rfl, .inl rfl⟩

/-- The tree without a temporary file, and the file beside it. -/
theorem Keeps.beside {file : Temporary} (h : Keeps start tree target file) :
    Beside (tree.erase file.route) tree file.path file.route file.content := by
  have below : file.route ≠ [] := ne_nil_of_ne_directory (by rw [h.there]; nofun)
  refine ⟨rfl, ?_, h.found, fun r => ?_⟩
  · simp [below]
  · by_cases here : r = file.route
    · simp [here, h.there]
    · simp [below, here]

theorem Keeps.node?_erase {file : Temporary} (h : Keeps start tree target file) {r : Route}
    (other : r ≠ file.route) : (tree.erase file.route).node? r = tree.node? r := by
  simp [h.beside.root, other]

/-- What leaves all places but that of a temporary file alone changes nothing else. -/
theorem Changes.of_own {file : Route} {brought : Bytes} (apart : file ≠ start.placeOf target)
    (leaf : tree.node? file ≠ some .directory) (current : after.current = tree.current)
    (same : ∀ r, r ≠ file → after.node? r = tree.node? r) :
    Changes start target brought tree after (some file) := by
  refine ⟨current, fun r there => ?_, fun r other _ => .inl (same r ?_), .inl (same _ apart.symm)⟩
  · rw [same r, there]
    rintro rfl
    exact leaf there
  · rintro rfl
    exact other rfl

section Steps

variable {scene : Scene ι} {file : Temporary} {own : Bytes}

theorem changes_makeDirectory (wellFormed : start.WellFormed) (steady : start.Steady target)
    (current : tree.current = start.current)
    (persists : ∀ r, Persists (start.node? r) (tree.node? r)) {front : List Text}
    (above : front <+: target.parent.parts) :
    Changes start target own tree
      (treeAfter (FileAction.makeDirectory ⟨target.slashes, front⟩) tree) none := by
  obtain ⟨⟨furnished, -⟩, -⟩ := makeDirectory_spec ⟨target.slashes, front⟩ tree
  change Furnished tree (treeAfter _ tree) _ _ at furnished
  have origin : tree.origin ⟨target.slashes, front⟩ = start.origin target := by
    unfold FileTree.origin
    rw [current]
    rfl
  rw [origin] at furnished
  refine ⟨furnished.current, fun _ => furnished.directories, fun r _ _ => furnished.madeAt r,
    .inl ?_⟩
  rcases furnished.node (start.placeOf target) with same | ⟨missing, -, reach, isFront, reached⟩
  · exact same
  · exfalso
    have free : start.node? (start.placeOf target) = none :=
      Persists.none_of (missing ▸ persists (start.placeOf target))
    obtain ⟨behind, split⟩ := (isFront.trans above).trans (List.dropLast_prefix target.parts)
    have more : behind ≠ [] := by
      rintro rfl
      rw [List.append_nil] at split
      have short := (isFront.trans above).length_le
      rw [split, Path.parent, List.length_dropLast] at short
      have none : target.parts = [] := List.length_eq_zero_iff.mp (by omega)
      have place : start.placeOf target = start.origin target := by
        rw [placeOf, none]
        rfl
      rw [place, wellFormed.origin target] at free
      cases free
    unfold Steady at steady
    rw [← split] at steady
    refine walk_ne_of_follow steady more (fun r => (persists r).trans (furnished.persists r)) reached
      free ?_
    rw [split]
    rfl

theorem changes_create (own : Bytes) {name : Text} {route : Route}
    (current : tree.current = start.current)
    (fresh : IsFresh tree target (tree.temporaryPath target name) route)
    (done : IsDone (perform (tree.temporaryPath target name) target .create) tree) :
    Changes start target own tree
        (treeAfter (perform (tree.temporaryPath target name) target .create) tree) (some route) ∧
      (treeAfter (perform (tree.temporaryPath target name) target .create) tree).find
          (tree.temporaryPath target name) = .ok route ∧
        (treeAfter (perform (tree.temporaryPath target name) target .create) tree).node? route =
          some (.file []) := by
  have free (r : Route) (found : tree.find (tree.temporaryPath target name) = .ok r) :
      tree.node? r = none := by
    rw [fresh.found] at found
    cases found
    exact fresh.free
  have created : Ensures (perform (tree.temporaryPath target name) target .create) tree _ :=
    create_spec free
  unfold Ensures at created
  rw [show (exec _ tree).1 = _ from done] at created
  obtain ⟨r, placed, beside⟩ := created
  change Beside tree (treeAfter _ tree) _ _ _ at beside
  rw [fresh.found] at placed
  cases placed
  refine ⟨.of_own ?_ ?_ beside.current fun r' other => beside.other other, beside.found,
    beside.there⟩
  · rw [← placeOf_eq current]
    exact fresh.apart
  · rw [fresh.free]
    nofun

theorem changes_append (own : Bytes) (keeps : Keeps start tree target file) (chunk : Bytes) :
    Changes start target own tree (treeAfter (perform file.path target (.append chunk)) tree)
        (some file.route) ∧
      Keeps start (treeAfter (perform file.path target (.append chunk)) tree) target
        { file with content := file.content ++ chunk } := by
  have appended : Ensures (perform file.path target (.append chunk)) tree _ :=
    append_spec keeps.beside chunk
  obtain ⟨-, beside⟩ := appended
  change Beside _ (treeAfter _ tree) _ _ _ at beside
  refine ⟨.of_own keeps.apart ?_ beside.current fun r other => ?_, beside.found, beside.there,
    keeps.fresh, keeps.apart⟩
  · rw [keeps.there]
    nofun
  · rw [beside.other other, keeps.node?_erase other]

theorem changes_discard (keeps : Keeps start tree target file) :
    Changes start target own tree (treeAfter (discard file.path) tree) (some file.route) := by
  obtain ⟨-, current, node⟩ := discard_spec keeps.beside
  refine .of_own keeps.apart ?_ current fun r other => ?_
  · rw [keeps.there]
    nofun
  · exact (node r).trans (keeps.node?_erase other)

theorem changes_replace (current : tree.current = start.current)
    (keeps : Keeps start tree target file)
    (done : IsDone (perform file.path target .replace) tree) :
    Changes start target file.content tree (treeAfter (perform file.path target .replace) tree)
        (some file.route) ∧
      (treeAfter (perform file.path target .replace) tree).read target = .ok file.content := by
  have replaced : Ensures (perform file.path target .replace) tree _ := replace_spec keeps.beside
  unfold Ensures at replaced
  rw [show (exec _ tree).1 = _ from done] at replaced
  change Replaced _ (treeAfter _ tree) _ _ at replaced
  have current' : (tree.erase file.route).current = start.current := current
  have place := placeOf_eq current' target
  have before := replaced.before
  rw [place, keeps.node?_erase keeps.apart.symm] at before
  refine ⟨⟨replaced.current, fun r there => ?_, fun r other apart => ?_,
    .inr ⟨before, replaced.read⟩⟩, replaced.read⟩
  · apply replaced.directories
    rw [keeps.node?_erase, there]
    rintro rfl
    rw [keeps.there] at there
    cases there
  · have other : r ≠ file.route := fun same => other (congrArg some same.symm)
    rcases replaced.elsewhere r (place ▸ apart) with same | ⟨missing, made, -⟩
    · exact .inl (same.trans (keeps.node?_erase other))
    · rw [keeps.node?_erase other] at missing
      exact .inr ⟨missing, made⟩

/-- What a step of one writer comes to, for the places that are the writer's own. -/
structure Progress (start : FileTree) (target : Path) (data : Bytes) (tree : FileTree)
    (stage : Stage) (after : FileTree) (stage' : Stage) (own : Option Route) : Prop where
  changes : Changes start target data tree after own
  place : ∀ r, own = some r → tree.node? r = none ∨ ∃ file, stage.file? = some file ∧ file.route = r
  keeps : ∀ file, stage'.file? = some file → Keeps start after target file ∧ own = some file.route
  whole : ∀ file, stage' = .synced file → file.content = data
  returned : stage' = .returned → after.read target = .ok data

/-- A step that leaves the tree, and leaves the temporary file to no later step but its removal. -/
theorem Progress.idle {stage stage' : Stage} {data : Bytes}
    (kept : ∀ file, stage.file? = some file → Keeps start tree target file)
    (file : ∀ file, stage'.file? = some file → stage.file? = some file)
    (whole : ∀ file, stage' = .synced file → file.content = data) (going : stage' ≠ .returned) :
    Progress start target data tree stage tree stage' (stage.file?.map (·.route)) := by
  refine ⟨.refl .., fun r own => ?_, fun _ has => ?_, whole, fun ended => absurd ended going⟩
  · obtain ⟨file, has, place⟩ := Option.map_eq_some_iff.mp own
    exact .inr ⟨file, has, place⟩
  · have before := file _ has
    exact ⟨kept _ before, by rw [before]; rfl⟩

/-- Every step of a writer, from what it has done so far. -/
theorem Moves.progress {data : Bytes} {stage stage' : Stage}
    (moves : Moves target data tree stage after stage') (wellFormed : start.WellFormed)
    (steady : start.Steady target) (current : tree.current = start.current)
    (persists : ∀ r, Persists (start.node? r) (tree.node? r))
    (keeps : ∀ file, stage.file? = some file → Keeps start tree target file)
    (whole : ∀ file, stage = .synced file → file.content = data) :
    ∃ own, Progress start target data tree stage after stage' own := by
  cases moves with
  | makeDirectory front above =>
      exact ⟨none, changes_makeDirectory wellFormed steady current persists above, nofun, nofun,
        nofun, nofun⟩
  | create name route fresh done =>
      obtain ⟨changes, found, there⟩ := changes_create data current fresh done
      refine ⟨some route, changes, ?_, ?_, nofun, nofun⟩
      · rintro r own
        cases own
        exact .inl fresh.free
      · rintro file has
        cases has
        refine ⟨⟨found, there, ?_, ?_⟩, rfl⟩
        · exact Persists.none_of (fresh.free ▸ persists route)
        · exact placeOf_eq current target ▸ fresh.apart
  | append file chunk part done =>
      obtain ⟨changes, kept⟩ := changes_append data (keeps _ rfl) _
      exact ⟨_, changes, fun r own => .inr ⟨_, rfl, Option.some.inj own⟩,
        fun _ has => by cases has; exact ⟨kept, rfl⟩, nofun, nofun⟩
  | sync file full =>
      exact ⟨_, .idle keeps (fun _ has => has) (fun _ has => by cases has; exact full) nofun⟩
  | replace file done =>
      obtain ⟨changes, read⟩ := changes_replace current (keeps _ rfl) done
      rw [whole _ rfl] at changes read
      exact ⟨_, changes, fun r own => .inr ⟨_, rfl, Option.some.inj own⟩, nofun, nofun,
        fun _ => read⟩
  | discard file =>
      exact ⟨_, changes_discard (keeps _ rfl), fun r own => .inr ⟨_, rfl, Option.some.inj own⟩,
        nofun, nofun, nofun⟩
  | failWriting => exact ⟨_, .idle keeps (fun _ has => has) nofun nofun⟩
  | failReplacing => exact ⟨_, .idle keeps (fun _ has => has) nofun nofun⟩
  | giveUp => exact ⟨_, .idle keeps nofun nofun nofun⟩
  | leave => exact ⟨_, .idle keeps nofun nofun nofun⟩
  | crash works => exact ⟨_, .idle keeps nofun nofun nofun⟩

end Steps

/-! ## What every step keeps -/

section Invariance

variable {scene : Scene ι} {own : Option Route} {brought : Bytes}

/-- The temporary files of the others are left alone. -/
theorem Changes.keeps (changes : Changes start target brought tree after own) {file : Temporary}
    (keeps : Keeps start tree target file) (other : own ≠ some file.route) :
    Keeps start after target file := by
  refine ⟨find_mono keeps.found changes.current changes.directories, ?_, keeps.fresh, keeps.apart⟩
  rcases changes.elsewhere file.route other keeps.apart with same | ⟨missing, -⟩
  · exact same.trans keeps.there
  · rw [keeps.there] at missing
    cases missing

/-- What could be read at the target can be read on, or the whole data of the writer can. -/
theorem Changes.read (changes : Changes start target brought tree after own)
    (current : tree.current = start.current) {content : Bytes}
    (before : tree.read target = .ok content) :
    after.read target = .ok content ∨ after.read target = .ok brought := by
  obtain ⟨found, there⟩ := find_of_read before
  rw [placeOf_eq current] at found there
  rcases changes.place with same | ⟨-, whole⟩
  · exact .inl (read_of_find (find_mono found changes.current changes.directories)
      (same.trans there))
  · exact .inr whole

theorem Changes.persists (changes : Changes start target brought tree after own)
    (current : tree.current = start.current)
    (before : ∀ r, Persists (start.node? r) (tree.node? r))
    (fresh : ∀ r, own = some r → start.node? r = none) (r : Route) :
    Persists (start.node? r) (after.node? r) := by
  by_cases isOwn : own = some r
  · rw [fresh r isOwn]
    trivial
  by_cases isPlace : r = start.placeOf target
  · subst isPlace
    rcases changes.place with same | ⟨leaf, whole⟩
    · rw [same]
      exact before _
    · have there := (find_of_read whole).2
      rw [placeOf_eq (changes.current.trans current)] at there
      have persists := before (start.placeOf target)
      rw [there]
      match known : start.node? (start.placeOf target) with
      | none => trivial
      | some .directory =>
          rw [known] at persists
          exact absurd persists leaf
      | some (.file _) => exact ⟨_, rfl, nofun⟩
      | some .socket => exact ⟨_, rfl, nofun⟩
  · refine (before r).trans ?_
    rcases changes.elsewhere r isOwn isPlace with same | ⟨missing, -⟩
    · exact .of_eq same
    · rw [missing]
      trivial

/-- The place that a step may write to is not that of another writer's temporary file. -/
theorem Invariant.apart (h : Invariant start target data scene) {i j : ι} {stage' : Stage}
    {file : Temporary}
    (progress : Progress start target brought scene.tree (scene.stage i) after stage' own)
    (different : j ≠ i) (has : (scene.stage j).file? = some file) : own ≠ some file.route := by
  intro here
  rcases progress.place _ here with free | ⟨file', has', same⟩
  · rw [(h.keeps j file has).there] at free
    cases free
  · exact h.distinct i j file' file different.symm has' has same

/-- What holds of the writer that took the step, and of the others, holds of all. -/
theorem forall_stage {scene' : Scene ι} {i : ι} (holds : ι → Stage → Prop)
    (others : ∀ j, j ≠ i → scene'.stage j = scene.stage j) (mine : holds i (scene'.stage i))
    (rest : ∀ j, j ≠ i → holds j (scene.stage j)) (j : ι) : holds j (scene'.stage j) := by
  by_cases same : j = i
  · subst same
    exact mine
  · rw [others j same]
    exact rest j same

/-- A step of one writer keeps the invariant. -/
theorem Invariant.moved {scene' : Scene ι} (h : Invariant start target data scene) {i : ι}
    (others : ∀ j, j ≠ i → scene'.stage j = scene.stage j)
    (progress : Progress start target (data i) scene.tree (scene.stage i) scene'.tree
      (scene'.stage i) own) :
    Invariant start target data scene' := by
  have changes := progress.changes
  have apart {j : ι} {file : Temporary} (different : j ≠ i)
      (has : (scene.stage j).file? = some file) : own ≠ some file.route :=
    h.apart progress different has
  have fresh (r : Route) (here : own = some r) : start.node? r = none := by
    rcases progress.place r here with free | ⟨file, has, rfl⟩
    · exact Persists.none_of (free ▸ h.persists r)
    · exact (h.keeps i file has).fresh
  have readOn {k : ι} (before : scene.tree.read target = .ok (data k)) :
      ∃ j, scene'.tree.read target = .ok (data j) := by
    rcases changes.read h.current before with same | new
    · exact ⟨k, same⟩
    · exact ⟨i, new⟩
  constructor
  case current => exact changes.current.trans h.current
  case persists => exact changes.persists h.current h.persists fresh
  case keeps =>
    refine forall_stage (fun _ stage => ∀ file, stage.file? = some file →
      Keeps start scene'.tree target file) others (fun file has => (progress.keeps file has).1) ?_
    exact fun j same file has => changes.keeps (h.keeps j file has) (apart same has)
  case distinct =>
    intro j k file file' different has has'
    by_cases first : j = i
    · subst first
      rw [others k different.symm] at has'
      intro equal
      exact apart different.symm has' (equal ▸ (progress.keeps file has).2)
    · rw [others j first] at has
      by_cases second : k = i
      · subst second
        intro equal
        exact apart first has (equal ▸ (progress.keeps file' has').2)
      · rw [others k second] at has'
        exact h.distinct j k file file' different has has'
  case whole =>
    exact forall_stage (fun j stage => ∀ file, stage = .synced file → file.content = data j) others
      progress.whole fun j _ => h.whole j
  case place =>
    rcases changes.place with same | ⟨-, new⟩
    · rcases h.place with start | ⟨k, read⟩
      · exact .inl (same.trans start)
      · exact .inr (readOn read)
    · exact .inr ⟨i, new⟩
  case returned =>
    refine forall_stage (fun _ stage => stage = .returned →
      ∃ j, scene'.tree.read target = .ok (data j)) others (fun has => ⟨i, progress.returned has⟩) ?_
    intro j _ has
    obtain ⟨k, read⟩ := h.returned j has
    exact readOn read

theorem Invariant.step {scene' : Scene ι} (wellFormed : start.WellFormed)
    (steady : start.Steady target) (h : Invariant start target data scene)
    (step : Step target data scene scene') : Invariant start target data scene' := by
  obtain ⟨i, moves, others⟩ := step
  obtain ⟨own, progress⟩ :=
    moves.progress wellFormed steady h.current h.persists (h.keeps i) (h.whole i)
  exact h.moved others progress

/-- Every run of the writers keeps the invariant. -/
theorem invariant_of_run (wellFormed : start.WellFormed) (steady : start.Steady target)
    (run : Relation.ReflTransGen (Step target data) (Scene.begin start) scene) :
    Invariant start target data scene := by
  induction run with
  | refl => exact invariant_begin start target data
  | tail _ step ih => exact ih.step wellFormed steady step

/-- A writer that has returned takes no more steps. -/
theorem returned_stays {later : Scene ι} {i : ι} (returned : scene.stage i = .returned)
    (run : Relation.ReflTransGen (Step target data) scene later) : later.stage i = .returned := by
  induction run with
  | refl => exact returned
  | tail _ step ih =>
      obtain ⟨j, moves, others⟩ := step
      by_cases same : i = j
      · subst same
        exact absurd moves.works (by rw [ih]; exact id)
      · rw [others i same, ih]

/--
At every moment the target is as it was in the beginning, or it has the whole data of one of the
writers; from the return of a writer on it is the latter.
-/
theorem target_old_or_whole (wellFormed : start.WellFormed) (steady : start.Steady target)
    (run : Relation.ReflTransGen (Step target data) (Scene.begin start) scene) :
    (scene.tree.look target = start.look target ∨ ∃ i, scene.tree.read target = .ok (data i)) ∧
      ∀ i later, scene.stage i = .returned →
        Relation.ReflTransGen (Step target data) scene later →
          ∃ j, later.tree.read target = .ok (data j) := by
  have holds := invariant_of_run wellFormed steady run
  refine ⟨?_, fun i later returned run' => ?_⟩
  · refine holds.place.imp_left fun same => ?_
    exact look_of_steady wellFormed.closed steady holds.current holds.persists same
  · exact (invariant_of_run wellFormed steady (run.trans run')).returned i
      (returned_stays returned run')

/-- A step of one writer as a step of all of them. -/
theorem Moves.step [DecidableEq ι] {scene : Scene ι} {i : ι} {stage : Stage}
    (moves : Moves target (data i) scene.tree (scene.stage i) after stage) :
    Step target data scene ⟨after, Function.update scene.stage i stage⟩ := by
  refine ⟨i, ?_, fun j other => Function.update_of_ne other _ _⟩
  dsimp only
  rwa [Function.update_self]

end Invariance

def newFile : Path :=
  ⟨1, [Text.ofString "d", Text.ofString "f"]⟩

def brought : Bool → Bytes
  | true => [1, 2, 3]
  | false => [4, 5]

/-- One writer makes the directory and stops after an octet, and the other comes to its end. -/
theorem target_old_or_whole_two :
    ∃ scene : Scene Bool,
      bareMachine.files.WellFormed ∧ bareMachine.files.Steady newFile ∧
        Relation.ReflTransGen (Step newFile brought) (Scene.begin bareMachine.files) scene ∧
          scene.stage true = .returned ∧ scene.stage false = .crashed ∧
            ∃ i, scene.tree.read newFile = .ok (brought i) := by
  have wellFormed : bareMachine.files.WellFormed :=
    wellFormed_of_nodes (by decide) rfl nofun
  have steady : bareMachine.files.Steady newFile :=
    steadyFrom_of_plain (by decide) _
  have begun : Relation.ReflTransGen (Step newFile brought) (Scene.begin bareMachine.files)
      (Scene.begin bareMachine.files) := .refl
  have made := begun.tail
    (Moves.step (i := false) (.makeDirectory [Text.ofString "d"] (by decide)))
  have created := made.tail (Moves.step (i := false)
    (.create (temporaryName 0) [Text.ofString "d", temporaryName 0]
      ⟨rfl, rfl, by decide +kernel⟩ rfl))
  have beside := created.tail (Moves.step (i := true)
    (.create (temporaryName 1) [Text.ofString "d", temporaryName 1]
      ⟨rfl, rfl, by decide +kernel⟩ rfl))
  have begun := beside.tail (Moves.step (i := false) (.append _ [4] (by decide) rfl))
  have filled := begun.tail
    (Moves.step (i := true) (.append _ [1, 2, 3] (by decide) rfl))
  have stopped := filled.tail (Moves.step (i := false) (.crash trivial))
  have synced := stopped.tail (Moves.step (i := true) (.sync _ rfl))
  have replaced := synced.tail (Moves.step (i := true) (.replace _ rfl))
  exact ⟨_, wellFormed, steady, replaced, rfl, rfl,
    (target_old_or_whole wellFormed steady replaced).2 true _ rfl .refl⟩

/-- A path that steps back behind a directory, to what is that directory. -/
def loopPath : Path :=
  ⟨1, [Text.ofString "n", parentName, Text.ofString "n"]⟩

/--
On such a path a writer makes a directory of its own target: behind this step it is neither as
before nor does it have the data.
-/
theorem target_neither_old_nor_whole :
    bareMachine.files.WellFormed ∧
      ∃ scene : Scene Unit,
        Relation.ReflTransGen (Step loopPath fun _ => []) (Scene.begin bareMachine.files) scene ∧
          ¬ (scene.tree.look loopPath = bareMachine.files.look loopPath ∨
            ∃ _ : Unit, scene.tree.read loopPath = .ok []) := by
  refine ⟨wellFormed_of_nodes (by decide) rfl nofun, _, .single
    (Moves.step (i := ()) (.makeDirectory [Text.ofString "n"] (by decide))), ?_⟩
  rintro (same | ⟨-, whole⟩)
  · have before : bareMachine.files.look loopPath = .ok none := rfl
    rw [before] at same
    cases same
  · cases whole

end AtomicWrite

end SiteFilter
