import Mathlib.Data.List.Nodup
import SiteFilter.FileTree.AtomicWrite
import SiteFilter.Proofs.FileTree.Directories
import SiteFilter.Proofs.Number.Decimal

/-!
# Replacing a file in one step

A file is replaced by the whole of the new content or not at all. In either case nothing else in
the tree changes, but for directories made on the way to the file; the temporary file is gone.
-/

namespace SiteFilter

open FileTree Effect

/-! ## Fresh names -/

namespace AtomicWrite

theorem temporaryName_injective {m n : Nat} (h : temporaryName m = temporaryName n) : m = n := by
  unfold temporaryName at h
  rw [List.append_assoc, List.append_assoc] at h
  have digits := congrArg Numeral.value (List.append_cancel_left h)
  rwa [Numeral.value_replicate_zero, Numeral.value_replicate_zero, Numeral.value_ofNat,
    Numeral.value_ofNat] at digits

theorem isName_temporaryName (n : Nat) : Text.IsName (temporaryName n) := by
  have ascii {c : CodePoint} (pos : 0 < c.val) (small : c.val < 0x80) : c.IsOfNames := by
    refine ⟨by omega, ?_⟩
    have notSurrogate : c.isSurrogate = false := by
      simp only [CodePoint.isSurrogate, Bool.and_eq_false_iff, decide_eq_false_iff_not]
      omega
    rw [notSurrogate, Bool.false_and]
  intro c inside
  unfold temporaryName at inside
  rcases List.mem_append.mp inside with front | digit
  · rcases List.mem_append.mp front with mark | zero
    · have marks : ∀ c ∈ Text.ofString ".tmp-", 0 < c.val ∧ c.val < 0x80 := by decide
      exact ascii (marks c mark).1 (marks c mark).2
    · rw [List.eq_of_mem_replicate zero]
      exact ascii (by decide) (by decide)
  · have range := (CodePoint.isAsciiDigit_iff c).mp (Text.isAsciiDigit_of_mem_ofNat digit)
    exact ascii (by omega) (by omega)

theorem temporaryName_ne_parentName (n : Nat) : temporaryName n ≠ parentName := by
  intro same
  have second := congrArg (fun t : Text => t[1]?) same
  cases second

/-- Of more names than there are places, one leads to none of them. -/
theorem exists_unused (taken : List Route) (directory : Route) :
    ∃ n ∈ List.range (taken.length + 1), directory ++ [temporaryName n] ∉ taken := by
  apply Classical.byContradiction
  intro none
  have used : (List.range (taken.length + 1)).map
      (fun n => directory ++ [temporaryName n]) ⊆ taken := by
    intro route inside
    obtain ⟨n, small, rfl⟩ := List.mem_map.mp inside
    exact Classical.byContradiction fun unused => none ⟨n, small, unused⟩
  have apart : ((List.range (taken.length + 1)).map
      fun n => directory ++ [temporaryName n]).Nodup := by
    refine List.Nodup.map ?_ List.nodup_range
    intro m n same
    exact temporaryName_injective (List.singleton_inj.mp (List.append_cancel_left same))
  have few := apart.length_le_of_subset used
  simp only [List.length_map, List.length_range] at few
  omega

/-- The directory has none of the first names, since there are more of them than nodes. -/
theorem exists_free (tree : FileTree) (directory : Route) :
    ∃ n ∈ List.range (tree.nodes.length + 1),
      tree.node? (directory ++ [temporaryName n]) = none := by
  obtain ⟨n, small, unused⟩ := exists_unused (tree.nodes.map (·.1)) directory
  rw [List.length_map] at small
  exact ⟨n, small, node?_eq_none_of_not_mem (by simp) unused⟩

/-- The fresh name is a temporary name that nothing in the directory has. -/
theorem freshName_spec (tree : FileTree) (directory : Route) :
    ∃ n, freshName tree directory = temporaryName n ∧
      tree.node? (directory ++ [temporaryName n]) = none := by
  obtain ⟨n, inside, free⟩ := exists_free tree directory
  unfold freshName
  cases found : (List.range (tree.nodes.length + 1)).find?
      fun n => (tree.node? (directory ++ [temporaryName n])).isNone with
  | none =>
      have taken := List.find?_eq_none.mp found n inside
      simp [free] at taken
  | some m =>
      have free := List.find?_some found
      refine ⟨m, ?_, Option.isNone_iff_eq_none.mp free⟩
      simp only [found, Option.getD_some]

end AtomicWrite

/-! ## What replacing comes to -/

namespace FileTree

/-- A file was replaced: it has its new content, and nothing else changed but for directories. -/
structure Replaced (tree after : FileTree) (target : Path) (data : Bytes) : Prop where
  current : after.current = tree.current
  found : after.find target = .ok (tree.placeOf target)
  written : after.node? (tree.placeOf target) = some (.file data)
  before : tree.node? (tree.placeOf target) ≠ some .directory
  elsewhere : ∀ r, r ≠ tree.placeOf target → after.node? r = tree.node? r ∨
    (tree.node? r = none ∧ after.node? r = some .directory ∧
      ∃ front, front <+: target.parts.dropLast ∧ after.follow (tree.origin target) front = .ok r)

def IsNameable (tree : FileTree) (path : Path) : Prop :=
  path.IsNamed ∧ (path.isAbsolute = false → ∀ name ∈ tree.current, Text.IsName name)

instance (tree : FileTree) (path : Path) : Decidable (tree.IsNameable path) :=
  inferInstanceAs (Decidable (_ ∧ _))

theorem IsNameable.of_current {tree after : FileTree} {path : Path} (h : tree.IsNameable path)
    (current : after.current = tree.current) : after.IsNameable path := by
  refine ⟨h.1, fun relative => ?_⟩
  rw [current]
  exact h.2 relative

/-- The end of a replacement: the new content, or a refusal and nothing but directories. -/
def Replaces (tree : FileTree) (target : Path) (data : Bytes) (result : Except Fault Unit)
    (after : FileTree) : Prop :=
  match result with
  | .ok _ => Replaced tree after target data
  | .error e =>
      Furnished tree after (tree.origin target) target.parts.dropLast ∧
        (tree.IsNameable target → e.IsOs)

theorem Replaced.directories {tree after : FileTree} {target : Path} {data : Bytes}
    (h : Replaced tree after target data) {r : Route} (there : tree.node? r = some .directory) :
    after.node? r = some .directory := by
  have other : r ≠ tree.placeOf target := by
    rintro rfl
    exact h.before there
  rcases h.elsewhere r other with same | ⟨missing, -⟩
  · exact same.trans there
  · rw [there] at missing
    cases missing

theorem Replaced.persists {tree after : FileTree} {target : Path} {data : Bytes}
    (h : Replaced tree after target data) (r : Route) :
    Persists (tree.node? r) (after.node? r) := by
  by_cases here : r = tree.placeOf target
  · subst here
    rw [h.written]
    match found : tree.node? (tree.placeOf target) with
    | none => trivial
    | some .directory => exact absurd found h.before
    | some (.file content) => exact ⟨_, rfl, nofun⟩
    | some .socket => exact ⟨_, rfl, nofun⟩
  · rcases h.elsewhere r here with same | ⟨missing, -⟩
    · exact .of_eq same
    · rw [missing]
      trivial

namespace Replaces

variable {tree after : FileTree} {target : Path} {data : Bytes} {result : Except Fault Unit}

theorem current (h : Replaces tree target data result after) : after.current = tree.current := by
  cases result with
  | ok _ => exact Replaced.current h
  | error e => exact h.1.current

theorem persists (h : Replaces tree target data result after) (r : Route) :
    Persists (tree.node? r) (after.node? r) := by
  cases result with
  | ok _ => exact Replaced.persists h r
  | error e => exact h.1.persists r

/-- Places that are not on the way to the file are left alone. -/
theorem avoided (h : Replaces tree target data result after) {r : Route}
    (off : r ∉ tree.wayOf target) : after.node? r = tree.node? r := by
  have reach {front : List Text} (isFront : front <+: target.parts.dropLast)
      (reached : after.follow (tree.origin target) front = .ok r) : False := by
    apply off
    rw [follow_eq_walk reached]
    exact mem_way_of_isPrefix (isFront.trans (List.dropLast_prefix _)) _
  cases result with
  | ok _ =>
      have other : r ≠ tree.placeOf target := by
        rintro rfl
        exact off (tree.placeOf_mem_wayOf target)
      rcases Replaced.elsewhere h r other with same | ⟨-, -, front, isFront, reached⟩
      · exact same
      · exact absurd (reach isFront reached) id
  | error e =>
      rcases h.1.node r with same | ⟨-, -, front, isFront, reached⟩
      · exact same
      · exact absurd (reach isFront reached) id

end Replaces

/-- Directories are made first, and then the file is replaced. -/
theorem Furnished.replaced {tree middle after : FileTree} {target : Path} {data : Bytes}
    (made : Furnished tree middle (tree.origin target) target.parts.dropLast)
    (h : Replaced middle after target data) : Replaced tree after target data := by
  have start : middle.origin target = tree.origin target := origin_eq made.current target
  have place : middle.placeOf target = tree.placeOf target := by
    unfold placeOf
    rw [start]
  obtain ⟨current, found, written, before, elsewhere⟩ := h
  rw [place] at found written before
  rw [place, start] at elsewhere
  refine ⟨current.trans made.current, found, written, ?_, fun r other => ?_⟩
  · exact fun there => before (made.directories there)
  · rcases elsewhere r other with same | ⟨missing, now, reach⟩
    · rcases made.node r with same' | ⟨missing, now, front, isFront, reached⟩
      · exact .inl (same.trans same')
      · refine .inr ⟨missing, same.trans now, front, isFront, follow_mono ?_ reached⟩
        intro r' there
        have other' : r' ≠ tree.placeOf target := by
          rintro rfl
          exact before there
        rcases elsewhere r' other' with same' | ⟨missing', -⟩
        · exact same'.trans there
        · rw [there] at missing'
          cases missing'
    · refine .inr ⟨?_, now, reach⟩
      rcases made.node r with same' | ⟨missing', -⟩
      · rw [← same', missing]
      · exact missing'

/-- A tree with a new file more, which a path leads to. -/
structure Beside (tree after : FileTree) (path : Path) (route : Route) (content : Bytes) :
    Prop where
  current : after.current = tree.current
  missing : tree.node? route = none
  found : after.find path = .ok route
  node : ∀ r, after.node? r = if r = route then some (.file content) else tree.node? r

namespace Beside

variable {tree after : FileTree} {path : Path} {route : Route} {content : Bytes}

theorem there (h : Beside tree after path route content) :
    after.node? route = some (.file content) := by
  rw [h.node, if_pos rfl]

theorem other (h : Beside tree after path route content) {r : Route} (apart : r ≠ route) :
    after.node? r = tree.node? r := by
  rw [h.node, if_neg apart]

theorem directory_iff (h : Beside tree after path route content) (r : Route) :
    after.node? r = some .directory ↔ tree.node? r = some .directory := by
  by_cases same : r = route
  · subst same
    rw [h.there, h.missing]
    exact ⟨nofun, nofun⟩
  · rw [h.other same]

theorem root (h : Beside tree after path route content) : route ≠ [] :=
  ne_nil_of_ne_directory (by rw [h.missing]; nofun)

/-- A new file at a free place. -/
theorem of_put (found : tree.find path = .ok route) (missing : tree.node? route = none) :
    Beside tree (tree.put route (.file content)) path route content := by
  have below : route ≠ [] := ne_nil_of_ne_directory (by rw [missing]; nofun)
  exact ⟨rfl, missing, find_put found below (.inr (by rw [missing]; nofun)), node?_put tree below _⟩

/-- The new file gets other content. -/
theorem put (h : Beside tree after path route content) (more : Bytes) :
    Beside tree (after.put route (.file more)) path route more := by
  have leaf : after.node? route ≠ some .directory := by
    rw [h.there]
    nofun
  refine ⟨h.current, h.missing, find_put h.found h.root (.inr leaf), fun r => ?_⟩
  by_cases same : r = route
  · simp [h.root, same]
  · simp [h.root, same, h.other same]

/-- Without the new file the tree is as it was. -/
theorem node?_erase (h : Beside tree after path route content) (r : Route) :
    (after.erase route).node? r = tree.node? r := by
  by_cases same : r = route
  · simp [h.root, same, h.missing]
  · simp [h.root, same, h.other same]

/-- The new file is moved to a place that is not a directory. -/
theorem moved (h : Beside tree after path route content) {target : Path} {new : Route}
    (found : after.find target = .ok new) (other : after.node? new ≠ some .directory) :
    Replaced tree ((after.erase route).put new (.file content)) target content := by
  have place : new = tree.placeOf target := by
    rw [follow_eq_walk (find_eq_ok_iff.mp found).2, origin_eq h.current]
    rfl
  have free : tree.node? new ≠ some .directory :=
    fun there => other ((h.directory_iff new).mpr there)
  have node (r : Route) : ((after.erase route).put new (.file content)).node? r =
      if r = new then some (.file content) else tree.node? r := by
    rw [node?_put _ (ne_nil_of_ne_directory free), h.node?_erase]
  subst place
  refine ⟨h.current, find_mono found rfl fun r there => ?_, ?_, free, fun r apart => ?_⟩
  · have there' := (h.directory_iff r).mp there
    rw [node, if_neg, there']
    rintro rfl
    exact free there'
  · rw [node, if_pos rfl]
  · exact .inl (by rw [node, if_neg apart])

end Beside

end FileTree

/-! ## The steps -/

namespace AtomicWrite

open FileAction

variable {tree after : FileTree} {temporary target : Path} {route : Route} {content : Bytes}

/-- Creating a file at a free place. -/
theorem create_spec (free : ∀ r, tree.find temporary = .ok r → tree.node? r = none) :
    Ensures (perform temporary target .create) tree fun result after =>
      match result with
      | .ok _ => ∃ route, tree.find temporary = .ok route ∧ Beside tree after temporary route []
      | .error e => after = tree ∧ (temporary.IsNamed → e.IsOs) := by
  refine .bind (place_spec temporary tree) ?_ ?_
  · rintro route tree ⟨rfl, found, -⟩
    exact .change ⟨route, found, .of_put found (free route found)⟩
  · rintro e after ⟨same, os⟩
    exact ⟨same, os⟩

theorem stat_beside (h : Beside tree after temporary route content) :
    after.stat temporary = .ok (route, .file content) := by
  rw [stat_of_find h.found, h.there]

/-- Nothing is taken away where nothing is. -/
theorem unlinkIfThere_missing {path : Path}
    (missing : tree.stat path = .error (.os ⟨.noEntry, path.text, none⟩)) :
    Ensures (unlinkIfThere path) tree fun result after => result = .ok () ∧ after = tree := by
  have refused : Ensures (unlink path) tree fun result after =>
      result = .error (.os ⟨.noEntry, path.text, none⟩) ∧ after = tree := by
    apply askThen
    · intro _ answer
      rw [missing] at answer
      cases answer
    · intro e answer
      rw [missing] at answer
      cases answer
      exact ⟨rfl, rfl⟩
  refine .tryCatch refused ?_ ?_
  · rintro _ _ ⟨same, -⟩
    cases same
  · rintro _ _ ⟨same, rfl⟩
    cases same
    exact .pure ⟨rfl, rfl⟩

/-- Taking a file away leaves the rest of the tree, and all of it when no file is there. -/
theorem unlinkIfThere_spec {path : Path} {place : Route}
    (stat : tree.stat path =
      match tree.node? place with
      | some node => .ok (place, node)
      | none => .error (.os ⟨.noEntry, path.text, none⟩))
    (leaf : tree.node? place ≠ some .directory) :
    Ensures (unlinkIfThere path) tree fun result after =>
      result = .ok () ∧ after.current = tree.current ∧
        ∀ r, after.node? r = if r = place then none else tree.node? r := by
  cases there : tree.node? place with
  | none =>
      rw [there] at stat
      refine (unlinkIfThere_missing stat).mono ?_
      rintro _ _ ⟨done, rfl⟩
      refine ⟨done, rfl, fun r => ?_⟩
      split
      · rename_i here
        rw [here, there]
      · rfl
  | some node =>
      rw [there] at stat
      have taken : Ensures (unlink path) tree fun result after =>
          result = .ok () ∧ after = tree.erase place := by
        apply askThen
        · rintro _ answer
          rw [stat] at answer
          cases answer
          cases node with
          | directory => exact absurd there leaf
          | file _ => exact .change ⟨rfl, rfl⟩
          | socket => exact .change ⟨rfl, rfl⟩
        · intro e answer
          rw [stat] at answer
          cases answer
      refine .tryCatch taken ?_ ?_
      · rintro _ _ ⟨-, rfl⟩
        exact ⟨rfl, rfl, FileTree.node?_erase tree (ne_nil_of_ne_directory leaf)⟩
      · rintro _ _ ⟨same, -⟩
        cases same

/-- Taking the new file away leaves the tree as it was before. -/
theorem discard_spec (h : Beside tree after temporary route content) :
    Ensures (discard temporary) after fun result final =>
      result = .ok () ∧ final.current = tree.current ∧ ∀ r, final.node? r = tree.node? r := by
  refine (unlinkIfThere_spec (stat_of_find h.found) (by rw [h.there]; nofun)).mono ?_
  rintro result final ⟨done, current, node⟩
  refine ⟨done, current.trans h.current, fun r => ?_⟩
  rw [node]
  split
  · rename_i here
    rw [here, h.missing]
  · rename_i other
    exact h.other other

theorem retoldStat_spec (h : Beside tree after temporary route content)
    (retold : Fault → FileAction (Route × Node)) :
    Ensures (tryCatch (ask (·.stat temporary)) retold) after fun result final =>
      result = .ok (route, .file content) ∧ final = after := by
  have known : Ensures (ask (·.stat temporary)) after fun result final =>
      result = .ok (route, .file content) ∧ final = after := by
    unfold Ensures
    rw [exec_ask, stat_beside h]
    exact ⟨rfl, rfl⟩
  refine known.tryCatch (fun _ _ same => same) ?_
  rintro _ _ ⟨same, -⟩
  cases same

/-- The place of a path, with refusals that are told in another way. -/
theorem retoldPlace_spec (path : Path) (tree : FileTree) {retold : Fault → Fault}
    (os : ∀ refusal, (retold (.os refusal)).IsOs) :
    Ensures (tryCatch (FileAction.place path) fun e => throw (retold e)) tree
      fun result after => after = tree ∧
        match result with
        | .ok route => tree.find path = .ok route
        | .error e => path.IsNamed → e.IsOs := by
  refine .tryCatch (place_spec path tree) ?_ ?_
  · rintro route _ ⟨same, found, -⟩
    exact ⟨same, found⟩
  · rintro e _ ⟨rfl, refused⟩
    refine .throw ⟨rfl, fun named => ?_⟩
    obtain ⟨refusal, rfl⟩ := refused named
    exact os refusal

/-- Moving the new file to its place. -/
theorem replace_spec (h : Beside tree after temporary route content) :
    Ensures (perform temporary target .replace) after fun result final =>
      match result with
      | .ok _ => Replaced tree final target content
      | .error e => final = after ∧ (target.IsNamed → e.IsOs) := by
  refine .bindOk (retoldStat_spec h _) ?_
  rintro after rfl
  refine .bind (retoldPlace_spec target after fun _ => ⟨_, rfl⟩) ?_ ?_
  · rintro new _ ⟨rfl, found⟩
    apply Ensures.getThen
    split
    · exact .throw ⟨rfl, fun _ => ⟨_, rfl⟩⟩
    · rename_i other
      exact .change (h.moved found other)
  · rintro e _ ⟨same, os⟩
    exact ⟨same, os⟩

/-- Adding data to the new file. -/
theorem append_spec (h : Beside tree after temporary route content) (data : Bytes) :
    Ensures (perform temporary target (.append data)) after fun result final =>
      result = .ok () ∧ Beside tree final temporary route (content ++ data) := by
  apply askThen
  · rintro _ found
    rw [stat_beside h] at found
    cases found
    exact .change ⟨rfl, h.put _⟩
  · intro e refused
    rw [stat_beside h] at refused
    cases refused

/-- The content goes to the new file, and the new file to its place. -/
theorem steps_spec (h : Beside tree after temporary route []) (data : Bytes) :
    Ensures ((steps data).forM (perform temporary target)) after fun result final =>
      match result with
      | .ok _ => Replaced tree final target data
      | .error e => (∃ content, Beside tree final temporary route content) ∧
          (target.IsNamed → e.IsOs) := by
  change Ensures (do
    perform temporary target (.append data)
    perform temporary target .sync
    perform temporary target .replace
    pure PUnit.unit) after _
  refine .bindOk (append_spec h data) ?_
  intro full beside
  apply Ensures.pureThen
  refine .bind (replace_spec beside) ?_ ?_
  · intro _ final replaced
    exact Ensures.pure replaced
  · rintro e _ ⟨rfl, os⟩
    exact ⟨⟨data, beside⟩, os⟩

/-- Writing, which may meet a refusal from outside. -/
theorem writing_spec (refusal : Option OsCause) (h : Beside tree after temporary route [])
    (data : Bytes) :
    Ensures
      (match refusal with
      | some cause => FileAction.refuse cause temporary
      | none => (steps data).forM (perform temporary target))
      after fun result final =>
        match result with
        | .ok _ => Replaced tree final target data
        | .error e => (∃ content, Beside tree final temporary route content) ∧
            (target.IsNamed → e.IsOs) := by
  cases refusal with
  | some cause => exact .throw ⟨⟨[], h⟩, fun _ => ⟨_, rfl⟩⟩
  | none => exact steps_spec h data

/-! ## The whole replacement -/

theorem mem_collapse {parts : List Text} {part : Text} (h : part ∈ Path.collapse parts) :
    part ∈ parts := by
  have step (parts : List Text) : ∀ done : List Text,
      part ∈ parts.foldl
        (fun done part => if part = Text.ofString ".." then done.dropLast else done ++ [part])
        done → part ∈ done ∨ part ∈ parts := by
    induction parts with
    | nil => exact fun done inside => .inl inside
    | cons first parts ih =>
        intro done inside
        rw [List.foldl_cons] at inside
        rcases ih _ inside with early | late
        · split at early
          · exact .inl (List.dropLast_subset done early)
          · rcases List.mem_append.mp early with early | same
            · exact .inl early
            · rw [List.mem_singleton.mp same]
              exact .inr List.mem_cons_self
        · exact .inr (List.mem_cons_of_mem _ late)
  rcases step parts [] h with none | some
  · cases none
  · exact some

theorem isNamed_settle {tree : FileTree} {target : Path} (h : tree.IsNameable target) :
    (settle tree.current target.parent).IsNamed := by
  obtain ⟨named, start⟩ := h
  have parent : ∀ part ∈ target.parent.parts, Text.IsName part := fun part inside =>
    named part (List.dropLast_subset _ inside)
  unfold settle
  split
  · exact fun part inside => parent part (mem_collapse inside)
  · rename_i relative
    intro part inside
    rcases List.mem_append.mp (mem_collapse inside) with early | late
    · exact start (Bool.eq_false_iff.mpr relative) part early
    · exact parent part late

theorem isNamed_temporary {tree : FileTree} {target : Path} (h : tree.IsNameable target)
    (route : Route) :
    Path.IsNamed ⟨(settle tree.current target.parent).slashes,
      (settle tree.current target.parent).parts ++ [freshName tree route]⟩ := by
  intro part inside
  rcases List.mem_append.mp inside with early | last
  · exact isNamed_settle h part early
  · obtain ⟨n, name, -⟩ := freshName_spec tree route
    rw [List.mem_singleton.mp last, name]
    exact isName_temporaryName n

/-- The temporary file stands in a free place with a temporary name. -/
theorem free_temporary {tree : FileTree} {directory : Path} {route r : Route}
    (found : tree.find directory = .ok route)
    (there : tree.find ⟨directory.slashes, directory.parts ++ [freshName tree route]⟩ = .ok r) :
    tree.node? r = none ∧ ∃ n, r = route ++ [temporaryName n] := by
  obtain ⟨n, name, free⟩ := freshName_spec tree route
  have reached := (find_eq_ok_iff.mp found).2
  have reached' := (find_eq_ok_iff.mp there).2
  change tree.follow (tree.origin directory) (directory.parts ++ [_]) = _ at reached'
  rw [follow_append reached, name] at reached'
  have place := follow_eq_walk reached'
  rw [walk_cons, advance, if_neg (temporaryName_ne_parentName n)] at place
  rw [place]
  exact ⟨free, n, rfl⟩

/-- When the new file cannot be written or moved it is taken away. -/
theorem orDiscard_spec {write : FileAction Unit} {data : Bytes}
    (written : Ensures write after fun result final =>
      match result with
      | .ok _ => Replaced tree final target data
      | .error e => (∃ content, Beside tree final temporary route content) ∧
          (target.IsNamed → e.IsOs)) :
    Ensures (tryCatch write fun e => do discard temporary; throw e) after fun result final =>
      match result with
      | .ok _ => Replaced tree final target data
      | .error e => final.current = tree.current ∧ (∀ r, final.node? r = tree.node? r) ∧
          (target.IsNamed → e.IsOs) := by
  refine .tryCatch written ?_ ?_
  · intro _ final replaced
    exact replaced
  · rintro e final ⟨⟨content, beside⟩, os⟩
    refine .bindOk (discard_spec beside) ?_
    rintro final ⟨current, node⟩
    exact .throw ⟨current, node, os⟩

/-- A file is replaced, or refused with nothing changed but directories made. -/
theorem run_spec (refusal : Option OsCause) (target : Path) (data : Bytes) (tree : FileTree) :
    Ensures (run refusal target data) tree (Replaces tree target data) := by
  refine .bind (makeDirectories_spec target.parent tree) ?_ ?_
  · rintro _ middle ⟨made, -⟩
    have nameable : tree.IsNameable target → middle.IsNameable target :=
      fun h => h.of_current made.current
    -- From here on nothing but the file changes, and a refusal leaves the tree as it is.
    have refuse {e : Fault} {after : FileTree} (current : after.current = middle.current)
        (node : ∀ r, after.node? r = middle.node? r) (os : tree.IsNameable target → e.IsOs) :
        Replaces tree target data (.error e) after :=
      ⟨made.trans ⟨current, fun r => .inl (node r)⟩, os⟩
    apply Ensures.getThen
    apply askThen
    · intro route found
      have isNamed := fun h => isNamed_temporary (nameable h) route
      refine .bind (create_spec fun r there => (free_temporary found there).1) ?_ ?_
      · rintro _ created ⟨place, -, beside⟩
        refine (orDiscard_spec (writing_spec refusal beside data)).mono ?_
        · intro result final ended
          cases result with
          | ok _ => exact made.replaced ended
          | error e =>
              obtain ⟨current, node, os⟩ := ended
              exact refuse current node fun h => os h.1
      · rintro e _ ⟨rfl, os⟩
        exact refuse rfl (fun _ => rfl) fun h => os (isNamed h)
    · intro e refused
      refine refuse rfl (fun _ => rfl) fun h => ?_
      obtain ⟨cause, rfl⟩ := find_error_of_isNamed (isNamed_settle (nameable h)) refused
      exact ⟨_, rfl⟩
  · rintro e middle ⟨made, os⟩
    refine ⟨made, fun h => os e rfl fun part inside => ?_⟩
    exact h.1 part (List.dropLast_subset _ inside)

end AtomicWrite

end SiteFilter
