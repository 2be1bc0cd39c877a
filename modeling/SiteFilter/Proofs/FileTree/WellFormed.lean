import SiteFilter.Proofs.FileTree.Directories

/-!
# Trees as a file system shows them

In a tree as a file system shows it, everything stands in a directory. A path can be passed in it
unless something else stands in the way, a name is too long, or the whole path is. That does not
change when other directories are made.
-/

namespace SiteFilter

open FileTree Effect

/-! ## The size of a path -/

theorem Text.octetCount_append (s t : Text) :
    Text.octetCount (s ++ t) = s.octetCount + t.octetCount := by
  simp [octetCount]

namespace Path

def octets : List Text → Nat
  | [] => 0
  | part :: parts => part.octetCount + 1 + octets parts

theorem octets_append (front behind : List Text) :
    octets (front ++ behind) = octets front + octets behind := by
  induction front with
  | nil => exact (Nat.zero_add _).symm
  | cons part front ih => rw [List.cons_append, octets, octets, ih, ← Nat.add_assoc]

theorem octets_single (part : Text) : octets [part] = part.octetCount + 1 :=
  rfl

theorem octetCount_join (parts : List Text) :
    (Text.join (Text.ofString "/") parts).octetCount = octets parts - 1 := by
  have slash : (Text.ofString "/").octetCount = 1 := by decide
  induction parts with
  | nil => rfl
  | cons part parts ih =>
      cases parts with
      | nil => simp [Text.join, octets]
      | cons second parts =>
          rw [Text.join, Text.octetCount_append, Text.octetCount_append, slash, ih]
          simp only [octets]
          omega
          nofun

/-- A path takes the octets of its slashes and parts. The empty path is one point. -/
theorem octetCount_text (path : Path) :
    path.text.octetCount =
      if path.slashes = 0 ∧ path.parts = [] then 1 else path.slashes + (octets path.parts - 1) := by
  have slashes (n : Nat) :
      Text.octetCount (List.replicate n (CodePoint.ofChar '/')) = n := by
    induction n with
    | zero => rfl
    | succ n ih =>
        rw [List.replicate_succ', Text.octetCount_append, ih]
        rfl
  unfold text
  by_cases empty : path.slashes = 0 ∧ path.parts = []
  · simp only [empty.1, empty.2, and_self, List.isEmpty_nil, decide_true, Bool.and_self, if_true]
    rfl
  · have filled : ¬ (decide (path.slashes = 0) && path.parts.isEmpty) = true := by
      simpa using empty
    rw [if_neg filled, if_neg empty, Text.octetCount_append, slashes, octetCount_join]

theorem mem_text_of_mem_part {path : Path} {part : Text} (there : part ∈ path.parts) {c : CodePoint}
    (inside : c ∈ part) : c ∈ path.text := by
  have joined : ∀ parts : List Text, part ∈ parts → c ∈ Text.join (Text.ofString "/") parts := by
    intro parts
    induction parts with
    | nil => exact nofun
    | cons first parts ih =>
        intro member
        cases parts with
        | nil =>
            rw [List.mem_singleton.mp member] at inside
            exact inside
        | cons second parts =>
            rw [Text.join]
            · rcases List.mem_cons.mp member with rfl | later
              · exact List.mem_append_left _ (List.mem_append_left _ inside)
              · exact List.mem_append_right _ (ih later)
            · nofun
  have filled : ¬ (decide (path.slashes = 0) && path.parts.isEmpty) = true := by
    intro empty
    simp only [Bool.and_eq_true, List.isEmpty_iff] at empty
    rw [empty.2] at there
    cases there
  unfold text
  rw [if_neg filled]
  exact List.mem_append_right _ (joined _ there)

end Path

theorem Text.isName_of_octetFault? {t : Text} (clean : t.octetFault? = none)
    (noNul : t.any (·.val = 0) = false) : t.IsName := by
  have none : t.findIdx? (fun c => c.isSurrogate && !c.isOctetMark) = none := by
    unfold octetFault? at clean
    split at clean
    · assumption
    · rename_i first found
      obtain ⟨small, marked, -⟩ := List.findIdx?_eq_some_iff_getElem.mp found
      rw [List.drop_eq_getElem_cons small, List.takeWhile_cons,
        if_pos (Bool.and_eq_true_iff.mp marked).1] at clean
      cases clean
  intro c inside
  refine ⟨?_, List.findIdx?_eq_none_iff.mp none c inside⟩
  simpa using List.any_eq_false.mp noNul c inside

namespace FileTree

/-- A path can be looked for when its parts are names and it is not too long. -/
theorem fits_iff {path : Path} :
    Fits path ↔ path.IsNamed ∧ path.text.octetCount < pathLimit := by
  constructor
  · rintro ⟨clean, noNul, short⟩
    have name := Text.isName_of_octetFault? clean noNul
    exact ⟨fun part there c inside => name c (Path.mem_text_of_mem_part there inside), short⟩
  · rintro ⟨named, short⟩
    have name := path.isName_text named
    exact ⟨Text.octetFault?_of_isName name, Text.noNul_of_isName name, short⟩

theorem Fits.parent {path : Path} (h : Fits path) : Fits path.parent := by
  obtain ⟨named, short⟩ := fits_iff.mp h
  refine fits_iff.mpr ⟨fun part there => named part (List.dropLast_subset _ there), ?_⟩
  rw [Path.octetCount_text] at short ⊢
  rcases List.eq_nil_or_concat path.parts with none | ⟨front, name, same⟩
  · simpa only [Path.parent, none, List.dropLast_nil] using short
  · rw [List.concat_eq_append] at same
    rw [same] at short
    simp only [Path.parent, same, List.dropLast_concat]
    have limit : 1 < pathLimit := by decide
    rw [if_neg (by simp), Path.octets_append] at short
    split <;> omega

/-! ## Trees as a file system shows them -/

/-- A tree in which everything stands in a directory, and paths start from one. -/
structure WellFormed (tree : FileTree) : Prop where
  closed : tree.Closed
  start : tree.node? tree.current = some .directory
  plain : ∀ name ∈ tree.current, IsPlain name

theorem Closed.dropLast {tree : FileTree} (closed : tree.Closed) {route : Route}
    (there : tree.node? route = some .directory) : tree.node? route.dropLast = some .directory :=
  closed route (by rw [there]; nofun)

/-- What stands in a tree stands in directories all the way from the root. -/
theorem Closed.above {tree : FileTree} (closed : tree.Closed) {route front : Route}
    (there : tree.node? route = some .directory) (isFront : front <+: route) :
    tree.node? front = some .directory := by
  obtain ⟨behind, rfl⟩ := isFront
  cases known : tree.node? front with
  | none =>
      rw [closed.below known] at there
      cases there
  | some node =>
      -- Something that is no directory would have nothing below it.
      cases behind with
      | nil => rwa [List.append_nil, known] at there
      | cons name names =>
          have next : tree.node? (front ++ [name]) ≠ none := by
            intro missing
            have gone := closed.below missing names
            rw [List.append_assoc] at gone
            rw [List.singleton_append, there] at gone
            cases gone
          have stands := closed _ next
          rwa [List.dropLast_concat, known] at stands

/-- A place that is reached through directories stands in one. -/
theorem Closed.of_follow {tree after : FileTree} (closed : tree.Closed)
    (directories : ∀ r, tree.node? r = some .directory → after.node? r = some .directory)
    {route r : Route} {names : List Text} (start : tree.node? route = some .directory)
    (reached : after.follow route names = .ok r) (there : after.node? r = some .directory) :
    after.node? r.dropLast = some .directory := by
  -- Not only the directory above a place is there, but all of them, also where a name leads back.
  have step (names : List Text) : ∀ route : Route,
      (∀ front, front <+: route → after.node? front = some .directory) →
        after.follow route names = .ok r →
          ∀ front, front <+: r → after.node? front = some .directory := by
    induction names with
    | nil =>
        intro route above same
        cases same
        exact above
    | cons name names ih =>
        intro route above followed
        obtain ⟨-, -, next⟩ := follow_cons_ok followed
        refine ih _ (fun front isFront => ?_) next
        unfold advance at isFront next
        split at isFront
        · exact above front (isFront.trans (List.dropLast_prefix _))
        · rename_i leads
          rcases List.prefix_concat_iff.mp isFront with rfl | isFront
          · cases names with
            | nil =>
                rw [if_neg leads] at next
                cases next
                exact there
            | cons second names =>
                rw [if_neg leads] at next
                exact (follow_cons_ok next).1
          · exact above front isFront
  exact step names route (fun front isFront => directories _ (closed.above start isFront)) reached _
    (List.dropLast_prefix r)

/-- Whether a tree is well-formed can be seen from its nodes. -/
theorem wellFormed_of_nodes {tree : FileTree}
    (stand : ∀ entry ∈ tree.nodes, tree.node? entry.1.dropLast = some .directory)
    (start : tree.node? tree.current = some .directory)
    (plain : ∀ name ∈ tree.current, IsPlain name) : tree.WellFormed := by
  refine ⟨fun route there => ?_, start, plain⟩
  by_cases root : route = []
  · rw [root]
    rfl
  · by_cases listed : route ∈ tree.nodes.map (·.1)
    · obtain ⟨entry, inside, rfl⟩ := List.mem_map.mp listed
      exact stand entry inside
    · exact absurd (node?_eq_none_of_not_mem root listed) there

theorem WellFormed.of_closed {tree after : FileTree} (wellFormed : tree.WellFormed)
    (closed : after.Closed) (current : after.current = tree.current)
    (directories : ∀ r, tree.node? r = some .directory → after.node? r = some .directory) :
    after.WellFormed := by
  refine ⟨closed, ?_, ?_⟩
  · rw [current]
    exact directories _ wellFormed.start
  · rw [current]
    exact wellFormed.plain

theorem WellFormed.origin {tree : FileTree} (wellFormed : tree.WellFormed) (path : Path) :
    tree.node? (tree.origin path) = some .directory := by
  unfold FileTree.origin
  split
  · rfl
  · exact wellFormed.start

/-- Trees stay well-formed when directories are made. -/
theorem Furnished.wellFormed {tree after : FileTree} {path : Path} {names : List Text}
    (h : Furnished tree after (tree.origin path) names) (wellFormed : tree.WellFormed) :
    after.WellFormed := by
  refine wellFormed.of_closed (fun r there => ?_) h.current fun _ => h.directories
  rcases h.node r with same | ⟨-, made, front, -, reached⟩
  · rw [same] at there
    exact h.directories (wellFormed.closed r there)
  · exact wellFormed.closed.of_follow (fun _ => h.directories) (wellFormed.origin path) reached made

def IsShort (names : List Text) : Prop :=
  ∀ name ∈ names, name = parentName ∨ name.octetCount ≤ nameLimit

instance (names : List Text) : Decidable (IsShort names) :=
  inferInstanceAs (Decidable (∀ name ∈ names, _))

/-- Names lead through directories. -/
theorem follow_of_way {tree : FileTree} {route : Route} {names : List Text} (short : IsShort names)
    (directories : ∀ r ∈ way route names, tree.node? r = some .directory) :
    tree.follow route names = .ok (walk route names) := by
  induction names generalizing route with
  | nil => rfl
  | cons name names ih =>
      rw [follow_cons (directories route List.mem_cons_self) (short name List.mem_cons_self)]
      exact ih (fun other inside => short other (List.mem_cons_of_mem _ inside))
        fun r inside => directories r (List.mem_cons_of_mem _ inside)

theorem isShort_of_follow {tree : FileTree} {route r : Route} {names : List Text}
    (h : tree.follow route names = .ok r) : IsShort names := by
  induction names generalizing route with
  | nil => exact nofun
  | cons name names ih =>
      obtain ⟨-, short, next⟩ := follow_cons_ok h
      intro other inside
      rcases List.mem_cons.mp inside with rfl | later
      · exact short
      · exact ih next other later

theorem way_of_follow {tree : FileTree} {route r : Route} {names : List Text}
    (h : tree.follow route names = .ok r) (last : tree.node? r = some .directory) :
    ∀ r ∈ way route names, tree.node? r = some .directory := by
  induction names generalizing route with
  | nil =>
      cases h
      intro other inside
      rwa [List.mem_singleton.mp inside]
  | cons name names ih =>
      obtain ⟨directory, -, next⟩ := follow_cons_ok h
      intro other inside
      rcases List.mem_cons.mp inside with rfl | later
      · exact directory
      · exact ih next other later

/-- Only a path that leads somewhere shows a node. -/
theorem find_of_look {tree : FileTree} {path : Path} {node : Node}
    (h : tree.look path = .ok (some node)) :
    ∃ r, tree.find path = .ok r ∧ tree.node? r = some node := by
  cases found : tree.find path with
  | ok r =>
      rw [look_of_find found] at h
      exact ⟨r, rfl, Except.ok.inj h⟩
  | error e =>
      have refused : tree.stat path = .error e := by
        unfold stat
        rw [found]
        rfl
      unfold look at h
      rw [refused] at h
      split at h
      · rename_i same
        cases same
      · split at h <;> cases h
      · cases h
      · cases h
      · cases h

/-- Names that pass nothing but directories and free places lead somewhere, or a place is free. -/
theorem follow_of_free {tree : FileTree} {route : Route} {names : List Text}
    (short : IsShort names)
    (free : ∀ r ∈ way route names, tree.node? r = none ∨ tree.node? r = some .directory) :
    tree.follow route names = .ok (walk route names) ∨
      tree.follow route names = .error .noEntry := by
  induction names generalizing route with
  | nil => exact .inl rfl
  | cons name names ih =>
      rcases free route List.mem_cons_self with missing | directory
      · right
        rw [follow, missing]
      · rw [follow_cons directory (short name List.mem_cons_self)]
        exact ih (fun other inside => short other (List.mem_cons_of_mem _ inside))
          fun r inside => free r (List.mem_cons_of_mem _ inside)

/-- All places before the last one are directories. -/
theorem way_of_follow_concat {tree : FileTree} {route r : Route} {front : List Text} {name : Text}
    (h : tree.follow route (front ++ [name]) = .ok r) :
    ∀ r ∈ way route front, tree.node? r = some .directory := by
  induction front generalizing route with
  | nil =>
      intro other inside
      rw [List.mem_singleton.mp inside]
      exact (follow_cons_ok h).1
  | cons first front ih =>
      obtain ⟨directory, -, next⟩ := follow_cons_ok h
      intro other inside
      rcases List.mem_cons.mp inside with rfl | later
      · exact directory
      · exact ih next other later

/-- A directory is at a path when all places on the way to it are directories. -/
theorem hasDirectory_iff {tree : FileTree} {path : Path} :
    tree.hasDirectory path = .ok true ↔
      Fits path ∧ IsShort path.parts ∧ ∀ r ∈ tree.wayOf path, tree.node? r = some .directory := by
  constructor
  · intro h
    have looked : tree.look path = .ok (some .directory) := by
      unfold hasDirectory at h
      split at h
      · rename_i node seen
        rw [seen]
        simpa using h
      · cases h
    obtain ⟨r, found, last⟩ := find_of_look looked
    obtain ⟨fits, followed⟩ := find_eq_ok_iff.mp found
    exact ⟨fits, isShort_of_follow followed, way_of_follow followed last⟩
  · rintro ⟨fits, short, directories⟩
    unfold hasDirectory
    rw [look_of_find (find_eq_ok_iff.mpr ⟨fits, follow_of_way short directories⟩),
      directories _ (walk_mem_way _ _)]
    rfl

theorem mem_way_iff {route r : Route} {names : List Text} :
    r ∈ way route names ↔ ∃ front, front <+: names ∧ walk route front = r := by
  constructor
  · intro inside
    induction names generalizing route with
    | nil => exact ⟨[], List.prefix_refl _, (List.mem_singleton.mp inside).symm⟩
    | cons name names ih =>
        rcases List.mem_cons.mp inside with rfl | later
        · exact ⟨[], List.nil_prefix, rfl⟩
        · obtain ⟨front, isFront, reached⟩ := ih later
          exact ⟨name :: front, List.cons_prefix_cons.mpr ⟨rfl, isFront⟩, reached⟩
  · rintro ⟨front, isFront, rfl⟩
    exact mem_way_of_isPrefix isFront route

theorem wayOf_parent_subset (tree : FileTree) (path : Path) :
    tree.wayOf path.parent ⊆ tree.wayOf path := by
  intro r inside
  obtain ⟨front, isFront, reached⟩ := mem_way_iff.mp inside
  exact mem_way_iff.mpr ⟨front, isFront.trans (List.dropLast_prefix _), reached⟩

/-! ## Paths that can be passed -/

/-- Whether the directories of a path can be made: nothing else stands in their way. -/
structure Passable (tree : FileTree) (path : Path) : Prop where
  fits : Fits path
  short : IsShort path.parts
  way : ∀ r ∈ tree.wayOf path, tree.node? r = none ∨ tree.node? r = some .directory

/-- How places change when directories are made: some that were free are directories now. -/
def MadeAt (tree after : FileTree) (r : Route) : Prop :=
  after.node? r = tree.node? r ∨ (tree.node? r = none ∧ after.node? r = some .directory)

theorem Furnished.madeAt {tree after : FileTree} {route : Route} {names : List Text}
    (h : Furnished tree after route names) (r : Route) : MadeAt tree after r :=
  (h.node r).imp_right fun ⟨missing, made, _⟩ => ⟨missing, made⟩

/-- Directories are made on the way only. -/
theorem Furnished.node?_off {tree after : FileTree} {path : Path}
    (h : Furnished tree after (tree.origin path) path.parts) {r : Route}
    (off : r ∉ tree.wayOf path) : after.node? r = tree.node? r := by
  rcases h.node r with same | ⟨-, -, front, isFront, reached⟩
  · exact same
  · exact absurd (mem_way_iff.mpr ⟨front, isFront, (follow_eq_walk reached).symm⟩) off

theorem MadeAt.free_iff {tree after : FileTree} {r : Route} (h : MadeAt tree after r) :
    (after.node? r = none ∨ after.node? r = some .directory) ↔
      (tree.node? r = none ∨ tree.node? r = some .directory) := by
  rcases h with same | ⟨missing, made⟩
  · rw [same]
  · simp [missing, made]

theorem MadeAt.trans {tree middle after : FileTree} {r : Route} (first : MadeAt tree middle r)
    (second : MadeAt middle after r) : MadeAt tree after r := by
  rcases second with same | ⟨missing, made⟩
  · rcases first with same' | ⟨missing, made⟩
    · exact .inl (same.trans same')
    · exact .inr ⟨missing, same.trans made⟩
  · rcases first with same' | ⟨-, made'⟩
    · exact .inr ⟨same' ▸ missing, made⟩
    · rw [missing] at made'
      cases made'

theorem passable_of_hasDirectory {tree : FileTree} {path : Path}
    (h : tree.hasDirectory path = .ok true) : tree.Passable path := by
  obtain ⟨fits, short, directories⟩ := hasDirectory_iff.mp h
  exact ⟨fits, short, fun r inside => .inr (directories r inside)⟩

theorem Passable.parent {tree : FileTree} {path : Path} (h : tree.Passable path) :
    tree.Passable path.parent :=
  ⟨h.fits.parent, fun name inside => h.short name (List.dropLast_subset _ inside),
    fun r inside => h.way r (wayOf_parent_subset tree path inside)⟩

/-- Whether a path can be passed does not depend on directories that are made. -/
theorem passable_iff {tree after : FileTree} {path : Path} (current : after.current = tree.current)
    (made : ∀ r ∈ tree.wayOf path, MadeAt tree after r) :
    after.Passable path ↔ tree.Passable path := by
  constructor
  · rintro ⟨fits, short, way⟩
    rw [wayOf_eq current] at way
    exact ⟨fits, short, fun r inside => (made r inside).free_iff.mp (way r inside)⟩
  · rintro ⟨fits, short, way⟩
    rw [← wayOf_eq current] at way made
    exact ⟨fits, short, fun r inside => (made r inside).free_iff.mpr (way r inside)⟩

/-- A path without parts leads to where it starts. -/
theorem WellFormed.root {tree : FileTree} (wellFormed : tree.WellFormed) {path : Path}
    (fits : Fits path) (none : path.parts = []) : tree.hasDirectory path = .ok true := by
  refine hasDirectory_iff.mpr ⟨fits, by rw [none]; nofun, fun r inside => ?_⟩
  rw [wayOf, none] at inside
  rw [List.mem_singleton.mp inside]
  exact wellFormed.origin path

/-- In front of a place where nothing is, the names of a steady path are plain. -/
theorem SteadyFrom.plain_behind {tree : FileTree} {route : Route} {front behind : List Text}
    (steady : tree.SteadyFrom route (front ++ behind))
    (free : ∀ r ∈ way route front, tree.node? r = none ∨ tree.node? r = some .directory)
    (missing : tree.node? (walk route front) = none) : ∀ part ∈ behind, IsPlain part := by
  induction front generalizing route with
  | nil =>
      cases behind with
      | nil => exact nofun
      | cons name behind =>
          rw [List.nil_append] at steady
          unfold SteadyFrom at steady
          rwa [show tree.node? route = none from missing] at steady
  | cons name front ih =>
      rw [List.cons_append] at steady
      unfold SteadyFrom at steady
      rcases free route List.mem_cons_self with gap | directory
      · rw [gap] at steady
        exact fun part inside => steady part (List.mem_cons_of_mem _ (List.mem_append_right _ inside))
      · rw [directory] at steady
        exact ih steady (fun r inside => free r (List.mem_cons_of_mem _ inside)) missing

/-- A path stays steady when directories are made on its way. -/
theorem SteadyFrom.made {tree after : FileTree} {route : Route} {names : List Text}
    (steady : tree.SteadyFrom route names) (made : ∀ r ∈ way route names, MadeAt tree after r) :
    after.SteadyFrom route names := by
  induction names generalizing route with
  | nil => trivial
  | cons name names ih =>
      unfold SteadyFrom at steady
      rcases made route List.mem_cons_self with same | ⟨missing, -⟩
      · unfold SteadyFrom
        rw [same]
        split
        · rename_i missing
          rwa [missing] at steady
        · rename_i directory
          rw [directory] at steady
          exact ih steady fun r inside => made r (List.mem_cons_of_mem _ inside)
        · trivial
      · rw [missing] at steady
        exact steadyFrom_of_plain steady route

/-- What a steady path that can be passed leads to is a directory, or nothing is there. -/
theorem Passable.directory_or_missing {tree : FileTree} {path : Path}
    (passable : tree.Passable path) (closed : tree.Closed) (steady : tree.Steady path) :
    tree.hasDirectory path = .ok true ∨ tree.node? (tree.placeOf path) = none := by
  by_cases gap : ∃ r ∈ tree.wayOf path, tree.node? r = none
  · obtain ⟨r, inside, missing⟩ := gap
    obtain ⟨front, ⟨behind, split⟩, rfl⟩ := mem_way_iff.mp inside
    unfold Steady at steady
    rw [← split] at steady
    have plain := steady.plain_behind (fun r early => passable.way r ?_) missing
    · right
      rw [placeOf, ← split, walk_append, walk_plain fun part inside => (plain part inside).1]
      exact closed.below missing behind
    · obtain ⟨first, isFront, rfl⟩ := mem_way_iff.mp early
      exact mem_way_iff.mpr ⟨first, isFront.trans ⟨behind, split⟩, rfl⟩
  · left
    refine hasDirectory_iff.mpr ⟨passable.fits, passable.short, fun r inside => ?_⟩
    rcases passable.way r inside with missing | directory
    · exact absurd ⟨r, inside, missing⟩ gap
    · exact directory

/-- Trees stay well-formed when a file is taken away. -/
theorem WellFormed.erase {tree after : FileTree} (wellFormed : tree.WellFormed) {route : Route}
    (leaf : tree.node? route ≠ some .directory) (current : after.current = tree.current)
    (node : ∀ r, after.node? r = if r = route then none else tree.node? r) : after.WellFormed := by
  have directories (r : Route) (there : tree.node? r = some .directory) :
      after.node? r = some .directory := by
    rw [node, if_neg, there]
    rintro rfl
    exact leaf there
  refine wellFormed.of_closed (fun r there => ?_) current directories
  rw [node] at there
  split at there
  · exact absurd rfl there
  · exact directories _ (wellFormed.closed r there)

end FileTree

end SiteFilter
