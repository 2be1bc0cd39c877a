import SiteFilter.FileTree.Basic

/-!
# Places in a file tree

A path is followed through directories alone, so where it leads to is told by its names: each is
added to the place before it, or takes back the last one. What a path shows, a node or nothing, it
goes on to show as long as directories stay directories and its own place is left alone.
-/

namespace SiteFilter.FileTree

/-! ## Elementary operations -/

@[simp] theorem find?_erase (tree : FileTree) (route r : Route) :
    (tree.erase route).nodes.find? (fun entry => entry.1 = r) =
      if r = route then none else tree.nodes.find? fun entry => entry.1 = r := by
  unfold erase
  rw [List.find?_filter]
  by_cases same : r = route
  · rw [if_pos same, List.find?_eq_none]
    intro entry _ found
    simp [same] at found
  · rw [if_neg same]
    congr 1
    funext entry
    by_cases here : entry.1 = r
    · simp [here, same]
    · simp [here]

theorem node?_eq_none_of_not_mem {tree : FileTree} {route : Route} (below : route ≠ [])
    (unused : route ∉ tree.nodes.map (·.1)) : tree.node? route = none := by
  rw [node?, if_neg below, Option.map_eq_none_iff, List.find?_eq_none]
  intro entry here same
  exact unused (List.mem_map.mpr ⟨entry, here, by simpa using same⟩)

theorem ne_nil_of_ne_directory {tree : FileTree} {route : Route}
    (h : tree.node? route ≠ some .directory) : route ≠ [] := by
  rintro rfl
  exact h rfl

@[simp] theorem node?_erase (tree : FileTree) {route : Route} (below : route ≠ []) (r : Route) :
    (tree.erase route).node? r = if r = route then none else tree.node? r := by
  unfold node?
  rw [find?_erase]
  by_cases root : r = []
  · simp [root, Ne.symm below]
  · by_cases same : r = route
    · simp [same, below]
    · simp [root, same]

@[simp] theorem node?_put (tree : FileTree) {route : Route} (below : route ≠ []) (node : Node)
    (r : Route) :
    (tree.put route node).node? r = if r = route then some node else tree.node? r := by
  have rest := find?_erase tree route r
  unfold node? put
  rw [List.find?_cons]
  by_cases root : r = []
  · simp [root, Ne.symm below]
  · by_cases same : r = route
    · subst same
      simp [root]
    · have other : ¬ route = r := fun h => same h.symm
      rw [if_neg same] at rest
      simp only [root, same, other, decide_false, if_false, rest]

/-- Directories stay unless something else is put in the place of one. -/
theorem directory_put {tree : FileTree} {route r : Route} {node : Node} (below : route ≠ [])
    (kept : node = .directory ∨ tree.node? route ≠ some .directory)
    (there : tree.node? r = some .directory) : (tree.put route node).node? r = some .directory := by
  by_cases here : r = route
  · subst here
    simp [below, kept.resolve_right (absurd there)]
  · simp [below, here, there]

/-! ## Places -/

/-- The place that a name leads to from a directory. -/
def advance (route : Route) (name : Text) : Route :=
  if name = parentName then route.dropLast else route ++ [name]

/-- The place that names lead to when all places before it are directories. -/
def walk (route : Route) (names : List Text) : Route :=
  names.foldl advance route

/-- The places that names lead along, the first and the last included. -/
def way : Route → List Text → List Route
  | route, [] => [route]
  | route, name :: names => route :: way (advance route name) names

def origin (tree : FileTree) (path : Path) : Route :=
  if path.isAbsolute then [] else tree.current

def placeOf (tree : FileTree) (path : Path) : Route :=
  walk (tree.origin path) path.parts

def wayOf (tree : FileTree) (path : Path) : List Route :=
  way (tree.origin path) path.parts

theorem origin_eq {tree after : FileTree} (h : after.current = tree.current) (path : Path) :
    after.origin path = tree.origin path := by
  unfold origin
  rw [h]

theorem placeOf_eq {tree after : FileTree} (h : after.current = tree.current) (path : Path) :
    after.placeOf path = tree.placeOf path := by
  rw [placeOf, placeOf, origin_eq h]

theorem wayOf_eq {tree after : FileTree} (h : after.current = tree.current) (path : Path) :
    after.wayOf path = tree.wayOf path := by
  rw [wayOf, wayOf, origin_eq h]

@[simp] theorem walk_cons (route : Route) (name : Text) (names : List Text) :
    walk route (name :: names) = walk (advance route name) names :=
  rfl

@[simp] theorem walk_append (route : Route) (front behind : List Text) :
    walk route (front ++ behind) = walk (walk route front) behind :=
  List.foldl_append

theorem mem_way_of_isPrefix {front names : List Text} (h : front <+: names) (route : Route) :
    walk route front ∈ way route names := by
  induction names generalizing front route with
  | nil =>
      rw [List.prefix_nil.mp h]
      exact List.mem_singleton.mpr rfl
  | cons name names ih =>
      cases front with
      | nil => exact List.mem_cons_self
      | cons first front =>
          obtain ⟨rfl, inner⟩ := List.cons_prefix_cons.mp h
          exact List.mem_cons_of_mem _ (ih inner _)

theorem walk_mem_way (route : Route) (names : List Text) : walk route names ∈ way route names :=
  mem_way_of_isPrefix (List.prefix_refl names) route

theorem placeOf_mem_wayOf (tree : FileTree) (path : Path) :
    tree.placeOf path ∈ tree.wayOf path :=
  walk_mem_way _ _

/-- A name that leads on, and is not too long to stand in a tree. -/
def IsPlain (name : Text) : Prop :=
  name ≠ parentName ∧ name.octetCount ≤ nameLimit

instance (name : Text) : Decidable (IsPlain name) :=
  inferInstanceAs (Decidable (_ ∧ _))

theorem walk_plain {names : List Text} (plain : ∀ name ∈ names, name ≠ parentName)
    (route : Route) : walk route names = route ++ names := by
  induction names generalizing route with
  | nil => exact (List.append_nil route).symm
  | cons name names ih =>
      rw [walk_cons, advance, if_neg (plain name List.mem_cons_self),
        ih fun other inside => plain other (List.mem_cons_of_mem _ inside), List.append_assoc]
      rfl

/-! ## Following -/

/-- One name is followed from a directory. -/
theorem follow_cons_ok {tree : FileTree} {route r : Route} {name : Text} {names : List Text}
    (h : tree.follow route (name :: names) = .ok r) :
    tree.node? route = some .directory ∧ (name = parentName ∨ name.octetCount ≤ nameLimit) ∧
      tree.follow (advance route name) names = .ok r := by
  unfold follow at h
  split at h
  · cases h
  · rename_i directory
    refine ⟨directory, ?_⟩
    split at h
    · rename_i back
      rw [advance, if_pos back]
      exact ⟨.inl back, h⟩
    · rename_i back
      split at h
      · cases h
      · rename_i short
        rw [advance, if_neg back]
        exact ⟨.inr (by omega), h⟩
  · cases h

theorem follow_cons {tree : FileTree} {route : Route} {name : Text} {names : List Text}
    (directory : tree.node? route = some .directory)
    (short : name = parentName ∨ name.octetCount ≤ nameLimit) :
    tree.follow route (name :: names) = tree.follow (advance route name) names := by
  rw [follow, directory]
  by_cases back : name = parentName
  · simp only [back, if_true, advance]
  · have room : ¬ nameLimit < name.octetCount := by
      rcases short with same | short
      · exact absurd same back
      · omega
    simp only [if_neg back, if_neg room, advance]

theorem follow_eq_walk {tree : FileTree} {route r : Route} {names : List Text}
    (h : tree.follow route names = .ok r) : r = walk route names := by
  induction names generalizing route with
  | nil =>
      cases h
      rfl
  | cons name names ih => exact ih (follow_cons_ok h).2.2

/-- What leads somewhere still does when directories stay directories. -/
theorem follow_mono {tree after : FileTree} {route r : Route} {names : List Text}
    (directories : ∀ r, tree.node? r = some .directory → after.node? r = some .directory)
    (h : tree.follow route names = .ok r) : after.follow route names = .ok r := by
  induction names generalizing route with
  | nil => exact h
  | cons name names ih =>
      obtain ⟨directory, short, next⟩ := follow_cons_ok h
      rw [follow_cons (directories _ directory) short]
      exact ih next

theorem follow_append {tree : FileTree} {route middle : Route} {front : List Text}
    (h : tree.follow route front = .ok middle) (behind : List Text) :
    tree.follow route (front ++ behind) = tree.follow middle behind := by
  induction front generalizing route with
  | nil =>
      cases h
      rfl
  | cons name front ih =>
      obtain ⟨directory, short, next⟩ := follow_cons_ok h
      rw [List.cons_append, follow_cons directory short, ih next]

end SiteFilter.FileTree
