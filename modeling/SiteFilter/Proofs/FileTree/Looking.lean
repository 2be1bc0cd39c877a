import SiteFilter.Proofs.FileTree.Places

/-!
# Looking along paths

What a path shows, and under which conditions it goes on to show it. A path that leads nowhere yet
must not step back behind a place that is missing, or the directories made later could lead it
elsewhere.
-/

namespace SiteFilter

/-! ## Names -/

/-- Whether a code point can stand in a name: it has octets, and they are not those of U+0000. -/
def CodePoint.IsOfNames (c : CodePoint) : Prop :=
  c.val ≠ 0 ∧ (c.isSurrogate && !c.isOctetMark) = false

instance (c : CodePoint) : Decidable c.IsOfNames :=
  inferInstanceAs (Decidable (_ ∧ _))

def Text.IsName (t : Text) : Prop :=
  ∀ c ∈ t, c.IsOfNames

instance (t : Text) : Decidable t.IsName :=
  inferInstanceAs (Decidable (∀ c ∈ t, c.IsOfNames))

theorem Text.isName_append {s t : Text} (hs : s.IsName) (ht : t.IsName) : (s ++ t).IsName := by
  intro c inside
  rcases List.mem_append.mp inside with first | second
  · exact hs c first
  · exact ht c second

theorem Text.isName_join {sep : Text} {parts : List Text} (hsep : sep.IsName)
    (each : ∀ part ∈ parts, Text.IsName part) : (Text.join sep parts).IsName := by
  induction parts with
  | nil => exact fun c inside => nomatch inside
  | cons part parts ih =>
      have first := each part List.mem_cons_self
      have rest := ih fun other inside => each other (List.mem_cons_of_mem _ inside)
      cases parts with
      | nil => exact first
      | cons second parts => exact isName_append (isName_append first hsep) rest

theorem Text.octetFault?_of_isName {t : Text} (h : t.IsName) : t.octetFault? = none := by
  have clean : t.findIdx? (fun c => c.isSurrogate && !c.isOctetMark) = none := by
    rw [List.findIdx?_eq_none_iff]
    exact fun c inside => (h c inside).2
  rw [octetFault?, clean]

theorem Text.noNul_of_isName {t : Text} (h : t.IsName) : t.any (·.val = 0) = false := by
  rw [List.any_eq_false]
  intro c inside
  simpa using (h c inside).1

def Path.IsNamed (path : Path) : Prop :=
  ∀ part ∈ path.parts, Text.IsName part

instance (path : Path) : Decidable path.IsNamed :=
  inferInstanceAs (Decidable (∀ part ∈ path.parts, Text.IsName part))

theorem Path.isName_text {path : Path} (h : path.IsNamed) : path.text.IsName := by
  have slash : Text.IsName (Text.ofString "/") := by
    intro c inside
    rw [List.mem_singleton.mp inside]
    exact ⟨by decide, rfl⟩
  unfold Path.text
  split
  · intro c inside
    rw [List.mem_singleton.mp inside]
    exact ⟨by decide, rfl⟩
  · apply Text.isName_append
    · intro c inside
      rw [List.eq_of_mem_replicate inside]
      exact ⟨by decide, rfl⟩
    · exact Text.isName_join slash h

/-- Whether a path can be none of a file: its text has no octets, or U+0000 stands in it. -/
def Path.IsOdd (path : Path) : Prop :=
  path.text.octetFault? ≠ none ∨ path.text.any (·.val = 0) = true

namespace FileTree

/-- Whether a path can be looked for: its text has octets, and not too many. -/
def Fits (path : Path) : Prop :=
  path.text.octetFault? = none ∧ path.text.any (·.val = 0) = false ∧
    path.text.octetCount < pathLimit

theorem find_eq_ok_iff {tree : FileTree} {path : Path} {r : Route} :
    tree.find path = .ok r ↔ Fits path ∧ tree.follow (tree.origin path) path.parts = .ok r := by
  unfold find Fits origin
  simp only
  cases path.text.octetFault? with
  | some e => simp
  | none =>
      cases path.text.any (·.val = 0) with
      | true => simp
      | false =>
          by_cases long : pathLimit ≤ path.text.octetCount
          · simp [long, Nat.not_lt.mpr long]
          · simp only [long, Nat.not_le.mp long, Bool.false_eq_true, if_false, true_and]
            split
            · rename_i found
              rw [found, Except.ok.injEq, Except.ok.injEq]
            · rename_i cause found
              rw [found]
              simp

/-- A path goes on to lead to its place when directories stay directories. -/
theorem find_mono {tree after : FileTree} {path : Path} {r : Route}
    (h : tree.find path = .ok r) (current : after.current = tree.current)
    (directories : ∀ r, tree.node? r = some .directory → after.node? r = some .directory) :
    after.find path = .ok r := by
  obtain ⟨fits, reached⟩ := find_eq_ok_iff.mp h
  rw [← origin_eq current] at reached
  exact find_eq_ok_iff.mpr ⟨fits, follow_mono directories reached⟩

theorem find_put {tree : FileTree} {path : Path} {route r : Route} {node : Node}
    (found : tree.find path = .ok r) (below : route ≠ [])
    (kept : node = .directory ∨ tree.node? route ≠ some .directory) :
    (tree.put route node).find path = .ok r :=
  find_mono found rfl fun _ => directory_put below kept

/-- A path that can be one and is not found is refused by the file system. -/
theorem find_error_of_plain {tree : FileTree} {path : Path} {e : Fault} (plain : ¬ path.IsOdd)
    (h : tree.find path = .error e) : ∃ cause, e = .os ⟨cause, path.text, none⟩ := by
  obtain ⟨clean, noNul⟩ := not_or.mp plain
  rw [ne_eq, Classical.not_not] at clean
  rw [Bool.not_eq_true] at noNul
  unfold find at h
  simp only [clean, noNul, Bool.false_eq_true, if_false] at h
  split at h
  · cases h
    exact ⟨_, rfl⟩
  · split at h
    · cases h
    · cases h
      exact ⟨_, rfl⟩

theorem find_of_odd (tree : FileTree) {path : Path} (odd : path.IsOdd) :
    (∃ e, tree.find path = .error (.encoding e)) ∨ tree.find path = .error .nulInPath := by
  unfold find
  dsimp only
  cases fault : path.text.octetFault? with
  | some e => exact .inl ⟨e, rfl⟩
  | none =>
      rcases odd with odd | odd
      · exact absurd fault odd
      · exact .inr (by rw [if_pos odd])

/-- A path of names that is not found is refused by the file system. -/
theorem find_error_of_isNamed {tree : FileTree} {path : Path} {e : Fault} (named : path.IsNamed)
    (h : tree.find path = .error e) : ∃ cause, e = .os ⟨cause, path.text, none⟩ := by
  refine find_error_of_plain (not_or.mpr ⟨?_, ?_⟩) h
  · exact Classical.not_not.mpr (Text.octetFault?_of_isName (path.isName_text named))
  · exact Bool.not_eq_true _ ▸ Text.noNul_of_isName (path.isName_text named)

theorem find_of_follow_error {tree : FileTree} {path : Path} {cause : OsCause} (fits : Fits path)
    (h : tree.follow (tree.origin path) path.parts = .error cause) :
    tree.find path = .error (.os ⟨cause, path.text, none⟩) := by
  obtain ⟨clean, noNul, short⟩ := fits
  unfold origin at h
  simp only [find, clean, noNul, Bool.false_eq_true, if_false, if_neg (Nat.not_le.mpr short), h]

/-! ## What a path shows -/

/--
Names show a node, or nothing, and go on to do so. Behind a place where nothing is, they may not
step back, no name may be too long, and nothing may be at the place that they lead to.
-/
def Shows (tree : FileTree) (n : Option Node) : Route → List Text → Prop
  | route, [] => tree.node? route = n
  | route, name :: names =>
      match tree.node? route with
      | none =>
          n = none ∧ (∀ part ∈ name :: names, IsPlain part) ∧
            tree.node? (route ++ name :: names) = none
      | some .directory =>
          (name = parentName ∨ name.octetCount ≤ nameLimit) ∧
            tree.Shows n (advance route name) names
      | some _ => n = none

/-- Names that lead somewhere show what is there. -/
theorem shows_of_follow {tree : FileTree} {route r : Route} {names : List Text}
    (h : tree.follow route names = .ok r) : tree.Shows (tree.node? r) route names := by
  induction names generalizing route with
  | nil =>
      cases h
      rfl
  | cons name names ih =>
      obtain ⟨directory, short, next⟩ := follow_cons_ok h
      unfold Shows
      rw [directory]
      exact ⟨short, ih next⟩

/-- Names that show something lead there; those that show nothing may lead nowhere. -/
theorem follow_of_shows {tree : FileTree} {n : Option Node} {route : Route} {names : List Text}
    (h : tree.Shows n route names) :
    (tree.follow route names = .ok (walk route names) ∧ tree.node? (walk route names) = n) ∨
      (n = none ∧ (tree.follow route names = .error .noEntry ∨
        tree.follow route names = .error .notDirectory)) := by
  induction names generalizing route with
  | nil => exact .inl ⟨rfl, h⟩
  | cons name names ih =>
      unfold Shows at h
      split at h
      · rename_i missing
        refine .inr ⟨h.1, .inl ?_⟩
        rw [follow, missing]
      · rename_i directory
        rw [follow_cons directory h.1]
        exact ih h.2
      · rename_i node other found
        refine .inr ⟨h, .inr ?_⟩
        rw [follow, found]
        cases node with
        | directory => exact absurd rfl other
        | file content => rfl
        | socket => rfl

theorem follow_of_shows_some {tree : FileTree} {node : Node} {route : Route} {names : List Text}
    (h : tree.Shows (some node) route names) :
    tree.follow route names = .ok (walk route names) ∧
      tree.node? (walk route names) = some node := by
  rcases follow_of_shows h with found | ⟨missing, -⟩
  · exact found
  · cases missing

/-- Plain names show nothing when nothing is at the place that they lead to. -/
theorem shows_plain {tree : FileTree} {route : Route} {names : List Text}
    (plain : ∀ part ∈ names, IsPlain part) (missing : tree.node? (route ++ names) = none) :
    tree.Shows none route names := by
  induction names generalizing route with
  | nil =>
      rw [List.append_nil] at missing
      exact missing
  | cons name names ih =>
      obtain ⟨leads, short⟩ := plain name List.mem_cons_self
      unfold Shows
      split
      · exact ⟨rfl, plain, missing⟩
      · refine ⟨.inr short, ?_⟩
        rw [advance, if_neg leads]
        apply ih fun part inside => plain part (List.mem_cons_of_mem _ inside)
        simpa using missing
      · rfl

/-! ## Changes elsewhere -/

/-- How a place may change: a directory stays one, and so does what is none. -/
def Persists : Option Node → Option Node → Prop
  | none, _ => True
  | some .directory, n => n = some .directory
  | some _, n => ∃ node, n = some node ∧ node ≠ .directory

/-- What is free was free before. -/
theorem Persists.none_of {n : Option Node} (h : Persists n none) : n = none := by
  match n with
  | none => rfl
  | some .directory => cases h
  | some (.file _) => exact nomatch h.choose_spec.1
  | some .socket => exact nomatch h.choose_spec.1

theorem Persists.refl (n : Option Node) : Persists n n := by
  match n with
  | none => exact trivial
  | some .directory => rfl
  | some (.file content) => exact ⟨_, rfl, nofun⟩
  | some .socket => exact ⟨_, rfl, nofun⟩

theorem Persists.trans {a b c : Option Node} (h : Persists a b) (h' : Persists b c) :
    Persists a c := by
  match a with
  | none => exact trivial
  | some .directory =>
      cases h
      exact h'
  | some (.file content) =>
      obtain ⟨node, rfl, other⟩ := h
      cases node with
      | directory => exact absurd rfl other
      | file content' => exact h'
      | socket => exact h'
  | some .socket =>
      obtain ⟨node, rfl, other⟩ := h
      cases node with
      | directory => exact absurd rfl other
      | file content' => exact h'
      | socket => exact h'

theorem Persists.of_eq {a b : Option Node} (h : b = a) : Persists a b :=
  h ▸ Persists.refl a

/-- Names go on to show what they showed when only other places change. -/
theorem Shows.mono {tree after : FileTree} {n : Option Node} {route : Route} {names : List Text}
    (h : tree.Shows n route names)
    (kept : ∀ r ∈ way route names, Persists (tree.node? r) (after.node? r))
    (same : after.node? (walk route names) = tree.node? (walk route names)) :
    after.Shows n route names := by
  induction names generalizing route with
  | nil => exact same.trans h
  | cons name names ih =>
      have here := kept route List.mem_cons_self
      have next := fun r inside => kept r (List.mem_cons_of_mem _ inside)
      unfold Shows at h
      split at h
      · rename_i missing
        obtain ⟨rfl, plain, nothing⟩ := h
        apply shows_plain plain
        rwa [walk_plain fun part inside => (plain part inside).1, nothing] at same
      · rename_i directory
        rw [directory] at here
        unfold Shows
        rw [show after.node? route = some .directory from here]
        exact ⟨h.1, ih h.2 next same⟩
      · rename_i node other found
        rw [found] at here
        have stays : ∃ node, after.node? route = some node ∧ node ≠ .directory := by
          cases node with
          | directory => exact absurd rfl other
          | file content => exact here
          | socket => exact here
        obtain ⟨node', found', other'⟩ := stays
        unfold Shows
        rw [found']
        cases node' with
        | directory => exact absurd rfl other'
        | file content => exact h
        | socket => exact h

/-! ## Trees and paths as they are found -/

/-- Whether everything stands in a directory. -/
def Closed (tree : FileTree) : Prop :=
  ∀ route, tree.node? route ≠ none → tree.node? route.dropLast = some .directory

/-- Below a place where nothing is there is nothing. -/
theorem Closed.below {tree : FileTree} (closed : tree.Closed) {route : Route}
    (missing : tree.node? route = none) (names : List Text) :
    tree.node? (route ++ names) = none := by
  induction names generalizing route with
  | nil => rwa [List.append_nil]
  | cons name names ih =>
      have next : tree.node? (route ++ [name]) = none := by
        apply Classical.byContradiction
        intro there
        have directory := closed _ there
        rw [List.dropLast_concat, missing] at directory
        cases directory
      have rest := ih next
      rwa [List.append_assoc] at rest

/-- Behind a place where nothing is, names neither step back nor are too long. -/
def SteadyFrom (tree : FileTree) : Route → List Text → Prop
  | _, [] => True
  | route, name :: names =>
      match tree.node? route with
      | none => ∀ part ∈ name :: names, IsPlain part
      | some .directory => tree.SteadyFrom (advance route name) names
      | some _ => True

/-- A path that does not come to lead elsewhere when directories on its way are made. -/
def Steady (tree : FileTree) (path : Path) : Prop :=
  tree.SteadyFrom (tree.origin path) path.parts

theorem steadyFrom_of_plain {tree : FileTree} {names : List Text}
    (plain : ∀ part ∈ names, IsPlain part) (route : Route) : tree.SteadyFrom route names := by
  induction names generalizing route with
  | nil => trivial
  | cons name names ih =>
      unfold SteadyFrom
      split
      · exact plain
      · exact ih (fun part inside => plain part (List.mem_cons_of_mem _ inside)) _
      · trivial

theorem SteadyFrom.append {tree : FileTree} {route : Route} {front behind : List Text}
    (h : tree.SteadyFrom route front) (plain : ∀ part ∈ behind, IsPlain part) :
    tree.SteadyFrom route (front ++ behind) := by
  induction front generalizing route with
  | nil => exact steadyFrom_of_plain plain route
  | cons name front ih =>
      rw [List.cons_append]
      unfold SteadyFrom at h ⊢
      split at h
      · intro part inside
        rw [← List.cons_append] at inside
        rcases List.mem_append.mp inside with first | second
        · exact h part first
        · exact plain part second
      · exact ih h
      · trivial

/-- Names that show a node, or nothing, do so steadily. -/
theorem steadyFrom_of_shows {tree : FileTree} {n : Option Node} {route : Route}
    {names : List Text} (h : tree.Shows n route names) : tree.SteadyFrom route names := by
  induction names generalizing route with
  | nil => trivial
  | cons name names ih =>
      unfold Shows at h
      unfold SteadyFrom
      split at h
      · exact h.2.1
      · exact ih h.2
      · trivial

/--
A place where nothing was is not the place of names that lead on from it, so that a directory made
there does not stand where they lead to.
-/
theorem walk_ne_of_follow {tree after : FileTree} {route w : Route} {front behind : List Text}
    (steady : tree.SteadyFrom route (front ++ behind)) (more : behind ≠ [])
    (kept : ∀ r, Persists (tree.node? r) (after.node? r))
    (reached : after.follow route front = .ok w) (missing : tree.node? w = none) :
    w ≠ walk route (front ++ behind) := by
  -- Behind the first place where nothing was no name leads back, so the walk only gets longer.
  induction front generalizing route with
  | nil =>
      cases reached
      cases behind with
      | nil => exact absurd rfl more
      | cons name names =>
          unfold SteadyFrom at steady
          rw [List.nil_append] at steady ⊢
          simp only [missing] at steady
          rw [walk_plain fun part inside => (steady part inside).1]
          simp
  | cons name front ih =>
      obtain ⟨directory, short, next⟩ := follow_cons_ok reached
      have here := kept route
      rw [List.cons_append] at steady ⊢
      unfold SteadyFrom at steady
      split at steady
      · have leads : ∀ part ∈ name :: (front ++ behind), part ≠ parentName :=
          fun part inside => (steady part inside).1
        have place := follow_eq_walk reached
        rw [walk_plain fun part inside => leads part (by
          rw [← List.cons_append]
          exact List.mem_append_left _ inside)] at place
        rw [place, walk_plain leads]
        simpa using more
      · exact ih steady next
      · rename_i node other found
        rw [found, directory] at here
        cases node with
        | directory => exact absurd rfl other
        | file content =>
            obtain ⟨node, same, differs⟩ := here
            exact absurd (Option.some.inj same).symm differs
        | socket =>
            obtain ⟨node, same, differs⟩ := here
            exact absurd (Option.some.inj same).symm differs

/-- Names that lead nowhere, in a tree that is closed, go on to show nothing. -/
theorem shows_of_follow_error {tree : FileTree} (closed : tree.Closed) {route : Route}
    {names : List Text} {cause : OsCause} (steady : tree.SteadyFrom route names)
    (h : tree.follow route names = .error cause) (short : cause ≠ .nameTooLong) :
    tree.Shows none route names := by
  induction names generalizing route with
  | nil => cases h
  | cons name names ih =>
      unfold SteadyFrom at steady
      unfold Shows
      split at steady
      · rename_i missing
        exact ⟨rfl, steady, closed.below missing _⟩
      · rename_i directory
        have room : name = parentName ∨ name.octetCount ≤ nameLimit := by
          apply Classical.byContradiction
          intro long
          rw [not_or] at long
          rw [follow, directory] at h
          simp only [if_neg long.1, Nat.not_le.mp long.2, if_true] at h
          cases h
          exact short rfl
        rw [follow_cons directory room] at h
        exact ⟨room, ih steady h⟩
      · rfl

/-! ## Questions about paths -/

theorem stat_of_find {tree : FileTree} {path : Path} {r : Route} (h : tree.find path = .ok r) :
    tree.stat path =
      match tree.node? r with
      | some node => .ok (r, node)
      | none => .error (.os ⟨.noEntry, path.text, none⟩) := by
  unfold stat
  rw [h]
  cases there : tree.node? r with
  | none =>
      simp only [bind, Except.bind, there]
      rfl
  | some node =>
      simp only [bind, Except.bind, there]
      rfl

theorem look_of_find {tree : FileTree} {path : Path} {r : Route} (h : tree.find path = .ok r) :
    tree.look path = .ok (tree.node? r) := by
  unfold look
  rw [stat_of_find h]
  cases tree.node? r <;> rfl

/-- What is seen at a path is what reading there meets. -/
theorem read_of_look {tree : FileTree} {path : Path} {node : Node}
    (h : tree.look path = .ok (some node)) : tree.read path =
      match node with
      | .file content => .ok content
      | .directory => .error (.os ⟨.isDirectory, path.text, none⟩)
      | .socket => .error (.os ⟨.noDevice, path.text, none⟩) := by
  have stood : ∃ r, tree.stat path = .ok (r, node) := by
    unfold look at h
    split at h
    · rename_i r there stood
      cases h
      exact ⟨r, stood⟩
    · split at h <;> cases h
    · cases h
    · cases h
    · cases h
  obtain ⟨r, stood⟩ := stood
  unfold read
  rw [stood]
  cases node <;> rfl

/-- The text of a file is what its octets stand for, with unified line ends. -/
theorem readText_eq_ok_iff {tree : FileTree} {path : Path} {document : Text} :
    tree.readText path = .ok document ↔
      ∃ octets content, tree.read path = .ok octets ∧ Utf8.decode octets = .ok content ∧
        document = content.unifyLineEnds := by
  unfold readText
  cases tree.read path with
  | error e => exact ⟨nofun, nofun⟩
  | ok octets =>
      simp only [bind, Except.bind, Except.ok.injEq, exists_and_left, exists_eq_left']
      cases Utf8.decode octets with
      | error e => exact ⟨nofun, nofun⟩
      | ok content =>
          simp only [pure, Except.pure, Except.ok.injEq, exists_eq_left']
          exact eq_comm

/-- Why nothing is found at a path: it cannot be one, or the file system refuses. -/
theorem stat_error {tree : FileTree} {path : Path} {e : Fault} (h : tree.stat path = .error e) :
    (∃ cause, e = .os cause) ∨ (∃ cause, e = .encoding cause) ∨ e = .nulInPath := by
  unfold stat at h
  cases found : tree.find path with
  | ok r =>
      rw [found] at h
      simp only [bind, Except.bind] at h
      split at h
      · cases h
      · cases h
        exact .inl ⟨_, rfl⟩
  | error e' =>
      rw [found] at h
      cases h
      unfold find at found
      dsimp only at found
      split at found
      · cases found
        exact .inr (.inl ⟨_, rfl⟩)
      · split at found
        · cases found
          exact .inr (.inr rfl)
        · split at found
          · cases found
            exact .inl ⟨_, rfl⟩
          · split at found
            · cases found
            · cases found
              exact .inl ⟨_, rfl⟩

/-- Only the file system keeps one from looking at a path. -/
theorem look_error {tree : FileTree} {path : Path} {e : Fault} (h : tree.look path = .error e) :
    ∃ cause, e = .os cause := by
  unfold look at h
  cases stood : tree.stat path with
  | ok found =>
      rw [stood] at h
      cases h
  | error e' =>
      rw [stood] at h
      rcases stat_error stood with ⟨cause, rfl⟩ | ⟨cause, rfl⟩ | rfl
      · dsimp only at h
        split at h
        · cases h
        · cases h
          exact ⟨cause, rfl⟩
      · cases h
      · cases h

theorem look_of_find_error {tree : FileTree} {path : Path} {cause : OsCause}
    (h : tree.find path = .error (.os ⟨cause, path.text, none⟩)) :
    tree.look path = if cause = .noEntry ∨ cause = .notDirectory then .ok none
      else .error (.os ⟨cause, path.text, none⟩) := by
  have refused : tree.stat path = .error (.os ⟨cause, path.text, none⟩) := by
    unfold stat
    rw [h]
    rfl
  unfold look
  rw [refused]
  cases cause <;> rfl

/-- A text that can be no path leads nowhere. -/
theorem look_of_odd {tree : FileTree} {path : Path}
    (odd : path.text.octetFault? ≠ none ∨ path.text.any (·.val = 0) = true) :
    tree.look path = .ok none := by
  unfold look stat
  rcases find_of_odd tree odd with ⟨e, refused⟩ | refused
  · rw [refused]
    rfl
  · rw [refused]
    rfl

/-- Looking along a path finds what its names show. -/
theorem look_of_shows {tree : FileTree} {path : Path} {n : Option Node} (fits : Fits path)
    (h : tree.Shows n (tree.origin path) path.parts) : tree.look path = .ok n := by
  rcases follow_of_shows h with ⟨found, rfl⟩ | ⟨rfl, missing | missing⟩
  · exact look_of_find (find_eq_ok_iff.mpr ⟨fits, found⟩)
  · exact look_of_find_error (find_of_follow_error fits missing)
  · exact look_of_find_error (find_of_follow_error fits missing)

/-- What is found at a path that is steady stays there. -/
theorem shows_of_look {tree : FileTree} (closed : tree.Closed) {path : Path} {n : Option Node}
    (named : path.IsNamed) (steady : tree.Steady path) (h : tree.look path = .ok n) :
    Fits path ∧ tree.Shows n (tree.origin path) path.parts := by
  have name := path.isName_text named
  have fits : Fits path := by
    refine ⟨Text.octetFault?_of_isName name, Text.noNul_of_isName name, ?_⟩
    apply Classical.byContradiction
    intro long
    have refused : tree.find path = .error (.os ⟨.nameTooLong, path.text, none⟩) := by
      simp only [find, Text.octetFault?_of_isName name, Text.noNul_of_isName name,
        Bool.false_eq_true, if_false, if_pos (Nat.not_lt.mp long)]
    rw [look_of_find_error refused] at h
    cases h
  refine ⟨fits, ?_⟩
  cases found : tree.follow (tree.origin path) path.parts with
  | ok r =>
      rw [look_of_find (find_eq_ok_iff.mpr ⟨fits, found⟩)] at h
      cases h
      exact shows_of_follow found
  | error cause =>
      rw [look_of_find_error (find_of_follow_error fits found)] at h
      split at h
      · rename_i gone
        cases h
        apply shows_of_follow_error closed steady found
        rintro rfl
        rcases gone with gone | gone <;> cases gone
      · cases h

/-- The file that a path shows is read. -/
theorem read_of_shows {tree : FileTree} {path : Path} {content : Bytes} (fits : Fits path)
    (h : tree.Shows (some (.file content)) (tree.origin path) path.parts) :
    tree.read path = .ok content := by
  obtain ⟨found, there⟩ := follow_of_shows_some h
  have stood := stat_of_find (find_eq_ok_iff.mpr ⟨fits, found⟩)
  rw [there] at stood
  unfold read
  rw [stood]
  rfl

/-- Only files that their paths show are read. -/
theorem read_eq_ok_iff {tree : FileTree} {path : Path} {content : Bytes} :
    tree.read path = .ok content ↔
      Fits path ∧ tree.Shows (some (.file content)) (tree.origin path) path.parts := by
  constructor
  · intro h
    unfold read at h
    cases found : tree.find path with
    | error e =>
        have stood : tree.stat path = .error e := by
          unfold stat
          rw [found]
          rfl
        rw [stood] at h
        cases h
    | ok r =>
        obtain ⟨fits, reached⟩ := find_eq_ok_iff.mp found
        have shows := shows_of_follow reached
        rw [stat_of_find found] at h
        cases there : tree.node? r with
        | none =>
            rw [there] at h
            cases h
        | some node =>
            rw [there] at h shows
            cases node with
            | file data =>
                cases h
                exact ⟨fits, shows⟩
            | directory => cases h
            | socket => cases h
  · rintro ⟨fits, shows⟩
    exact read_of_shows fits shows

end FileTree

end SiteFilter
