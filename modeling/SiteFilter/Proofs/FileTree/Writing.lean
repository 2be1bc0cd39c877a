import Mathlib.Data.Nat.Digits.Defs
import SiteFilter.Proofs.FileTree.AtomicWrite
import SiteFilter.Proofs.FileTree.Making

/-!
# When a file can be written

A file is replaced just when the directories above it can be made, no directory is in its place,
and its path and that of the temporary file are not too long. None of this depends on directories
that are made meanwhile, or on files in other places.
-/

namespace SiteFilter

open FileTree Effect

namespace AtomicWrite

/-! ## Temporary names -/

/-- How many temporary names have eight digits. -/
def nameCount : Nat := 10 ^ 8

theorem octetCount_temporaryName {n : Nat} (small : n < nameCount) :
    (temporaryName n).octetCount = 13 := by
  have ascii (t : Text) (small : ∀ c ∈ t, c.val < 0x80) : Text.octetCount t = t.length := by
    induction t with
    | nil => rfl
    | cons c t ih =>
        have first := small c List.mem_cons_self
        have point : Text.pointOctets c = [UInt8.ofNat c.val] := by
          have unmarked : c.isOctetMark = false := by
            simp only [CodePoint.isOctetMark, Bool.and_eq_false_iff, decide_eq_false_iff_not]
            omega
          simp [Text.pointOctets, unmarked, Utf8.encodePoint, first]
        rw [← List.singleton_append, Text.octetCount_append,
          ih fun d inside => small d (List.mem_cons_of_mem _ inside), Text.octetCount,
          List.flatMap_singleton, point]
        simp [Nat.add_comm]
  have digits : (Text.ofNat n).length ≤ 8 := by
    rw [Text.ofNat, List.length_map]
    exact Nat.toDigitsCore_length 10 _ n 8 (by decide) small
  have digit {c : CodePoint} (inside : c ∈ Text.ofNat n) : c.val < 0x80 := by
    have range := (CodePoint.isAsciiDigit_iff c).mp (Text.isAsciiDigit_of_mem_ofNat inside)
    omega
  have zeros : ∀ c ∈ List.replicate (8 - (Text.ofNat n).length) (CodePoint.ofChar '0'),
      c.val < 0x80 := by
    intro c inside
    rw [List.eq_of_mem_replicate inside]
    decide
  have mark : Text.octetCount (Text.ofString ".tmp-") = 5 := by decide
  unfold temporaryName
  rw [Text.octetCount_append, Text.octetCount_append, mark, ascii _ zeros,
    ascii _ fun c inside => digit inside, List.length_replicate]
  omega

/-- The fresh name comes no later than any that is free. -/
theorem freshName_le {tree : FileTree} {directory : Route} {n : Nat}
    (free : tree.node? (directory ++ [temporaryName n]) = none) :
    ∃ m ≤ n, freshName tree directory = temporaryName m ∧
      tree.node? (directory ++ [temporaryName m]) = none := by
  obtain ⟨k, inside, free'⟩ := exists_free tree directory
  unfold freshName
  cases found : (List.range (tree.nodes.length + 1)).find?
      fun n => (tree.node? (directory ++ [temporaryName n])).isNone with
  | none =>
      have taken := List.find?_eq_none.mp found k inside
      simp [free'] at taken
  | some m =>
      have first := List.find?_range_eq_some.mp found
      refine ⟨m, ?_, by simp only [found, Option.getD_some], Option.isNone_iff_eq_none.mp first.1⟩
      apply Classical.byContradiction
      intro late
      have taken := first.2.2 n (by omega)
      simp [free] at taken

end AtomicWrite

namespace FileTree

/-! ## Places of temporary files -/

theorem plain_walk {names : List Text} (short : IsShort names) {route : Route}
    (plain : ∀ name ∈ route, IsPlain name) : ∀ name ∈ walk route names, IsPlain name := by
  induction names generalizing route with
  | nil => exact plain
  | cons name names ih =>
      refine ih (fun other inside => short other (List.mem_cons_of_mem _ inside)) ?_
      unfold advance
      split
      · exact fun other inside => plain other (List.dropLast_subset _ inside)
      · rename_i leads
        intro other inside
        rcases List.mem_append.mp inside with early | last
        · exact plain other early
        · rw [List.mem_singleton.mp last]
          exact ⟨leads, (short name List.mem_cons_self).resolve_left leads⟩

def temporaryPath (tree : FileTree) (target : Path) (name : Text) : Path :=
  ⟨(AtomicWrite.settle tree.current target.parent).slashes,
    (AtomicWrite.settle tree.current target.parent).parts ++ [name]⟩

theorem isAbsolute_settle (current : Route) (directory : Path) :
    (AtomicWrite.settle current directory).isAbsolute = true := by
  unfold AtomicWrite.settle
  split
  · assumption
  · rfl

/-- A directory without steps back is told by its place. -/
theorem WellFormed.parts_settle {tree : FileTree} (wellFormed : tree.WellFormed)
    (directory : Path) :
    (AtomicWrite.settle tree.current directory).parts = tree.placeOf directory := by
  unfold AtomicWrite.settle placeOf FileTree.origin
  split
  · rfl
  · change walk [] (tree.current ++ directory.parts) = _
    rw [walk_append, walk_plain (fun name inside => (wellFormed.plain name inside).1) [],
      List.nil_append]

theorem WellFormed.plain_placeOf {tree : FileTree} (wellFormed : tree.WellFormed) {path : Path}
    (short : IsShort path.parts) : ∀ name ∈ tree.placeOf path, IsPlain name := by
  apply plain_walk short
  unfold FileTree.origin
  split
  · exact nofun
  · exact wellFormed.plain

/-- Plain names lead from the root to the place that they tell, when a directory is there. -/
theorem WellFormed.follow_place {tree : FileTree} (wellFormed : tree.WellFormed) {route : Route}
    (plain : ∀ name ∈ route, IsPlain name) (there : tree.node? route = some .directory) :
    tree.follow [] route = .ok route := by
  have short : IsShort route := fun name inside => .inr (plain name inside).2
  have place (front : Route) (isFront : front <+: route) : walk [] front = front :=
    walk_plain (fun name inside => (plain name (isFront.subset inside)).1) []
  have reached : tree.follow [] route = .ok (walk [] route) := follow_of_way short fun r inside => by
    obtain ⟨front, isFront, rfl⟩ := mem_way_iff.mp inside
    rw [place front isFront]
    exact wellFormed.closed.above there isFront
  rwa [place route (List.prefix_refl _)] at reached

theorem WellFormed.find_settle {tree : FileTree} (wellFormed : tree.WellFormed)
    {directory : Path} (there : tree.hasDirectory directory = .ok true)
    (fits : Fits (AtomicWrite.settle tree.current directory)) :
    tree.find (AtomicWrite.settle tree.current directory) = .ok (tree.placeOf directory) := by
  obtain ⟨-, short, directories⟩ := hasDirectory_iff.mp there
  refine find_eq_ok_iff.mpr ⟨fits, ?_⟩
  rw [show tree.origin (AtomicWrite.settle tree.current directory) = [] from
    if_pos (isAbsolute_settle _ _), wellFormed.parts_settle]
  exact wellFormed.follow_place (wellFormed.plain_placeOf short)
    (directories _ (placeOf_mem_wayOf _ _))

theorem parent_temporaryPath (tree : FileTree) (target : Path) (name : Text) :
    (tree.temporaryPath target name).parent = AtomicWrite.settle tree.current target.parent := by
  rw [Path.parent, temporaryPath, List.dropLast_concat]

/-- All temporary names of eight digits make paths of one length. -/
theorem fits_temporaryPath_iff {tree : FileTree} {target : Path} {m n : Nat}
    (smallM : m < AtomicWrite.nameCount) (smallN : n < AtomicWrite.nameCount) :
    Fits (tree.temporaryPath target (AtomicWrite.temporaryName m)) ↔
      Fits (tree.temporaryPath target (AtomicWrite.temporaryName n)) := by
  have one {m n : Nat} (smallM : m < AtomicWrite.nameCount) (smallN : n < AtomicWrite.nameCount)
      (h : Fits (tree.temporaryPath target (AtomicWrite.temporaryName m))) :
      Fits (tree.temporaryPath target (AtomicWrite.temporaryName n)) := by
    obtain ⟨named, short⟩ := fits_iff.mp h
    refine fits_iff.mpr ⟨fun part inside => ?_, ?_⟩
    · rcases List.mem_append.mp inside with early | last
      · exact named part (List.mem_append_left _ early)
      · rw [List.mem_singleton.mp last]
        exact AtomicWrite.isName_temporaryName n
    · rw [Path.octetCount_text] at short ⊢
      simpa only [temporaryPath, Path.octets_append, Path.octets_single,
        AtomicWrite.octetCount_temporaryName smallM, AtomicWrite.octetCount_temporaryName smallN,
        List.append_eq_nil_iff, List.cons_ne_nil, and_false, if_false] using short
  exact ⟨one smallM smallN, one smallN smallM⟩

/--
Whether a temporary name of eight digits is free beside a target, and stays so when some paths are
written.
-/
def HasRoom (tree : FileTree) (target : Path) (written : List Path) : Prop :=
  ∃ n < AtomicWrite.nameCount,
    tree.node? (tree.placeOf target.parent ++ [AtomicWrite.temporaryName n]) = none ∧
      ∀ path ∈ written,
        tree.placeOf target.parent ++ [AtomicWrite.temporaryName n] ∉ tree.wayOf path

/-- There is room in a tree with less nodes than there are names. -/
theorem hasRoom_of_small {tree : FileTree} {target : Path} {written : List Path}
    (small : tree.nodes.length + (written.map fun path => path.parts.length + 1).sum <
      AtomicWrite.nameCount) : tree.HasRoom target written := by
  have length_way (names : List Text) : ∀ route, (way route names).length = names.length + 1 := by
    induction names with
    | nil => exact fun _ => rfl
    | cons name names ih => exact fun route => by rw [way, List.length_cons, ih, List.length_cons]
  obtain ⟨n, early, unused⟩ := AtomicWrite.exists_unused
    (tree.nodes.map (·.1) ++ written.flatMap tree.wayOf) (tree.placeOf target.parent)
  rw [List.mem_append, not_or] at unused
  refine ⟨n, ?_, node?_eq_none_of_not_mem (by simp) unused.1, ?_⟩
  · simp only [List.length_append, List.length_map, List.length_flatMap, List.mem_range, wayOf,
      length_way] at early
    omega
  · exact fun path inside onWay => unused.2 (List.mem_flatMap.mpr ⟨path, inside, onWay⟩)

/-- There is still room when one of the paths was written. -/
theorem HasRoom.replaces {tree after : FileTree} {target path : Path} {written : List Path}
    {data : Bytes} {result : Except Fault Unit} (h : tree.HasRoom target written)
    (inside : path ∈ written) (write : Replaces tree path data result after) :
    after.HasRoom target written := by
  obtain ⟨n, small, free, off⟩ := h
  refine ⟨n, small, ?_, ?_⟩
  · rw [placeOf_eq write.current, write.avoided (off path inside), free]
  · intro other inside
    rw [placeOf_eq write.current, wayOf_eq write.current]
    exact off other inside

theorem HasRoom.mono {tree : FileTree} {target : Path} {written fewer : List Path}
    (h : tree.HasRoom target written) (less : fewer ⊆ written) : tree.HasRoom target fewer := by
  obtain ⟨n, small, free, off⟩ := h
  exact ⟨n, small, free, fun path inside => off path (less inside)⟩

/-! ## Writable files -/

structure Writable (tree : FileTree) (target : Path) : Prop where
  fits : Fits target
  short : IsShort target.parts
  way : ∀ r ∈ tree.wayOf target.parent, tree.node? r = none ∨ tree.node? r = some .directory
  leaf : tree.node? (tree.placeOf target) ≠ some .directory
  off : tree.placeOf target ∉ tree.wayOf target.parent
  temporary : Fits (tree.temporaryPath target (AtomicWrite.temporaryName 0))

/-- Whether a path has a place for a file, once the directories above it are made. -/
structure Offers (tree : FileTree) (target : Path) : Prop where
  fits : Fits target
  short : IsShort target.parts
  way : ∀ r ∈ tree.wayOf target.parent, tree.node? r = none ∨ tree.node? r = some .directory
  leaf : tree.node? (tree.placeOf target) ≠ some .directory
  off : tree.placeOf target ∉ tree.wayOf target.parent

theorem Writable.offers {tree : FileTree} {target : Path} (h : tree.Writable target) :
    tree.Offers target :=
  ⟨h.fits, h.short, h.way, h.leaf, h.off⟩

theorem Offers.writable {tree : FileTree} {target : Path} (h : tree.Offers target)
    (temporary : Fits (tree.temporaryPath target (AtomicWrite.temporaryName 0))) :
    tree.Writable target :=
  ⟨h.fits, h.short, h.way, h.leaf, h.off, temporary⟩

theorem Offers.passable {tree : FileTree} {target : Path} (h : tree.Offers target) :
    tree.Passable target.parent :=
  ⟨h.fits.parent, fun name inside => h.short name (List.dropLast_subset _ inside), h.way⟩

/-- Whether a file is writable does not depend on directories that are made, or on other files. -/
theorem writable_congr {tree after : FileTree} {target : Path}
    (current : after.current = tree.current)
    (made : ∀ r ∈ tree.wayOf target.parent, MadeAt tree after r)
    (same : after.node? (tree.placeOf target) = tree.node? (tree.placeOf target)) :
    after.Writable target ↔ tree.Writable target := by
  have place := placeOf_eq current target
  have wayOf := wayOf_eq current target.parent
  have temporary (name : Text) :
      after.temporaryPath target name = tree.temporaryPath target name := by
    rw [temporaryPath, temporaryPath, current]
  constructor
  · rintro ⟨fits, short, way, leaf, off, brief⟩
    rw [wayOf] at way off
    rw [place] at leaf off
    exact ⟨fits, short, fun r inside => (made r inside).free_iff.mp (way r inside), same ▸ leaf, off,
      temporary _ ▸ brief⟩
  · rintro ⟨fits, short, way, leaf, off, brief⟩
    refine ⟨fits, short, ?_, ?_, ?_, temporary _ ▸ brief⟩
    · rw [wayOf]
      exact fun r inside => (made r inside).free_iff.mpr (way r inside)
    · rwa [place, same]
    · rwa [place, wayOf]

/-! ## Well-formed trees -/

/-- Trees stay well-formed when a file is replaced. -/
theorem Replaced.wellFormed {tree after : FileTree} {target : Path} {data : Bytes}
    (h : Replaced tree after target data) (wellFormed : tree.WellFormed) : after.WellFormed := by
  have directories (r : Route) (there : tree.node? r = some .directory) :
      after.node? r = some .directory := h.directories there
  refine wellFormed.of_closed (fun r there => ?_) h.current directories
  by_cases here : r = tree.placeOf target
  · subst here
    obtain ⟨-, followed⟩ := find_eq_ok_iff.mp h.found
    rw [origin_eq h.current] at followed
    rcases List.eq_nil_or_concat target.parts with none | ⟨front, name, same⟩
    · refine absurd (wellFormed.origin target) ?_
      have start : tree.placeOf target = tree.origin target := by
        rw [placeOf, none]
        rfl
      rw [← start]
      exact h.before
    · rw [List.concat_eq_append] at same
      rw [same] at followed
      have way := way_of_follow_concat followed
      have reached := follow_of_way
        (fun other inside => isShort_of_follow followed other (List.mem_append_left _ inside)) way
      have stands := way _ (walk_mem_way _ _)
      have place : tree.placeOf target = advance (walk (tree.origin target) front) name := by
        rw [placeOf, same, walk_append]
        rfl
      rw [advance] at place
      split at place
      · have above :=
          wellFormed.closed.of_follow directories (wellFormed.origin target) reached stands
        rw [← place, h.written] at above
        cases above
      · rwa [place, List.dropLast_concat]
  · rcases h.elsewhere r here with same | ⟨-, made, front, -, reached⟩
    · rw [same] at there
      exact directories _ (wellFormed.closed r there)
    · exact wellFormed.closed.of_follow directories (wellFormed.origin target) reached made

theorem Replaces.wellFormed {tree after : FileTree} {target : Path} {data : Bytes}
    {result : Except Fault Unit} (h : Replaces tree target data result after)
    (wellFormed : tree.WellFormed) : after.WellFormed := by
  cases result with
  | ok _ => exact Replaced.wellFormed h wellFormed
  | error e =>
      have furnished : Furnished tree after (tree.origin target) target.parts.dropLast := h.1
      exact furnished.wellFormed wellFormed

end FileTree

namespace AtomicWrite

open FileAction

variable {tree after : FileTree} {temporary target : Path} {route : Route} {content : Bytes}

/-- A file can be moved to a path whose place is in a directory and is none itself. -/
def Accepts (tree : FileTree) (target : Path) : Prop :=
  ∃ new, tree.find target = .ok new ∧ tree.node? new.dropLast = some .directory ∧
    tree.node? new ≠ some .directory

theorem place_isOk (path : Path) (tree : FileTree) :
    Ensures (place path) tree fun result after =>
      after = tree ∧ ∀ route, result = .ok route ↔
        tree.find path = .ok route ∧ tree.node? route.dropLast = some .directory := by
  have known : Ensures (place path) tree fun result _ => ∀ route,
      tree.find path = .ok route ∧ tree.node? route.dropLast = some .directory →
        result = .ok route :=
    fun route ⟨found, stands⟩ => (place_of_find found stands).1
  refine (Ensures.and known (place_spec path tree)).mono ?_
  rintro result after ⟨placed, same, told⟩
  refine ⟨same, fun route => ⟨?_, placed route⟩⟩
  rintro rfl
  exact told

theorem replace_isOk (h : Beside tree after temporary route content) :
    Ensures (perform temporary target .replace) after fun result _ =>
      result = .ok () ↔ Accepts after target := by
  refine .bindOk (retoldStat_spec h _) ?_
  rintro after rfl
  refine .bind (Q := fun result final => final = after ∧ ∀ new, result = .ok new ↔
    after.find target = .ok new ∧ after.node? new.dropLast = some .directory) ?_ ?_ ?_
  · refine .tryCatch (place_isOk target after) (fun _ _ known => known) ?_
    rintro e _ ⟨rfl, none⟩
    exact .throw ⟨rfl, fun new => ⟨nofun, fun placed => nomatch (none new).mpr placed⟩⟩
  · rintro new _ ⟨rfl, placed⟩
    obtain ⟨found, stands⟩ := (placed new).mp rfl
    apply Ensures.getThen
    split
    · rename_i directory
      refine .throw ⟨nofun, ?_⟩
      rintro ⟨other, found', -, leaf⟩
      rw [found] at found'
      cases found'
      exact absurd directory leaf
    · rename_i leaf
      exact .change ⟨fun _ => ⟨new, found, stands, leaf⟩, fun _ => rfl⟩
  · rintro e _ ⟨rfl, none⟩
    refine ⟨nofun, ?_⟩
    rintro ⟨new, found, stands, -⟩
    cases (none new).mpr ⟨found, stands⟩

theorem accepts_beside (h : Beside tree after temporary route content) :
    Accepts after target ↔ Accepts tree target := by
  have found_iff (new : Route) : after.find target = .ok new ↔ tree.find target = .ok new :=
    ⟨fun found => find_mono found h.current.symm fun r => (h.directory_iff r).mp,
      fun found => find_mono found h.current fun r => (h.directory_iff r).mpr⟩
  simp only [Accepts, found_iff, h.directory_iff, ne_eq]

theorem steps_isOk (h : Beside tree after temporary route []) (data : Bytes) :
    Ensures ((steps data).forM (perform temporary target)) after fun result _ =>
      result = .ok () ↔ Accepts tree target := by
  change Ensures (do
    perform temporary target (.append data)
    perform temporary target .sync
    perform temporary target .replace
    pure PUnit.unit) after _
  refine .bindOk (append_spec h data) ?_
  intro full beside
  apply Ensures.pureThen
  have accepted : Accepts full target ↔ Accepts tree target := accepts_beside beside
  refine .bind (replace_isOk beside) ?_ ?_
  · intro _ final replaced
    exact Ensures.pure (replaced.trans accepted)
  · intro e final refused
    exact ⟨nofun, fun accepts => nomatch refused.mpr (accepted.mpr accepts)⟩

/-- Whatever is written when a refusal is met, it ends in that refusal. -/
theorem orDiscard_isOk {write : FileAction Unit} {possible : Prop}
    (written : Ensures write after fun result _ => result = .ok () ↔ possible) :
    Ensures (tryCatch write fun e => do discard temporary; throw e) after fun result _ =>
      result = .ok () ↔ possible := by
  refine .tryCatch written (fun _ _ known => known) ?_
  intro e final impossible
  have no : ¬ possible := fun possible => nomatch impossible.mpr possible
  have failed : ∀ result : Except Fault Unit, (∀ u, result ≠ .ok u) →
      (result = .ok () ↔ possible) :=
    fun result none => ⟨fun ok => absurd ok (none ()), fun possible => absurd possible no⟩
  refine .bind (Q := fun _ _ => True) trivial ?_ ?_
  · intro _ _ _
    exact .throw (failed _ nofun)
  · intro _ _ _
    exact failed _ nofun

/-- In a directory that is there, a temporary file is created unless its path is too long. -/
theorem create_isOk (wellFormed : tree.WellFormed)
    (above : tree.hasDirectory target.parent = .ok true) {n : Nat} (small : n < nameCount)
    (free : tree.node? (tree.placeOf target.parent ++ [temporaryName n]) = none) :
    Ensures (perform (tree.temporaryPath target (temporaryName n)) target .create) tree
      fun result after =>
        match result with
        | .ok _ => Fits (tree.temporaryPath target (temporaryName n)) ∧
            Beside tree after (tree.temporaryPath target (temporaryName n))
              (tree.placeOf target.parent ++ [temporaryName n]) []
        | .error _ => ¬ Fits (tree.temporaryPath target (temporaryName n)) := by
  obtain ⟨-, short, directories⟩ := hasDirectory_iff.mp above
  have stands := directories _ (placeOf_mem_wayOf _ _)
  have plain := wellFormed.plain_placeOf short
  have found (fits : Fits (tree.temporaryPath target (temporaryName n))) :
      tree.find (tree.temporaryPath target (temporaryName n)) =
        .ok (tree.placeOf target.parent ++ [temporaryName n]) := by
    refine find_eq_ok_iff.mpr ⟨fits, ?_⟩
    have start : tree.origin (tree.temporaryPath target (temporaryName n)) = [] :=
      if_pos (isAbsolute_settle _ _)
    have brief : (temporaryName n).octetCount ≤ nameLimit := by
      rw [octetCount_temporaryName small]
      decide
    rw [start, temporaryPath, wellFormed.parts_settle,
      follow_append (wellFormed.follow_place plain stands), follow_cons stands (.inr brief), advance,
      if_neg (temporaryName_ne_parentName n)]
    rfl
  refine .bind (place_isOk _ tree) ?_ ?_
  · rintro route _ ⟨rfl, placed⟩
    obtain ⟨found', -⟩ := (placed route).mp rfl
    have fits := (find_eq_ok_iff.mp found').1
    rw [found fits] at found'
    cases found'
    exact .change ⟨fits, .of_put (found fits) free⟩
  · rintro e _ ⟨rfl, none⟩ fits
    cases (none _).mpr ⟨found fits, by rw [List.dropLast_concat]; exact stands⟩

/-- Once the directories are made, a file can be put at a path that offers a place for it. -/
theorem accepts_iff {middle : FileTree} (wellFormed : tree.WellFormed)
    (furnished : Furnished tree middle (tree.origin target.parent) target.parent.parts)
    (above : middle.hasDirectory target.parent = .ok true) :
    Accepts middle target ↔ tree.Offers target := by
  have place : middle.placeOf target = tree.placeOf target := placeOf_eq furnished.current target
  constructor
  · rintro ⟨new, found, -, leaf⟩
    obtain ⟨fits, followed⟩ := find_eq_ok_iff.mp found
    obtain rfl : new = tree.placeOf target := (follow_eq_walk followed).trans place
    obtain ⟨-, -, directories⟩ := hasDirectory_iff.mp above
    rw [wayOf_eq furnished.current] at directories
    refine ⟨fits, isShort_of_follow followed, fun r inside => ?_, ?_, ?_⟩
    · exact (furnished.madeAt r).free_iff.mp (.inr (directories r inside))
    · exact fun there => leaf (furnished.directories there)
    · exact fun inside => leaf (directories _ inside)
  · intro offers
    obtain ⟨found, stands⟩ :=
      find_below (furnished.wellFormed wellFormed) offers.fits offers.short above
    refine ⟨_, found, stands, ?_⟩
    rw [place, furnished.node?_off offers.off]
    exact offers.leaf

/-- Once the directories are made, the rest is up to the target and the temporary file. -/
theorem writable_iff {middle : FileTree} (wellFormed : tree.WellFormed)
    (furnished : Furnished tree middle (tree.origin target.parent) target.parent.parts)
    (above : middle.hasDirectory target.parent = .ok true) :
    tree.Writable target ↔
      Accepts middle target ∧ Fits (tree.temporaryPath target (temporaryName 0)) := by
  rw [accepts_iff wellFormed furnished above]
  exact ⟨fun writable => ⟨writable.offers, writable.temporary⟩,
    fun ⟨offers, temporary⟩ => offers.writable temporary⟩

/-- A file is replaced just when nothing refuses to, and it is writable. -/
theorem run_isOk (wellFormed : tree.WellFormed) (refusal : Option OsCause) (data : Bytes)
    (room : tree.HasRoom target [target]) :
    Ensures (run refusal target data) tree fun result _ =>
      result = .ok () ↔ refusal = none ∧ tree.Writable target := by
  refine .bind (Ensures.and (makeDirectories_isOk wellFormed target.parent)
    (makeDirectories_spec target.parent tree)) ?_ ?_
  · rintro _ middle ⟨⟨passed, there⟩, furnished, -⟩
    have above := there rfl
    rw [writable_iff wellFormed furnished above]
    have wellFormed' := furnished.wellFormed wellFormed
    obtain ⟨n, small, free, off⟩ := room
    have free' : middle.node? (middle.placeOf target.parent ++ [temporaryName n]) = none := by
      rw [placeOf_eq furnished.current, furnished.node?_off, free]
      exact fun inside => off target (by simp) (wayOf_parent_subset tree target inside)
    obtain ⟨m, early, fresh, free⟩ := freshName_le free'
    have small : m < nameCount := by omega
    have same (name : Text) : middle.temporaryPath target name = tree.temporaryPath target name := by
      rw [temporaryPath, temporaryPath, furnished.current]
    apply Ensures.getThen
    apply askThen
    · intro route found
      have place : route = middle.placeOf target.parent := by
        rw [wellFormed'.find_settle above (find_eq_ok_iff.mp found).1] at found
        exact (Except.ok.inj found).symm
      have temporary : (⟨(settle middle.current target.parent).slashes,
          (settle middle.current target.parent).parts ++ [freshName middle route]⟩ : Path) =
            middle.temporaryPath target (temporaryName m) := by
        rw [place, fresh]
        rfl
      dsimp only
      rw [temporary]
      refine .bind (create_isOk wellFormed' above small free) ?_ ?_
      · rintro _ created ⟨fits, beside⟩
        rw [same, fits_temporaryPath_iff small (by decide : 0 < nameCount)] at fits
        apply orDiscard_isOk
        cases refusal with
        | some cause => exact .throw ⟨nofun, nofun⟩
        | none => exact (steps_isOk beside data).mono fun _ _ known => by simpa [fits] using known
      · intro e created none
        rw [same, fits_temporaryPath_iff small (by decide : 0 < nameCount)] at none
        exact ⟨nofun, fun ⟨_, _, fits⟩ => absurd fits none⟩
    · intro e refused
      refine ⟨nofun, fun ⟨_, _, fits⟩ => ?_⟩
      rw [← same] at fits
      have settled := fits.parent
      rw [parent_temporaryPath] at settled
      rw [wellFormed'.find_settle above settled] at refused
      cases refused
  · rintro e middle ⟨⟨passed, -⟩, -⟩
    exact ⟨nofun, fun ⟨_, writable⟩ => nomatch passed.mpr writable.offers.passable⟩

end AtomicWrite

end SiteFilter
