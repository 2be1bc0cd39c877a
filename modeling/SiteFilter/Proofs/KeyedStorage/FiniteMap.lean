import SiteFilter.Proofs.KeyedStorage.Putting

/-!
# Keyed storage as a finite map

Storage with a directory of its own holds under each key the value that was put last, unless it was
deleted since, and its directory holds nothing besides. The files are all that is kept, so it does
not matter through which storage on the directory an operation goes.
-/

namespace SiteFilter

open FileTree Effect

namespace KeyedStorage

/-! ## Operations -/

inductive Operation
  | put (value : Json)
  | get (fallback : Json)
  | contains
  | delete

inductive Answer
  | done
  | value (value : Json)
  | truth (b : Bool)

/-- An operation on a key, through one of the storages on a directory. -/
structure Request where
  storage : KeyedStorage
  key : Text
  operation : Operation

abbrev Contents := Text → Option Json

/-- Whether a value can be stored: no text in it holds a surrogate. -/
def IsStorable (value : Json) : Prop :=
  ∀ c, Json.Occurs c value → c.isSurrogate = false

namespace Request

def run (request : Request) : Action Answer :=
  match request.operation with
  | .put value => (fun _ => .done) <$> request.storage.put request.key value
  | .get fallback =>
      (fun value? => .value (value?.getD fallback)) <$>
        Action.ask (request.storage.get? · request.key)
  | .contains => .truth <$> Action.ask (request.storage.contains · request.key)
  | .delete => (fun _ => .done) <$> request.storage.delete request.key

/-- The values behind a request, by its result: a failed one changes none. -/
def leave (request : Request) (result : Except Fault Answer) (contents : Contents) : Contents :=
  match request.operation, result with
  | .put value, .ok _ => Function.update contents request.key (some value)
  | .delete, .ok _ => Function.update contents request.key none
  | _, _ => contents

/-- A request is carried out, and the values by key are kept along. -/
def turn (state : Machine × Contents) (request : Request) : Machine × Contents :=
  let (result, after) := request.run.runOn state.1
  (after, request.leave result state.2)

def turns (requests : List Request) (state : Machine × Contents) : Machine × Contents :=
  requests.foldl turn state

/-- What a map with these values answers. A value is refused just when it cannot be stored. -/
def Answers (request : Request) (contents : Contents) (result : Except Fault Answer) : Prop :=
  match request.operation with
  | .put value =>
      (IsStorable value ∧ result = .ok .done) ∨
        (¬ IsStorable value ∧ ∃ e, result = .error e ∧ e.isOfStorage = true)
  | .get fallback => result = .ok (.value ((contents request.key).getD fallback))
  | .contains => result = .ok (.truth (contents request.key).isSome)
  | .delete => result = .ok .done

end Request

/-! ## A directory with values -/

/-- A directory holds the files of the values by key, for all who have the room, and nothing else. -/
structure Holds (room : Nat) (files : FileTree) (place : Route) (contents : Contents) : Prop where
  stands : ∀ limits : Json.Limits, room ≤ limits.reading → ∀ key,
    Stands limits (files.node? (place ++ [fileName key])) (contents key)
  alone : ∀ names, names ≠ [] → files.node? (place ++ names) ≠ none →
    ∃ key value, contents key = some value ∧ names = [fileName key]

/-- A storage whose directory has a place: it is there, or can be made and filled. -/
structure Serves (storage : KeyedStorage) (room : Nat) (files : FileTree) (place : Route) :
    Prop where
  reads : room ≤ storage.limits.reading
  writes : room ≤ storage.limits.writing
  passable : files.Passable storage.directory
  steady : files.Steady storage.directory
  place : files.placeOf storage.directory = place
  temporary : ∀ key, Fits (files.temporaryPath (storage.fileOf key) (AtomicWrite.temporaryName 0))

/-- A request on a directory, about a key whose file name fits and with a value to be read back. -/
structure Request.Suits (request : Request) (room : Nat) (files : FileTree) (place : Route) :
    Prop where
  serves : request.storage.Serves room files place
  short : IsShortKey request.key
  fits : Fits (request.storage.fileOf request.key)
  readable : ∀ value, request.operation = .put value →
    Json.Readable .stored room value

/-- A machine on which a directory holds values, and on which nothing refuses to be written. -/
structure Owns (room : Nat) (machine : Machine) (place : Route) (contents : Contents) : Prop where
  wellFormed : machine.files.WellFormed
  refusals : machine.refusals = []
  holds : Holds room machine.files place contents

/-- Outside of a directory nothing changes, but for directories that are made. -/
structure Kept (files after : FileTree) (place : Route) : Prop where
  current : after.current = files.current
  outside : ∀ r, (∀ names, names ≠ [] → r ≠ place ++ names) → MadeAt files after r

section Places

variable {room : Nat} {storage : KeyedStorage} {files after : FileTree} {place : Route}
  {contents : Contents} {key : Text}

theorem parent_fileOf (storage : KeyedStorage) (key : Text) :
    (storage.fileOf key).parent = storage.directory := by
  rw [Path.parent, fileOf, List.dropLast_concat]

theorem temporaryName_ne_fileName (key : Text) : AtomicWrite.temporaryName 0 ≠ fileName key := by
  intro same
  have last := congrArg List.getLast? same
  rw [fileName, List.getLast?_append] at last
  cases last

theorem Kept.refl (files : FileTree) (place : Route) : Kept files files place :=
  ⟨rfl, fun _ _ => .inl rfl⟩

/-- No file of a key is a directory. -/
theorem Holds.leaf (holds : Holds room files place contents) (key : Text) :
    files.node? (place ++ [fileName key]) ≠ some .directory := by
  intro directory
  have stands := holds.stands ⟨room + Json.ownDepth, Json.ownDepth, by omega, le_rfl⟩
    (Nat.le_add_right _ _) key
  rw [directory] at stands
  cases stands

/-- The way to the directory does not lead through it. -/
theorem Serves.outside (serves : storage.Serves room files place)
    (holds : Holds room files place contents) {r : Route} (inside : r ∈ files.wayOf storage.directory)
    {names : List Text} (below : names ≠ []) : r ≠ place ++ names := by
  rintro rfl
  rcases serves.passable.way _ inside with missing | directory
  · obtain ⟨front, ⟨behind, split⟩, reached⟩ := mem_way_iff.mp inside
    have steady := serves.steady
    unfold Steady at steady
    rw [← split] at steady
    have plain := steady.plain_behind (fun r early => serves.passable.way r ?_)
      (by rw [reached, missing])
    · have whole := serves.place
      rw [FileTree.placeOf, ← split, walk_append, reached,
        walk_plain fun part inside => (plain part inside).1] at whole
      have long := congrArg List.length whole
      simp only [List.length_append] at long
      exact below (List.length_eq_zero_iff.mp (by omega))
    · obtain ⟨first, isFront, rfl⟩ := mem_way_iff.mp early
      exact mem_way_iff.mpr ⟨first, isFront.trans ⟨behind, split⟩, rfl⟩
  · obtain ⟨key, value, -, rfl⟩ := holds.alone names below (directory ▸ Option.some_ne_none _)
    exact holds.leaf key directory

theorem Serves.kept (serves : storage.Serves room files place)
    (holds : Holds room files place contents) (kept : Kept files after place) :
    storage.Serves room after place := by
  have made (r : Route) (inside : r ∈ files.wayOf storage.directory) : MadeAt files after r :=
    kept.outside r fun _ below => serves.outside holds inside below
  refine ⟨serves.reads, serves.writes, (passable_iff kept.current made).mpr serves.passable, ?_,
    ?_, ?_⟩
  · unfold Steady
    rw [origin_eq kept.current]
    exact SteadyFrom.made serves.steady made
  · rw [FileTree.placeOf_eq kept.current, serves.place]
  · intro key
    have same := serves.temporary key
    rwa [temporaryPath, ← kept.current] at same

/-- The place of the file of a key, when the storage serves a directory. -/
theorem Serves.placeOf_eq (serves : storage.Serves room files place) (key : Text) :
    files.placeOf (storage.fileOf key) = place ++ [fileName key] :=
  (KeyedStorage.placeOf_eq storage files key).trans (by rw [serves.place])

/-- What is at the file of a key is what stands in its place. -/
theorem Serves.stat_eq (serves : storage.Serves room files place) (wellFormed : files.WellFormed)
    (short : IsShortKey key) (fits : Fits (storage.fileOf key)) :
    files.stat (storage.fileOf key) =
      match files.node? (place ++ [fileName key]) with
      | some node => .ok (place ++ [fileName key], node)
      | none => .error (.os ⟨.noEntry, (storage.fileOf key).text, none⟩) := by
  have isShort : IsShort (storage.fileOf key).parts := by
    intro name inside
    rcases List.mem_append.mp inside with early | last
    · exact serves.passable.short name early
    · rw [List.mem_singleton.mp last]
      exact .inr short.short
  rcases serves.passable.directory_or_missing wellFormed.closed serves.steady with there | gap
  · rw [← parent_fileOf storage key] at there
    have found := stat_of_find (FileAction.find_below wellFormed fits isShort there).1
    rw [serves.placeOf_eq] at found
    exact found
  · rw [serves.place] at gap
    have missing : files.node? (place ++ [fileName key]) = none := wellFormed.closed.below gap _
    have passable : files.Passable (storage.fileOf key) := by
      refine ⟨fits, isShort, fun r inside => ?_⟩
      obtain ⟨front, isFront, rfl⟩ := mem_way_iff.mp inside
      rcases List.prefix_concat_iff.mp isFront with rfl | above
      · exact .inl ((congrArg files.node? (serves.placeOf_eq key)).trans missing)
      · exact serves.passable.way _ (mem_way_iff.mpr ⟨front, above, rfl⟩)
    have refused := FileAction.find_missing wellFormed passable (by
      rw [parent_fileOf]
      intro there
      have directory := (hasDirectory_iff.mp there).2.2 _ (placeOf_mem_wayOf _ _)
      rw [serves.place, gap] at directory
      cases directory)
    rw [missing]
    unfold FileTree.stat
    rw [refused]
    rfl

/-- What a key shows is the value that it has. -/
theorem Serves.shows (serves : storage.Serves room files place) (wellFormed : files.WellFormed)
    (holds : Holds room files place contents) (short : IsShortKey key)
    (fits : Fits (storage.fileOf key)) : storage.Shows files key (contents key) := by
  have looked : files.look (storage.fileOf key) = .ok (files.node? (place ++ [fileName key])) := by
    unfold look
    rw [serves.stat_eq wellFormed short fits]
    cases files.node? (place ++ [fileName key]) <;> rfl
  have steady : files.Steady (storage.fileOf key) := by
    refine SteadyFrom.append serves.steady fun part inside => ?_
    rw [List.mem_singleton.mp inside]
    exact ⟨fileName_ne_parentName key, short.short⟩
  obtain ⟨-, shows⟩ := shows_of_look wellFormed.closed (fits_iff.mp fits).1 steady looked
  exact ⟨fits, _, holds.stands _ serves.reads key, shows⟩

/-- Under a key there is something else now, and all else in the directory is as it was. -/
theorem Holds.update (holds : Holds room files place contents) {value? : Option Json}
    (stands : ∀ limits : Json.Limits, room ≤ limits.reading →
      Stands limits (after.node? (place ++ [fileName key])) value?)
    (same : ∀ names, names ≠ [] → names ≠ [fileName key] →
      after.node? (place ++ names) = files.node? (place ++ names)) :
    Holds room after place (Function.update contents key value?) := by
  have name {other : Text} (different : other ≠ key) : [fileName other] ≠ [fileName key] :=
    fun equal => different (List.append_cancel_right (List.singleton_inj.mp equal))
  constructor
  · intro limits roomy other
    by_cases here : other = key
    · subst here
      rw [Function.update_self]
      exact stands limits roomy
    · rw [Function.update_of_ne here, same _ (by simp) (name here)]
      exact holds.stands limits roomy other
  · intro names below there
    by_cases here : names = [fileName key]
    · subst here
      cases value? with
      | none =>
          have stands := stands ⟨room + Json.ownDepth, Json.ownDepth, by omega, le_rfl⟩
            (Nat.le_add_right _ _)
          generalize after.node? (place ++ [fileName key]) = n at stands there
          cases stands
          exact absurd rfl there
      | some value => exact ⟨key, value, Function.update_self .., rfl⟩
    · rw [same names below here] at there
      obtain ⟨other, value, has, rfl⟩ := holds.alone names below there
      have different : other ≠ key := by
        rintro rfl
        exact here rfl
      exact ⟨other, value, by rw [Function.update_of_ne different, has], rfl⟩

end Places

/-! ## The operations -/

section Turns

variable {room : Nat} {storage : KeyedStorage} {machine : Machine} {place : Route}
  {contents : Contents} {key : Text}

/-- What can be read back has octets just when no text in it holds a surrogate. -/
theorem isStorable_iff {limits : Json.Limits} {value : Json}
    (readable : Json.Readable .stored room value) (roomy : room ≤ limits.writing) :
    IsStorable value ↔ ∃ data, encodeValue limits value = .ok data := by
  have little : value.excess? limits.writing = none := (readable.mono roomy).excess?_eq_none
  unfold IsStorable
  simp only [← @Json.encodable_write_iff .stored rfl, encodeValue_eq_ok_iff, little, true_and,
    exists_and_left, exists_eq, and_true]

/-- The file of a key can be written in a directory with values. -/
theorem Owns.writable (owns : Owns room machine place contents)
    (serves : storage.Serves room machine.files place) (short : IsShortKey key)
    (fits : Fits (storage.fileOf key)) : machine.files.Writable (storage.fileOf key) := by
  have parent := parent_fileOf storage key
  refine ⟨fits, fun name inside => ?_, ?_, ?_, ?_, ?_⟩
  · rcases List.mem_append.mp inside with early | last
    · exact serves.passable.short name early
    · rw [List.mem_singleton.mp last]
      exact .inr short.short
  · rw [parent]
    exact serves.passable.way
  · rw [serves.placeOf_eq]
    exact owns.holds.leaf key
  · rw [parent, serves.placeOf_eq]
    exact fun inside => serves.outside owns.holds inside (List.cons_ne_nil _ _) rfl
  · exact serves.temporary key

/-- There is room for the temporary file, whose name is not that of a key. -/
theorem Owns.hasRoom (owns : Owns room machine place contents)
    (serves : storage.Serves room machine.files place) :
    machine.files.HasRoom (storage.fileOf key) [storage.fileOf key] := by
  refine ⟨0, by decide, ?_, fun path inside => ?_⟩
  · rw [parent_fileOf, serves.place]
    apply Classical.byContradiction
    intro there
    obtain ⟨other, value, -, same⟩ := owns.holds.alone _ (List.cons_ne_nil _ _) there
    exact temporaryName_ne_fileName other (List.singleton_inj.mp same)
  · rw [List.mem_singleton.mp inside, parent_fileOf, serves.place]
    intro onWay
    obtain ⟨front, isFront, reached⟩ := mem_way_iff.mp onWay
    rcases List.prefix_concat_iff.mp isFront with rfl | above
    · have same := reached.symm.trans (serves.placeOf_eq key)
      exact temporaryName_ne_fileName key (List.singleton_inj.mp (List.append_cancel_left same))
    · exact serves.outside owns.holds (mem_way_iff.mpr ⟨front, above, reached⟩)
        (List.cons_ne_nil _ _) rfl

/-- A file that was written under a key holds its value, and all else is kept. -/
theorem Owns.replaced {after : Machine} {value : Json} {data : Bytes}
    (owns : Owns room machine place contents) (serves : storage.Serves room machine.files place)
    (readable : Json.Readable .stored room value)
    (encoded : encodeValue storage.limits value = .ok data) (refusals : after.refusals = [])
    (written : Replaced machine.files after.files (storage.fileOf key) data) :
    Owns room after place (Function.update contents key (some value)) ∧
      Kept machine.files after.files place := by
  have place_eq := serves.placeOf_eq key
  refine ⟨⟨written.wellFormed owns.wellFormed, refusals, owns.holds.update ?_ ?_⟩,
    written.current, fun r outside => ?_⟩
  · intro limits roomy
    rw [← place_eq, written.written]
    exact .file (valueIn_encodeValue (readable.mono roomy) encoded)
  · intro names below other
    have apart : place ++ names ≠ machine.files.placeOf (storage.fileOf key) := by
      rw [place_eq]
      exact fun same => other (List.append_cancel_left same)
    rcases written.elsewhere _ apart with same | ⟨-, -, front, isFront, reached⟩
    · exact same
    · rw [show (storage.fileOf key).parts.dropLast = storage.directory.parts from
        List.dropLast_concat] at isFront
      have inside := mem_way_iff.mpr ⟨front, isFront, (follow_eq_walk reached).symm⟩
      exact absurd rfl (serves.outside owns.holds inside below)
  · have apart : r ≠ machine.files.placeOf (storage.fileOf key) := by
      rw [place_eq]
      exact outside _ (List.cons_ne_nil _ _)
    rcases written.elsewhere r apart with same | ⟨missing, made, -⟩
    · exact .inl same
    · exact .inr ⟨missing, made⟩

theorem put_turn (owns : Owns room machine place contents)
    (serves : storage.Serves room machine.files place) (short : IsShortKey key)
    (fits : Fits (storage.fileOf key)) {value : Json}
    (readable : Json.Readable .stored room value) :
    Ensures (storage.put key value) machine fun result after =>
      Kept machine.files after.files place ∧
        match result with
        | .ok _ =>
            IsStorable value ∧ Owns room after place (Function.update contents key (some value))
        | .error e =>
            ¬ IsStorable value ∧ e.isOfStorage = true ∧ Owns room after place contents := by
  rw [isStorable_iff readable serves.writes]
  cases encoded : encodeValue storage.limits value with
  | error cause =>
      refine (put_unencodable short.isKey encoded).mono ?_
      rintro _ _ ⟨rfl, rfl⟩
      refine ⟨.refl _ _, nofun, isOfStorage_encodingFault.mpr ?_, owns⟩
      rintro rfl
      obtain ⟨excess, much, -⟩ | ⟨-, _, -, same⟩ := encodeValue_error encoded
      · rw [(readable.mono serves.writes).excess?_eq_none] at much
        cases much
      · cases same
  | ok data =>
      refine ((put_isOk short.isKey owns.wellFormed (owns.hasRoom serves) value).and
        ((put_spec storage short.isKey value machine).and
          (put_refusals storage key value machine))).mono ?_
      rintro result after ⟨isOk, told, refusals⟩
      have done : result = .ok () :=
        isOk.mpr ⟨⟨data, encoded⟩, by rw [Machine.refusal?, owns.refusals]; rfl,
          owns.writable serves short fits⟩
      subst done
      obtain ⟨data', encoded', written⟩ := told
      obtain ⟨owns', kept⟩ :=
        owns.replaced serves readable encoded' (refusals owns.refusals) written
      exact ⟨kept, ⟨data, rfl⟩, owns'⟩

theorem delete_turn (owns : Owns room machine place contents)
    (serves : storage.Serves room machine.files place) (short : IsShortKey key)
    (fits : Fits (storage.fileOf key)) :
    Ensures (storage.delete key) machine fun result after =>
      Kept machine.files after.files place ∧ result = .ok () ∧
        Owns room after place (Function.update contents key none) := by
  have leaf := owns.holds.leaf key
  have taken := Action.onFiles_spec (AtomicWrite.unlinkIfThere_spec
    (serves.stat_eq owns.wellFormed short fits) leaf)
  apply Action.ofExceptThen
  · intro path found
    rw [pathOf_eq storage short.isKey] at found
    cases found
    refine .tryCatch (taken.and (Action.onFiles_refusals _ machine)) ?_ ?_
    · rintro _ after ⟨⟨-, current, node⟩, refusals⟩
      refine ⟨⟨current, fun r outside => .inl ?_⟩, rfl,
        ⟨owns.wellFormed.erase leaf current node, refusals.trans owns.refusals,
          owns.holds.update ?_ ?_⟩⟩
      · rw [node, if_neg (outside _ (List.cons_ne_nil _ _))]
      · rw [node, if_pos rfl]
        exact fun _ _ => .nothing
      · intro names _ other
        rw [node, if_neg fun same => other (List.append_cancel_left same)]
    · rintro _ _ ⟨⟨same, -⟩, -⟩
      cases same
  · intro e refused
    rw [pathOf_eq storage short.isKey] at refused
    cases refused

/-- A question about the files changes nothing. -/
theorem ask_turn {α : Type} (owns : Owns room machine place contents)
    (question : FileTree → Except Fault α) :
    Ensures (Action.ask question) machine fun result after =>
      result = question machine.files ∧ Kept machine.files after.files place ∧
        Owns room after place contents := by
  refine (Action.ask_spec question machine).mono ?_
  rintro _ _ ⟨answered, rfl⟩
  exact ⟨answered, .refl _ _, owns⟩

end Turns

/-! ## Runs -/

variable {room : Nat} {machine : Machine} {place : Route} {contents : Contents}

/-- A request is answered as a finite map answers it, and leaves the map that it should. -/
theorem Request.turn_spec (owns : Owns room machine place contents) {request : Request}
    (suits : request.Suits room machine.files place) :
    Ensures request.run machine fun result after =>
      request.Answers contents result ∧ Kept machine.files after.files place ∧
        Owns room after place (request.leave result contents) := by
  obtain ⟨storage, key, operation⟩ := request
  obtain ⟨serves, short, fits, readable⟩ := suits
  have shows := serves.shows owns.wellFormed owns.holds short fits
  cases operation with
  | put value =>
      apply Ensures.map
      refine (put_turn owns serves short fits (readable value rfl)).mono ?_
      rintro (e | _) after ⟨kept, told⟩
      · obtain ⟨not, isOfStorage, owns'⟩ := told
        exact ⟨.inr ⟨not, e, rfl, isOfStorage⟩, kept, owns'⟩
      · exact ⟨.inl ⟨told.1, rfl⟩, kept, told.2⟩
  | get fallback =>
      apply Ensures.map
      refine (ask_turn owns _).mono ?_
      rintro _ after ⟨rfl, kept, owns'⟩
      dsimp only
      rw [get?_of_shows short.isKey shows]
      exact ⟨rfl, kept, owns'⟩
  | contains =>
      apply Ensures.map
      refine (ask_turn owns _).mono ?_
      rintro _ after ⟨rfl, kept, owns'⟩
      dsimp only
      rw [contains_of_shows short.isKey shows]
      exact ⟨rfl, kept, owns'⟩
  | delete =>
      apply Ensures.map
      refine (delete_turn owns serves short fits).mono ?_
      rintro _ after ⟨kept, rfl, owns'⟩
      exact ⟨rfl, kept, owns'⟩

/-- Requests on a directory go on to be such when it is kept. -/
theorem Request.Suits.kept {request : Request} {files after : FileTree}
    (suits : request.Suits room files place) (holds : Holds room files place contents)
    (kept : Kept files after place) : request.Suits room after place :=
  ⟨suits.serves.kept holds kept, suits.short, suits.fits, suits.readable⟩

theorem Kept.trans {files middle after : FileTree} (first : Kept files middle place)
    (second : Kept middle after place) : Kept files after place :=
  ⟨second.current.trans first.current,
    fun r outside => (first.outside r outside).trans (second.outside r outside)⟩

/-- A run of requests leaves a machine on which the directory holds what they should leave. -/
theorem owns_of_run (owns : Owns room machine place contents) (requests : List Request)
    (suit : ∀ request ∈ requests, request.Suits room machine.files place) :
    Owns room (Request.turns requests (machine, contents)).1 place
        (Request.turns requests (machine, contents)).2 ∧
      Kept machine.files (Request.turns requests (machine, contents)).1.files place := by
  induction requests generalizing machine contents with
  | nil => exact ⟨owns, .refl _ _⟩
  | cons request requests ih =>
      obtain ⟨-, kept, owns'⟩ := request.turn_spec owns (suit request List.mem_cons_self)
      obtain ⟨ended, kept'⟩ := ih owns' fun other inside =>
        (suit other (List.mem_cons_of_mem _ inside)).kept owns.holds kept
      exact ⟨ended, kept.trans kept'⟩

/--
After any requests, through any storages on a directory, each key has the value that was put last
under it and not deleted since. The next request is answered by these values; a value is refused
just when it cannot be stored, and then none changes. The directory holds nothing else.
-/
theorem requests_finite_map (owns : Owns room machine place contents) (requests : List Request)
    (suit : ∀ request ∈ requests, request.Suits room machine.files place) :
    Holds room (Request.turns requests (machine, contents)).1.files place
        (Request.turns requests (machine, contents)).2 ∧
      ∀ next : Request, next.Suits room machine.files place →
        next.Answers (Request.turns requests (machine, contents)).2
          (next.run.runOn (Request.turns requests (machine, contents)).1).1 := by
  obtain ⟨ended, kept⟩ := owns_of_run owns requests suit
  exact ⟨ended.holds, fun next suits => (next.turn_spec ended (suits.kept owns.holds kept)).1⟩

/-! ## A directory that is not there yet -/

/-- Two storages on one directory: one is told an absolute path, the other a relative one. -/
def twoStorages : Bool → KeyedStorage
  | true => ⟨⟨1, [Text.ofString "d"]⟩, .usual⟩
  | false => ⟨⟨0, [Text.ofString "d"]⟩, .usual⟩

theorem owns_bareMachine (place : Route) : Owns room bareMachine place fun _ => none := by
  refine ⟨wellFormed_of_nodes (by decide) rfl nofun, rfl, fun _ _ key => ?_,
    fun names below there => ?_⟩
  · rw [node?_eq_none_of_not_mem (by simp) (by simp [bareMachine, Machine.start])]
    exact .nothing
  · refine absurd (node?_eq_none_of_not_mem ?_ ?_) there
    · simp [below]
    · simp [bareMachine, Machine.start]

theorem serves_twoStorages (absolute : Bool) :
    (twoStorages absolute).Serves 985 bareMachine.files [Text.ofString "d"] := by
  refine ⟨?_, ?_, ⟨?_, ?_, ?_⟩, steadyFrom_of_plain ?_ _, ?_, fun key => ?_⟩
  · cases absolute <;> exact le_rfl
  · cases absolute <;> exact le_rfl
  · cases absolute <;> exact ⟨rfl, rfl, by decide⟩
  · cases absolute <;> decide
  · cases absolute <;> decide
  · cases absolute <;> decide
  · cases absolute <;> rfl
  · rw [temporaryPath, parent_fileOf]
    cases absolute <;> exact ⟨rfl, rfl, by decide⟩

/-- A key of points, whose file stands beside the entries of every directory. -/
def pointsKey : Text :=
  Text.ofString ".."

def escapedValue : Json :=
  .object [(Text.ofString "\n", .array [])]

theorem readable_escapedValue : Json.Readable .stored 985 escapedValue := by
  change Json.Readable .stored (984 + 1) escapedValue
  refine .object (fun _ _ => Json.Style.holds_of_plain rfl _) ?_ ?_
  · exact List.nodup_singleton _
  · intro member inside
    rw [List.mem_singleton.mp inside]
    exact .array nofun

theorem suits_twoStorages (absolute : Bool) {operation : Operation}
    (value : ∀ value, operation = .put value → value = escapedValue) :
    Request.Suits ⟨twoStorages absolute, pointsKey, operation⟩ 985 bareMachine.files
      [Text.ofString "d"] where
  serves := serves_twoStorages absolute
  short := ⟨show isKey pointsKey = true by decide,
    show (fileName pointsKey).octetCount ≤ nameLimit by decide⟩
  fits := by
    change Fits ((twoStorages absolute).fileOf pointsKey)
    cases absolute <;> exact ⟨rfl, rfl, by decide⟩
  readable v put := by
    rw [value v put]
    exact readable_escapedValue

def putAndAsk : List Request :=
  [⟨twoStorages true, pointsKey, .put escapedValue⟩, ⟨twoStorages false, pointsKey, .contains⟩]

/-- Behind these two requests, a third one takes the value away. -/
theorem requests_finite_map_two :
    Owns 985 bareMachine [Text.ofString "d"] (fun _ => none) ∧
      (∀ request ∈ putAndAsk, request.Suits 985 bareMachine.files [Text.ofString "d"]) ∧
        Holds 985 (Request.turns putAndAsk (bareMachine, fun _ => none)).1.files
            [Text.ofString "d"] (Request.turns putAndAsk (bareMachine, fun _ => none)).2 ∧
          Request.Answers ⟨twoStorages false, pointsKey, .delete⟩
            (Request.turns putAndAsk (bareMachine, fun _ => none)).2
            ((Request.run ⟨twoStorages false, pointsKey, .delete⟩).runOn
              (Request.turns putAndAsk (bareMachine, fun _ => none)).1).1 := by
  have owns : Owns 985 bareMachine _ _ := owns_bareMachine [Text.ofString "d"]
  have suit : ∀ request ∈ putAndAsk, request.Suits 985 bareMachine.files [Text.ofString "d"] := by
    intro request inside
    simp only [putAndAsk, List.mem_cons, List.not_mem_nil, or_false] at inside
    rcases inside with rfl | rfl
    · exact suits_twoStorages true fun _ same => (Operation.put.inj same).symm
    · exact suits_twoStorages false nofun
  have run := requests_finite_map owns putAndAsk suit
  exact ⟨owns, suit, run.1, run.2 _ (suits_twoStorages false nofun)⟩

/-- A storage on the directory of a machine, told by way of one that would have to be made. -/
def loopStorage : KeyedStorage :=
  ⟨⟨1, [fileName pointsKey, parentName]⟩, .usual⟩

/--
When the missing directory is the file of the key, a value that can be stored is refused, and the
directory is left in the one that held nothing.
-/
theorem storable_refused :
    Owns 985 bareMachine [] (fun _ => none) ∧ bareMachine.files.Passable loopStorage.directory ∧
      bareMachine.files.placeOf loopStorage.directory = [] ∧ IsStorable (.int 1) ∧
        (∀ result, ((loopStorage.put pointsKey (.int 1)).runOn bareMachine).1 ≠ .ok result) ∧
          ((loopStorage.put pointsKey (.int 1)).runOn bareMachine).2.files.node?
            [fileName pointsKey] = some .directory := by
  refine ⟨owns_bareMachine _, ⟨⟨rfl, rfl, by decide⟩, by decide, by decide⟩, rfl, nofun, ?_, ?_⟩
  · intro result
    have refused : ((loopStorage.put pointsKey (.int 1)).runOn bareMachine).1.isOk = false := by
      decide +kernel
    intro ok
    rw [ok] at refused
    cases refused
  · decide +kernel

end KeyedStorage

end SiteFilter
