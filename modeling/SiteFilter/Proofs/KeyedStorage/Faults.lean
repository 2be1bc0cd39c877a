import SiteFilter.Proofs.KeyedStorage.FiniteMap

/-!
# The faults of keyed storage

A request is answered or fails. A request about what is no key fails with a fault of keyed storage
and touches nothing. So does one that cannot delete or put a value, unless the value stands too deep
for the writer. A question can meet other faults: the path of the file is too long, or the file is no
text, or it holds more than the reader takes.
-/

namespace SiteFilter

open FileTree Effect

/-! ## Questions about paths -/

namespace FileTree

variable {tree : FileTree} {path : Path}

/-- The file system refuses a path as too long, in one of its names or as a whole. -/
def IsOverlong (tree : FileTree) (path : Path) : Prop :=
  tree.find path = .error (.os ⟨.nameTooLong, path.text, none⟩)

/-- Why names lead nowhere. -/
theorem follow_error_cause {route : Route} {names : List Text} {cause : OsCause}
    (h : tree.follow route names = .error cause) :
    cause = .noEntry ∨ cause = .notDirectory ∨ cause = .nameTooLong := by
  induction names generalizing route with
  | nil => cases h
  | cons name names ih =>
      rw [follow] at h
      split at h
      · cases h
        exact .inl rfl
      · split at h
        · exact ih h
        · split at h
          · cases h
            exact .inr (.inr rfl)
          · exact ih h
      · cases h
        exact .inr (.inl rfl)

/-- Why the file system finds nothing at a path. -/
theorem find_error_cause {refusal : OsError} (h : tree.find path = .error (.os refusal)) :
    refusal = ⟨refusal.cause, path.text, none⟩ ∧
      (refusal.cause = .noEntry ∨ refusal.cause = .notDirectory ∨ tree.IsOverlong path) := by
  have whole := h
  unfold find at h
  dsimp only at h
  split at h
  · cases h
  · split at h
    · cases h
    · split at h
      · cases h
        exact ⟨rfl, .inr (.inr whole)⟩
      · split at h
        · cases h
        · rename_i cause found
          cases h
          refine ⟨rfl, (follow_error_cause found).imp_right (Or.imp_right ?_)⟩
          rintro rfl
          exact whole

/-- A path cannot be looked at just when it is too long. -/
theorem look_error_iff : (∃ e, tree.look path = .error e) ↔ tree.IsOverlong path := by
  constructor
  · rintro ⟨e, refused⟩
    cases found : tree.find path with
    | ok r =>
        rw [look_of_find found] at refused
        cases refused
    | error fault =>
        have stood : tree.stat path = .error fault := by
          rw [stat, found]
          rfl
        rcases stat_error stood with ⟨refusal, rfl⟩ | other
        · obtain ⟨form, missing | missing | overlong⟩ := find_error_cause found
          · rw [form] at found
            rw [look_of_find_error found, if_pos (.inl missing)] at refused
            cases refused
          · rw [form] at found
            rw [look_of_find_error found, if_pos (.inr missing)] at refused
            cases refused
          · exact overlong
        · unfold look at refused
          rw [stood] at refused
          rcases other with ⟨cause, rfl⟩ | rfl
          · cases refused
          · cases refused
  · intro overlong
    exact ⟨_, look_of_find_error overlong⟩

end FileTree

namespace FileAction

variable {tree : FileTree} {path : Path}

/-- Only the file system keeps a file from being taken away whose path is made of names. -/
theorem unlinkIfThere_fault (named : path.IsNamed) :
    Ensures (unlinkIfThere path) tree fun result _ => ∀ e, result = .error e → e.IsOs := by
  have taken : Ensures (unlink path) tree fun result _ => ∀ e, result = .error e → e.IsOs := by
    apply askThen
    · rintro ⟨place, node⟩ _
      cases node with
      | directory => exact .throw fun _ same => ⟨_, (Except.error.inj same).symm⟩
      | file _ => exact .change nofun
      | socket => exact .change nofun
    · intro fault refused e same
      cases same
      cases found : tree.find path with
      | ok r =>
          rw [stat_of_find found] at refused
          split at refused
          · cases refused
          · cases refused
            exact ⟨_, rfl⟩
      | error other =>
          rw [stat, found] at refused
          cases refused
          obtain ⟨cause, rfl⟩ := find_error_of_isNamed named found
          exact ⟨_, rfl⟩
  refine .tryCatch taken (fun _ _ _ => nofun) ?_
  intro e after known
  split
  · exact .pure nofun
  · exact .throw fun _ same => known _ same

end FileAction

/-! ## Keys -/

namespace KeyedStorage

def lineFeed : CodePoint := CodePoint.ofChar '\n'

/-- A text without the line feed that may end it. -/
def bodyOf (key : Text) : Text :=
  if key.getLast? = some lineFeed then key.dropLast else key

theorem isKey_eq (key : Text) :
    isKey key = (!(bodyOf key).isEmpty && (bodyOf key).all isKeyPoint) :=
  rfl

/-- A key is a text of key points, with or without a line feed behind it. -/
theorem isKey_iff {key : Text} :
    isKey key = true ↔ ∃ body : Text, body ≠ [] ∧ (∀ c ∈ body, isKeyPoint c = true) ∧
      (key = body ∨ key = body ++ [lineFeed]) := by
  have whole : isKey key = true ↔ bodyOf key ≠ [] ∧ ∀ c ∈ bodyOf key, isKeyPoint c = true := by
    simp [isKey_eq]
  have other : isKeyPoint lineFeed = false := by decide
  by_cases feed : key.getLast? = some lineFeed
  · rw [whole, bodyOf, if_pos feed]
    obtain ⟨front, rfl⟩ := List.getLast?_eq_some_iff.mp feed
    rw [List.dropLast_concat]
    constructor
    · rintro ⟨filled, points⟩
      exact ⟨front, filled, points, .inr rfl⟩
    · rintro ⟨body, filled, points, rfl | same⟩
      · have point := points lineFeed (List.mem_append_right _ List.mem_cons_self)
        rw [other] at point
        cases point
      · rw [List.append_cancel_right same]
        exact ⟨filled, points⟩
  · rw [whole, bodyOf, if_neg feed]
    constructor
    · rintro ⟨filled, points⟩
      exact ⟨key, filled, points, .inl rfl⟩
    · rintro ⟨body, filled, points, rfl | rfl⟩
      · exact ⟨filled, points⟩
      · exact absurd List.getLast?_concat feed

/-! ## What a file holds -/

/-- What no value can be read from and is no flaw of a document either: it is no text, or the reader
gives up on it. -/
inductive IsBeyondReading (limits : Json.Limits) (content : Bytes) : Prop
  | noText {cause : DecodeError} (odd : Utf8.decode content = .error cause)
  | excessive {t : Text} {cause : Json.Excess} (decoded : Utf8.decode content = .ok t)
      (much : Json.read limits t.unifyLineEnds = .error (.excessive cause))

/-- Which faults a content has. -/
theorem valueIn_error_iff {limits : Json.Limits} {content : Bytes} :
    (∃ e, valueIn limits content = .error e ∧ ∀ flaw, e ≠ .malformed flaw) ↔
      IsBeyondReading limits content := by
  constructor
  · rintro ⟨e, reads, other⟩
    rcases valueIn_error reads with ⟨cause, odd, -⟩ | ⟨t, cause, decoded, read, rfl⟩
    · exact .noText odd
    · cases cause with
      | malformed flaw => exact absurd rfl (other flaw)
      | excessive much => exact .excessive decoded read
  · intro beyond
    cases beyond with
    | @noText cause odd =>
        exact ⟨.decoding cause, by simp only [valueIn, odd], nofun⟩
    | @excessive t cause decoded much =>
        exact ⟨.excessive cause, by simp only [valueIn, decoded, much, Fault.ofReadError], nofun⟩

variable {storage : KeyedStorage} {files : FileTree} {key : Text}

/-- What is told of a key is a fault of keyed storage, unless its file is beyond reading. -/
theorem toldBy_leaks_iff {node? : Option Node} :
    (∃ e, storage.toldBy key node? = .error e ∧ e.isOfStorage = false) ↔
      ∃ content, node? = some (.file content) ∧ IsBeyondReading storage.limits content := by
  match node? with
  | none => simp [toldBy]
  | some .directory => simp [toldBy, Fault.isOfStorage]
  | some .socket => simp [toldBy, Fault.isOfStorage]
  | some (.file content) =>
      have told : (∃ e, storage.toldBy key (some (.file content)) = .error e ∧
          e.isOfStorage = false) ↔
            ∃ e, valueIn storage.limits content = .error e ∧ ∀ flaw, e ≠ .malformed flaw := by
        rw [toldBy]
        cases reads : valueIn storage.limits content with
        | ok value => simp
        | error e =>
            rcases valueIn_error reads with ⟨cause, -, rfl⟩ | ⟨t, cause, -, -, rfl⟩
            · simp [Fault.isOfStorage]
            · cases cause <;> simp [Fault.ofReadError, Fault.isOfStorage]
      rw [told, valueIn_error_iff]
      simp

/-! ## Requests -/

/-- A request that meets a fault of another kind. -/
def Request.Leaks (request : Request) (files : FileTree) : Prop :=
  match request.operation with
  | .put value => value.excess? request.storage.limits.writing = some .deepValue
  | .delete => False
  | .contains => files.IsOverlong (request.storage.fileOf request.key)
  | .get _ =>
      files.IsOverlong (request.storage.fileOf request.key) ∨
        ∃ content, files.look (request.storage.fileOf request.key) = .ok (some (.file content)) ∧
          IsBeyondReading request.storage.limits content

theorem get?_leaks_iff (valid : isKey key = true) :
    (∃ e, storage.get? files key = .error e ∧ e.isOfStorage = false) ↔
      files.IsOverlong (storage.fileOf key) ∨
        ∃ content, files.look (storage.fileOf key) = .ok (some (.file content)) ∧
          IsBeyondReading storage.limits content := by
  rw [← look_error_iff]
  cases looked : files.look (storage.fileOf key) with
  | error e =>
      obtain ⟨cause, rfl⟩ := look_error looked
      rw [get?_of_look_error storage valid looked]
      exact ⟨fun _ => .inl ⟨_, rfl⟩, fun _ => ⟨_, rfl, rfl⟩⟩
  | ok node? =>
      rw [get?_of_look storage valid looked, toldBy_leaks_iff]
      simp

theorem contains_leaks_iff (valid : isKey key = true) :
    (∃ e, storage.contains files key = .error e ∧ e.isOfStorage = false) ↔
      files.IsOverlong (storage.fileOf key) := by
  have asked : storage.contains files key = files.has (storage.fileOf key) := by
    rw [contains, pathOf_eq storage valid]
    rfl
  rw [asked, has, ← look_error_iff]
  cases looked : files.look (storage.fileOf key) with
  | error e =>
      obtain ⟨cause, rfl⟩ := look_error looked
      exact ⟨fun _ => ⟨_, rfl⟩, fun _ => ⟨_, rfl, rfl⟩⟩
  | ok node? => simp

/-- What is no key is refused before anything is done. -/
theorem Request.run_badKey (request : Request) (machine : Machine)
    (bad : isKey request.key = false) :
    Ensures request.run machine fun result after =>
      result = .error (.badKey request.key) ∧ after = machine := by
  obtain ⟨storage, key, operation⟩ := request
  have refused : storage.pathOf key = .error (.badKey key) := by
    rw [pathOf, bad, if_neg Bool.false_ne_true]
  cases operation with
  | put value =>
      apply Ensures.map
      apply Action.ofExceptThen
      · intro path found
        rw [refused] at found
        cases found
      · intro e found
        rw [refused] at found
        cases found
        exact ⟨rfl, rfl⟩
  | delete =>
      apply Ensures.map
      apply Action.ofExceptThen
      · intro path found
        rw [refused] at found
        cases found
      · intro e found
        rw [refused] at found
        cases found
        exact ⟨rfl, rfl⟩
  | get fallback =>
      apply Ensures.map
      refine (Action.ask_spec _ machine).mono ?_
      rintro _ after ⟨rfl, rfl⟩
      dsimp only
      rw [get?, refused]
      exact ⟨rfl, rfl⟩
  | contains =>
      apply Ensures.map
      refine (Action.ask_spec _ machine).mono ?_
      rintro _ after ⟨rfl, rfl⟩
      dsimp only
      rw [contains, refused]
      exact ⟨rfl, rfl⟩

/-- A key that is not deleted fails with a fault of keyed storage. -/
theorem delete_fault (valid : isKey key = true) (named : storage.directory.IsNamed)
    (machine : Machine) :
    Ensures (storage.delete key) machine fun result _ =>
      ∀ e, result = .error e → e.isOfStorage = true := by
  apply Action.ofExceptThen
  · intro path found
    rw [pathOf_eq storage valid] at found
    cases found
    have taken : Ensures (Action.onFiles (FileAction.unlinkIfThere (storage.fileOf key))) machine
        fun result _ => ∀ e, result = .error e → e.IsOs :=
      Action.onFiles_spec (FileAction.unlinkIfThere_fault (isNamed_fileOf named valid))
    refine .tryCatch taken (fun _ _ _ => nofun) ?_
    intro e after os
    obtain ⟨cause, rfl⟩ := os e rfl
    exact .throw fun _ same => by cases same; rfl
  · intro e refused
    rw [pathOf_eq storage valid] at refused
    cases refused

/-- Values that stand too deep are those that have no octets for that reason. -/
theorem encodeValue_deep_iff {limits : Json.Limits} {value : Json} :
    encodeValue limits value = .error (.excessive .deepValue) ↔
      value.excess? limits.writing = some .deepValue := by
  unfold encodeValue
  cases value.excess? limits.writing with
  | some excess => simp
  | none => cases Utf8.encode (value.write .stored) <;> simp

/-- A value that is not put fails with a fault of keyed storage, unless it stands too deep. -/
theorem put_leaks_iff (valid : isKey key = true) {machine : Machine}
    (nameable : machine.files.IsNameable storage.directory) (value : Json) :
    Ensures (storage.put key value) machine fun result _ =>
      (∃ e, result = .error e ∧ e.isOfStorage = false) ↔
        value.excess? storage.limits.writing = some .deepValue := by
  rw [← encodeValue_deep_iff]
  by_cases deep : encodeValue storage.limits value = .error (.excessive .deepValue)
  · refine (put_unencodable valid deep).mono ?_
    rintro _ _ ⟨rfl, -⟩
    exact ⟨fun _ => deep, fun _ => ⟨_, rfl, rfl⟩⟩
  · refine (put_spec storage valid value machine).mono ?_
    intro result _ told
    refine ⟨?_, fun same => absurd same deep⟩
    rintro ⟨e, rfl, other⟩
    rw [told.2 nameable deep] at other
    cases other

/-- Which requests about keys fail with a fault of another kind. -/
theorem Request.run_leaks_iff {request : Request} {machine : Machine}
    (nameable : machine.files.IsNameable request.storage.directory)
    (valid : isKey request.key = true) :
    Ensures request.run machine fun result _ =>
      (∃ e, result = .error e ∧ e.isOfStorage = false) ↔ request.Leaks machine.files := by
  obtain ⟨storage, key, operation⟩ := request
  have mapped {α : Type} {result : Except Fault α} {f : α → Answer} :
      (∃ e, result.map f = .error e ∧ e.isOfStorage = false) ↔
        ∃ e, result = .error e ∧ e.isOfStorage = false := by
    cases result <;> simp [Except.map]
  cases operation with
  | put value =>
      exact .map ((put_leaks_iff valid nameable value).mono fun _ _ => mapped.trans)
  | delete =>
      refine .map ((delete_fault valid nameable.1 machine).mono fun _ _ kept => mapped.trans ?_)
      refine ⟨?_, nofun⟩
      rintro ⟨e, failed, other⟩
      rw [kept e failed] at other
      cases other
  | get fallback =>
      apply Ensures.map
      refine (Action.ask_spec _ machine).mono ?_
      rintro _ after ⟨rfl, -⟩
      exact mapped.trans (get?_leaks_iff valid)
  | contains =>
      apply Ensures.map
      refine (Action.ask_spec _ machine).mono ?_
      rintro _ after ⟨rfl, -⟩
      exact mapped.trans (contains_leaks_iff valid)

/--
Which faults requests meet. What is no key is refused, and the machine is left as it is; keys are
texts of key points, and a line feed may follow. A request about a key fails with a fault of
keyed storage, if it fails, but for questions about a path that is too long or a file beyond reading,
and for values that stand too deep to be written.
-/
theorem requests_faults (request : Request) (machine : Machine) :
    (isKey request.key = true ↔ ∃ body : Text, body ≠ [] ∧
      (∀ c ∈ body, isKeyPoint c = true) ∧
        (request.key = body ∨ request.key = body ++ [lineFeed])) ∧
    (isKey request.key = false →
      request.run.runOn machine = (.error (.badKey request.key), machine)) ∧
    (isKey request.key = true → machine.files.IsNameable request.storage.directory →
      ((∃ e, (request.run.runOn machine).1 = .error e ∧ e.isOfStorage = false) ↔
        request.Leaks machine.files)) := by
  refine ⟨isKey_iff, fun bad => ?_, fun valid nameable => Request.run_leaks_iff nameable valid⟩
  obtain ⟨refused, same⟩ := request.run_badKey machine bad
  exact Prod.ext refused same

def kvStorage : KeyedStorage :=
  ⟨⟨1, [Text.ofString "kv"]⟩, .usual⟩

/-- A plain file is in the place of the storage's directory. -/
def blockedMachine : Machine :=
  { bareMachine with files := ⟨[([Text.ofString "kv"], .file [])], []⟩ }

def blockedRequest : Request :=
  ⟨kvStorage, Text.ofString "k", .put .null⟩

theorem requests_faults_blocked :
    ∃ e, (blockedRequest.run.runOn blockedMachine).1 = .error e ∧ e.isOfStorage = true := by
  have kept := ((requests_faults blockedRequest blockedMachine).2.2 (by decide) (by decide)).mp
  have refused : (blockedRequest.run.runOn blockedMachine).1.isOk = false := by decide +kernel
  cases result : (blockedRequest.run.runOn blockedMachine).1 with
  | ok answer =>
      rw [result] at refused
      cases refused
  | error e =>
      refine ⟨e, rfl, ?_⟩
      rw [← Bool.not_eq_false]
      exact fun other => nomatch kept ⟨e, result, other⟩

def garbledMachine : Machine :=
  { bareMachine with
    files := ⟨[([Text.ofString "kv"], .directory),
      ([Text.ofString "kv", Text.ofString "k.json"], .file [0xFF])], []⟩ }

def longKey : Text :=
  List.replicate 300 (CodePoint.ofChar 'a')

/-- Arrays that stand in each other, so many of them. -/
def nestedArrays : Nat → Json
  | 0 => .array []
  | depth + 1 => .array [nestedArrays depth]

theorem excess?_nestedArrays {depth room : Nat} (deep : room ≤ depth) :
    (nestedArrays depth).excess? room = some .deepValue := by
  induction depth generalizing room with
  | zero => simp [nestedArrays, Json.excess?, Nat.le_zero.mp deep]
  | succ depth ih =>
      rw [nestedArrays, Json.excess?]
      split
      · rfl
      · simp [Json.excessOfItems?, ih (show room - 1 ≤ depth by omega)]

/--
Questions meet the faults of the decoder and of the file system, a value stands too deep, and a text
with a line feed behind it is taken for a key.
-/
theorem requests_leak :
    (∃ e, ((Request.mk kvStorage (Text.ofString "k") (.get .null)).run.runOn
        garbledMachine).1 = .error e ∧ e.isOfStorage = false) ∧
      (∃ e, ((Request.mk kvStorage longKey .contains).run.runOn garbledMachine).1 =
        .error e ∧ e.isOfStorage = false) ∧
      (∃ e, ((Request.mk kvStorage (Text.ofString "k") (.put (nestedArrays 1000))).run.runOn
        garbledMachine).1 = .error e ∧ e.isOfStorage = false) ∧
      ((Request.mk kvStorage (Text.ofString "a\n") (.put .null)).run.runOn
        garbledMachine).1.isOk = true := by
  have garbled : (Request.mk kvStorage (Text.ofString "k") (.get .null)).Leaks
      garbledMachine.files :=
    .inr ⟨[0xFF], rfl, .noText rfl⟩
  have overlong : (Request.mk kvStorage longKey .contains).Leaks garbledMachine.files :=
    find_of_follow_error ⟨by decide +kernel, by decide +kernel, by decide +kernel⟩
      (by decide +kernel)
  exact ⟨(Request.run_leaks_iff (by decide) (by decide)).mpr garbled,
    (Request.run_leaks_iff (by decide) (by decide +kernel)).mpr overlong,
    (Request.run_leaks_iff (by decide) (by decide)).mpr
      (excess?_nestedArrays (show 985 ≤ 1000 by decide)), by decide +kernel⟩

end KeyedStorage

end SiteFilter
