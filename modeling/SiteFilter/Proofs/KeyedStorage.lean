import SiteFilter.KeyedStorage
import SiteFilter.Proofs.Json.Written
import SiteFilter.Proofs.Machine

/-!
# Values by key

A value that was put is the value that is read back, and goes on to be as long as other files are
written. A value that could not be put leaves the files as they were, but for directories.
-/

namespace SiteFilter

/-! ## The file of a key -/

/-- A text without a slash is one part of a path. -/
theorem Path.ofText_single {t : Text} (plain : ∀ c ∈ t, c.val ≠ 0x2F) (nonempty : t ≠ [])
    (visible : t ≠ Text.ofString ".") : Path.ofText t = ⟨0, [t]⟩ := by
  have slash : (CodePoint.ofChar '/').val = 0x2F := rfl
  have uncut (rest : Text) : ∀ passed : Text, (∀ c ∈ rest, c.val ≠ 0x2F) →
      Text.cutFrom (Text.ofString "/") passed rest = none := by
    induction rest with
    | nil => intro passed _; rfl
    | cons c rest ih =>
        intro passed each
        have other : ¬ CodePoint.ofChar '/' = c := by
          rintro rfl
          exact each _ List.mem_cons_self slash
        have noPrefix : (Text.ofString "/").isPrefixOf (c :: rest) = false := by
          simp [Text.ofString, List.isPrefixOf, other]
        rw [Text.cutFrom, noPrefix, if_neg Bool.false_ne_true]
        exact ih _ fun d inside => each d (List.mem_cons_of_mem _ inside)
  have whole : Text.splitOn (Text.ofString "/") t = [t] := by
    rw [Text.splitOn, dif_neg (by decide)]
    have none : Text.cut? (Text.ofString "/") t = Option.none := uncut t [] plain
    split
    · rfl
    · rename_i found
      rw [none] at found
      cases found
  have lead : t.takeWhile (fun c => decide (c.val = 0x2F)) = [] := by
    cases t with
    | nil => rfl
    | cons c rest => simp [plain c List.mem_cons_self]
  simp [Path.ofText, Path.partsOf, whole, lead, nonempty, visible]

namespace KeyedStorage

open FileTree Effect

def fileName (key : Text) : Text :=
  key ++ Text.ofString ".json"

def fileOf (storage : KeyedStorage) (key : Text) : Path :=
  ⟨storage.directory.slashes, storage.directory.parts ++ [fileName key]⟩

structure IsShortKey (key : Text) : Prop where
  isKey : isKey key = true
  short : (fileName key).octetCount ≤ nameLimit

/-- Keys hold no slash, and neither U+0000 nor surrogates. -/
theorem mem_key {key : Text} (valid : isKey key = true) {c : CodePoint} (inside : c ∈ key) :
    c.val ≠ 0x2F ∧ 0 < c.val ∧ c.val < 0x80 := by
  have point {c : CodePoint} (h : isKeyPoint c = true) :
      c.val ≠ 0x2F ∧ 0 < c.val ∧ c.val < 0x80 := by
    simp only [isKeyPoint, Bool.or_eq_true, Bool.and_eq_true, decide_eq_true_eq] at h
    omega
  unfold isKey at valid
  split at valid
  · rename_i feed
    obtain ⟨front, rfl⟩ := List.getLast?_eq_some_iff.mp feed
    simp only [List.dropLast_concat, Bool.and_eq_true, List.all_eq_true] at valid
    rcases List.mem_append.mp inside with early | last
    · exact point (valid.2 c early)
    · rw [List.mem_singleton.mp last]
      decide
  · simp only [Bool.and_eq_true, List.all_eq_true] at valid
    exact point (valid.2 c inside)

theorem mem_fileName {key : Text} (valid : isKey key = true) {c : CodePoint}
    (inside : c ∈ fileName key) : c.val ≠ 0x2F ∧ 0 < c.val ∧ c.val < 0x80 := by
  have ending : ∀ c ∈ Text.ofString ".json", c.val ≠ 0x2F ∧ 0 < c.val ∧ c.val < 0x80 := by
    decide
  rcases List.mem_append.mp inside with name | tail
  · exact mem_key valid name
  · exact ending c tail

theorem fileName_long (key : Text) : 5 ≤ (fileName key).length := by
  simp [fileName, Text.ofString]

theorem isName_fileName {key : Text} (valid : isKey key = true) : (fileName key).IsName := by
  intro c inside
  obtain ⟨-, pos, small⟩ := mem_fileName valid inside
  have notSurrogate : c.isSurrogate = false := by
    simp only [CodePoint.isSurrogate, Bool.and_eq_false_iff, decide_eq_false_iff_not]
    omega
  exact ⟨by omega, by rw [notSurrogate, Bool.false_and]⟩

theorem isNamed_fileOf {storage : KeyedStorage} {key : Text} (named : storage.directory.IsNamed)
    (valid : isKey key = true) : (storage.fileOf key).IsNamed := by
  intro part inside
  rcases List.mem_append.mp inside with early | last
  · exact named part early
  · rw [List.mem_singleton.mp last]
    exact isName_fileName valid

theorem fileName_ne_parentName (key : Text) : fileName key ≠ parentName := by
  intro same
  have long := fileName_long key
  rw [same] at long
  exact absurd long (by decide)

theorem pathOf_eq (storage : KeyedStorage) {key : Text} (valid : isKey key = true) :
    storage.pathOf key = .ok (storage.fileOf key) := by
  have single : Path.ofText (fileName key) = ⟨0, [fileName key]⟩ := by
    refine Path.ofText_single (fun c inside => (mem_fileName valid inside).1) ?_ ?_
    · intro none
      have long := fileName_long key
      rw [none] at long
      exact absurd long (by decide)
    · intro point
      have long := fileName_long key
      rw [point] at long
      exact absurd long (by decide)
  rw [pathOf, if_pos valid]
  change Except.ok (storage.directory.join (fileName key)) = _
  unfold Path.join
  rw [single]
  rfl

/-! ## What a key shows -/

def valueIn (limits : Json.Limits) (content : Bytes) : Except Fault Json :=
  match Utf8.decode content with
  | .error e => .error (.decoding e)
  | .ok t =>
      match Json.read limits t.unifyLineEnds with
      | .ok value => .ok value
      | .error e => .error (.ofReadError e)

/-- A node stands for a value, and nothing for none. -/
inductive Stands (limits : Json.Limits) : Option Node → Option Json → Prop
  | nothing : Stands limits none none
  | file {content : Bytes} {value : Json} (reads : valueIn limits content = .ok value) :
      Stands limits (some (.file content)) (some value)

/-- A key has a value, or none, and goes on to as long as other files change. -/
def Shows (storage : KeyedStorage) (files : FileTree) (key : Text) (value : Option Json) : Prop :=
  Fits (storage.fileOf key) ∧ ∃ n, Stands storage.limits n value ∧
    files.Shows n (files.origin storage.directory) (storage.fileOf key).parts

def placeOf (storage : KeyedStorage) (files : FileTree) (key : Text) : Route :=
  files.placeOf (storage.fileOf key)

theorem placeOf_eq (storage : KeyedStorage) (files : FileTree) (key : Text) :
    storage.placeOf files key = files.placeOf storage.directory ++ [fileName key] := by
  change walk (files.origin storage.directory) (storage.directory.parts ++ [fileName key]) = _
  rw [walk_append, walk_cons, advance, if_neg (fileName_ne_parentName key)]
  rfl

theorem placeOf_injective {storage : KeyedStorage} {files : FileTree} {key other : Text}
    (h : storage.placeOf files key = storage.placeOf files other) : key = other := by
  rw [placeOf_eq, placeOf_eq] at h
  have names := List.singleton_inj.mp (List.append_cancel_left h)
  exact List.append_cancel_right names

/-- A content without a value is no text, or no document. -/
theorem valueIn_error {limits : Json.Limits} {content : Bytes} {e : Fault}
    (h : valueIn limits content = .error e) :
    (∃ cause, Utf8.decode content = .error cause ∧ e = .decoding cause) ∨
      ∃ t cause, Utf8.decode content = .ok t ∧ Json.read limits t.unifyLineEnds = .error cause ∧
        e = .ofReadError cause := by
  unfold valueIn at h
  cases decoded : Utf8.decode content with
  | error cause =>
      rw [decoded] at h
      cases h
      exact .inl ⟨cause, rfl, rfl⟩
  | ok t =>
      rw [decoded] at h
      dsimp only at h
      cases found : Json.read limits t.unifyLineEnds with
      | ok value =>
          rw [found] at h
          cases h
      | error cause =>
          rw [found] at h
          cases h
          exact .inr ⟨t, cause, rfl, found, rfl⟩

theorem readValue_eq {limits : Json.Limits} {files : FileTree} {path : Path} {content : Bytes}
    (h : files.read path = .ok content) : readValue limits files path = valueIn limits content := by
  unfold readValue valueIn FileTree.readText
  rw [h]
  simp only [bind, Except.bind]
  cases Utf8.decode content with
  | error e => rfl
  | ok t =>
      simp only [pure, Except.pure]
      cases Json.read limits t.unifyLineEnds <;> rfl

theorem valueIn_of_readValue {limits : Json.Limits} {files : FileTree} {path : Path} {value : Json}
    (h : readValue limits files path = .ok value) :
    ∃ content, files.read path = .ok content ∧ valueIn limits content = .ok value := by
  cases there : files.read path with
  | error e =>
      unfold readValue FileTree.readText at h
      rw [there] at h
      cases h
  | ok content =>
      rw [readValue_eq there] at h
      exact ⟨content, rfl, h⟩

/-- The value of a key is read. -/
theorem get?_of_shows {storage : KeyedStorage} {files : FileTree} {key : Text}
    {value : Option Json} (valid : isKey key = true) (h : storage.Shows files key value) :
    storage.get? files key = .ok value := by
  obtain ⟨fits, n, stands, shows⟩ := h
  have looked := look_of_shows fits shows
  unfold get?
  rw [pathOf_eq storage valid]
  simp only [bind, Except.bind, FileTree.has, looked]
  cases stands with
  | nothing => rfl
  | file reads =>
      simp only [Option.isSome_some, if_true, readValue_eq (read_of_shows fits shows), reads]
      rfl

/-- What a node in the place of the file of a key tells of its value. -/
def toldBy (storage : KeyedStorage) (key : Text) : Option Node → Except Fault (Option Json)
  | none => .ok none
  | some (.file content) =>
      match valueIn storage.limits content with
      | .ok value => .ok (some value)
      | .error (.malformed e) => .error (.unreadableKey key (storage.fileOf key) (.malformed e))
      | .error e => .error e
  | some .directory => .error (.unreadableKey key (storage.fileOf key)
      (.os ⟨.isDirectory, (storage.fileOf key).text, none⟩))
  | some .socket => .error (.unreadableKey key (storage.fileOf key)
      (.os ⟨.noDevice, (storage.fileOf key).text, none⟩))

/-- What is known of a key is what stands in the place of its file. -/
theorem get?_of_look (storage : KeyedStorage) {files : FileTree} {key : Text} {node? : Option Node}
    (valid : isKey key = true) (h : files.look (storage.fileOf key) = .ok node?) :
    storage.get? files key = storage.toldBy key node? := by
  unfold get?
  rw [pathOf_eq storage valid]
  simp only [bind, Except.bind, FileTree.has, h]
  cases node? with
  | none => rfl
  | some node =>
      have read := read_of_look h
      cases node with
      | file content =>
          simp only [Option.isSome_some, if_true, readValue_eq read, toldBy]
          cases reads : valueIn storage.limits content with
          | ok value => rfl
          | error e =>
              cases e with
              | os cause =>
                  rcases valueIn_error reads with ⟨_, _, same⟩ | ⟨_, cause, _, _, same⟩
                  · cases same
                  · cases cause <;> cases same
              | _ => rfl
      | directory =>
          simp only [Option.isSome_some, if_true]
          unfold readValue FileTree.readText
          rw [read]
          rfl
      | socket =>
          simp only [Option.isSome_some, if_true]
          unfold readValue FileTree.readText
          rw [read]
          rfl

/-- The value in the file of a key is the value of the key. -/
theorem get?_of_readValue (storage : KeyedStorage) {files : FileTree} {key : Text} {value : Json}
    (valid : isKey key = true) (h : readValue storage.limits files (storage.fileOf key) = .ok value) :
    storage.get? files key = .ok (some value) := by
  obtain ⟨content, found, reads⟩ := valueIn_of_readValue h
  obtain ⟨fits, shows⟩ := read_eq_ok_iff.mp found
  exact get?_of_shows valid ⟨fits, _, .file reads, shows⟩

/-- Nothing is known of a key whose file cannot be looked at. -/
theorem get?_of_look_error (storage : KeyedStorage) {files : FileTree} {key : Text} {e : Fault}
    (valid : isKey key = true) (h : files.look (storage.fileOf key) = .error e) :
    storage.get? files key = .error e := by
  unfold get?
  rw [pathOf_eq storage valid]
  simp only [bind, Except.bind, FileTree.has, h]

/-- A key that shows a value is one with a value. -/
theorem contains_of_shows {storage : KeyedStorage} {files : FileTree} {key : Text}
    {value : Option Json} (valid : isKey key = true) (h : storage.Shows files key value) :
    storage.contains files key = .ok value.isSome := by
  obtain ⟨fits, n, stands, shows⟩ := h
  have looked := look_of_shows fits shows
  unfold contains
  rw [pathOf_eq storage valid]
  simp only [bind, Except.bind, FileTree.has, looked]
  cases stands <;> rfl

/-- What is read of a key goes on to be there. -/
theorem shows_of_get? {storage : KeyedStorage} {files : FileTree} {key : Text}
    {value : Option Json} (closed : files.Closed) (named : storage.directory.IsNamed)
    (steady : files.Steady storage.directory) (short : IsShortKey key)
    (h : storage.get? files key = .ok value) : storage.Shows files key value := by
  have named' := isNamed_fileOf named short.isKey
  have steady' : files.Steady (storage.fileOf key) := by
    refine SteadyFrom.append steady fun part inside => ?_
    rw [List.mem_singleton.mp inside]
    exact ⟨fileName_ne_parentName key, short.short⟩
  unfold get? at h
  rw [pathOf_eq storage short.isKey] at h
  simp only [bind, Except.bind, FileTree.has] at h
  cases looked : files.look (storage.fileOf key) with
  | error e =>
      rw [looked] at h
      cases h
  | ok n =>
      rw [looked] at h
      cases n with
      | none =>
          obtain ⟨fits, shows⟩ := shows_of_look closed named' steady' looked
          cases h
          exact ⟨fits, none, .nothing, shows⟩
      | some node =>
          simp only [Option.isSome_some, if_true] at h
          cases known : readValue storage.limits files (storage.fileOf key) with
          | error e =>
              rw [known] at h
              cases e <;> cases h
          | ok v =>
              rw [known] at h
              cases h
              obtain ⟨content, there, reads⟩ := valueIn_of_readValue known
              obtain ⟨fits, shows⟩ := read_eq_ok_iff.mp there
              exact ⟨fits, _, .file reads, shows⟩

/-! ## Changes of files -/

section Changes

variable {storage : KeyedStorage} {files after : FileTree} {key other : Text}
  {value : Option Json} {data : Bytes}

/-- A key keeps its value when its file is left alone and nothing on the way to it goes away. -/
theorem Shows.spared (h : storage.Shows files key value) (current : after.current = files.current)
    (kept : ∀ r ∈ files.wayOf (storage.fileOf key), Persists (files.node? r) (after.node? r))
    (same : after.node? (storage.placeOf files key) = files.node? (storage.placeOf files key)) :
    storage.Shows after key value := by
  obtain ⟨fits, n, stands, shows⟩ := h
  refine ⟨fits, n, stands, ?_⟩
  rw [origin_eq current]
  exact FileTree.Shows.mono shows kept same

/-- Directories on the way to the storage do not stand in the place of a key. -/
theorem Shows.place_ne (h : storage.Shows files key value)
    (kept : ∀ r, Persists (files.node? r) (after.node? r)) {front : List Text} {r : Route}
    (isFront : front <+: storage.directory.parts)
    (reached : after.follow (files.origin storage.directory) front = .ok r)
    (missing : files.node? r = none) : r ≠ storage.placeOf files key := by
  obtain ⟨-, n, -, shows⟩ := h
  obtain ⟨behind, split⟩ := isFront
  have parts : (storage.fileOf key).parts = front ++ (behind ++ [fileName key]) := by
    rw [← List.append_assoc, split]
    rfl
  have place : storage.placeOf files key =
      walk (files.origin storage.directory) (front ++ (behind ++ [fileName key])) := by
    rw [← parts]
    rfl
  rw [parts] at shows
  rw [place]
  exact walk_ne_of_follow (steadyFrom_of_shows shows) (by simp) kept reached missing

/-- A write that came to nothing leaves all values as they were. -/
theorem Shows.furnished (h : storage.Shows files key value)
    (made : Furnished files after (files.origin storage.directory) storage.directory.parts) :
    storage.Shows after key value := by
  refine h.spared made.current (fun r _ => made.persists r) ?_
  rcases made.node (storage.placeOf files key) with same | ⟨missing, -, front, isFront, reached⟩
  · exact same
  · exact absurd rfl (h.place_ne made.persists isFront reached missing)

/-- A write under another key leaves a value as it was. -/
theorem Shows.replaced (h : storage.Shows files key value) (different : key ≠ other)
    (write : Replaced files after (storage.fileOf other) data) :
    storage.Shows after key value := by
  refine h.spared write.current (fun r _ => write.persists r) ?_
  have apart : storage.placeOf files key ≠ storage.placeOf files other :=
    fun same => different (placeOf_injective same)
  rcases write.elsewhere _ apart with same | ⟨missing, -, front, isFront, reached⟩
  · exact same
  · have inDirectory : front <+: storage.directory.parts := by
      rwa [show (storage.fileOf other).parts.dropLast = storage.directory.parts from
        List.dropLast_concat] at isFront
    exact absurd rfl (h.place_ne write.persists inDirectory reached missing)

/-- What was written under a key is what it shows. -/
theorem shows_of_replaced {v : Json} (write : Replaced files after (storage.fileOf key) data)
    (reads : valueIn storage.limits data = .ok v) : storage.Shows after key (some v) := by
  obtain ⟨fits, reached⟩ := find_eq_ok_iff.mp write.found
  have shows := shows_of_follow reached
  rw [write.written] at shows
  exact ⟨fits, _, .file reads, shows⟩

/-- Writes to files that do not lead along the file of a key leave its value as it was. -/
theorem Shows.avoided {target : Path} {result : Except Fault Unit}
    (h : storage.Shows files key value) (write : Replaces files target data result after)
    (off : storage.placeOf files key ∉ files.wayOf target) : storage.Shows after key value :=
  h.spared write.current (fun r _ => write.persists r) (write.avoided off)

end Changes

/-! ## Putting values -/

/-- A value has octets when there is not too much in it and they encode all its texts. -/
theorem encodeValue_eq_ok_iff {limits : Json.Limits} {value : Json} {data : Bytes} :
    encodeValue limits value = .ok data ↔ value.excess? limits.writing = none ∧
      Utf8.Encodable (value.write .stored) ∧ data = Utf8.encodeAny (value.write .stored) := by
  unfold encodeValue
  rw [← Utf8.encode_eq_ok_iff]
  cases value.excess? limits.writing with
  | some e => simp
  | none => cases Utf8.encode (value.write .stored) <;> simp

/-- A value without octets has too much in it, or a text that cannot be encoded. -/
theorem encodeValue_error {limits : Json.Limits} {value : Json} {e : Fault}
    (h : encodeValue limits value = .error e) :
    (∃ excess, value.excess? limits.writing = some excess ∧ e = .excessive excess) ∨
      value.excess? limits.writing = none ∧
        ∃ cause, Utf8.encode (value.write .stored) = .error cause ∧ e = .encoding cause := by
  unfold encodeValue at h
  cases found : value.excess? limits.writing with
  | some excess =>
      rw [found] at h
      cases h
      exact .inl ⟨excess, rfl, rfl⟩
  | none =>
      rw [found] at h
      cases encoded : Utf8.encode (value.write .stored) with
      | ok data =>
          rw [encoded] at h
          cases h
      | error cause =>
          rw [encoded] at h
          cases h
          exact .inr ⟨rfl, cause, rfl, rfl⟩

/-- Whether a document of the program can be stored hangs on its texts alone. -/
theorem encodeValue_own {limits : Json.Limits} {value : Json}
    (own : Json.Readable .stored Json.ownDepth value) :
    encodeValue limits value = (Utf8.encode (value.write .stored)).mapError .encoding := by
  unfold encodeValue
  rw [own.excess?_within limits]
  cases Utf8.encode (value.write .stored) <;> rfl

theorem encodeValue_own_ok_iff {limits : Json.Limits} {value : Json} {data : Bytes}
    (own : Json.Readable .stored Json.ownDepth value) :
    encodeValue limits value = .ok data ↔ Utf8.encode (value.write .stored) = .ok data := by
  rw [encodeValue_own own]
  cases Utf8.encode (value.write .stored) <;> simp [Except.mapError]

theorem encodeValue_own_ne_deep {limits : Json.Limits} {value : Json}
    (own : Json.Readable .stored Json.ownDepth value) :
    encodeValue limits value ≠ .error (.excessive .deepValue) := by
  rw [encodeValue_own own]
  cases Utf8.encode (value.write .stored) <;> simp [Except.mapError]

/-- The octets of a value are read as that value, by all who have the room. -/
theorem valueIn_encodeValue {limits reader : Json.Limits} {value : Json} {data : Bytes}
    (readable : Json.Readable .stored reader.reading value)
    (h : encodeValue limits value = .ok data) : valueIn reader data = .ok value := by
  obtain ⟨-, encodable, rfl⟩ := encodeValue_eq_ok_iff.mp h
  unfold valueIn
  rw [Utf8.decode_encodeAny encodable]
  simp only
  rw [Json.unifyLineEnds_write, Json.read_write readable]

/-- A value that was written to a file is read from it. -/
theorem readValue_written {limits : Json.Limits} {files : FileTree} {path : Path} {value : Json}
    {data : Bytes}
    (readable : Json.Readable .stored limits.reading value)
    (encoded : encodeValue limits value = .ok data) (found : files.read path = .ok data) :
    readValue limits files path = .ok value := by
  rw [readValue_eq found, valueIn_encodeValue readable encoded]

theorem isOfStorage_encodingFault {key : Text} {e : Fault} :
    (encodingFault key e).isOfStorage = true ↔ e ≠ .excessive .deepValue := by
  unfold encodingFault
  split
  · simp [Fault.isOfStorage]
  · rename_i other
    simpa [Fault.isOfStorage] using other

theorem put_spec (storage : KeyedStorage) {key : Text} (valid : isKey key = true) (value : Json)
    (machine : Machine) :
    Ensures (storage.put key value) machine fun result after =>
      match result with
      | .ok _ => ∃ data, encodeValue storage.limits value = .ok data ∧
          Replaced machine.files after.files (storage.fileOf key) data
      | .error e =>
          Furnished machine.files after.files (machine.files.origin storage.directory)
              storage.directory.parts ∧
            (machine.files.IsNameable storage.directory →
              encodeValue storage.limits value ≠ .error (.excessive .deepValue) →
                e.isOfStorage = true) := by
  have nameable : machine.files.IsNameable storage.directory →
      machine.files.IsNameable (storage.fileOf key) :=
    fun ⟨named, start⟩ => ⟨isNamed_fileOf named valid, start⟩
  have inDirectory : (storage.fileOf key).parts.dropLast = storage.directory.parts :=
    List.dropLast_concat
  apply Action.ofExceptThen
  · intro path found
    rw [pathOf_eq storage valid] at found
    cases found
    cases encoded : encodeValue storage.limits value with
    | error e =>
        refine .throw ⟨.refl _ _ _, fun _ shallow => isOfStorage_encodingFault.mpr ?_⟩
        rintro rfl
        exact shallow rfl
    | ok data =>
        refine .bind (Q := fun result after =>
          match result with
          | .ok _ => Replaced machine.files after.files (storage.fileOf key) data
          | .error e => Furnished machine.files after.files
              (machine.files.origin storage.directory) storage.directory.parts ∧
                (machine.files.IsNameable storage.directory → e.isOfStorage = true)) ?_ ?_ ?_
        · refine .tryCatch (Action.replaceFile_spec _ data machine) ?_ ?_
          · intro _ after replaced
            exact replaced
          · rintro e after ⟨made, os⟩
            rw [inDirectory] at made
            cases e with
            | os cause => exact .throw ⟨made, fun _ => rfl⟩
            | _ =>
                refine .throw ⟨made, fun h => ?_⟩
                obtain ⟨refusal, same⟩ := os (nameable h)
                cases same
        · intro _ after replaced
          exact Ensures.change ⟨data, rfl, replaced⟩
        · rintro e after ⟨made, refused⟩
          exact ⟨made, fun nameable _ => refused nameable⟩
  · intro e refused
    rw [pathOf_eq storage valid] at refused
    cases refused

end KeyedStorage

end SiteFilter
