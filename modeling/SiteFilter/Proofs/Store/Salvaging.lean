import SiteFilter.Proofs.Rule.Key
import SiteFilter.Proofs.Store.Runs

/-!
# Salvaging what is stored

Any values can stand in the two stored lists. Loading keeps what the entries with a name and the
entries that describe a rule stand for, each where it comes first, and drops the other entries.
Published rules are taken in the same way.
-/

namespace SiteFilter

open FileTree Effect

/-! ## First occurrences -/

section Distinct

variable {α β : Type} [DecidableEq α] [DecidableEq β]

theorem distinct_eq_eraseDups [BEq α] [LawfulBEq α] (items : List α) :
    distinct items = items.eraseDups := by
  have step (items : List α) : ∀ done : List α, items.foldl addNew done =
      done ++ (items.filter fun item => !done.elem item).eraseDups := by
    induction items with
    | nil => simp
    | cons item items ih =>
        intro done
        rw [List.foldl_cons, ih, addNew]
        by_cases there : item ∈ done
        · simp [there]
        · have kept : (items.filter fun other => !(done ++ [item]).elem other) =
              (items.filter fun other => !done.elem other).filter fun other => !other == item := by
            rw [List.filter_filter]
            refine List.filter_congr fun other _ => ?_
            by_cases same : other = item <;> simp [same]
          rw [if_neg there, kept, List.filter_cons_of_pos (by simpa using there),
            List.eraseDups_cons, List.append_assoc]
          rfl
  rw [distinct_eq, step items []]
  simp

theorem distinct_map {f : α → β} (injective : Function.Injective f) (items : List α) :
    (distinct items).map f = distinct (items.map f) := by
  have step (items : List α) : ∀ done : List α,
      (items.foldl addNew done).map f = (items.map f).foldl addNew (done.map f) := by
    induction items with
    | nil => exact fun done => rfl
    | cons item items ih =>
        intro done
        have added : (addNew done item).map f = addNew (done.map f) (f item) := by
          unfold addNew
          by_cases there : item ∈ done
          · rw [if_pos there, if_pos ((List.mem_map_of_injective injective).mpr there)]
          · rw [if_neg there, if_neg fun h => there ((List.mem_map_of_injective injective).mp h),
              List.map_append, List.map_singleton]
        rw [List.foldl_cons, List.map_cons, List.foldl_cons, ih, added]
  rw [distinct_eq, distinct_eq, step items [], List.map_nil]

end Distinct

/-! ## Entries and what they stand for -/

/-- What is salvaged from a list: what its entries stand for, without those that stand for nothing. -/
inductive Salvages {α β : Type} (stands : α → β → Prop) : List α → List β → Prop
  | nil : Salvages stands [] []
  | kept {entry : α} {item : β} {entries : List α} {items : List β} (here : stands entry item)
      (others : Salvages stands entries items) : Salvages stands (entry :: entries) (item :: items)
  | dropped {entry : α} {entries : List α} {items : List β} (nothing : ∀ item, ¬ stands entry item)
      (others : Salvages stands entries items) : Salvages stands (entry :: entries) items

/-- What is salvaged is what a function gives that knows what entries stand for. -/
theorem salvages_iff {α β : Type} {stands : α → β → Prop} {f : α → Option β}
    (knows : ∀ entry item, f entry = some item ↔ stands entry item) {entries : List α}
    {items : List β} : Salvages stands entries items ↔ entries.filterMap f = items := by
  constructor
  · intro salvaged
    induction salvaged with
    | nil => rfl
    | kept here others ih => rw [List.filterMap_cons_some ((knows _ _).mpr here), ih]
    | @dropped entry entries items nothing others ih =>
        cases found : f entry with
        | none => rw [List.filterMap_cons_none found, ih]
        | some item => exact absurd ((knows _ _).mp found) (nothing item)
  · rintro rfl
    induction entries with
    | nil => exact .nil
    | cons entry entries ih =>
        cases found : f entry with
        | none =>
            rw [List.filterMap_cons_none found]
            refine .dropped (fun item stood => ?_) ih
            rw [(knows entry item).mpr stood] at found
            cases found
        | some item =>
            rw [List.filterMap_cons_some found]
            exact .kept ((knows entry item).mp found) ih

/-- An entry is a text that is not blank, and the name is what is kept of it. -/
def NamesHost (lowersHosts : Bool) (entry : Json) (name : Text) : Prop :=
  ∃ t, entry = .text t ∧ t.isBlank = false ∧ name = normalizeHost lowersHosts t

/-- An entry is an object that has the domain and the selector of the rule as texts. -/
def DescribesRule (entry : Json) (rule : ElementRule) : Prop :=
  ∃ members, entry = .object members ∧
    Json.lookup ElementRule.domainName members = some (.text rule.domain) ∧
    Json.lookup ElementRule.selectorName members = some (.text rule.selector)

theorem HostRule.hostname_injective : Function.Injective HostRule.hostname := by
  rintro ⟨name, filled⟩ ⟨other, filled'⟩ same
  cases same
  rfl

namespace ElementRule

theorem ofJson_eq_ok_iff {entry : Json} {rule : ElementRule} :
    ofJson entry = .ok rule ↔ DescribesRule entry rule := by
  constructor
  · intro made
    unfold ofJson at made
    split at made
    · rename_i members
      unfold ofMembers at made
      split at made
      · rename_i made'
        split at made'
        · rename_i domain selector hasDomain hasSelector
          obtain ⟨rfl, rfl⟩ := make_eq_ok_iff.mp made'
          cases made
          exact ⟨members, rfl, hasDomain, hasSelector⟩
        · cases made'
      · cases made
    · cases made
  · rintro ⟨members, rfl, hasDomain, hasSelector⟩
    have made : make rule.domain rule.selector = .ok rule := make_eq_ok_iff.mpr ⟨rfl, rfl⟩
    simp only [ofJson, ofMembers, hasDomain, hasSelector, made]

end ElementRule

namespace Json

section LongNumbers

variable {c : CodePoint} {digits : Text} (all : ∀ d ∈ c :: digits, d.isAsciiDigit = true)
  (filled : c.val ≠ 0x30) (long : Numeral.digitLimit < (c :: digits).length)

include all filled long

theorem number_long {rest : Text} (ends : EndsValue rest) :
    number (c :: (digits ++ rest)) = .error (.excess (.digits (c :: digits).length)) := by
  have digit := (CodePoint.isAsciiDigit_iff c).mp (all c List.mem_cons_self)
  have unsigned : c.val ≠ 0x2D := by omega
  have whole : wholeDigits (c :: (digits ++ rest)) = (c :: digits, rest) := by
    rw [← spanDigits_append all ends]
    exact if_neg filled
  simp only [number, if_neg unsigned, whole, splitFraction_of_ends ends,
    splitExponent?_of_ends ends, if_pos long]
  rfl

theorem value_long (fuel room : Nat) {rest : Text} (ends : EndsValue rest) :
    value (fuel + 1) room (c :: (digits ++ rest)) =
      .error (.excess (.digits (c :: digits).length)) := by
  have here := all c List.mem_cons_self
  have digit := (CodePoint.isAsciiDigit_iff c).mp here
  rw [value_scalar fuel room _ rfl (by omega) (by omega) (by omega), word?_digit here]
  exact number_long all filled long ends

/-- A list is refused when a number in it is too long. -/
theorem read_long (limits : Limits) :
    read limits (CodePoint.ofChar '[' :: (c :: (digits ++ [CodePoint.ofChar ']']))) =
      .error (.excessive (.digits (c :: digits).length)) := by
  have digit := (CodePoint.isAsciiDigit_iff c).mp (all c List.mem_cons_self)
  have visible : isSpace c = false := isSpace_eq_false (by omega)
  have ends : EndsValue [CodePoint.ofChar ']'] :=
    endsValue_cons _ (by decide) (by decide) (by decide) (by decide)
  have refused (fuel room : Nat) : value (fuel + 3) (room + 1)
      (CodePoint.ofChar '[' :: (c :: (digits ++ [CodePoint.ofChar ']']))) =
        .error (.excess (.digits (c :: digits).length)) := by
    rw [value_array (fuel + 2) room (skipSpace_cons visible _) (by omega), items,
      value_long all filled long fuel room ends]
  obtain ⟨room, roomy⟩ := Nat.exists_eq_add_of_le' (Nat.le_trans (by decide : 1 ≤ 4) limits.reads)
  have found : document limits (CodePoint.ofChar '[' :: (c :: (digits ++ [CodePoint.ofChar ']']))) =
      .error (.excess (.digits (c :: digits).length)) := by
    have bracket : (CodePoint.ofChar '[').val ≠ 0xFEFF := by decide
    have shown : isSpace (CodePoint.ofChar '[') = false := by decide
    rw [document, if_neg bracket, skipSpace_cons shown, roomy]
    simp only [List.length_cons, Nat.mul_add]
    exact refused (2 * (digits ++ [CodePoint.ofChar ']']).length + 2) room ▸ rfl
  rw [read, found]

end LongNumbers

end Json

theorem KeyedStorage.valueIn_refused {limits : Json.Limits} {t : Text} {e : Json.ReadError}
    (ascii : Json.IsAscii t) (refused : Json.read limits t = .error e) :
    valueIn limits (Utf8.encodeAny t) = .error (.ofReadError e) := by
  have oneLine : t.unifyLineEnds = t := Json.unifyLineEnds_of_noReturn fun c inside => by
    have := ascii c inside
    omega
  simp only [valueIn, Utf8.decode_encodeAny ascii.encodable, oneLine, refused]

namespace RuleStore

theorem hostOf_eq_some_iff {lowersHosts : Bool} {entry : Json} {name : Text} :
    (hostOf lowersHosts entry).map HostRule.hostname = some name ↔
      NamesHost lowersHosts entry name := by
  constructor
  · intro found
    unfold hostOf HostRule.make at found
    split at found
    · rename_i t
      split at found
      · cases found
      · rename_i filled
        rw [normalizeHost_eq_nil_iff, Bool.not_eq_true] at filled
        cases found
        exact ⟨t, rfl, filled, rfl⟩
    · cases found
  · rintro ⟨t, rfl, visible, rfl⟩
    have filled : normalizeHost lowersHosts t ≠ [] := fun none => by
      rw [normalizeHost_eq_nil_iff, visible] at none
      cases none
    rw [hostOf, HostRule.make, dif_neg filled]
    rfl

/-- The hosts are the first of the names that are kept of the entries. -/
theorem hostsOf_salvages (lowersHosts : Bool) (entries : List Json) :
    ∃ names, Salvages (NamesHost lowersHosts) entries names ∧
      (hostsOf lowersHosts entries).map HostRule.hostname = names.eraseDups := by
  refine ⟨_, (salvages_iff fun _ _ => hostOf_eq_some_iff).mpr rfl, ?_⟩
  rw [hostsOf, distinct_map HostRule.hostname_injective, distinct_eq_eraseDups,
    List.map_filterMap]

/-- The element rules are the first of the rules that entries describe, as in a published list. -/
theorem elementRulesOf_salvages (entries : List Json) :
    ∃ rules, Salvages DescribesRule entries rules ∧ coerceRules (.array entries) = .ok rules ∧
      elementRulesOf entries = rules.eraseDups := by
  have knows (entry : Json) (rule : ElementRule) :
      (ElementRule.ofJson entry).toOption = some rule ↔ DescribesRule entry rule := by
    rw [← ElementRule.ofJson_eq_ok_iff]
    cases ElementRule.ofJson entry <;> simp [Except.toOption]
  refine ⟨_, (salvages_iff knows).mpr rfl, rfl, ?_⟩
  rw [elementRulesOf, distinct_eq_eraseDups]

/--
Where storage holds two lists, loading succeeds, whatever their entries are. The store then has the
names of hosts and the rules that entries stand for, each where it came first, and is otherwise as it
was; the files are left alone.
-/
theorem load_salvages {editor : Editor} {hosts elementRules : List Json}
    (hostsStored : KeyedStorage.readValue editor.store.storage.limits editor.machine.files
      (editor.store.storage.fileOf hostsKey) = .ok (.array hosts))
    (rulesStored : KeyedStorage.readValue editor.store.storage.limits editor.machine.files
      (editor.store.storage.fileOf elementRulesKey) = .ok (.array elementRules)) :
    Ensures load editor fun result after =>
      result = .ok () ∧ editor.machine.Alike after.machine ∧
        after.store = editor.store.withRules after.store.snapshot ∧
        (∃ names, Salvages (NamesHost editor.store.lowersHosts) hosts names ∧
          after.store.hosts.map HostRule.hostname = names.eraseDups) ∧
        ∃ rules, Salvages DescribesRule elementRules rules ∧
          coerceRules (.array elementRules) = .ok rules ∧
          after.store.elementRules = rules.eraseDups := by
  have found : read editor.store.storage editor.store.lowersHosts editor.machine.files =
      .ok ⟨hostsOf editor.store.lowersHosts hosts, elementRulesOf elementRules⟩ := by
    have isHostsKey : KeyedStorage.isKey hostsKey = true := (Part.isShortKey .hosts).isKey
    have isRulesKey : KeyedStorage.isKey elementRulesKey = true :=
      (Part.isShortKey .elementRules).isKey
    unfold read stored
    rw [KeyedStorage.get?_of_readValue _ isHostsKey hostsStored,
      KeyedStorage.get?_of_readValue _ isRulesKey rulesStored]
    simp only [bind, Except.bind, storedElements_array]
    rfl
  refine (load_spec editor).mono ?_
  rintro result after ⟨alike, loaded⟩
  rw [found] at loaded
  obtain ⟨done, store⟩ := loaded
  refine ⟨done, alike, ?_, ?_, ?_⟩
  · rw [store]
    rfl
  · rw [store]
    exact hostsOf_salvages _ hosts
  · rw [store]
    exact elementRulesOf_salvages elementRules

theorem load_refused {editor : Editor} {e : Fault}
    (refused : editor.store.storage.get? editor.machine.files hostsKey = .error e) :
    (load.runOn editor).1 = .error e := by
  have unread : read editor.store.storage editor.store.lowersHosts editor.machine.files =
      .error e := by
    unfold read stored
    rw [refused]
    rfl
  have loaded := (load_spec editor).2
  rw [unread] at loaded
  exact loaded.1

/-- A list of names, with the forms of two of them and with values that are no names. -/
def oddHosts : List Json :=
  [.text (Text.ofString "a.com"), .text (Text.ofString " A.com "), .int 5, .null, .text [],
    .text (Text.ofString " "), .array [.text (Text.ofString "b.com")], .object [],
    .text (Text.ofString "B.com"), .text (Text.ofString "a.com")]

def oddRules : List Json :=
  [.object [(ElementRule.domainName, .text (Text.ofString "x.com"))],
    .object [(ElementRule.selectorName, .text (Text.ofString ".a")),
      (ElementRule.domainName, .text (Text.ofString "x.com"))],
    .object [(ElementRule.domainName, .text (Text.ofString "x##y")),
      (ElementRule.selectorName, .text (Text.ofString ".a"))],
    .object [(ElementRule.domainName, .text []), (ElementRule.selectorName, .bool true)],
    .text (Text.ofString "x.com##.a"), .null,
    .object [(ElementRule.domainName, .text (Text.ofString "x.com")), (hostsKey, .array []),
      (ElementRule.selectorName, .text (Text.ofString ".a"))]]

def storingMachine (hosts elementRules : Text) : Machine :=
  Machine.start
    ⟨[([Text.ofString "data"], .directory),
      ([Text.ofString "data", KeyedStorage.fileName hostsKey], .file (Utf8.encodeAny hosts)),
      ([Text.ofString "data", KeyedStorage.fileName elementRulesKey],
        .file (Utf8.encodeAny elementRules))], []⟩

theorem look_storingMachine (hosts elementRules : Text) :
    (storingMachine hosts elementRules).files.look (ownStorage.fileOf hostsKey) =
      .ok (some (.file (Utf8.encodeAny hosts))) :=
  rfl

def oddEditor : Editor :=
  ⟨storingMachine ((Json.array oddHosts).write .stored) ((Json.array oddRules).write .stored),
    fresh ownStorage none true⟩

theorem readable_oddHosts : Json.Readable .stored Json.ownDepth (.array oddHosts) := by
  refine .array ?_
  simp only [oddHosts, List.forall_mem_cons, List.not_mem_nil, false_implies, implies_true, and_true]
  have text (t : Text) : Json.Readable .stored 3 (.text t) := .text nofun
  have inner : ∀ item ∈ [Json.text (Text.ofString "b.com")], Json.Readable .stored 2 item :=
    List.forall_mem_singleton.mpr (.text nofun)
  exact ⟨text _, text _, .int (by decide), .null, text _, text _, .array inner,
    .object nofun List.nodup_nil nofun, text _, text _⟩

theorem readable_oddRules : Json.Readable .stored Json.ownDepth (.array oddRules) := by
  refine .array ?_
  simp only [oddRules, List.forall_mem_cons, List.not_mem_nil, false_implies, implies_true, and_true]
  have text {room : Nat} (t : Text) : Json.Readable .stored room (.text t) := .text nofun
  have object (members : List (Text × Json)) (distinct : (members.map (·.1)).Nodup)
      (each : ∀ member ∈ members, Json.Readable .stored 2 member.2) :
      Json.Readable .stored 3 (.object members) :=
    .object (fun _ _ => nofun) distinct each
  refine ⟨object _ (by decide) ?_, object _ (by decide) ?_, object _ (by decide) ?_,
    object _ (by decide) ?_, text _, .null, object _ (by decide) ?_⟩ <;>
  simp only [List.forall_mem_cons, List.not_mem_nil, false_implies, implies_true, and_true]
  · exact text _
  · exact ⟨text _, text _⟩
  · exact ⟨text _, text _⟩
  · exact ⟨text _, .bool true⟩
  · exact ⟨text _, .array nofun, text _⟩

theorem load_salvages_odd :
    KeyedStorage.readValue .usual oddEditor.machine.files
        (oddEditor.store.storage.fileOf hostsKey) = .ok (.array oddHosts) ∧
      KeyedStorage.readValue .usual oddEditor.machine.files
        (oddEditor.store.storage.fileOf elementRulesKey) = .ok (.array oddRules) ∧
      Ensures load oddEditor fun result after =>
        result = .ok () ∧
          after.store.hosts.map HostRule.hostname =
            [Text.ofString "a.com", Text.ofString "b.com"] ∧
          after.store.elementRules.map (fun rule => (rule.domain, rule.selector)) =
            [(Text.ofString "x.com", Text.ofString ".a")] := by
  have writtenHosts : KeyedStorage.encodeValue .usual (.array oddHosts) =
      .ok (Utf8.encodeAny ((Json.array oddHosts).write .stored)) :=
    (KeyedStorage.encodeValue_own_ok_iff readable_oddHosts).mpr (by decide +kernel)
  have writtenRules : KeyedStorage.encodeValue .usual (.array oddRules) =
      .ok (Utf8.encodeAny ((Json.array oddRules).write .stored)) :=
    (KeyedStorage.encodeValue_own_ok_iff readable_oddRules).mpr (by decide +kernel)
  have hosts := KeyedStorage.readValue_written (readable_oddHosts.within _) writtenHosts
    (rfl : oddEditor.machine.files.read (oddEditor.store.storage.fileOf hostsKey) = _)
  have rules := KeyedStorage.readValue_written (readable_oddRules.within _) writtenRules
    (rfl : oddEditor.machine.files.read (oddEditor.store.storage.fileOf elementRulesKey) = _)
  refine ⟨hosts, rules, (load_salvages hosts rules).mono ?_⟩
  rintro result after ⟨done, -, -, ⟨names, salvaged, kept⟩, others, -, coerced, keptRules⟩
  rw [salvages_iff fun _ _ => hostOf_eq_some_iff] at salvaged
  refine ⟨done, ?_, ?_⟩
  · rw [kept, ← salvaged]
    decide +kernel
  · cases coerced
    rw [keptRules]
    decide +kernel

/-- A list with a whole number of one digit more than are read. -/
def longNumber : Text :=
  CodePoint.ofChar '[' :: CodePoint.ofChar '1' ::
    (List.replicate Numeral.digitLimit (CodePoint.ofChar '1') ++ [CodePoint.ofChar ']'])

theorem read_longNumber (limits : Json.Limits) :
    Json.read limits longNumber = .error (.excessive (.digits 4301)) := by
  have all : ∀ d ∈ CodePoint.ofChar '1' ::
      List.replicate Numeral.digitLimit (CodePoint.ofChar '1'), d.isAsciiDigit = true := by
    intro d inside
    rw [← List.replicate_succ] at inside
    rw [List.eq_of_mem_replicate inside]
    decide
  have count : (CodePoint.ofChar '1' ::
      List.replicate Numeral.digitLimit (CodePoint.ofChar '1')).length = 4301 := by
    rw [List.length_cons, List.length_replicate]
    rfl
  have refused := Json.read_long all (by decide) (by rw [count]; decide) limits
  rwa [count] at refused

theorem isAscii_longNumber : Json.IsAscii longNumber :=
  .cons (by decide) (.cons (by decide) ((Json.IsAscii.replicate _ (by decide)).append
    (.cons (by decide) .nil)))

/-- A list in storage is not read when one of its numbers is too long. -/
theorem not_salvages_long :
    (storingMachine longNumber (Text.ofString "[]")).files.read (ownStorage.fileOf hostsKey) =
        .ok (Utf8.encodeAny longNumber) ∧
      (load.runOn ⟨storingMachine longNumber (Text.ofString "[]"), fresh ownStorage none true⟩).1 =
        .error (.excessive (.digits 4301)) := by
  have looked := look_storingMachine longNumber (Text.ofString "[]")
  have refused := KeyedStorage.valueIn_refused isAscii_longNumber
    (read_longNumber ownStorage.limits)
  refine ⟨read_of_look looked, load_refused ?_⟩
  have unread := KeyedStorage.get?_of_look ownStorage (by decide) looked
  rw [KeyedStorage.toldBy, refused] at unread
  exact unread

end RuleStore

end SiteFilter
