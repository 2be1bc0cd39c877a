import SiteFilter.FilterList.Reading
import SiteFilter.Proofs.FilterList.Matching
import SiteFilter.Proofs.Json.Written
import SiteFilter.Proofs.Sinks

/-!
# Reading back the filter list

A filter list has octets just when no text of its rules holds a surrogate. From these octets the
engine takes an entry for each rule, with the texts as they are.
-/

namespace SiteFilter

open FileTree Effect

theorem Text.not_mem_ofString {c : CodePoint} (odd : c.isSurrogate = true) (s : String) :
    c ∉ Text.ofString s := by
  intro inside
  rw [Utf8.encodable_ofString s c inside] at odd
  cases odd

namespace FilterEntry

variable {c : CodePoint} (odd : c.isSurrogate = true)

include odd

theorem mem_escapeUrlFilter {t : Text} : c ∈ escapeUrlFilter t ↔ c ∈ t := by
  have apart : c ≠ CodePoint.ofChar '\\' := by
    rintro rfl
    cases odd
  have piece (d : CodePoint) :
      c ∈ (if special.contains d then [CodePoint.ofChar '\\', d] else [d]) ↔ c = d := by
    split
    · simp [apart]
    · simp
  simp only [escapeUrlFilter, List.mem_flatMap, piece, exists_eq_right']

theorem mem_urlFilter {hostname : Text} : c ∈ urlFilter hostname ↔ c ∈ hostname := by
  simp [urlFilter, Text.not_mem_ofString odd, mem_escapeUrlFilter odd]

/-- The surrogates in an entry are those in its texts. -/
theorem occurs_toJson {entry : FilterEntry} :
    Json.Occurs c entry.toJson ↔
      match entry with
      | .block hostname => c ∈ hostname
      | .hide pattern selector => c ∈ pattern ∨ c ∈ selector := by
  cases entry with
  | block hostname =>
      simp [toJson, member, word, Json.occurs_object_iff, Json.occurs_array_iff,
        Json.occurs_text_iff, Text.not_mem_ofString odd, mem_urlFilter odd]
  | hide pattern selector =>
      simp [toJson, member, word, Json.occurs_object_iff, Json.occurs_array_iff,
        Json.occurs_text_iff, Text.not_mem_ofString odd]

end FilterEntry

theorem FilterEntry.readable_toJson {style : Json.Style} (plain : style.asciiOnly = false)
    {room : Nat} (entry : FilterEntry) : Json.Readable style (room + 3) entry.toJson := by
  have holds := Json.Style.holds_of_plain plain
  have text {room : Nat} (t : Text) : Json.Readable style room (.text t) := .text (holds t)
  have list {room : Nat} (t : Text) : Json.Readable style (room + 1) (.array [.text t]) :=
    .array (by simp [text])
  cases entry with
  | block hostname =>
      refine .pair plain (by decide) (.pair plain (by decide) (text _) (list _)) ?_
      refine .object (fun _ _ => holds _) (by simp) fun m inside => ?_
      rw [List.mem_singleton.mp inside]
      exact text _
  | hide pattern selector =>
      exact .pair plain (by decide) (.pair plain (by decide) (text _) (list _))
        (.pair plain (by decide) (text _) (text _))

namespace RuleSet

def texts (rules : RuleSet) : List Text :=
  rules.hosts.map (·.hostname) ++ rules.elementRules.map (·.domain)
    ++ rules.elementRules.map (·.selector)

def HoldsSurrogate (rules : RuleSet) : Prop :=
  ∃ t ∈ rules.texts, ∃ c ∈ t, c.isSurrogate = true

instance (rules : RuleSet) : Decidable rules.HoldsSurrogate :=
  inferInstanceAs (Decidable (∃ t ∈ _, _))

end RuleSet

namespace FilterList

section Surrogates

variable {c : CodePoint} (odd : c.isSurrogate = true)

include odd

theorem mem_domainPattern {domain : Text} : c ∈ domainPattern domain ↔ c ∈ domain := by
  have apart : c ≠ CodePoint.ofChar '*' := by
    rintro rfl
    cases odd
  rw [domainPattern, List.mem_cons, or_iff_right apart]
  rcases lead_or_bare domain with ⟨rest, rfl⟩ | bare
  · have lead : c ∉ wwwLead := Text.not_mem_ofString odd _
    rw [stripWww_lead, List.mem_append, or_iff_right lead]
  · rw [stripWww_of_not bare]

theorem occurs_compile {rules : RuleSet} :
    Json.Occurs c (.array ((compile rules).map FilterEntry.toJson)) ↔ ∃ t ∈ rules.texts, c ∈ t := by
  simp [Json.occurs_array_iff, compile, RuleSet.texts, FilterEntry.occurs_toJson odd,
    mem_domainPattern odd, or_and_right, and_or_left, exists_or]

end Surrogates

theorem readable_compile (rules : RuleSet) :
    Json.Readable .stored Json.ownDepth (.array ((compile rules).map FilterEntry.toJson)) := by
  refine .array fun item inside => ?_
  obtain ⟨entry, _, rfl⟩ := List.mem_map.mp inside
  exact entry.readable_toJson rfl

theorem encodable_text_iff {rules : RuleSet} :
    Utf8.Encodable (text (compile rules)) ↔ ¬ rules.HoldsSurrogate := by
  rw [text, Json.encodable_write_iff rfl]
  constructor
  · intro plain ⟨t, listed, c, inside, odd⟩
    have occurs := (occurs_compile odd).mpr ⟨t, listed, inside⟩
    rw [plain c occurs] at odd
    cases odd
  · intro plain c occurs
    rw [← Bool.not_eq_true]
    intro odd
    obtain ⟨t, listed, inside⟩ := (occurs_compile odd).mp occurs
    exact plain ⟨t, listed, c, inside, odd⟩

/-- The object that blocks the root document of a host. -/
def blockObject (hostname : Text) : Json :=
  .object
    [(Text.ofString "trigger", .object
      [(Text.ofString "url-filter", .text (FilterEntry.urlFilter hostname)),
       (Text.ofString "resource-type", .array [.text (Text.ofString "document")])]),
     (Text.ofString "action", .object [(Text.ofString "type", .text (Text.ofString "block"))])]

/-- The object that hides what a selector selects, on the pages of a pattern. -/
def hideObject (pattern selector : Text) : Json :=
  .object
    [(Text.ofString "trigger", .object
      [(Text.ofString "url-filter", .text (Text.ofString ".*")),
       (Text.ofString "if-domain", .array [.text pattern])]),
     (Text.ofString "action", .object
      [(Text.ofString "type", .text (Text.ofString "css-display-none")),
       (Text.ofString "selector", .text selector)])]

/-- An object for every rule, the hosts first, with its texts as they are. -/
structure Mirrors (rules : RuleSet) (entries : List Json) : Prop where
  length : entries.length = rules.size
  blocks : entries.take rules.hosts.length =
    rules.hosts.map fun rule => blockObject rule.hostname
  hides : entries.drop rules.hosts.length = rules.elementRules.map fun rule =>
    hideObject (CodePoint.ofChar '*' :: stripWww rule.domain) rule.selector

theorem mirrors_compile (rules : RuleSet) :
    Mirrors rules ((compile rules).map FilterEntry.toJson) := by
  constructor
  · simp [compile, RuleSet.size]
  · rw [compile, List.map_append, List.take_left' (by simp), List.map_map]
    rfl
  · rw [compile, List.map_append, List.drop_left' (by simp), List.map_map]
    rfl

theorem entriesOf_text {rules : RuleSet} (encodable : Utf8.Encodable (text (compile rules)))
    (limits : Json.Limits) : entriesOf limits (Utf8.encodeAny (text (compile rules))) =
      .ok ((compile rules).map FilterEntry.toJson) := by
  unfold entriesOf
  rw [Utf8.decode_encodeAny encodable]
  simp only [text, Json.read_write ((readable_compile rules).within limits)]

theorem readEntries_spec {path : Path} {machine : Machine} {data : Bytes}
    (there : machine.files.read path = .ok data) (limits : Json.Limits) :
    Ensures (readEntries limits path) machine fun result after =>
      result = entriesOf limits data ∧ machine.Alike after := by
  obtain ⟨fits, shows⟩ := read_eq_ok_iff.mp there
  have has : machine.files.has path = .ok true := by
    rw [has, look_of_shows fits shows]
    rfl
  have reads : Ensures (FilterList.read path) machine fun result after =>
      result = .ok data ∧ machine.Alike after := by
    have asked := Action.ask_spec (·.has path) machine
    rw [has] at asked
    refine .bindOk asked fun between same => ?_
    rw [same]
    have got := Action.ask_spec (·.read path) machine
    rw [there] at got
    refine .bindOk got fun between same => ?_
    rw [same]
    apply Action.noteThen
    exact fun journal => .pure ⟨rfl, journal, rfl⟩
  refine .bindOk reads ?_
  intro after alike
  exact Action.ofExcept_spec ⟨rfl, alike⟩

/--
A filter list has octets unless a text of its rules holds a surrogate, and there is no other fault.
The octets are UTF-8, and wherever they were written the engine's side reads an entry for every rule
from them.
-/
theorem serialize_compile_reads (rules : RuleSet) :
    ((∃ cause, serialize (compile rules) = .error (.unencodableList cause)) ↔
      rules.HoldsSurrogate) ∧
    (¬ rules.HoldsSurrogate →
      ∃ data, serialize (compile rules) = .ok data ∧
        Utf8.decode data = .ok (text (compile rules)) ∧
        ∃ entries, Mirrors rules entries ∧
          (∀ limits path machine, machine.files.read path = .ok data →
            Ensures (readEntries limits path) machine fun result after =>
              result = .ok entries ∧ machine.Alike after) ∧
          ∀ (propagator : Propagator) machine,
            Ensures (propagator.writeFilterList rules) machine fun written between =>
              written.isOk = true →
                ∀ limits, Ensures (readEntries limits propagator.filterListPath) between
                  fun result _ => result = .ok entries) := by
  have plain (h : ¬ rules.HoldsSurrogate) : serialize (compile rules) =
      .ok (Utf8.encodeAny (text (compile rules))) := by
    rw [serialize, Utf8.encode_of_encodable (encodable_text_iff.mpr h)]
  constructor
  · constructor
    · intro ⟨cause, refused⟩
      apply Classical.byContradiction
      intro h
      rw [plain h] at refused
      cases refused
    · intro h
      cases encoded : Utf8.encode (text (compile rules)) with
      | error cause => exact ⟨cause, by rw [serialize, encoded]⟩
      | ok data =>
          have encodable := ((Utf8.encode_eq_ok_iff _ _).mp encoded).1
          exact absurd h (encodable_text_iff.mp encodable)
  · intro h
    have encodable := encodable_text_iff.mpr h
    have reads := entriesOf_text encodable
    refine ⟨_, plain h, Utf8.decode_encodeAny encodable, _, mirrors_compile rules, ?_, ?_⟩
    · intro limits path machine there
      rw [← reads limits]
      exact readEntries_spec there limits
    · intro propagator machine
      refine (propagator.writeFilterList_spec rules machine).mono fun written between known => ?_
      intro done limits
      cases written with
      | error e => cases done
      | ok count =>
          obtain ⟨data, listed, replaced⟩ := known
          have same : data = _ := Except.ok.inj (listed.symm.trans (plain h))
          rw [same] at replaced
          rw [← reads limits]
          exact (readEntries_spec replaced.read limits).mono fun _ _ known => known.1

def oddTexts : RuleSet :=
  ⟨[⟨Text.ofString "a.b\"c\\d", by decide⟩],
    [⟨Text.ofString "www.\u00fc.example", Text.ofString "p[title=\"\\\n\u2028\"]", by decide,
      by decide, by decide⟩,
      ⟨Text.ofString "www.b", [⟨0x1F600, by decide⟩], by decide, by decide, by decide⟩]⟩

def brokenTexts : RuleSet :=
  ⟨[], [⟨Text.ofString "b.example", [⟨0x2E, by decide⟩, ⟨0xD83D, by decide⟩], by decide, by decide,
    by decide⟩]⟩

theorem serialize_compile_odd :
    (∃ cause, serialize (compile brokenTexts) = .error (.unencodableList cause)) ∧
    ¬ oddTexts.HoldsSurrogate ∧
      ∃ data, serialize (compile oddTexts) = .ok data ∧ ∃ entries, Mirrors oddTexts entries ∧
        ((sharedSinks.writeFilterList oddTexts).runOn bareMachine).1.isOk = true ∧
        ((readEntries .usual sharedSinks.filterListPath).runOn
          ((sharedSinks.writeFilterList oddTexts).runOn bareMachine).2).1 = .ok entries := by
  have plain : ¬ oddTexts.HoldsSurrogate := by decide
  have done : ((sharedSinks.writeFilterList oddTexts).runOn bareMachine).1.isOk = true := by
    decide +kernel
  have refused := (serialize_compile_reads brokenTexts).1.mpr (by decide)
  obtain ⟨data, serialized, _, entries, mirrors, _, writes⟩ :=
    (serialize_compile_reads oddTexts).2 plain
  exact ⟨refused, plain, data, serialized, entries, mirrors, done,
    writes sharedSinks bareMachine done .usual⟩

end FilterList

end SiteFilter
