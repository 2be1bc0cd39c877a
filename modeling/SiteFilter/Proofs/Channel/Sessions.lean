import SiteFilter.Proofs.Channel.Serving

/-!
# Sessions amid publications

While a session handles the lines of a stream, payloads are published. Whatever the order of the
two, each line gets the reply that is due at its moment, and a request for rules gets what was
published last before it.
-/

namespace SiteFilter.Channel

open FileTree Effect KeyedStorage

/-! ## Sessions and publications, interleaved -/

/-- What happens next: a line is handled, or rules are published. -/
inductive Moment
  | handling (line : Bytes)
  | publication (rules : RuleSet)

/-- What came of a moment: the reply to a line, or whether rules were published. -/
inductive Entry
  | handled (line : Bytes) (reply : Option Bytes)
  | published (rules : RuleSet) (result : Except Fault Nat)

namespace Moment

def line? : Moment → Option Bytes
  | handling line => some line
  | publication _ => none

/-- Lets a moment pass. A publication that fails is none of the session's faults. -/
def pass (propagator : Propagator) : Moment → Action Entry
  | handling line => return .handled line (← answer propagator.channel line)
  | publication rules => return .published rules (← Action.outcome (propagator.publish rules))

end Moment

def course (propagator : Propagator) : List Moment → Action (List Entry)
  | [] => return []
  | moment :: moments => do
      let entry ← moment.pass propagator
      return entry :: (← course propagator moments)

namespace Entry

def moment : Entry → Moment
  | handled line _ => .handling line
  | published rules _ => .publication rules

def reply? : Entry → Option Bytes
  | handled _ reply => reply
  | published _ _ => none

/-- The rules published last once an entry was made, given those published last before it. -/
def latest (published : Option RuleSet) : Entry → Option RuleSet
  | .published rules (.ok _) => some rules
  | _ => published

end Entry

/-- Octets are one line, which is read as a reply. -/
def Carries (octets : Bytes) (reply : Json) : Prop :=
  ∃ line, octets = line ++ [lineEnd] ∧ lineEnd ∉ line ∧
    ∀ limits, Json.read limits (Utf8.decodeLenient line) = .ok reply

inductive Answers (limits : Json.Limits) (published : Option RuleSet) (line : Bytes) :
    Option Bytes → Prop
  | blank (blank : (Utf8.decodeLenient line).isBlank = true) : Answers limits published line none
  | invalid {octets : Bytes} (visible : (Utf8.decodeLenient line).isBlank = false)
      (noDocument : ∀ request, Json.read limits (Utf8.decodeLenient line) ≠ .ok request)
      (carries : Carries octets (errorReply "invalid JSON")) :
      Answers limits published line (some octets)
  | unsupported {octets : Bytes} {request : Json}
      (asked : Json.read limits (Utf8.decodeLenient line) = .ok request)
      (other : request.get? typeName ≠ some (.text getRules))
      (carries : Carries octets (errorReply "unsupported request")) :
      Answers limits published line (some octets)
  | noData {octets : Bytes} {request : Json}
      (asked : Json.read limits (Utf8.decodeLenient line) = .ok request)
      (asks : request.get? typeName = some (.text getRules)) (nothing : published = none)
      (carries : Carries octets noData) : Answers limits published line (some octets)
  | success {octets : Bytes} {request : Json} {rules : RuleSet}
      (asked : Json.read limits (Utf8.decodeLenient line) = .ok request)
      (asks : request.get? typeName = some (.text getRules)) (latest : published = some rules)
      (carries : Carries octets (success (channelPayload rules))) :
      Answers limits published line (some octets)

/-- Each line has the reply that is due when its entry is made. -/
def AllDue (limits : Json.Limits) : Option RuleSet → List Entry → Prop
  | _, [] => True
  | published, entry :: entries =>
      (∀ line reply, entry = .handled line reply → Answers limits published line reply) ∧
        AllDue limits (entry.latest published) entries

/-! ## One moment -/

/--
The payload is what was published last. While nothing was published nothing is in its place, and
nothing but a publication will bring anything there.
-/
def Keeps (storage : KeyedStorage) (files : FileTree) : Option RuleSet → Prop
  | none => storage.Shows files channelKey none ∨
      (storage.fileOf channelKey).text.octetFault? ≠ none ∨
        (storage.fileOf channelKey).text.any (·.val = 0) = true
  | some rules => (∃ data, Propagator.IsPayload rules data) ∧
      storage.Shows files channelKey (some (channelPayload rules))

variable {propagator : Propagator} {storage : KeyedStorage} {files : FileTree} {machine : Machine}
  {published : Option RuleSet} {line : Bytes}

/-- What a session reads is what was published last. -/
theorem Keeps.told (h : Keeps storage files published) :
    storage.get? files channelKey = .ok (published.map channelPayload) := by
  have isKey := Propagator.isKey_channelKey
  cases published with
  | none =>
      rcases h with shows | odd
      · exact get?_of_shows isKey shows
      · exact get?_of_look storage isKey (look_of_odd odd)
  | some rules => exact get?_of_shows isKey h.2

/-- A publication that succeeds is the last one, and any other leaves the payload as it was. -/
theorem publish_keeps (h : Keeps propagator.channel machine.files published) (rules : RuleSet) :
    Ensures (propagator.publish rules) machine fun result after =>
      Keeps propagator.channel after.files ((Entry.published rules result).latest published) := by
  refine (propagator.publish_spec rules machine).mono ?_
  intro result after known
  cases result with
  | ok count =>
      obtain ⟨data, payload, replaced⟩ := known
      exact ⟨⟨data, payload⟩, shows_of_replaced replaced (payload.valueIn _)⟩
  | error e =>
      have made : Furnished machine.files after.files
          (machine.files.origin propagator.channel.directory)
          propagator.channel.directory.parts := by
        have known := known.1
        unfold Delivers at known
        rwa [Propagator.payloadPath, fileOf, List.dropLast_concat] at known
      cases published with
      | none =>
          rcases h with shows | odd
          · exact .inl (shows.furnished made)
          · exact .inr odd
      | some last => exact ⟨h.1, h.2.furnished made⟩

theorem carries_of_isLineOf {octets : Bytes} {reply : Json} (isLine : IsLineOf octets reply)
    (readable : Json.Readable .reply Json.ownDepth reply) : Carries octets reply := by
  obtain ⟨line, encoded, single, rfl⟩ := isLine
  obtain ⟨encodable, rfl⟩ := (Utf8.encode_eq_ok_iff _ _).mp encoded
  refine ⟨_, rfl, single, fun limits => ?_⟩
  rw [Utf8.decodeLenient_encodeAny encodable, Json.read_write (readable.within limits)]

/-- What a request gets when the payload is what was published last. -/
theorem replyTo_published {request : Json} (keeps : Keeps storage files published)
    (asked : Json.read storage.limits (Utf8.decodeLenient line) = .ok request) :
    ∃ reply, replyTo (storage.get? files channelKey) request = .ok reply ∧
      Utf8.Encodable (reply.write .reply) ∧
      ∀ octets, IsLineOf octets reply → Answers storage.limits published line (some octets) := by
  have fixed {reply : Json} (listed : reply ∈ fixedReplies) {octets : Bytes}
      (isLine : IsLineOf octets reply) : Carries octets reply :=
    carries_of_isLineOf isLine (readable_fixed listed)
  rw [keeps.told]
  cases asks : asksForRules request with
  | false =>
      have other : request.get? typeName ≠ some (.text getRules) := by
        rw [Ne, ← asksForRules_iff, asks]
        exact Bool.false_ne_true
      exact ⟨_, replyTo_other asks _, encodable_fixed (by simp [fixedReplies]),
        fun octets isLine => .unsupported asked other (fixed (by simp [fixedReplies]) isLine)⟩
  | true =>
      have named := asksForRules_iff.mp asks
      cases published with
      | none =>
          exact ⟨_, replyTo_none asks, encodable_fixed (by simp [fixedReplies]),
            fun octets isLine => .noData asked named rfl (fixed (by simp [fixedReplies]) isLine)⟩
      | some rules =>
          obtain ⟨⟨data, payload⟩, -⟩ := keeps
          have encodable : Utf8.Encodable ((success (channelPayload rules)).write .reply) :=
            encodable_success_iff.mpr
              ((Json.encodable_write_iff rfl).mp ((Utf8.encode_eq_ok_iff _ _).mp payload).1)
          have readable : Json.Readable .reply Json.ownDepth (success (channelPayload rules)) :=
            readable_success (ElementRule.readable_toJsons rfl rules.elementRules)
          exact ⟨_, replyTo_payload asks (fun same => by cases same), encodable, fun octets isLine =>
            .success asked named rfl (carries_of_isLineOf isLine readable)⟩

/-- A line in which there is not too much gets the reply that is due, and the files stay. -/
theorem answer_answers (keeps : Keeps storage machine.files published)
    (modest : ∀ e, Json.read storage.limits (Utf8.decodeLenient line) ≠ .error (.excessive e)) :
    Ensures (answer storage line) machine fun result after =>
      machine.Alike after ∧
        ∃ reply, result = .ok reply ∧ Answers storage.limits published line reply := by
  cases visible : (Utf8.decodeLenient line).isBlank with
  | true =>
      refine (answer_blank visible).mono ?_
      rintro _ _ ⟨rfl, rfl⟩
      exact ⟨.refl _, none, rfl, .blank visible⟩
  | false =>
      cases asked : Json.read storage.limits (Utf8.decodeLenient line) with
      | error e =>
          cases e with
          | excessive e => exact absurd asked (modest e)
          | malformed flaw =>
              have isLine : IsLineOf (lineOf (errorReply "invalid JSON"))
                  (errorReply "invalid JSON") :=
                isLineOf_lineOf (encodable_fixed (by simp [fixedReplies]))
              refine (answer_malformed visible asked).mono ?_
              rintro _ _ ⟨rfl, rfl⟩
              refine ⟨.refl _, _, rfl, .invalid visible (fun request => ?_)
                (carries_of_isLineOf isLine (readable_fixed (by simp [fixedReplies])))⟩
              rw [asked]
              intro same
              cases same
      | ok request =>
          obtain ⟨reply, told, encodable, due⟩ := replyTo_published keeps asked
          refine (answer_request asked).mono ?_
          rintro result after ⟨alike, answered⟩
          rw [told] at answered
          rcases answered with ⟨octets, isLine, same⟩ | ⟨odd, -⟩
          · exact ⟨alike, _, same, due octets isLine⟩
          · exact absurd encodable odd

/-- What a moment leaves behind: an entry with the reply that is due, and the payload. -/
theorem pass_spec (keeps : Keeps propagator.channel machine.files published) {moment : Moment}
    (modest : ∀ line ∈ moment.line?,
      ∀ e, Json.read propagator.channel.limits (Utf8.decodeLenient line) ≠ .error (.excessive e)) :
    Ensures (moment.pass propagator) machine fun result after =>
      ∃ entry, result = .ok entry ∧ entry.moment = moment ∧
        (∀ line reply, entry = .handled line reply →
          Answers propagator.channel.limits published line reply) ∧
        Keeps propagator.channel after.files (entry.latest published) := by
  cases moment with
  | handling line =>
      refine .bind (answer_answers keeps (modest line rfl)) ?_ ?_
      · rintro reply after ⟨alike, _, same, answers⟩
        cases same
        refine .pure ⟨_, rfl, rfl, ?_, ?_⟩
        · rintro _ _ ⟨⟩
          exact answers
        · change Keeps propagator.channel after.files published
          rwa [alike.files]
      · rintro e after ⟨-, _, same, -⟩
        cases same
  | publication rules =>
      refine .bind (Action.outcome_spec (publish_keeps keeps rules)) ?_ ?_
      · rintro outcome after ⟨result, same, keeps'⟩
        cases same
        exact .pure ⟨_, rfl, rfl, nofun, keeps'⟩
      · rintro e after ⟨_, same, -⟩
        cases same

/-! ## All moments -/

/-- Each moment leaves an entry, and each line gets the reply that is due. -/
theorem course_spec {moments : List Moment}
    (keeps : Keeps propagator.channel machine.files published)
    (modest : ∀ line ∈ moments.filterMap Moment.line?,
      ∀ e, Json.read propagator.channel.limits (Utf8.decodeLenient line) ≠ .error (.excessive e)) :
    Ensures (course propagator moments) machine fun result _ =>
      ∃ entries, result = .ok entries ∧ entries.map Entry.moment = moments ∧
        AllDue propagator.channel.limits published entries := by
  induction moments generalizing machine published with
  | nil => exact .pure ⟨[], rfl, rfl, trivial⟩
  | cons moment moments ih =>
      have here : ∀ line ∈ moment.line?, line ∈ (moment :: moments).filterMap Moment.line? :=
        fun line found => List.mem_filterMap.mpr ⟨moment, List.mem_cons_self, found⟩
      have behind : ∀ line ∈ moments.filterMap Moment.line?,
          line ∈ (moment :: moments).filterMap Moment.line? := by
        intro line inside
        obtain ⟨other, listed, found⟩ := List.mem_filterMap.mp inside
        exact List.mem_filterMap.mpr ⟨other, List.mem_cons_of_mem _ listed, found⟩
      refine .bind (pass_spec keeps fun line found => modest line (here line found)) ?_ ?_
      · rintro _ after ⟨entry, same, rfl, due, keeps'⟩
        cases same
        refine .bind (ih keeps' fun line inside => modest line (behind line inside)) ?_ ?_
        · rintro _ final ⟨entries, same, told, allDue⟩
          cases same
          exact .pure ⟨_, rfl, by rw [List.map_cons, told], due, allDue⟩
        · rintro e final ⟨_, same, -⟩
          cases same
      · rintro e after ⟨_, same, -⟩
        cases same

/-- A session with nothing in between sends the replies of its course. -/
theorem serve_of_course {lines : List Bytes} {entries : List Entry} {after : Machine}
    (h : (course propagator (lines.map .handling)).runOn machine = (.ok entries, after)) :
    (serve propagator.channel true lines).runOn machine =
      (.ok ⟨(entries.filterMap Entry.reply?).flatten, none⟩, after) := by
  induction lines generalizing machine entries with
  | nil =>
      cases h
      rfl
  | cons line lines ih =>
      rw [serve_cons]
      rw [Action.runOn_eq, List.map_cons, course, exec_bind, Moment.pass, exec_bind] at h
      rw [Action.runOn_eq]
      rcases answered : exec (answer propagator.channel line) machine with ⟨result, middle⟩
      rw [answered] at h
      cases result with
      | error e => cases h
      | ok reply =>
          change exec (course propagator (lines.map .handling) >>= _) middle = _ at h
          rw [exec_bind] at h
          rcases ran : exec (course propagator (lines.map .handling)) middle with ⟨rest, final⟩
          rw [ran] at h
          cases rest with
          | error e => cases h
          | ok others =>
              cases h
              have rest := ih ran
              cases reply with
              | none => exact rest
              | some octets =>
                  simp only [rest]
                  rfl

/--
A session answers each line of a stream, in order, and what it tells of the rules is never stale.
At the start nothing is in the place of the payload, and nothing but a publication will bring
anything there.
-/
theorem session_never_stale {moments : List Moment} {stream : Bytes}
    (start : Keeps propagator.channel machine.files none)
    (short : ∀ piece ∈ stream.splitOn lineEnd, piece.length ≤ lineLimit)
    (modest : ∀ piece ∈ stream.splitOn lineEnd,
      ∀ e, Json.read propagator.channel.limits (Utf8.decodeLenient piece) ≠ .error (.excessive e))
    (interleaved : moments.filterMap Moment.line? = lines stream) :
    (stream.splitOn lineEnd = lines stream ∨ stream.splitOn lineEnd = lines stream ++ [[]]) ∧
      ∃ entries after, (course propagator moments).runOn machine = (.ok entries, after) ∧
        entries.map Entry.moment = moments ∧ AllDue propagator.channel.limits none entries ∧
        (moments = (lines stream).map .handling →
          (connection propagator.channel true stream).runOn machine =
            (.ok ⟨(entries.filterMap Entry.reply?).flatten, none⟩, after)) := by
  have pieces := splitOn_eq_lines short
  have modest' : ∀ line ∈ moments.filterMap Moment.line?,
      ∀ e, Json.read propagator.channel.limits (Utf8.decodeLenient line) ≠ .error (.excessive e) := by
    intro line inside
    rw [interleaved] at inside
    refine modest line ?_
    rcases pieces with same | same
    · rwa [same]
    · rw [same]
      exact List.mem_append_left _ inside
  obtain ⟨entries, ended, told, allDue⟩ := course_spec start modest'
  rw [← Action.runOn_eq] at ended
  have ran : (course propagator moments).runOn machine =
      (.ok entries, ((course propagator moments).runOn machine).2) := Prod.ext ended rfl
  refine ⟨pieces, entries, _, ran, told, allDue, fun alone => ?_⟩
  subst alone
  exact serve_of_course ran

/-- A request, an octet that is no text, a blank line, and a request without a line end. -/
def mixedStream : Bytes :=
  request ++ [0xFF, lineEnd, 0x20, lineEnd] ++ askingLine

/-- The lines of `mixedStream`, with two publications in between. -/
def mixedMoments : List Moment :=
  [.handling askingLine, .publication oddRules, .handling [0xFF], .handling [0x20],
    .publication ⟨[], []⟩, .handling askingLine]

/-- Whether a text was read without meeting too much. -/
def isModest : Except Json.ReadError Json → Bool
  | .error (.excessive _) => false
  | _ => true

theorem session_never_stale_mixed :
    Keeps sharedSinks.channel bareMachine.files none ∧
      (∀ piece ∈ mixedStream.splitOn lineEnd, piece.length ≤ lineLimit) ∧
      (∀ piece ∈ mixedStream.splitOn lineEnd,
        ∀ e, Json.read .usual (Utf8.decodeLenient piece) ≠ .error (.excessive e)) ∧
      mixedMoments.filterMap Moment.line? = lines mixedStream ∧
      ∃ entries after, (course sharedSinks mixedMoments).runOn bareMachine = (.ok entries, after) ∧
        entries.map Entry.moment = mixedMoments ∧ AllDue .usual none entries := by
  have start : Keeps sharedSinks.channel bareMachine.files none :=
    .inl ⟨⟨by decide, by decide, by decide⟩, none, .nothing, .inr (by decide), rfl, by decide, rfl⟩
  have short : ∀ piece ∈ mixedStream.splitOn lineEnd, piece.length ≤ lineLimit := by
    decide +kernel
  have modest : ∀ piece ∈ mixedStream.splitOn lineEnd,
      ∀ e, Json.read .usual (Utf8.decodeLenient piece) ≠ .error (.excessive e) := by
    have fine : ∀ piece ∈ mixedStream.splitOn lineEnd,
        isModest (Json.read .usual (Utf8.decodeLenient piece)) = true := by decide +kernel
    intro piece inside e much
    have known := fine piece inside
    rw [much] at known
    cases known
  have interleaved : mixedMoments.filterMap Moment.line? = lines mixedStream := by
    decide +kernel
  obtain ⟨-, entries, after, ran, told, due, -⟩ :=
    session_never_stale start short modest interleaved
  exact ⟨start, short, modest, interleaved, entries, after, ran, told, due⟩

/-- Sinks in a directory with a name too long, in a directory that is not there yet. -/
def overlongSinks : Propagator :=
  ⟨⟨1, [Text.ofString "list.json"]⟩,
    ⟨⟨1, [Text.ofString "new", List.replicate 300 (CodePoint.ofChar 'a')]⟩, .usual⟩, .null, .none⟩

def failsAtFiles {α : Type} : Except Fault α → Bool
  | .error (.os _) => true
  | _ => false

theorem exists_of_failsAtFiles {α : Type} {result : Except Fault α}
    (h : failsAtFiles result = true) : ∃ e, result = .error (.os e) := by
  unfold failsAtFiles at h
  split at h
  · exact ⟨_, rfl⟩
  · cases h

/--
A publication that fails can end a session: the directories that it made let a name be met that is
too long, though nothing is in the place of the payload.
-/
theorem session_overlong :
    ((answer overlongSinks.channel askingLine).runOn bareMachine).1 =
        .ok (some (lineOf noData)) ∧
      ((overlongSinks.publish oddRules).runOn bareMachine).1.isOk = false ∧
      ∃ e, ((course overlongSinks [.publication oddRules, .handling askingLine]).runOn
        bareMachine).1 = .error (.os e) := by
  refine ⟨?_, by decide +kernel, ?_⟩
  · have replied : ((answer overlongSinks.channel askingLine).runOn bareMachine).1.toOption =
        some (some (lineOf noData)) := by decide +kernel
    generalize ((answer overlongSinks.channel askingLine).runOn bareMachine).1 = result at replied ⊢
    cases result with
    | error e => cases replied
    | ok reply =>
        cases replied
        rfl
  · apply exists_of_failsAtFiles
    decide +kernel

end SiteFilter.Channel
