import SiteFilter.Proofs.Channel.Delivery

/-!
# Serving what is stored

The payload is read anew for each request, so what a request gets depends on the octets that are
there. A session gets over a payload that is missing, is no file or is no document. It does not get
over octets that are no text, a document with too much in it, a surrogate that would have to be
sent, and a path that cannot be looked at.
-/

namespace SiteFilter.Channel

open FileTree Effect KeyedStorage

def AsksForRules (limits : Json.Limits) (line : Bytes) : Prop :=
  ∃ request, Json.read limits (Utf8.decodeLenient line) = .ok request ∧
    request.get? typeName = some (.text getRules)

/-- What stands in the place of the payload, if anything does. -/
def atPayload (storage : KeyedStorage) (files : FileTree) : Except Fault (Option Node) :=
  files.look (storage.fileOf channelKey)

inductive Due (storage : KeyedStorage) (files : FileTree) : Json → Prop
  | absent (missing : atPayload storage files = .ok none) : Due storage files noData
  | null {content : Bytes} (there : atPayload storage files = .ok (some (.file content)))
      (reads : valueIn storage.limits content = .ok .null) : Due storage files noData
  | payload {content : Bytes} {value : Json}
      (there : atPayload storage files = .ok (some (.file content)))
      (reads : valueIn storage.limits content = .ok value) (given : value ≠ .null)
      (plain : ∀ c, Json.Occurs c value → c.isSurrogate = false) :
      Due storage files (success value)
  | malformed {content : Bytes} {flaw : Json.SyntaxError}
      (there : atPayload storage files = .ok (some (.file content)))
      (flawed : valueIn storage.limits content = .error (.malformed flaw)) :
      Due storage files (errorReply "rules unavailable")
  | directory (there : atPayload storage files = .ok (some .directory)) :
      Due storage files (errorReply "rules unavailable")
  | socket (there : atPayload storage files = .ok (some .socket)) :
      Due storage files (errorReply "rules unavailable")

/-- What a session does not get over. -/
inductive Fatal (storage : KeyedStorage) (files : FileTree) : Prop
  | unseen {e : Fault} (refused : atPayload storage files = .error e)
  | noText {content : Bytes} {e : DecodeError}
      (there : atPayload storage files = .ok (some (.file content)))
      (odd : valueIn storage.limits content = .error (.decoding e))
  | excessive {content : Bytes} {e : Json.Excess}
      (there : atPayload storage files = .ok (some (.file content)))
      (much : valueIn storage.limits content = .error (.excessive e))
  | surrogate {content : Bytes} {value : Json} {c : CodePoint}
      (there : atPayload storage files = .ok (some (.file content)))
      (reads : valueIn storage.limits content = .ok value) (occurs : Json.Occurs c value)
      (odd : c.isSurrogate = true)

variable {storage : KeyedStorage} {files : FileTree} {machine : Machine} {line : Bytes}
  {request reply : Json}

theorem Due.not_fatal (due : Due storage files reply) : ¬ Fatal storage files := by
  intro fatal
  cases due with
  | null there reads =>
      cases fatal with
      | surrogate there' reads' occurs _ =>
          obtain rfl : _ = _ := by simpa using there.symm.trans there'
          obtain rfl : _ = _ := by simpa using reads.symm.trans reads'
          cases occurs
      | _ => simp_all
  | _ => cases fatal <;> simp_all

/-- A request gets what is due, or meets what is fatal and brings the session to its end. -/
def IsSettled (storage : KeyedStorage) (files : FileTree) (told : Except Fault Json) : Prop :=
  (∃ reply, Due storage files reply ∧ Utf8.Encodable (reply.write .reply) ∧ told = .ok reply) ∨
    Fatal storage files ∧
      ((∃ e, told = .error e) ∨ ∃ reply, ¬ Utf8.Encodable (reply.write .reply) ∧ told = .ok reply)

/-- What a request gets from a file. -/
theorem isSettled_of_file {content : Bytes}
    (there : atPayload storage files = .ok (some (.file content)))
    (asks : asksForRules request = true) :
    IsSettled storage files (replyTo (storage.get? files channelKey) request) := by
  have told := get?_of_look storage Propagator.isKey_channelKey there
  rw [toldBy] at told
  cases reads : valueIn storage.limits content with
  | error e =>
      rcases valueIn_error reads with ⟨cause, -, rfl⟩ | ⟨t, cause, -, -, rfl⟩
      · simp only [reads] at told
        rw [told, replyTo_error asks]
        exact .inr ⟨.noText there reads, .inl ⟨_, rfl⟩⟩
      · cases cause with
        | malformed flaw =>
            simp only [reads, Fault.ofReadError] at told
            rw [told, replyTo_error asks]
            exact .inl ⟨_, .malformed there reads, encodable_fixed (by simp [fixedReplies]), rfl⟩
        | excessive e =>
            simp only [reads, Fault.ofReadError] at told
            rw [told, replyTo_error asks]
            exact .inr ⟨.excessive there reads, .inl ⟨_, rfl⟩⟩
  | ok value =>
      simp only [reads] at told
      rw [told]
      by_cases given : value = .null
      · subst given
        rw [replyTo_null asks]
        exact .inl ⟨_, .null there reads, encodable_fixed (by simp [fixedReplies]), rfl⟩
      · rw [replyTo_payload asks given]
        by_cases plain : ∀ c, Json.Occurs c value → c.isSurrogate = false
        · exact .inl ⟨_, .payload there reads given plain, encodable_success_iff.mpr plain, rfl⟩
        · refine .inr ⟨?_, .inr ⟨_, fun encodable => plain (encodable_success_iff.mp encodable),
            rfl⟩⟩
          simp only [not_forall, Bool.not_eq_false] at plain
          obtain ⟨c, occurs, odd⟩ := plain
          exact .surrogate there reads occurs odd

/-- What a request for rules gets, whatever stands in the place of the payload. -/
theorem isSettled_replyTo (storage : KeyedStorage) (files : FileTree)
    (asks : asksForRules request = true) :
    IsSettled storage files (replyTo (storage.get? files channelKey) request) := by
  have unavailable : Utf8.Encodable ((errorReply "rules unavailable").write .reply) :=
    encodable_fixed (by simp [fixedReplies])
  cases seen : atPayload storage files with
  | error e =>
      obtain ⟨cause, rfl⟩ := look_error seen
      rw [get?_of_look_error storage Propagator.isKey_channelKey seen, replyTo_error asks]
      exact .inr ⟨.unseen seen, .inl ⟨_, rfl⟩⟩
  | ok node? =>
      have told := get?_of_look storage Propagator.isKey_channelKey seen
      cases node? with
      | none =>
          rw [told, toldBy, replyTo_none asks]
          exact .inl ⟨_, .absent seen, encodable_fixed (by simp [fixedReplies]), rfl⟩
      | some node =>
          cases node with
          | file content => exact isSettled_of_file seen asks
          | directory =>
              rw [told, toldBy, replyTo_error asks]
              exact .inl ⟨_, .directory seen, unavailable, rfl⟩
          | socket =>
              rw [told, toldBy, replyTo_error asks]
              exact .inl ⟨_, .socket seen, unavailable, rfl⟩

/-! ## The session -/

/-- What a session comes to that starts with a line, by what the line gets. -/
theorem serve_cons (storage : KeyedStorage) (line : Bytes) (lines : List Bytes)
    (machine : Machine) : (serve storage true (line :: lines)).runOn machine =
      match (answer storage line).runOn machine with
      | (.error e, after) => (.ok ⟨[], some e⟩, after)
      | (.ok none, after) => (serve storage true lines).runOn after
      | (.ok (some octets), after) =>
          (((serve storage true lines).runOn after).1.map fun transcript =>
            { transcript with sent := octets ++ transcript.sent },
            ((serve storage true lines).runOn after).2) := by
  rw [Action.runOn_eq, serve, exec_bind, Action.exec_outcome,
    ← Action.runOn_eq (answer storage line)]
  rcases (answer storage line).runOn machine with ⟨result, after⟩
  match result with
  | .error e => rfl
  | .ok none => rfl
  | .ok (some octets) =>
      simp only [if_true]
      exact exec_map _ _ _

/-- A session comes to its end, with what was sent and perhaps a fault. -/
theorem serve_ok (storage : KeyedStorage) (lines : List Bytes) (machine : Machine) :
    ∃ transcript after, (serve storage true lines).runOn machine = (.ok transcript, after) := by
  induction lines generalizing machine with
  | nil => exact ⟨_, _, rfl⟩
  | cons line lines ih =>
      rw [serve_cons]
      rcases (answer storage line).runOn machine with ⟨result, after⟩
      obtain ⟨transcript, final, rest⟩ := ih after
      match result with
      | .error e => exact ⟨_, _, rfl⟩
      | .ok none => exact ⟨_, _, rest⟩
      | .ok (some octets) =>
          simp only [rest]
          exact ⟨_, _, rfl⟩

/-- A session answers its first line by what is due in one line, and goes on with the others. -/
def GoesOn (storage : KeyedStorage) (line : Bytes) (lines : List Bytes) (machine : Machine) :
    Prop :=
  ∃ reply octets after transcript final,
    Due storage machine.files reply ∧ IsLineOf octets reply ∧ machine.Alike after ∧
      (serve storage true lines).runOn after = (.ok transcript, final) ∧
      (serve storage true (line :: lines)).runOn machine =
        (.ok { transcript with sent := octets ++ transcript.sent }, final)

/-- A session ends at its first line with a fault, and nothing is sent. -/
def Breaks (storage : KeyedStorage) (line : Bytes) (lines : List Bytes) (machine : Machine) :
    Prop :=
  ∃ e after, machine.Alike after ∧
    (serve storage true (line :: lines)).runOn machine = (.ok ⟨[], some e⟩, after)

/--
A session answers each line that asks for rules, and goes on, whatever stands in the place of the
payload, unless that is fatal: then the session ends there.
-/
theorem serve_request {storage : KeyedStorage} {line : Bytes}
    (asks : AsksForRules storage.limits line) (lines : List Bytes) (machine : Machine) :
    (¬ Fatal storage machine.files → GoesOn storage line lines machine) ∧
      (Fatal storage machine.files → Breaks storage line lines machine) := by
  obtain ⟨request, read, named⟩ := asks
  obtain ⟨alike, answered⟩ :
      Ensures (answer storage line) machine _ := answer_request read
  rw [← Action.runOn_eq] at alike answered
  have settled := isSettled_replyTo storage machine.files (asksForRules_iff.mpr named)
  have whole := serve_cons storage line lines machine
  rcases ran : (answer storage line).runOn machine with ⟨result, after⟩
  rw [ran] at alike answered whole
  obtain ⟨transcript, final, rest⟩ := serve_ok storage lines after
  rcases settled with ⟨reply, due, encodable, told⟩ | ⟨fatal, told⟩
  · rw [told] at answered
    refine ⟨fun _ => ?_, fun fatal => absurd fatal due.not_fatal⟩
    rcases answered with ⟨octets, isLine, same⟩ | ⟨odd, -⟩
    · dsimp only at same
      rw [same] at whole
      simp only [rest] at whole
      exact ⟨reply, octets, after, transcript, final, due, isLine, alike, rest, whole⟩
    · exact absurd encodable odd
  · refine ⟨fun spared => absurd fatal spared, fun _ => ?_⟩
    have failed : ∃ e, result = .error e := by
      rcases told with ⟨e, told⟩ | ⟨reply, odd, told⟩
      · rw [told] at answered
        exact ⟨e, answered⟩
      · rw [told] at answered
        rcases answered with ⟨octets, ⟨line, encoded, -⟩, -⟩ | ⟨-, failed⟩
        · exact absurd ((Utf8.encode_eq_ok_iff _ _).mp encoded).1 odd
        · exact failed
    obtain ⟨e, rfl⟩ := failed
    exact ⟨e, after, alike, whole⟩

def machineWith (content : Bytes) : Machine :=
  { bareMachine with files := ⟨[([Text.ofString "group"], .directory),
    ([Text.ofString "group", fileName channelKey], .file content)], []⟩ }

def askingLine : Bytes :=
  Utf8.encodeAny (requestValue.write .request)

theorem asksForRules_askingLine (limits : Json.Limits) : AsksForRules limits askingLine := by
  refine ⟨requestValue, ?_, rfl⟩
  rw [askingLine, decode_request, Json.read_write (readable_requestValue.within limits)]

theorem serve_request_flawed : AsksForRules sharedSinks.channel.limits askingLine ∧
    ¬ Fatal sharedSinks.channel (machineWith [0x5B]).files ∧
    GoesOn sharedSinks.channel askingLine [[0x5B], askingLine] (machineWith [0x5B]) := by
  have due : Due sharedSinks.channel (machineWith [0x5B]).files (errorReply "rules unavailable") :=
    .malformed rfl rfl
  exact ⟨asksForRules_askingLine _, due.not_fatal,
    (serve_request (asksForRules_askingLine _) _ _).1 due.not_fatal⟩

/-- Whether a session sent nothing and ended at octets that are no text. -/
def endsAtNoText : Except Fault Transcript → Bool
  | .ok ⟨[], some (.decoding _)⟩ => true
  | _ => false

theorem exists_of_endsAtNoText {result : Except Fault Transcript}
    (h : endsAtNoText result = true) : ∃ e, result = .ok ⟨[], some (.decoding e)⟩ := by
  unfold endsAtNoText at h
  split at h
  · exact ⟨_, rfl⟩
  · cases h

/-- Of two requests none gets a reply when an octet of the payload is no text. -/
theorem serve_badOctet : ∃ e,
    ((serve sharedSinks.channel true [askingLine, askingLine]).runOn (machineWith [0xFF])).1 =
      .ok ⟨[], some (.decoding e)⟩ := by
  apply exists_of_endsAtNoText
  decide +kernel

end SiteFilter.Channel
