import SiteFilter.Channel.Server
import SiteFilter.Proofs.Json.Written
import SiteFilter.Proofs.KeyedStorage

/-!
# Replies

Each line gets at most one reply, and a reply is one line. What a request for rules gets depends on
what storage tells of the payload alone.
-/

namespace SiteFilter.Channel

open FileTree Effect

/-! ## Replies as lines -/

def success (payload : Json) : Json :=
  .object [statusMember "success", (rulesName, payload)]

def noData : Json :=
  .object [statusMember "no_data", (rulesName, .array [])]

/-- Octets are one line, in which a reply is written. -/
def IsLineOf (octets : Bytes) (reply : Json) : Prop :=
  ∃ line, Utf8.encode (reply.write .reply) = .ok line ∧ lineEnd ∉ line ∧
    octets = line ++ [lineEnd]

def lineOf (reply : Json) : Bytes :=
  Utf8.encodeAny (reply.write .reply) ++ [lineEnd]

/-- No line end stands inside a reply. -/
theorem single_reply (reply : Json) : lineEnd ∉ Utf8.encodeAny (reply.write .reply) := by
  intro inside
  obtain ⟨c, member, feed⟩ := Utf8.mem_encodeAny_ascii (by decide) inside
  exact Json.noLineFeed_write rfl _ c member feed

theorem isLineOf_lineOf {reply : Json} (encodable : Utf8.Encodable (reply.write .reply)) :
    IsLineOf (lineOf reply) reply :=
  ⟨_, Utf8.encode_of_encodable encodable, single_reply reply, rfl⟩

theorem encodable_append_feed {t : Text} :
    Utf8.Encodable (t ++ [CodePoint.ofChar '\n']) ↔ Utf8.Encodable t := by
  rw [Utf8.encodable_append]
  refine and_iff_left ?_
  intro c inside
  rw [List.mem_singleton.mp inside]
  rfl

theorem encodeReply_eq {reply : Json} (encodable : Utf8.Encodable (reply.write .reply)) :
    encodeReply reply = .ok (lineOf reply) := by
  unfold encodeReply lineOf
  rw [Utf8.encode_of_encodable (encodable_append_feed.mpr encodable), Utf8.encodeAny_append]
  rfl

theorem encodeReply_error {reply : Json} (odd : ¬ Utf8.Encodable (reply.write .reply)) :
    ∃ e, encodeReply reply = .error (.encoding e) := by
  unfold encodeReply
  cases encoded : Utf8.encode (reply.write .reply ++ [CodePoint.ofChar '\n']) with
  | error e => exact ⟨e, rfl⟩
  | ok octets =>
      have encodable := ((Utf8.encode_eq_ok_iff _ _).mp encoded).1
      exact absurd (encodable_append_feed.mp encodable) odd

theorem readable_success {room : Nat} {payload : Json}
    (h : Json.Readable .reply room payload) : Json.Readable .reply (room + 1) (success payload) :=
  .pair rfl (by decide) (.text nofun) h

/-- A reply has octets just when no text in its payload holds a surrogate. -/
theorem encodable_success_iff {payload : Json} : Utf8.Encodable ((success payload).write .reply) ↔
    ∀ c, Json.Occurs c payload → c.isSurrogate = false := by
  rw [Json.encodable_write_iff rfl]
  constructor
  · exact fun each c occurs => each c (.value (List.mem_cons_of_mem _ List.mem_cons_self) occurs)
  · intro each c occurs
    have plain : ∀ t ∈ [Text.ofString "status", Text.ofString "success", rulesName],
        ∀ c ∈ t, c.isSurrogate = false := by decide
    cases occurs with
    | key listed inside =>
        simp only [List.mem_cons, List.not_mem_nil, or_false] at listed
        rcases listed with rfl | rfl
        · exact plain _ (by simp [statusMember]) c inside
        · exact plain _ (by simp) c inside
    | value listed inside =>
        simp only [List.mem_cons, List.not_mem_nil, or_false] at listed
        rcases listed with rfl | rfl
        · cases inside with
          | text inside => exact plain _ (by simp) c inside
        · exact each c inside

def fixedReplies : List Json :=
  [noData, errorReply "unsupported request", errorReply "rules unavailable",
    errorReply "invalid JSON"]

theorem encodable_fixed {reply : Json} (fixed : reply ∈ fixedReplies) :
    Utf8.Encodable (reply.write .reply) := by
  have plain : ∀ reply ∈ fixedReplies, ∀ c ∈ reply.write .reply, c.isSurrogate = false := by
    decide +kernel
  exact plain reply fixed

/-! ## What a request gets -/

theorem asksForRules_iff {request : Json} : asksForRules request = true ↔
    request.get? typeName = some (.text getRules) := by
  unfold asksForRules
  split
  · rename_i t found
    rw [found]
    simp
  · rename_i other
    exact ⟨nofun, fun found => absurd found (other _)⟩

/-- What a request gets for what storage tells of the payload. -/
def replyTo (told : Except Fault (Option Json)) (request : Json) : Except Fault Json :=
  if asksForRules request then
    match told with
    | .ok none | .ok (some .null) => .ok noData
    | .ok (some payload) => .ok (success payload)
    | .error e => if e.isOfStorage then .ok (errorReply "rules unavailable") else .error e
  else .ok (errorReply "unsupported request")

theorem replyTo_other {request : Json} (other : asksForRules request = false)
    (told : Except Fault (Option Json)) :
    replyTo told request = .ok (errorReply "unsupported request") := by
  unfold replyTo
  rw [if_neg (by simp [other])]

theorem replyTo_error {request : Json} (asks : asksForRules request = true) (e : Fault) :
    replyTo (.error e) request =
      if e.isOfStorage then .ok (errorReply "rules unavailable") else .error e := by
  rw [replyTo, if_pos asks]

theorem replyTo_none {request : Json} (asks : asksForRules request = true) :
    replyTo (.ok none) request = .ok noData := by
  rw [replyTo, if_pos asks]

theorem replyTo_null {request : Json} (asks : asksForRules request = true) :
    replyTo (.ok (some .null)) request = .ok noData := by
  rw [replyTo, if_pos asks]

theorem replyTo_payload {request payload : Json} (asks : asksForRules request = true)
    (given : payload ≠ .null) : replyTo (.ok (some payload)) request = .ok (success payload) := by
  unfold replyTo
  rw [if_pos asks]
  cases payload with
  | null => exact absurd rfl given
  | _ => rfl

variable {storage : KeyedStorage} {machine : Machine} {line : Bytes} {request reply : Json}
  {e : Fault}

theorem handle_replies (storage : KeyedStorage) (request : Json) (machine : Machine) :
    Ensures (handle storage request) machine fun result after =>
      result = replyTo (storage.get? machine.files channelKey) request ∧ machine.Alike after := by
  unfold handle replyTo
  cases asksForRules request with
  | false => exact .pure ⟨rfl, .refl machine⟩
  | true =>
      simp only [Bool.not_true, Bool.false_eq_true, if_false, if_true]
      apply Ensures.getThen
      cases storage.get? machine.files channelKey with
      | error e =>
          dsimp only
          cases e.isOfStorage with
          | false => exact .throw ⟨rfl, .refl machine⟩
          | true =>
              apply Action.noteThen
              exact fun journal => .pure ⟨rfl, journal, rfl⟩
      | ok payload =>
          match payload with
          | none | some .null =>
              apply Action.noteThen
              exact fun journal => .pure ⟨rfl, journal, rfl⟩
          | some (.bool _) | some (.int _) | some (.float _) | some (.text _) | some (.array _)
          | some (.object _) => exact .pure ⟨rfl, .refl machine⟩

theorem readable_fixed {reply : Json} (fixed : reply ∈ fixedReplies) :
    Json.Readable .reply Json.ownDepth reply := by
  have error (reason : String) : Json.Readable .reply Json.ownDepth (errorReply reason) :=
    .pair rfl (by decide) (.text nofun) (.text nofun)
  simp only [fixedReplies, List.mem_cons, List.not_mem_nil, or_false] at fixed
  rcases fixed with rfl | rfl | rfl | rfl
  · exact .pair rfl (by decide) (.text nofun) (.array nofun)
  · exact error _
  · exact error _
  · exact error _

/-! ## Blank lines -/

/-- No blank is printed in ASCII. -/
theorem notPrinted_of_isBlank {c : CodePoint} (blank : c.isBlank = true) :
    c.val ≤ 0x20 ∨ 0x85 ≤ c.val := by
  simp only [CodePoint.isBlank, Ranges.has, blankRanges, List.any_cons, List.any_nil,
    Bool.or_eq_true, Bool.and_eq_true, decide_eq_true_eq, Bool.or_false] at blank
  omega

/-- No value starts with a code point that is not printed. -/
theorem value_notPrinted (fuel room : Nat) {c : CodePoint} (rest : Text)
    (odd : c.val ≤ 0x20 ∨ 0x85 ≤ c.val) :
    Json.value fuel room (c :: rest) = .error (.flaw .value (c :: rest)) := by
  have apart (d : Char) (printed : 0x20 < d.toNat ∧ d.toNat < 0x85) :
      ¬ CodePoint.ofChar d = c := by
    rintro rfl
    simp only [CodePoint.ofChar] at odd
    omega
  have noWord : Json.word? (c :: rest) = none := by
    simp [Json.word?, Json.words, Text.startsWith, Text.ofString, apart]
  have noNumber : Json.number (c :: rest) = .error (.flaw .value (c :: rest)) := by
    have noDigit : c.isAsciiDigit = false := by
      rw [← Bool.not_eq_true, CodePoint.isAsciiDigit_iff]
      omega
    have minus : c.val ≠ 0x2D := by omega
    have zero : c.val ≠ 0x30 := by omega
    simp [Json.number, minus, Json.wholeDigits, zero, Numeral.spanDigits, noDigit]
  cases fuel with
  | zero => rfl
  | succ fuel =>
      rw [Json.value.eq_def]
      simp only [if_neg (show c.val ≠ 0x22 by omega), if_neg (show c.val ≠ 0x7B by omega),
        if_neg (show c.val ≠ 0x5B by omega), noWord, noNumber]

/-- Blanks are no document. -/
theorem read_of_isBlank (limits : Json.Limits) {t : Text} (blank : t.isBlank = true) :
    ∃ flaw, Json.read limits t = .error (.malformed flaw) := by
  have flawed : ∃ flaw rest, Json.document limits t = .error (.flaw flaw rest) := by
    cases t with
    | nil => exact ⟨_, _, rfl⟩
    | cons c others =>
        unfold Json.document
        dsimp only
        split
        · exact ⟨_, _, rfl⟩
        · cases found : Json.skipSpace (c :: others) with
          | nil => exact ⟨_, _, rfl⟩
          | cons d rest =>
              have inside : d ∈ c :: others := by
                refine (List.dropWhile_sublist Json.isSpace).subset (?_ : d ∈ Json.skipSpace _)
                rw [found]
                exact List.mem_cons_self
              have odd := notPrinted_of_isBlank (List.all_eq_true.mp blank d inside)
              rw [value_notPrinted _ _ rest odd]
              exact ⟨_, _, rfl⟩
  obtain ⟨flaw, rest, stopped⟩ := flawed
  unfold Json.read
  rw [stopped]
  exact ⟨_, rfl⟩

/-! ## What a line gets -/

/-- A blank line gets nothing. -/
theorem answer_blank (blank : (Utf8.decodeLenient line).isBlank = true) :
    Ensures (answer storage line) machine fun result after =>
      result = .ok none ∧ after = machine := by
  unfold answer
  simp only [blank, if_true]
  exact .pure ⟨rfl, rfl⟩

/-- A line that is no document gets told so. -/
theorem answer_malformed {flaw : Json.SyntaxError}
    (visible : (Utf8.decodeLenient line).isBlank = false)
    (malformed : Json.read storage.limits (Utf8.decodeLenient line) = .error (.malformed flaw)) :
    Ensures (answer storage line) machine fun result after =>
      result = .ok (some (lineOf (errorReply "invalid JSON"))) ∧ after = machine := by
  unfold answer
  simp only [visible, malformed, Bool.false_eq_true, if_false]
  apply Ensures.pureThen
  rw [encodeReply_eq (encodable_fixed (by simp [fixedReplies]))]
  exact Ensures.pureThen (.pure ⟨rfl, rfl⟩)

/-- A request gets the line of its reply, if that has octets. -/
theorem answer_request (asked : Json.read storage.limits (Utf8.decodeLenient line) = .ok request) :
    Ensures (answer storage line) machine fun result after => machine.Alike after ∧
      match replyTo (storage.get? machine.files channelKey) request with
      | .ok reply => (∃ octets, IsLineOf octets reply ∧ result = .ok (some octets)) ∨
          ¬ Utf8.Encodable (reply.write .reply) ∧ ∃ e, result = .error e
      | .error e => result = .error e := by
  have visible : (Utf8.decodeLenient line).isBlank = false := by
    rw [← Bool.not_eq_true]
    intro blank
    obtain ⟨flaw, malformed⟩ := read_of_isBlank storage.limits blank
    rw [asked] at malformed
    cases malformed
  unfold answer
  simp only [visible, asked, Bool.false_eq_true, if_false]
  refine .bind (handle_replies storage request machine) ?_ ?_
  · rintro reply after ⟨replied, alike⟩
    rw [← replied]
    apply Action.ofExceptThen
    · intro octets encoded
      have encodable : Utf8.Encodable (reply.write .reply) := by
        apply Classical.byContradiction
        intro odd
        obtain ⟨e, refused⟩ := encodeReply_error odd
        rw [encoded] at refused
        cases refused
      rw [encodeReply_eq encodable] at encoded
      cases encoded
      exact .pure ⟨alike, .inl ⟨_, isLineOf_lineOf encodable, rfl⟩⟩
    · intro e refused
      refine ⟨alike, .inr ⟨fun encodable => ?_, e, rfl⟩⟩
      rw [encodeReply_eq encodable] at refused
      cases refused
  · rintro e after ⟨replied, alike⟩
    rw [← replied]
    exact ⟨alike, rfl⟩

end SiteFilter.Channel
