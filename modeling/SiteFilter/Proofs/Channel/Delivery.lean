import SiteFilter.Channel.Client
import SiteFilter.Page.Applier
import SiteFilter.Proofs.Channel.Framing
import SiteFilter.Proofs.Channel.Replies
import SiteFilter.Proofs.Rule.Written
import SiteFilter.Proofs.Sinks

/-!
# Delivery of rules to pages

Rules that were published come to a page as they were: through the document of the key, the reply
on one line and the reader of the page. Only a line that is too long stops them.
-/

namespace SiteFilter.Channel

open FileTree Effect

/-! ## The request -/

def requestValue : Json :=
  .object [(typeName, .text getRules)]

theorem readable_requestValue : Json.Readable .request Json.ownDepth requestValue := by
  have plain : ∀ t ∈ [typeName, getRules], Utf8.Encodable t := by
    unfold Utf8.Encodable
    decide
  refine .object (fun member inside => ?_) (by decide) fun member inside => ?_
  · rw [List.mem_singleton.mp inside]
    exact fun _ => plain typeName (by simp)
  · rw [List.mem_singleton.mp inside]
    exact .text fun _ => plain getRules (by simp)

theorem lines_request : lines request = [Utf8.encodeAny (requestValue.write .request)] := by
  decide +kernel

theorem decode_request : Utf8.decodeLenient (Utf8.encodeAny (requestValue.write .request)) =
    requestValue.write .request := by
  decide +kernel

/-! ## The reply -/

section Answers

variable {storage : KeyedStorage} {machine : Machine} {payload : Json} {octets : Bytes}

theorem handle_spec (there : storage.get? machine.files channelKey = .ok (some payload))
    (given : payload ≠ .null) :
    Ensures (handle storage requestValue) machine fun result after =>
      result = .ok (success payload) ∧ after = machine := by
  have asks : asksForRules requestValue = true := by decide +kernel
  unfold handle
  simp only [asks, Bool.not_true, Bool.false_eq_true, if_false]
  apply Ensures.getThen
  rw [there]
  cases payload with
  | null => exact absurd rfl given
  | _ => exact .pure ⟨rfl, rfl⟩

/-- The request is answered by the payload that is stored. -/
theorem answer_spec (there : storage.get? machine.files channelKey = .ok (some payload))
    (given : payload ≠ .null) (encoded : encodeReply (success payload) = .ok octets) :
    Ensures (answer storage (Utf8.encodeAny (requestValue.write .request))) machine
      fun result after => result = .ok (some octets) ∧ after = machine := by
  have visible : (requestValue.write .request).isBlank = false := by decide +kernel
  unfold answer
  simp only [decode_request, visible, Json.read_write (readable_requestValue.within storage.limits),
    Bool.false_eq_true, if_false]
  refine .bind (handle_spec there given) ?_ ?_
  · rintro reply after ⟨same, rfl⟩
    cases same
    rw [encoded]
    exact Ensures.pureThen (.pure ⟨rfl, rfl⟩)
  · rintro e after ⟨same, -⟩
    cases same

theorem connection_spec (there : storage.get? machine.files channelKey = .ok (some payload))
    (given : payload ≠ .null) (encoded : encodeReply (success payload) = .ok octets) :
    Ensures (connection storage true request) machine fun result after =>
      result = .ok ⟨octets, none⟩ ∧ after = machine := by
  unfold connection
  rw [lines_request]
  refine .bind (Action.outcome_spec (answer_spec there given encoded)) ?_ ?_
  · rintro answered after ⟨ended, same, same', rfl⟩
    cases same
    rw [same']
    refine Ensures.pureThen (.pure ⟨?_, rfl⟩)
    rw [List.append_nil]
  · rintro e after ⟨_, same, -⟩
    cases same

end Answers

/-! ## From the rules to the page -/

/-- The rules in a reply are those of its payload. -/
theorem rulesOf_success {limits : Json.Limits} {items : List Json}
    (readable : Json.Readable .reply limits.reading (success (.array items)))
    (encodable : Utf8.Encodable ((success (.array items)).write .reply))
    (short : (Utf8.encodeAny ((success (.array items)).write .reply)).length ≤ lineLimit) :
    rulesOf limits (Utf8.encodeAny ((success (.array items)).write .reply) ++ [lineEnd]) =
      .ok items := by
  have found : (success (.array items)).get? rulesName = some (.array items) := by
    have apart : Text.ofString "status" ≠ rulesName := by decide
    simp [success, statusMember, Json.get?, Json.lookup, apart]
  unfold rulesOf
  rw [receive_line (single_reply _) short []]
  simp only [rulesIn, Utf8.decodeLenient_encodeAny encodable, Json.read_write readable, found]

/-- A page that asks once rules were published gets them in one line. -/
theorem rulesOf_published {propagator : Propagator} {rules : RuleSet} {machine server : Machine}
    (came : ((propagator.publish rules).runOn machine).1.isOk = true)
    (same : server.files = ((propagator.publish rules).runOn machine).2.files) :
    ∃ octets, encodeReply (success (channelPayload rules)) = .ok octets ∧
      (connection propagator.channel true request).runOn server = (.ok ⟨octets, none⟩, server) ∧
      (octets.length ≤ lineLimit + 1 →
        ∃ payload, (∀ limits limit, leavesTime limit = .ok true →
            ask limits limit (.replying octets) = .told payload) ∧
          ∀ hostname, selectApplicable (.array payload) hostname =
            .ok (rules.elementRules.filter fun rule => domainMatches rule.domain hostname)) := by
  have written := propagator.publish_spec rules machine
  unfold Ensures at written
  rw [← Action.runOn_eq] at written
  rw [← same] at written
  cases ended : ((propagator.publish rules).runOn machine).1 with
  | error e =>
      rw [ended] at came
      cases came
  | ok count =>
      rw [ended] at written
      obtain ⟨data, payload, replaced⟩ := written
      have there : propagator.channel.get? server.files channelKey =
          .ok (some (channelPayload rules)) :=
        KeyedStorage.get?_of_read Propagator.isKey_channelKey replaced.read
          (payload.valueIn _)
      have readable : Json.Readable .reply Json.ownDepth (success (channelPayload rules)) :=
        readable_success (ElementRule.readable_toJsons rfl rules.elementRules)
      have encodable : Utf8.Encodable ((success (channelPayload rules)).write .reply) :=
        encodable_success_iff.mpr
          ((Json.encodable_write_iff rfl).mp ((Utf8.encode_eq_ok_iff _ _).mp payload).1)
      have encoded := encodeReply_eq encodable
      have answered := connection_spec there (by nofun) encoded
      refine ⟨_, encoded, Prod.ext answered.1 answered.2, fun short => ?_⟩
      have limit : (Utf8.encodeAny ((success (channelPayload rules)).write .reply)).length ≤
          lineLimit := by simpa [lineOf] using short
      refine ⟨_, fun limits limit' time => ?_, selectApplicable_published rules.elementRules⟩
      have arrived : rulesOf limits (lineOf (success (channelPayload rules))) = _ :=
        rulesOf_success (readable.within limits) encodable limit
      simp only [ask, time, reply?, arrived]

/-- A rule whose selector has quotation marks, a backslash and two kinds of line ends. -/
def oddRules : RuleSet :=
  ⟨[], [⟨Text.ofString "a.com", Text.ofString "a[title=\"\\\"]\n\u2028.x", by decide, by decide,
    by decide⟩]⟩

theorem rulesOf_published_odd :
    ((sharedSinks.publish oddRules).runOn bareMachine).1.isOk = true ∧
      ∃ octets, encodeReply (success (channelPayload oddRules)) = .ok octets ∧
        (connection sharedSinks.channel true request).runOn
            ((sharedSinks.publish oddRules).runOn bareMachine).2 =
          (.ok ⟨octets, none⟩, ((sharedSinks.publish oddRules).runOn bareMachine).2) ∧
        (octets.length ≤ lineLimit + 1 →
          ∃ payload, (∀ limits limit, leavesTime limit = .ok true →
              ask limits limit (.replying octets) = .told payload) ∧
            ∀ hostname, selectApplicable (.array payload) hostname =
              .ok (oddRules.elementRules.filter fun rule =>
                domainMatches rule.domain hostname)) :=
  ⟨by decide +kernel, rulesOf_published (by decide +kernel) rfl⟩

end SiteFilter.Channel
