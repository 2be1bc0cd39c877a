import SiteFilter.Channel.Line
import SiteFilter.KeyedStorage
import SiteFilter.Propagation

/-!
# The server of the channel

Pages ask for their rules in lines, each a JSON document. The published payload is read anew for
every request, so an answer is never older than the payload.
-/

namespace SiteFilter.Channel

def source : String :=
  "exactblock.protocol.channel"

def typeName : Text := Text.ofString "type"

def getRules : Text := Text.ofString "getRules"

def statusMember (status : String) : Text × Json :=
  (Text.ofString "status", .text (Text.ofString status))

def errorReply (reason : String) : Json :=
  .object [statusMember "error", (Text.ofString "error", .text (Text.ofString reason))]

def rulesName : Text := Text.ofString "rules"

def asksForRules (request : Json) : Bool :=
  match request.get? typeName with
  | some (.text t) => t = getRules
  | _ => false

def handle (storage : KeyedStorage) (request : Json) : Action Json := do
  if !asksForRules request then return errorReply "unsupported request"
  match storage.get? (← get).files channelKey with
  | .error e =>
      if e.isOfStorage then
        Action.note .warning source (Text.ofString "Cannot read published rules: " ++ e.message)
        return errorReply "rules unavailable"
      else throw e
  | .ok payload =>
      match payload with
      | none | some .null =>
          Action.note .debug source (Text.ofString "No rules published yet")
          return .object [statusMember "no_data", (rulesName, .array [])]
      | some rules => return .object [statusMember "success", (rulesName, rules)]

def encodeReply (reply : Json) : Except Fault Bytes :=
  match Utf8.encode (reply.write .reply ++ [CodePoint.ofChar '\n']) with
  | .ok octets => .ok octets
  | .error e => .error (.encoding e)

/-- The reply to a line; a blank line has none. -/
def answer (storage : KeyedStorage) (line : Bytes) : Action (Option Bytes) := do
  let text := Utf8.decodeLenient line
  if text.isBlank then return none
  let reply ←
    match Json.read storage.limits text with
    | .ok request => handle storage request
    | .error (.malformed _) => pure (errorReply "invalid JSON")
    | .error (.excessive e) => throw (.excessive e)
  return some (← Action.ofExcept (encodeReply reply))

/-- What a connection comes to: the octets sent, and the fault that ended it early. -/
structure Transcript where
  sent : Bytes
  fault : Option Fault

/--
Answers lines one after another. When nobody receives the answers, the connection ends after the
first of them.
-/
def serve (storage : KeyedStorage) (received : Bool) : List Bytes → Action Transcript
  | [] => return ⟨[], none⟩
  | line :: lines => do
      match ← Action.outcome (answer storage line) with
      | .error e => return ⟨[], some e⟩
      | .ok none => serve storage received lines
      | .ok (some octets) =>
          if received then
            let transcript ← serve storage received lines
            return { transcript with sent := octets ++ transcript.sent }
          else return ⟨octets, none⟩

def connection (storage : KeyedStorage) (received : Bool) (stream : Bytes) : Action Transcript :=
  serve storage received (lines stream)

end SiteFilter.Channel
