import SiteFilter.Channel.Server
import SiteFilter.Json.Number

/-!
# The client of the channel

A page asks for its rules. Whatever goes wrong counts as no rules, but for a reply of which there is
too much. Without a time limit a page may wait for ever.
-/

namespace SiteFilter.Channel

/-- What the other side of a connection does. -/
inductive Peer
  /-- Nobody listens. -/
  | missing
  /-- Somebody sends octets and goes away before the request is sent. -/
  | gone (octets : Bytes)
  /-- Somebody reads a line, sends octets, and closes the connection. -/
  | replying (octets : Bytes)
  /-- Octets are received, and then the connection breaks. -/
  | breaking (octets : Bytes)
  /-- Octets are received, and then nothing more comes. -/
  | stalling (octets : Bytes)

def request : Bytes :=
  Utf8.encodeAny ((Json.object [(typeName, .text getRules)]).write .request) ++ [lineEnd]

def rulesIn (limits : Json.Limits) (line : Bytes) : Except Fault (List Json) :=
  match Json.read limits (Utf8.decodeLenient line) with
  | .ok reply =>
      match reply.get? rulesName with
      | some (.array rules) => .ok rules
      | _ => .ok []
  | .error (.malformed _) => .ok []
  | .error (.excessive e) => .error (.excessive e)

def rulesOf (limits : Json.Limits) (octets : Bytes) : Except Fault (List Json) :=
  match receive octets with
  | .line line => rulesIn limits line
  | .ended => .ok []
  | .tooLong => .error .lineTooLong

/-- Whether octets that need not be all decide the first line: its end has come, or it is too long. -/
def decides (octets : Bytes) : Bool :=
  octets.contains lineEnd || lineLimit < octets.length

/-- What a peer comes to that is waited for as long as need be; nothing is ever known of some. -/
def reply? (limits : Json.Limits) : Peer → Option (Except Fault (List Json))
  | .missing | .gone _ => some (.ok [])
  | .replying octets => some (rulesOf limits octets)
  | .breaking octets => some (if decides octets then rulesOf limits octets else .ok [])
  | .stalling octets => if decides octets then some (rulesOf limits octets) else none

/-- Whether a time limit, in seconds, leaves time to ask. No limit is written as `null`. -/
def leavesTime : (limit : Json) → Except Json.Mismatch Bool
  | .null => .ok true
  | .bool b => .ok b
  | .int i => if i ≤ 0 then .ok false else (Json.floatOfInt i).map fun _ => true
  | .float x => .ok (0.0 < x)
  | v => .error (.notComparable v.kind)

def isEndless : (limit : Json) → Bool
  | .null => true
  | .float x => x.isInf && 0.0 < x
  | _ => false

inductive Asked
  | told (rules : List Json)
  | failed (fault : Fault)
  /-- The wait never ends. -/
  | waiting

/-- Asks for rules, and waits no longer than a time limit. -/
def ask (limits : Json.Limits) (limit : Json) (peer : Peer) : Asked :=
  match leavesTime limit with
  | .error e => .failed (.mismatch e)
  | .ok false => .told []
  | .ok true =>
      match reply? limits peer with
      | some (.ok rules) => .told rules
      | some (.error e) => .failed e
      | none => if isEndless limit then .waiting else .told []

end SiteFilter.Channel
