import SiteFilter.Text.Utf8

/-!
# Lines of a connection

Both sides of the channel talk in lines. A line may have a limited number of octets; whoever
receives a longer one gives up.
-/

namespace SiteFilter.Channel

/-- The most octets that a line may have, not counting its end. -/
def lineLimit : Nat := 65536

def lineEnd : UInt8 := 0x0A

inductive Received
  /-- A line, or what is left of one at the end. -/
  | line (content : Bytes)
  | tooLong
  | ended
deriving DecidableEq

def receive (stream : Bytes) : Received :=
  let content := stream.takeWhile (· ≠ lineEnd)
  if lineLimit < content.length then .tooLong
  else if stream.isEmpty then .ended
  else .line content

def behindLine (stream : Bytes) : Bytes :=
  (stream.dropWhile (· ≠ lineEnd)).drop 1

/-- The lines that are received from a stream: all that stand before one that is too long. -/
def linesWithin : (fuel : Nat) → Bytes → List Bytes
  | 0, _ => []
  | fuel + 1, stream =>
      match receive stream with
      | .line content => content :: linesWithin fuel (behindLine stream)
      | .tooLong | .ended => []

/-- The lines that are received from a stream, which has at most as many lines as octets. -/
def lines (stream : Bytes) : List Bytes :=
  linesWithin stream.length stream

end SiteFilter.Channel
