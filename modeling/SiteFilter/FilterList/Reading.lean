import SiteFilter.FilterList
import SiteFilter.Json.Reader
import SiteFilter.Machine

/-!
# Reading the filter list

The engine's side of the filter list. A list that was never written is an empty one.
-/

namespace SiteFilter.FilterList

def source : String :=
  "exactblock.blocker.content_blocker"

def noEntries : Bytes :=
  Utf8.encodeAny (Text.ofString "[]")

def read (path : Path) : Action Bytes := do
  if ← Action.ask (·.has path) then
    let data ← Action.ask (·.read path)
    Action.note .debug source
      (Text.ofString "Returning filter list " ++ path.text ++ Text.ofString " ("
        ++ Text.ofNat data.length ++ Text.ofString " bytes)")
    return data
  else
    Action.note .warning source
      (Text.ofString "Filter list does not exist at " ++ path.text
        ++ Text.ofString ", returning empty list")
    return noEntries

/-- The entries that the octets of a list stand for. -/
def entriesOf (limits : Json.Limits) (data : Bytes) : Except Fault (List Json) :=
  match Utf8.decode data with
  | .error e => .error (.decoding e)
  | .ok document =>
      match Json.read limits document with
      | .error e => .error (.ofReadError e)
      | .ok (.array entries) => .ok entries
      | .ok _ => .error .listNotArray

def readEntries (limits : Json.Limits) (path : Path) : Action (List Json) := do
  Action.ofExcept (entriesOf limits (← read path))

end SiteFilter.FilterList
