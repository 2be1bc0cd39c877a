import SiteFilter.Text.Basic

/-!
# JSON values

Stored documents, requests, replies and settings are JSON. Whole numbers are kept apart from
floating-point ones, texts may hold lone surrogates, and an object remembers the order in which
its keys first came.
-/

namespace SiteFilter

inductive Json
  | null
  | bool (b : Bool)
  | int (i : Int)
  | float (x : Float)
  | text (t : Text)
  | array (items : List Json)
  | object (members : List (Text × Json))
deriving BEq, Inhabited

namespace Json

def lookup (key : Text) (members : List (Text × Json)) : Option Json :=
  (members.find? fun member => member.1 == key).map (·.2)

/-- Sets a key: in its old place when it is there, else at the end. -/
def put (key : Text) (value : Json) : List (Text × Json) → List (Text × Json)
  | [] => [(key, value)]
  | member :: members =>
      if member.1 = key then (key, value) :: members else member :: put key value members

/-- An object from members in which a later value of a key replaces an earlier one. -/
def ofMembers (members : List (Text × Json)) : Json :=
  .object (members.foldl (fun done member => put member.1 member.2 done) [])

def get? (key : Text) : Json → Option Json
  | .object members => lookup key members
  | _ => none

/-- Empty texts, arrays and objects, zeros, `false` and `null` count as no. -/
def truthy : Json → Bool
  | .null => false
  | .bool b => b
  | .int i => i ≠ 0
  | .float x => !(x == 0.0)
  | .text t => !t.isEmpty
  | .array items => !items.isEmpty
  | .object members => !members.isEmpty

end Json

end SiteFilter
