import SiteFilter.Json.Reader
import SiteFilter.Machine

/-!
# Keyed storage

Values by key, each in a JSON document of its own inside one directory, so that they are written
and read independently. A value is replaced in one step: whoever reads it meanwhile finds the old
value or the new one.
-/

namespace SiteFilter

/-- Storage inside a directory, as a process with its limits has it. -/
structure KeyedStorage where
  directory : Path
  limits : Json.Limits
deriving DecidableEq

namespace KeyedStorage

def source : String :=
  "exactblock.blocker.defaults"

/-- The code points that keys are made of: ASCII letters and digits, `_`, `.` and `-`. -/
def isKeyPoint (c : CodePoint) : Bool :=
  (0x41 ≤ c.val && c.val ≤ 0x5A) || (0x61 ≤ c.val && c.val ≤ 0x7A)
    || (0x30 ≤ c.val && c.val ≤ 0x39) || c.val = 0x5F || c.val = 0x2E || c.val = 0x2D

/-- A key is not empty; one line feed may end it. -/
def isKey (key : Text) : Bool :=
  let body := if key.getLast? = some (CodePoint.ofChar '\n') then key.dropLast else key
  !body.isEmpty && body.all isKeyPoint

def pathOf (storage : KeyedStorage) (key : Text) : Except Fault Path :=
  if isKey key then .ok (storage.directory.join (key ++ Text.ofString ".json"))
  else .error (.badKey key)

def readValue (limits : Json.Limits) (files : FileTree) (path : Path) : Except Fault Json := do
  match Json.read limits (← files.readText path) with
  | .ok value => return value
  | .error e => throw (.ofReadError e)

def get? (storage : KeyedStorage) (files : FileTree) (key : Text) : Except Fault (Option Json) := do
  let path ← storage.pathOf key
  if ← files.has path then
    match readValue storage.limits files path with
    | .ok value => return some value
    | .error (.os e) => throw (.unreadableKey key path (.os e))
    | .error (.malformed e) => throw (.unreadableKey key path (.malformed e))
    | .error e => throw e
  else return none

def contains (storage : KeyedStorage) (files : FileTree) (key : Text) : Except Fault Bool := do
  files.has (← storage.pathOf key)

def encodeValue (limits : Json.Limits) (value : Json) : Except Fault Bytes :=
  match value.excess? limits.writing with
  | some e => .error (.excessive e)
  | none =>
      match Utf8.encode (value.write .stored) with
      | .ok data => .ok data
      | .error e => .error (.encoding e)

/-- How it is told that a value has no octets. One that is too deep is not told of its key. -/
def encodingFault (key : Text) : Fault → Fault
  | .excessive .deepValue => .excessive .deepValue
  | cause => .unencodableKey key cause

def put (storage : KeyedStorage) (key : Text) (value : Json) : Action Unit := do
  let path ← Action.ofExcept (storage.pathOf key)
  match encodeValue storage.limits value with
  | .error e => throw (encodingFault key e)
  | .ok data =>
      tryCatch (Action.replaceFile path data) fun e =>
        match e with
        | .os cause => throw (.unwritableKey key path cause)
        | _ => throw e
      Action.note .debug source
        (Text.ofString "Stored " ++ key ++ Text.ofString " (" ++ Text.ofNat data.length
          ++ Text.ofString " bytes)")

def delete (storage : KeyedStorage) (key : Text) : Action Unit := do
  let path ← Action.ofExcept (storage.pathOf key)
  tryCatch (Action.onFiles (FileAction.unlinkIfThere path)) fun e =>
    match e with
    | .os cause => throw (.undeletableKey key cause)
    | _ => throw e

end KeyedStorage

def Fault.isOfStorage : Fault → Bool
  | .badKey _ | .unreadableKey _ _ _ | .unencodableKey _ _ | .unwritableKey _ _ _
  | .undeletableKey _ _ => true
  | _ => false

end SiteFilter
