import SiteFilter.Failure
import SiteFilter.FileTree.Error
import SiteFilter.FileTree.Path
import SiteFilter.Json.Kind
import SiteFilter.Json.Reader
import SiteFilter.Rule.Error
import SiteFilter.Text.Utf8

/-!
# Faults

Everything that can keep an operation from being done, by cause. The wording is in one place,
`Fault.message`.
-/

namespace SiteFilter

/-- Why an operation was not done. -/
inductive Fault
  /-- A rule is refused. -/
  | rule (e : RuleError)
  /-- A value has the wrong kind. -/
  | mismatch (e : Json.Mismatch)
  /-- The file system refuses. -/
  | os (e : OsError)
  /-- A text has no octets. -/
  | encoding (e : EncodeError)
  /-- Octets are no text. -/
  | decoding (e : DecodeError)
  /-- A text is no JSON document. -/
  | malformed (e : Json.SyntaxError)
  /-- A JSON document, or a value for one, has too much of something. -/
  | excessive (e : Json.Excess)
  /-- A path holds U+0000. -/
  | nulInPath
  /-- A path starts at the home of somebody who has none. -/
  | homeUnknown
  /-- A key of the storage is not made of letters, digits, `_`, `.` and `-`. -/
  | badKey (key : Text)
  /-- The value of a key cannot be read. -/
  | unreadableKey (key : Text) (path : Path) (cause : Fault)
  /-- The value of a key cannot be encoded. -/
  | unencodableKey (key : Text) (cause : Fault)
  /-- The value of a key cannot be written. -/
  | unwritableKey (key : Text) (path : Path) (cause : OsError)
  /-- The value of a key cannot be removed. -/
  | undeletableKey (key : Text) (cause : OsError)
  /-- The filter list cannot be encoded. -/
  | unencodableList (cause : EncodeError)
  /-- The filter list is no array. -/
  | listNotArray
  /-- At least one of the two sinks was not brought up to date. -/
  | notPropagated (filterList channel : Option Fault)
  /-- A rule document cannot be fetched. -/
  | unreadableUrl (address reason : Text)
  /-- A rule document cannot be read from a file. -/
  | unreadableFile (path : Path) (cause : Fault)
  /-- An address is not fetched, for a reason that is no matter of the source. -/
  | unfetched (failure : FetchFailure)
  | unprinted (failure : PrintFailure)
  /-- A socket path is longer than sockets allow. -/
  | socketPathTooLong (path : Path)
  /-- A socket cannot be made; without a cause, its path takes too many octets. -/
  | socketUnavailable (path : Path) (cause : Option OsError)
  /-- A reload command has no words. -/
  | emptyCommand
  /-- A subscriber or a reloader failed. -/
  | failure (reason : Text)
  /-- The line of a reply is longer than lines may be. -/
  | lineTooLong
  /-- A URL has no well-formed host; the reason is the whole message. -/
  | badUrl (reason : Text)

def socketPathLimit : Nat := 104

def socketDirectoryVariable : Text :=
  Text.ofString "EXACTBLOCK_SOCKET_DIR"

namespace Fault

def ofReadError : Json.ReadError → Fault
  | .malformed e => malformed e
  | .excessive e => excessive e

def message : Fault → Text
  | rule e => e.message
  | mismatch e => e.message
  | os e => e.message
  | encoding e => e.message
  | decoding e => e.message
  | malformed e => e.message
  | excessive e => e.message
  | nulInPath => Text.ofString "embedded null byte"
  | homeUnknown => Text.ofString "Could not determine home directory."
  | badKey key => Text.ofString "Invalid storage key: " ++ key.quoted
  | unreadableKey key path cause =>
      Text.ofString "Cannot read " ++ key.quoted ++ Text.ofString " from " ++ path.text
        ++ Text.ofString ": " ++ cause.message
  | unencodableKey key cause =>
      Text.ofString "Cannot encode value for " ++ key.quoted ++ Text.ofString ": " ++ cause.message
  | unwritableKey key path cause =>
      Text.ofString "Cannot write " ++ key.quoted ++ Text.ofString " to " ++ path.text
        ++ Text.ofString ": " ++ cause.message
  | undeletableKey key cause =>
      Text.ofString "Cannot delete " ++ key.quoted ++ Text.ofString ": " ++ cause.message
  | unencodableList cause => Text.ofString "Cannot encode filter list: " ++ cause.message
  | listNotArray => Text.ofString "Filter list must be a JSON array"
  | notPropagated filterList channel =>
      let first :=
        match filterList with
        | none => []
        | some (unencodableList cause) =>
            [Text.ofString "filter list serialization failed: Cannot encode filter list: "
              ++ cause.message]
        | some cause => [Text.ofString "filter list write failed: " ++ cause.message]
      let second :=
        match channel with
        | none => []
        | some cause => [Text.ofString "channel payload failed: " ++ cause.message]
      Text.join (Text.ofString "; ") (first ++ second)
  | unreadableUrl address reason =>
      Text.ofString "Error reading " ++ address ++ Text.ofString ": " ++ reason
  | unreadableFile path cause =>
      Text.ofString "Error reading file " ++ path.text ++ Text.ofString ": " ++ cause.message
  | unfetched cause => cause.message
  | unprinted cause => cause.message
  | socketPathTooLong path =>
      Text.ofString "Socket path too long (" ++ Text.ofNat path.text.length ++ Text.ofString " > "
        ++ Text.ofNat socketPathLimit ++ Text.ofString " chars): " ++ path.text
        ++ Text.ofString "\nSet " ++ socketDirectoryVariable
        ++ Text.ofString " to a shorter path."
  | socketUnavailable path cause =>
      Text.ofString "Cannot create socket: " ++ path.text ++ Text.ofString "\nError: "
        ++ (match cause with
            | some cause => cause.message
            | none => Text.ofString "AF_UNIX path too long")
  | emptyCommand => Text.ofString "Reload command must not be empty"
  | failure reason => reason
  | lineTooLong => []
  | badUrl reason => reason

/-- The name of the kind of a fault, as reports give it. -/
def label : Fault → String
  | rule _ => "InvalidRuleError"
  | mismatch (.noMember _ _) => "AttributeError"
  | mismatch (.numberText _) => "ValueError"
  | mismatch (.integerText _) => "ValueError"
  | mismatch (.integerDigits _) => "ValueError"
  | mismatch .integerOfNaN => "ValueError"
  | mismatch .integerOfInfinity => "OverflowError"
  | mismatch .numberTooLarge => "OverflowError"
  | mismatch _ => "TypeError"
  | os e =>
      match e.cause with
      | .noEntry => "FileNotFoundError"
      | .permission => "PermissionError"
      | .exists => "FileExistsError"
      | .notDirectory => "NotADirectoryError"
      | .isDirectory => "IsADirectoryError"
      | _ => "OSError"
  | encoding _ => "UnicodeEncodeError"
  | decoding _ => "UnicodeDecodeError"
  | malformed _ => "JSONDecodeError"
  | excessive (.digits _) => "ValueError"
  | excessive .wideNumber => "ValueError"
  | excessive .nestedArray => "RecursionError"
  | excessive .nestedObject => "RecursionError"
  | excessive .deepValue => "RecursionError"
  | homeUnknown => "RuntimeError"
  | badKey _ => "StorageError"
  | unreadableKey _ _ _ => "StorageError"
  | unencodableKey _ _ => "StorageError"
  | unwritableKey _ _ _ => "StorageError"
  | undeletableKey _ _ => "StorageError"
  | unencodableList _ => "SerializationError"
  | notPropagated _ _ => "PropagationError"
  | unreadableUrl _ _ => "ImportSourceError"
  | unreadableFile _ _ => "ImportSourceError"
  | unfetched cause => cause.label
  | unprinted cause => cause.label
  | socketPathTooLong _ => "SocketError"
  | socketUnavailable _ _ => "SocketError"
  | failure _ => "RuntimeError"
  | nulInPath => "ValueError"
  | listNotArray => "ValueError"
  | emptyCommand => "ValueError"
  | lineTooLong => "ValueError"
  | badUrl _ => "ValueError"

end Fault

end SiteFilter
