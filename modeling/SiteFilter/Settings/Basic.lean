import SiteFilter.Environment
import SiteFilter.Json.Number

/-!
# Settings

The settings are kept as they were found in their document, and a value of a wrong kind comes to
light where it is used.
-/

namespace SiteFilter

structure Settings where
  /-- The name of the container that editor, engine and page share. -/
  groupId : Json
  filterListName : Json
  /-- Where the data is; `null` stands for the place that the platform has for it. -/
  dataDirectory : Json
  engineId : Json
  reloadCommand : Json
  /-- How long a page waits for its rules, in seconds. -/
  channelTimeout : Json
  /-- Host names are taken in lower case. -/
  lowersHosts : Json
deriving BEq

namespace Settings

def groupIdName : Text := Text.ofString "group_id"

def filterListNameName : Text := Text.ofString "filter_list_name"

def dataDirectoryName : Text := Text.ofString "data_dir"

def engineIdName : Text := Text.ofString "engine_id"

def reloadCommandName : Text := Text.ofString "reload_command"

def channelTimeoutName : Text := Text.ofString "channel_timeout"

def lowersHostsName : Text := Text.ofString "normalize_host_case"

/-- The settings that members of an object give, with the usual ones where they give none. -/
def ofMembers (members : List (Text × Json)) : Settings where
  groupId := (Json.lookup groupIdName members).getD (.text (Text.ofString "group.exactblock"))
  filterListName :=
    (Json.lookup filterListNameName members).getD (.text (Text.ofString "blockerList.json"))
  dataDirectory := (Json.lookup dataDirectoryName members).getD .null
  engineId := (Json.lookup engineIdName members).getD (.text (Text.ofString "exactblock.blocker"))
  reloadCommand := (Json.lookup reloadCommandName members).getD .null
  channelTimeout := (Json.lookup channelTimeoutName members).getD (.float 2.0)
  lowersHosts := (Json.lookup lowersHostsName members).getD (.bool true)

def usual : Settings :=
  ofMembers []

/-- The settings in a document, whose time limit has to be a number. -/
def ofJson : Json → Except Fault Settings
  | .object members =>
      let settings := ofMembers members
      match settings.channelTimeout.asFloat with
      | .ok seconds => .ok { settings with channelTimeout := .float seconds }
      | .error e => .error (.mismatch e)
  | v => .error (.mismatch (.noMember v.kind "get"))

def toJson (settings : Settings) : Json :=
  .object
    [(groupIdName, settings.groupId), (filterListNameName, settings.filterListName),
     (dataDirectoryName, settings.dataDirectory), (engineIdName, settings.engineId),
     (reloadCommandName, settings.reloadCommand), (channelTimeoutName, settings.channelTimeout),
     (lowersHostsName, settings.lowersHosts)]

end Settings

end SiteFilter
