import SiteFilter.FileTree.Basic
import SiteFilter.Settings.Basic

/-!
# Places

Where the settings put data, filter list and sockets.
-/

namespace SiteFilter

def Path.joinValue (path : Path) : Json → Except Fault Path
  | .text t => .ok (path.join t)
  | v => .error (.mismatch (.notAPathPart v.kind))

namespace Settings

/-- Where the data is: a variable comes before the settings, and these before the usual place. -/
def resolveDataDirectory (settings : Settings) (env : Environment) : Except Fault Path :=
  match env.filled? "EXACTBLOCK_DATA_DIR" with
  | some directory => env.expand (Path.ofText directory)
  | none =>
      if settings.dataDirectory.truthy then
        match settings.dataDirectory with
        | .text directory => env.expand (Path.ofText directory)
        | v => .error (.mismatch (.notAPath v.kind))
      else env.dataDirectory

def storageName : Text :=
  Text.ofString "defaults"

def ownStorageDirectory (settings : Settings) (env : Environment) : Except Fault Path := do
  return (← settings.resolveDataDirectory env).join storageName

/-- The container that editor, engine and page share. -/
def groupDirectory (settings : Settings) (env : Environment) : Except Fault Path := do
  let directory ← settings.resolveDataDirectory env
  (directory.join (Text.ofString "groups")).joinValue settings.groupId

def groupStorageDirectory (settings : Settings) (env : Environment) : Except Fault Path := do
  return (← settings.groupDirectory env).join storageName

def filterListPath (settings : Settings) (env : Environment) : Except Fault Path := do
  (← settings.groupDirectory env).joinValue settings.filterListName

end Settings

def socketName (channel : Text) : Text :=
  Text.ofString "exactblock-" ++ channel ++ Text.ofString ".sock"

/-- The directory for sockets: a variable's, or the one of the platform. -/
def socketDirectory (env : Environment) (files : FileTree) : Except Fault Path :=
  match (env.bindings.find? fun entry => entry.1 = socketDirectoryVariable).map (·.2) with
  | some (c :: directory) => .ok (Path.ofText (c :: directory))
  | _ =>
      match env.platform with
      | .windows =>
          let temporary := (env.value? "TEMP").getD
            ((env.value? "TMP").getD (Text.ofString "C:\\Windows\\Temp"))
          .ok (Path.ofText temporary)
      | _ => do
          let own := Path.ofText (Text.ofString "/run/user/" ++ Text.ofNat env.userId)
          return if ← files.has own then own else Path.ofText (Text.ofString "/tmp")

/-- The socket of a channel, whose path has to be short enough. -/
def socketPath (env : Environment) (files : FileTree) (channel : Text) : Except Fault Path := do
  let path := (← socketDirectory env files).join (socketName channel)
  if socketPathLimit < path.text.length then throw (.socketPathTooLong path)
  return path

end SiteFilter
