import SiteFilter.Json.Reader
import SiteFilter.Machine
import SiteFilter.Settings.Places

/-!
# The settings document

The settings as a file. Nothing is wrong with a file that is not there: it stands for the usual
settings.
-/

namespace SiteFilter

namespace Settings

def usualPath (env : Environment) : Except Fault Path := do
  return (← env.settingsDirectory).join (Text.ofString "config.json")

def load (limits : Json.Limits) (files : FileTree) (path : Path) : Except Fault Settings := do
  if ← files.has path then
    match Json.read limits (← files.readText path) with
    | .ok document => ofJson document
    | .error e => throw (.ofReadError e)
  else return usual

def text (settings : Settings) : Text :=
  settings.toJson.write .settings

/-- Writes the settings to a file, and makes the directories above it. -/
def save (settings : Settings) (path : Path) : Action Unit := do
  Action.onFiles (FileAction.makeDirectories path.parent)
  Action.onFiles (FileAction.write path (Utf8.encodeAny settings.text))

end Settings

end SiteFilter
