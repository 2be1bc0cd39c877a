import SiteFilter.CommandLine.Run

/-!
# What a run looks at

A run works on a file tree that has to be there before it starts. These are the places that such a
tree has to show: what is read and what can be replaced.
-/

namespace SiteFilter

namespace Environment

def variableNames : List String :=
  ["HOME", "EXACTBLOCK_DATA_DIR", "EXACTBLOCK_SOCKET_DIR", "LOCALAPPDATA", "XDG_CONFIG_HOME",
    "XDG_DATA_HOME", "TEMP", "TMP"]

/-- The homes in a list of users, a line each, with colons between the fields. -/
def homesOf (users : Text) : List (Text × Text) :=
  users.lines.filterMap fun line =>
    match Text.splitOn (Text.ofString ":") line with
    | name :: _ :: _ :: _ :: _ :: home :: _ => some (name, home)
    | _ => none

def homeOf (users : Text) (userId : Nat) : Text :=
  let home := users.lines.findSome? fun line =>
    match Text.splitOn (Text.ofString ":") line with
    | _ :: _ :: number :: _ :: _ :: home :: _ =>
        if number = Text.ofNat userId then some home else none
    | _ => none
  home.getD (Text.ofString "/")

end Environment

namespace CommandLine

/-- The paths that were worked out, leaving out those that cannot be. -/
def known (paths : List (Except Fault Path)) : List Path :=
  paths.filterMap Except.toOption

/-- A place to look at: what is there, and for a directory maybe the entries in it. -/
structure Look where
  path : Path
  withEntries : Bool

def commandPlaces (env : Environment) : Command → List Path
  | .importFrom source =>
      if RuleStore.isAddress source then [] else known [env.expand (Path.ofText source)]
  | .exportTo (.named path) => [path]
  | _ => []

def dataPlaces (env : Environment) (settings : Settings) : List Path :=
  known
    [settings.ownStorageDirectory env, settings.groupDirectory env,
     settings.groupStorageDirectory env, (settings.filterListPath env).map Path.parent]

/--
The places that arguments lead to, as far as they are known from the files that are shown already.
Asking again with more files can give more places.
-/
def looks (env : Environment) (files : FileTree) (arguments : List Text) : List Look :=
  match Invocation.read arguments with
  | .error _ => []
  | .ok invocation =>
      let (settings, _) := Id.run (StateT.run (ExceptT.run
        (settingsFor env invocation)) ⟨Machine.start files, env.outlets, [], [], []⟩)
      (known [settingsPath env invocation.settingsFile]
          ++ commandPlaces env invocation.command).map (⟨·, false⟩)
        ++ (match settings with
            | .ok settings => (dataPlaces env settings).map (⟨·, true⟩)
            | .error _ => [])

end CommandLine

end SiteFilter
