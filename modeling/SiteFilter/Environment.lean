import SiteFilter.Programs

/-!
# The environment

What the program finds around it: variables, home directories, the places where platforms keep
settings and data, other programs, and where it prints.
-/

namespace SiteFilter

inductive Platform
  | windows
  | mac
  | other
deriving DecidableEq

/-- What the two outlets of a program do with a text behind what was printed: they take it, or fail. -/
structure Outlets where
  output : (printed next : Text) → Option PrintFailure
  errors : (printed next : Text) → Option PrintFailure

/-- Outlets that take every text that has octets, and any text as an error. -/
def Outlets.open : Outlets where
  output _ next := (Utf8.surrogateRun? next).map fun e => .encoding e.message
  errors _ _ := none

structure Environment where
  /-- The variables that are set, with their values. -/
  bindings : List (Text × Text)
  platform : Platform
  userId : Nat
  /-- The home of the user who runs the program, as the list of users gives it. -/
  ownHome : Text
  /-- The homes of users by their names. -/
  homes : List (Text × Text)
  programs : Programs
  limits : Json.Limits
  outlets : Outlets

namespace Environment

def value? (env : Environment) (name : String) : Option Text :=
  (env.bindings.find? fun entry => entry.1 = Text.ofString name).map (·.2)

def filled? (env : Environment) (name : String) : Option Text :=
  (env.value? name).filter fun value => !value.isEmpty

/-- The home of a user; no name stands for the user who runs the program. -/
def home? (env : Environment) (name : Text) : Except Fault (Option Text) :=
  if name.isEmpty then .ok (some ((env.value? "HOME").getD env.ownHome))
  else
    match Text.octetFault? name with
    | some e => .error (.encoding e)
    | none =>
        if name.any (·.val = 0) then .error .nulInPath
        else .ok ((env.homes.find? fun entry => entry.1 = name).map (·.2))

def tilde : CodePoint :=
  CodePoint.ofChar '~'

/-- A path with a `~` or `~user` in front replaced by the home that it stands for. -/
def expand (env : Environment) (path : Path) : Except Fault Path :=
  match path.slashes, path.parts with
  | 0, (c :: name) :: parts =>
      if c = tilde then
        match env.home? name with
        | .error e => .error e
        | .ok none => .error .homeUnknown
        | .ok (some home) =>
            let home := Text.dropEndWhile (·.val = 0x2F) home
            if home.head? = some tilde then .error .homeUnknown
            else
              let start := Path.ofText (if home.isEmpty then Text.ofString "/" else home)
              .ok ⟨start.slashes, start.parts ++ parts⟩
      else .ok path
  | _, _ => .ok path

def home (env : Environment) : Except Fault Path :=
  env.expand ⟨0, [[tilde]]⟩

def within (path : Path) (parts : List String) : Path :=
  parts.foldl (fun path part => path.join (Text.ofString part)) path

def ownName : Text :=
  Text.ofString "exactblock"

/--
A directory of the program: below the directory that a variable names, or in its usual place below
the home.
-/
def ownDirectory (env : Environment) (name : String) (usual : List String) : Except Fault Path := do
  let home ← env.home
  let ownData := within home ["AppData", "Local"]
  let base :=
    match env.platform with
    | .windows => ((env.value? "LOCALAPPDATA").map Path.ofText).getD ownData
    | .mac => within home ["Library", "Application Support"]
    | .other => ((env.value? name).map Path.ofText).getD (within home usual)
  return base.join ownName

def settingsDirectory (env : Environment) : Except Fault Path :=
  env.ownDirectory "XDG_CONFIG_HOME" [".config"]

def dataDirectory (env : Environment) : Except Fault Path :=
  env.ownDirectory "XDG_DATA_HOME" [".local", "share"]

end Environment

end SiteFilter
