import SiteFilter.FileTree.AtomicWrite
import SiteFilter.Reload.Basic
import SiteFilter.Rule.Basic

/-!
# The machine

What the rule store works on: the files, the requests to reload that still wait, and a journal of
what was done. An action may fail, and what it did before it failed stays done.
-/

namespace SiteFilter

inductive Level
  | debug
  | info
  | warning
  | error
deriving DecidableEq

structure Note where
  level : Level
  source : String
  message : Text
deriving DecidableEq

inductive Event
  | noted (note : Note)
  /-- The file at a path is about to be replaced. -/
  | writing (path : Path)
  /-- The engine is asked to reload. -/
  | asking (engine : Json)
  /-- A subscriber is told the rules. -/
  | telling (subscriber : Text) (rules : RuleSet)

structure Machine where
  files : FileTree
  /-- What the next replacements of a file meet: nothing, or a refusal. -/
  refusals : List (Option OsCause)
  /-- The latest event comes first. -/
  journal : List Event
  /-- Requests to reload are put off until somebody waits for them. -/
  defersReloads : Bool
  /-- The requests that were put off; each is known by its place. -/
  tasks : List ReloadTask
  /-- What became of the first of them: nothing when one was called off. -/
  outcomes : List (Option ReloadResult)

abbrev Action := ExceptT Fault (StateM Machine)

namespace Machine

def start (files : FileTree) : Machine where
  files := files
  refusals := []
  journal := []
  defersReloads := false
  tasks := []
  outcomes := []

/-- The events from the first to the latest. -/
def events (machine : Machine) : List Event :=
  machine.journal.reverse

def notes (machine : Machine) : List Note :=
  machine.events.filterMap fun event =>
    match event with
    | .noted note => some note
    | _ => none

end Machine

namespace Action

def runOn {α : Type} (action : Action α) (machine : Machine) : Except Fault α × Machine :=
  Id.run (StateT.run (ExceptT.run action) machine)

def record (event : Event) : Action Unit :=
  modify fun machine => { machine with journal := event :: machine.journal }

def note (level : Level) (source : String) (message : Text) : Action Unit :=
  record (.noted ⟨level, source, message⟩)

def ofExcept {α : Type} : Except Fault α → Action α
  | .ok a => return a
  | .error e => throw e

/-- What an action gives, with a failure as a value. -/
def outcome {α : Type} (action : Action α) : Action (Except Fault α) := do
  let (result, machine) := action.runOn (← get)
  set machine
  return result

def ask {α : Type} (question : FileTree → Except Fault α) : Action α := do
  ofExcept (question (← get).files)

def onFiles {α : Type} (change : FileAction α) : Action α := do
  let machine ← get
  let (result, files) := Id.run (StateT.run (ExceptT.run change) machine.files)
  set { machine with files := files }
  ofExcept result

/-- What the next replacement of a file meets. -/
def nextRefusal : Action (Option OsCause) := do
  let machine ← get
  match machine.refusals with
  | [] => return none
  | refusal :: refusals =>
      set { machine with refusals := refusals }
      return refusal

def replaceFile (path : Path) (data : Bytes) : Action Unit := do
  record (.writing path)
  let refusal ← nextRefusal
  onFiles (AtomicWrite.run refusal path data)

end Action

end SiteFilter
