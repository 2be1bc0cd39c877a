import SiteFilter.Channel.Socket
import SiteFilter.CommandLine.Invocation
import SiteFilter.FilterList.Reading
import SiteFilter.Settings.Document
import SiteFilter.Store.Source

/-!
# Carrying out commands

What the commands do and print. An edit is stored and propagated before the command ends, and the
exit code tells how far that went: 0 for everything, 1 for rules that are stored but did not reach
both sinks, 2 for a command that was refused.
-/

namespace SiteFilter.CommandLine

structure Terminal where
  machine : Machine
  outlets : Outlets
  output : Text
  errors : Text
  /-- The lines that were sent to a client of the channel. -/
  replies : List Bytes

abbrev Session := ExceptT Fault (StateM Terminal)

namespace Session

/-- Prints to the output, unless that fails. -/
def print (t : Text) : Session Unit := do
  let terminal ← get
  match terminal.outlets.output terminal.output t with
  | some failure => throw (.unprinted failure)
  | none => set { terminal with output := terminal.output ++ t }

def printLine (t : Text) : Session Unit := do
  print t
  print [CodePoint.ofChar '\n']

def printError (t : Text) : Session Unit := do
  let terminal ← get
  let line := t ++ [CodePoint.ofChar '\n']
  match terminal.outlets.errors terminal.errors line with
  | some failure => throw (.unprinted failure)
  | none => set { terminal with errors := terminal.errors ++ line }

def act {α : Type} (action : Action α) : Session α := do
  let terminal ← get
  let (result, machine) := action.runOn terminal.machine
  set { terminal with machine := machine }
  match result with
  | .ok a => return a
  | .error e => throw e

def demand {α : Type} (result : Except Fault α) : Session α :=
  act (Action.ofExcept result)

def edit {α : Type} (store : RuleStore) (editing : Editing α) : Session (α × RuleStore) := do
  let terminal ← get
  let (result, editor) := editing.runOn ⟨terminal.machine, store⟩
  set { terminal with machine := editor.machine }
  match result with
  | .ok a => return (a, editor.store)
  | .error e => throw e

end Session

open Session

def exitDone : Nat := 0

/-- The rules are stored and did not reach both sinks. -/
def exitPartly : Nat := 1

def exitRefused : Nat := 2

/-- The fault of a file without a name, of which `member` is asked for. -/
def unnamedFile (member : String) : Fault :=
  .mismatch (.noMember (Json.array []).kind member)

def settingsPath (env : Environment) : FileChoice → Except Fault Path
  | .usual => Settings.usualPath env
  | .named path => .ok path
  | .unnamed => .error (unnamedFile "exists")

def settingsFor (env : Environment) (invocation : Invocation) : Session Settings := do
  let path ← demand (settingsPath env invocation.settingsFile)
  let settings ← act (Action.ask fun files => Settings.load env.limits files path)
  match invocation.dataDirectory with
  | some (c :: directory) => return { settings with dataDirectory := .text (c :: directory) }
  | _ => return settings

def reportReload (store : RuleStore) : Session Unit :=
  match store.lastReport with
  | some ⟨_, _, _, _, .settled ⟨false, message⟩⟩ =>
      printError (Text.ofString "warning: blocking engine reload failed: " ++ message)
  | _ => return ()

def counted (before : String) (n : Nat) (after : String) : Text :=
  Text.ofString before ++ Text.ofNat n ++ Text.ofString after

def addHost (store : RuleStore) (name : Text) : Session RuleStore := do
  let (added, store) ← edit store (RuleStore.addHost name)
  if added then
    printLine (Text.ofString "Blocked "
      ++ ((store.hosts.getLast?.map HostRule.hostname).getD []))
  else printLine (Text.ofString "Nothing added (empty or already blocked)")
  return store

def removeHost (store : RuleStore) (name : Text) : Session RuleStore := do
  let (removed, store) ← edit store (RuleStore.removeHost name)
  printLine (counted "Removed " removed " host rule(s)")
  return store

def addRule (store : RuleStore) (rule : ElementRule) : Session RuleStore := do
  let (added, store) ← edit store (RuleStore.addElementRule rule)
  if added then printLine (Text.ofString "Added " ++ rule.key)
  else printLine (Text.ofString "Rule already present")
  return store

/-- Removes an element rule. A line that is no rule removes nothing. -/
def removeRule (store : RuleStore) (line : Text) : Session RuleStore := do
  let (removed, store) ←
    match RuleDocument.parseLine line with
    | some rule => edit store (RuleStore.removeElementRule rule)
    | none => pure (0, store)
  printLine (counted "Removed " removed " element rule(s)")
  return store

def importRules (env : Environment) (fetch : Text → Fetched) (store : RuleStore) (source : Text) :
    Session RuleStore := do
  let (count, store) ← edit store (RuleStore.importFrom env fetch source)
  printLine (counted "Imported " count " new rules")
  return store

def clearRules (store : RuleStore) : Session RuleStore := do
  let (_, store) ← edit store RuleStore.clearElementRules
  printLine (Text.ofString "Cleared all element rules")
  return store

def reload (store : RuleStore) : Session RuleStore := do
  let (_, store) ← edit store RuleStore.republish
  printLine (counted "Content blocker refreshed with " store.snapshot.size " rules")
  return store

def listRules (store : RuleStore) : Session Unit := do
  printLine (Text.ofString "Blocked websites:")
  store.hosts.forM fun rule => printLine (Text.ofString "  " ++ rule.hostname)
  printLine (Text.ofString "Hidden elements:")
  store.elementRules.forM fun rule => printLine (Text.ofString "  " ++ rule.key)
  printLine (counted "" store.hosts.length " website rules, "
    ++ counted "" store.elementRules.length " element rules")

/-- Writes a text to a file, which is emptied before the text is encoded. -/
def writeText (path : Path) (t : Text) : Action Unit := do
  let route ← Action.onFiles (FileAction.openForWriting path)
  match Utf8.encode t with
  | .ok octets => Action.onFiles (modify (·.put route (.file octets)))
  | .error e => throw (.encoding e)

def exportRules (store : RuleStore) (target : FileChoice) : Session Unit := do
  match target with
  | .usual => print store.exportRules
  | .unnamed => throw (unnamedFile "write_text")
  | .named path =>
      act (writeText path store.exportRules)
      printLine (counted "Exported " store.elementRules.length " rules to " ++ path.text)

def printFilterList (env : Environment) (settings : Settings) : Session Unit := do
  let path ← demand (settings.filterListPath env)
  match Utf8.decode (← act (FilterList.read path)) with
  | .ok t => print (t ++ [CodePoint.ofChar '\n'])
  | .error e => throw (.decoding e)

def sentLines (sent : Bytes) : List Bytes :=
  Channel.linesWithin sent.length sent

/-- Serves the channel to a client that sends lines, and stops when it is through. -/
def serve (env : Environment) (settings : Settings) (requests : List Bytes) : Session Unit := do
  let server ← act (Action.ask (Channel.Server.ofSettings settings env))
  let server ← act server.start
  let stream := requests.flatMap fun line => line ++ [Channel.lineEnd]
  let transcript ← act (Channel.connection server.storage true stream)
  modify fun terminal => { terminal with replies := sentLines transcript.sent }
  let _ ← act server.close
  return ()

def performEdit (env : Environment) (fetch : Text → Fetched) (store : RuleStore) :
    Command → Session Nat
  | .addRule line =>
      match RuleDocument.parseLine line with
      | none => do
          printError (Text.ofString "ERROR: not a domain##selector rule: " ++ line.quoted)
          return exitRefused
      | some rule => do
          reportReload (← addRule store rule)
          return exitDone
  | command => do
      let store ←
        match command with
        | .addHost name => addHost store name
        | .removeHost name => removeHost store name
        | .removeRule line => removeRule store line
        | .importFrom source => importRules env fetch store source
        | .clearRules => clearRules store
        | .reload => reload store
        | _ => pure store
      reportReload store
      return exitDone

def perform (env : Environment) (fetch : Text → Fetched) (requests : List Bytes)
    (invocation : Invocation) : Session Nat := do
  let settings ← settingsFor env invocation
  match invocation.command with
  | .serve =>
      serve env settings requests
      return exitDone
  | .filterList =>
      printFilterList env settings
      return exitDone
  | command =>
      let store ← demand (RuleStore.ofSettings settings env)
      let (_, store) ← edit store RuleStore.load
      match command with
      | .list =>
          listRules store
          return exitDone
      | .exportTo target =>
          exportRules store target
          return exitDone
      | command => performEdit env fetch store command

/-- Whether a fault is reported by the program and does not end it at once. -/
def isReported : Fault → Bool
  | .mismatch (.numberText _) | .mismatch (.integerText _) | .mismatch (.integerDigits _)
  | .mismatch .integerOfNaN | .excessive (.digits _) | .excessive .wideNumber => true
  | .mismatch _ | .excessive _ | .homeUnknown | .failure _ | .unfetched (.protocol _ _) => false
  | _ => true

inductive Ending
  | exit (code : Nat)
  /-- A fault that the program does not report. -/
  | broken (fault : Fault)
  /-- The arguments were not taken. -/
  | refused (refusal : Refusal)

/-- Reports a fault, which gives the exit code, unless it ends the program at once. -/
def report (e : Fault) : Session Ending := do
  match e with
  | .notPropagated _ _ =>
      printError (Text.ofString "warning: rules saved but not fully propagated: " ++ e.message)
      return .exit exitPartly
  | _ =>
      if isReported e then
        printError (Text.ofString "ERROR: " ++ e.message)
        return .exit exitRefused
      else return .broken e

def session (env : Environment) (fetch : Text → Fetched) (requests : List Bytes)
    (invocation : Invocation) : Session Ending :=
  tryCatch (do return .exit (← perform env fetch requests invocation)) report

def levelName : Level → String
  | .debug => "DEBUG"
  | .info => "INFO"
  | .warning => "WARNING"
  | .error => "ERROR"

def isShown (verbose : Bool) (note : Note) : Bool :=
  verbose || note.level = .warning || note.level = .error

def noteLine (note : Note) : Text :=
  Text.ofString (levelName note.level) ++ Text.ofString (" " ++ note.source ++ ": ") ++ note.message
    ++ [CodePoint.ofChar '\n']

/-- Text for the errors, where surrogates are written as escapes. -/
def escapeSurrogates (t : Text) : Text :=
  t.flatMap fun c => if c.isSurrogate then Text.ofString "\\u" ++ Text.ofHex 4 c.val else [c]

structure Ran where
  ending : Ending
  output : Text
  errors : Text
  replies : List Bytes
  files : FileTree

def usage : Text :=
  Text.ofString "usage: exactblock [-h] [--config CONFIG] [--data-dir DATA_DIR] [-v] command ...\n"

/-- A run that ends before anything is done, since the arguments are not taken. -/
def refuse (files : FileTree) (refusal : Refusal) : Ran :=
  match refusal with
  | .help => ⟨.refused refusal, usage, [], [], files⟩
  | .misuse program misuse =>
      let line := program ++ Text.ofString ": error: " ++ misuse.message
      ⟨.refused refusal, [], usage ++ escapeSurrogates line ++ [CodePoint.ofChar '\n'], [], files⟩

def run (env : Environment) (files : FileTree) (fetch : Text → Fetched) (requests : List Bytes)
    (arguments : List Text) : Ran :=
  match Invocation.read arguments with
  | .error refusal => refuse files refusal
  | .ok invocation =>
      let (result, terminal) := Id.run (StateT.run (ExceptT.run
        (session env fetch requests invocation)) ⟨Machine.start files, env.outlets, [], [], []⟩)
      let ending :=
        match result with
        | .ok ending => ending
        | .error e => .broken e
      let notes := terminal.machine.notes.filter (isShown invocation.verbose)
      ⟨ending, terminal.output, escapeSurrogates (notes.flatMap noteLine ++ terminal.errors),
        terminal.replies, terminal.machine.files⟩

end SiteFilter.CommandLine
