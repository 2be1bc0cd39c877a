import SiteFilter.FilterList
import SiteFilter.KeyedStorage
import SiteFilter.Reload.Run
import SiteFilter.Settings.Places

/-!
# Propagation

The rules go to two sinks: the filter list of the blocking engine, and the payload of element rules
that pages ask for. The sinks do not depend on each other, and a failure of one is part of the
report and no reason to leave the other out. The engine is asked to reload when its list was
written.
-/

namespace SiteFilter

inductive ReloadState
  /-- None was made. -/
  | unasked
  | settled (result : ReloadResult)
  /-- It waits, with a place among the tasks of the machine. -/
  | waiting (place : Nat)

structure Report where
  entriesWritten : Nat
  rulesPublished : Nat
  filterListFault : Option Fault
  channelFault : Option Fault
  reload : ReloadState

def Report.ok (report : Report) : Bool :=
  report.filterListFault.isNone && report.channelFault.isNone

structure Propagator where
  filterListPath : Path
  channel : KeyedStorage
  engine : Json
  reloader : Reloader

def channelKey : Text :=
  Text.ofString "ElementRulesForExtension"

def channelPayload (rules : RuleSet) : Json :=
  .array (rules.elementRules.map ElementRule.toJson)

namespace Propagator

def source : String :=
  "exactblock.blocker.propagation"

def ofSettings (settings : Settings) (env : Environment) : Except Fault Propagator := do
  let filterListPath ← settings.filterListPath env
  let channel ← settings.groupStorageDirectory env
  let reloader ← Reloader.ofCommand env.programs settings.reloadCommand
  return ⟨filterListPath, ⟨channel, env.limits⟩, settings.engineId, reloader⟩

def writeFilterList (propagator : Propagator) (rules : RuleSet) : Action Nat := do
  let entries := FilterList.compile rules
  Action.note .debug "exactblock.blocker.compiler"
    (Text.ofString "Compiled " ++ Text.ofNat entries.length ++ Text.ofString " entries ("
      ++ Text.ofNat rules.hosts.length ++ Text.ofString " block, "
      ++ Text.ofNat rules.elementRules.length ++ Text.ofString " css-display-none)")
  let data ← Action.ofExcept (FilterList.serialize entries)
  Action.replaceFile propagator.filterListPath data
  Action.note .debug source
    (Text.ofString "Wrote " ++ propagator.filterListPath.text ++ Text.ofString " ("
      ++ Text.ofNat data.length ++ Text.ofString " bytes)")
  return entries.length

def publish (propagator : Propagator) (rules : RuleSet) : Action Nat := do
  propagator.channel.put channelKey (channelPayload rules)
  return rules.elementRules.length

def isListFault : Fault → Bool
  | .unencodableList _ | .os _ => true
  | _ => false

/-- Brings a sink up to date: what was counted, and the fault when one is met that is due to it. -/
def attempt (write : Action Nat) (isDue : Fault → Bool) (remark : Fault → Text) :
    Action (Nat × Option Fault) :=
  tryCatch (do return (← write, none)) fun e => do
    if isDue e then
      Action.note .error source (remark e)
      return (0, some e)
    else throw e

def noteReload (engine : Json) (result : ReloadResult) : Action Unit :=
  if result.ok then
    Action.note .debug source
      (Text.ofString "Blocking engine " ++ engine.plainText ++ Text.ofString " reloaded")
  else
    Action.note .warning source
      (Text.ofString "Blocking engine " ++ engine.plainText ++ Text.ofString " reload failed: "
        ++ result.message ++ Text.ofString " (is it enabled?)")

def task (propagator : Propagator) : ReloadTask :=
  ⟨propagator.reloader, propagator.engine⟩

/-- Asks the engine to reload, or puts that off. -/
def signalReload (propagator : Propagator) : Action ReloadState := do
  let machine ← get
  if machine.defersReloads then
    set { machine with tasks := machine.tasks ++ [propagator.task] }
    return .waiting machine.tasks.length
  else
    let result ← propagator.reloader.ask propagator.engine
    noteReload propagator.engine result
    return .settled result

def propagate (propagator : Propagator) (rules : RuleSet) : Action Report := do
  let (entries, listFault) ← attempt (propagator.writeFilterList rules) isListFault fun e =>
    Text.ofString "Could not write filter list " ++ propagator.filterListPath.text
      ++ Text.ofString ": " ++ e.message
  let (published, channelFault) ← attempt (propagator.publish rules) Fault.isOfStorage fun e =>
    Text.ofString "Could not publish element rules for in-page script: " ++ e.message
  let reload ← if listFault.isNone then propagator.signalReload else pure .unasked
  Action.note .info source
    (Text.ofString "Propagated " ++ Text.ofNat entries ++ Text.ofString " filter entries, "
      ++ Text.ofNat published ++ Text.ofString " in-page rules")
  return ⟨entries, published, listFault, channelFault, reload⟩

end Propagator

/-- The fault of a report in which a sink is not up to date. -/
def Report.fault? (report : Report) : Option Fault :=
  if report.ok then none else some (.notPropagated report.filterListFault report.channelFault)

/-- The requests that wait are made now, in their order; one of them may be called off. -/
def settleFrom (calledOff : Option Nat) (place : Nat) : List ReloadTask → Action Unit
  | [] => return ()
  | task :: tasks => do
      let outcome ←
        if calledOff = some place then pure none
        else do
          let result ← task.reloader.ask task.engine
          Propagator.noteReload task.engine result
          pure (some result)
      modify fun machine => { machine with outcomes := machine.outcomes ++ [outcome] }
      settleFrom calledOff (place + 1) tasks

def ReloadState.place? : ReloadState → Option Nat
  | .waiting place => some place
  | .unasked | .settled _ => none

def settlePending (calledOff : Option Nat) : Action Unit := do
  let machine ← get
  settleFrom calledOff machine.outcomes.length (machine.tasks.drop machine.outcomes.length)

/--
Waits for the request of a report: what became of it, and nothing when it was called off. A request
can be called off as long as it waits. Whoever waits lets all requests be made that still wait.
-/
def Report.awaitReload (report : Report) (callsOff : Bool) :
    Action (Option (Option ReloadResult)) := do
  settlePending (if callsOff then report.reload.place? else none)
  match report.reload with
  | .unasked => return some none
  | .settled result => return some (some result)
  | .waiting place =>
      match (← get).outcomes[place]? with
      | some (some result) => return some (some result)
      | _ => return none

end SiteFilter
