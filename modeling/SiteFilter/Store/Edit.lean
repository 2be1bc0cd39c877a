import SiteFilter.Rule.Document
import SiteFilter.Store.Basic

/-!
# Edits

Every change of the rules is stored, propagated and then told to the subscribers. A call that
changes nothing does none of that. When the change cannot be stored the rules stay as they were;
when it cannot be propagated the rules are changed all the same, the subscribers are told, and the
fault comes at the end.
-/

namespace SiteFilter.RuleStore

/-- The two lists of rules, each stored under a key of its own. -/
inductive Part
  | hosts
  | elementRules
deriving DecidableEq

def noteRejected (values : List Json) : Action Unit :=
  values.forM fun value =>
    match ElementRule.ofJson value with
    | .ok _ => return ()
    | .error _ =>
        Action.note .warning source
          (Text.ofString "Skipping unreadable stored element rule: " ++ value.display)

def load : Editing Unit := do
  let store ← Editing.store
  let (hosts, elementRules) ← Editing.act (Action.ask (stored store.storage))
  Editing.act (noteRejected elementRules)
  let rules : RuleSet := ⟨hostsOf store.lowersHosts hosts, elementRulesOf elementRules⟩
  Editing.modifyStore (·.withRules rules)
  Editing.act (Action.note .debug source
    (Text.ofString "Loaded " ++ Text.ofNat rules.hosts.length ++ Text.ofString " host rules, "
      ++ Text.ofNat rules.elementRules.length ++ Text.ofString " element rules"))

def persist (part : Part) : Editing Unit := do
  let store ← Editing.store
  Editing.act
    (match part with
     | .hosts => store.storage.put hostsKey (hostsValue store.hosts)
     | .elementRules => store.storage.put elementRulesKey (elementRulesValue store.elementRules))

def propagate (rules : RuleSet) : Editing (Option Report) := do
  let store ← Editing.store
  match store.propagator with
  | none => return none
  | some propagator =>
      let report ← Editing.act (propagator.propagate rules)
      Editing.modifyStore fun store => { store with lastReport := some report }
      match report.fault? with
      | some e => throw e
      | none => return some report

/-- Puts new rules in the place of the old ones, where one list is changed. -/
def commitWith (announce : RuleSet → Editing Unit) (part : Part) (rules : RuleSet) :
    Editing Unit := do
  let before ← Editing.store
  Editing.modifyStore (·.withRules rules)
  tryCatch (persist part) fun e => do
    if e.isOfStorage then Editing.modifyStore (·.withRules before.snapshot)
    throw e
  let propagated ← Editing.outcome (propagate rules)
  announce rules
  match propagated with
  | .ok _ => return ()
  | .error e => throw e

/-- Adds a host, unless its name is empty or it is there. -/
def addHostWith (announce : RuleSet → Editing Unit) (name : Text) : Editing Bool := do
  let store ← Editing.store
  match HostRule.make (normalizeHost store.lowersHosts name) with
  | .error _ => return false
  | .ok rule =>
      if rule ∈ store.hosts then return false
      else
        commitWith announce .hosts ⟨store.hosts ++ [rule], store.elementRules⟩
        return true

/--
Tells the rules to the subscribers that there are now. A subscriber may add a host in turn; `fuel`
bounds how deep that can go, which is at most once for each subscriber.
-/
def announce : (fuel : Nat) → RuleSet → Editing Unit
  | 0, _ => return ()
  | fuel + 1, rules => do
      let store ← Editing.store
      store.subscribers.forM fun subscriber => do
        Editing.act (Action.record (.telling subscriber.name rules))
        match subscriber.reaction with
        | .silent => return ()
        | .fail reason => throw (.failure reason)
        | .addHost name =>
            let _ ← addHostWith (announce fuel) name
            return ()
        | .unsubscribe name => Editing.modifyStore (RuleStore.unsubscribe name)

def announceAll (rules : RuleSet) : Editing Unit := do
  let store ← Editing.store
  announce (store.subscribers.length + 1) rules

def commit (part : Part) (rules : RuleSet) : Editing Unit :=
  commitWith announceAll part rules

def addHost (name : Text) : Editing Bool :=
  addHostWith announceAll name

/-- Removes a host, by its name as given or as kept, and says how many rules were removed. -/
def removeHost (name : Text) : Editing Nat := do
  let store ← Editing.store
  let names := [name.strip, normalizeHost store.lowersHosts name]
  let count := store.hosts.countP fun rule => rule.hostname ∈ names
  if count = 0 then return 0
  commit .hosts ⟨store.hosts.filter fun rule => rule.hostname ∉ names, store.elementRules⟩
  return count

def addElementRule (rule : ElementRule) : Editing Bool := do
  let store ← Editing.store
  if rule ∈ store.elementRules then return false
  commit .elementRules ⟨store.hosts, store.elementRules ++ [rule]⟩
  return true

/-- Removes an element rule and says how often it was there. -/
def removeElementRule (rule : ElementRule) : Editing Nat := do
  let store ← Editing.store
  let count := store.elementRules.count rule
  if count = 0 then return 0
  commit .elementRules ⟨store.hosts, store.elementRules.filter (· ≠ rule)⟩
  return count

/-- Removes the element rule with a key. A text that is no key removes nothing. -/
def removeElementRuleByKey (key : Text) : Editing Nat :=
  match ElementRule.ofKey key with
  | .ok rule => removeElementRule rule
  | .error _ => return 0

def importRules (document : Text) : Editing Nat := do
  let parsed := RuleDocument.parse document
  Editing.act (Action.note .debug "exactblock.blocker.parser"
    (Text.ofString "Parsed rule document: " ++ Text.ofNat parsed.length
      ++ Text.ofString " rules, " ++ Text.ofNat (RuleDocument.malformedLines document)
      ++ Text.ofString " malformed lines skipped"))
  let store ← Editing.store
  let added := distinct (parsed.filter (· ∉ store.elementRules))
  if !added.isEmpty then
    commit .elementRules ⟨store.hosts, store.elementRules ++ added⟩
  Editing.act (Action.note .info source
    (Text.ofString "Imported " ++ Text.ofNat added.length ++ Text.ofString " new element rules"))
  return added.length

def exportRules (store : RuleStore) : Text :=
  RuleDocument.format store.elementRules []

def clearElementRules : Editing Unit := do
  let store ← Editing.store
  if !store.elementRules.isEmpty then commit .elementRules ⟨store.hosts, []⟩

def republish : Editing (Option Report) := do
  propagate (← Editing.store).snapshot

/-- The store that the settings describe, before its rules are loaded. -/
def ofSettings (settings : Settings) (env : Environment) : Except Fault RuleStore := do
  let storage ← settings.ownStorageDirectory env
  let propagator ← Propagator.ofSettings settings env
  return fresh ⟨storage, env.limits⟩ (some propagator) settings.lowersHosts.truthy

end SiteFilter.RuleStore
