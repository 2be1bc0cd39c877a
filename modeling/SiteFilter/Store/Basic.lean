import SiteFilter.Propagation
import SiteFilter.Text.Lowercase

/-!
# The rule store

The host rules and element rules that the user edits, in the order in which they came and without
repetitions, with the storage that they are kept in and the sinks that they go to.
-/

namespace SiteFilter

/-- What a subscriber does when it is told the rules. -/
inductive Reaction
  | silent
  | fail (reason : Text)
  | addHost (name : Text)
  | unsubscribe (name : Text)
deriving DecidableEq

/-- Somebody who is told the rules after every change. -/
structure Subscriber where
  name : Text
  reaction : Reaction
deriving DecidableEq

structure RuleStore where
  storage : KeyedStorage
  propagator : Option Propagator
  /-- Host names are taken in lower case. -/
  lowersHosts : Bool
  hosts : List HostRule
  elementRules : List ElementRule
  subscribers : List Subscriber
  lastReport : Option Report

def hostsKey : Text :=
  Text.ofString "Hosts"

def elementRulesKey : Text :=
  Text.ofString "ElementRules"

/-- The elements of a list without repetitions, in the order of their first occurrences. -/
def distinct {α : Type} [DecidableEq α] (items : List α) : List α :=
  (items.foldl (fun done item => if item ∈ done then done else item :: done) []).reverse

/-- A host name as it is kept: without blanks around it, and in lower case if so set. -/
def normalizeHost (lowersHosts : Bool) (name : Text) : Text :=
  if lowersHosts then name.strip.lower else name.strip

namespace RuleStore

def source : String :=
  "exactblock.blocker.store"

def fresh (storage : KeyedStorage) (propagator : Option Propagator) (lowersHosts : Bool) :
    RuleStore where
  storage := storage
  propagator := propagator
  lowersHosts := lowersHosts
  hosts := []
  elementRules := []
  subscribers := []
  lastReport := none

def snapshot (store : RuleStore) : RuleSet :=
  ⟨store.hosts, store.elementRules⟩

def withRules (store : RuleStore) (rules : RuleSet) : RuleStore :=
  { store with hosts := rules.hosts, elementRules := rules.elementRules }

def hostOf (lowersHosts : Bool) : Json → Option HostRule
  | .text name => (HostRule.make (normalizeHost lowersHosts name)).toOption
  | _ => none

def hostsOf (lowersHosts : Bool) (values : List Json) : List HostRule :=
  distinct (values.filterMap (hostOf lowersHosts))

def elementRulesOf (values : List Json) : List ElementRule :=
  distinct (values.filterMap fun value => (ElementRule.ofJson value).toOption)

/-- A stored value that may be missing; what counts as no is taken for an empty list. -/
def storedElements (value : Option Json) : Except Json.Mismatch (List Json) :=
  match value with
  | none => .ok []
  | some value => if value.truthy then value.elements else .ok []

def stored (storage : KeyedStorage) (files : FileTree) : Except Fault (List Json × List Json) := do
  let hosts ← storage.get? files hostsKey
  let rules ← storage.get? files elementRulesKey
  match storedElements hosts, storedElements rules with
  | .ok hosts, .ok rules => return (hosts, rules)
  | .error e, _ => throw (.mismatch e)
  | _, .error e => throw (.mismatch e)

/-- The rules that storage holds. Values that are no rules are left out. -/
def read (storage : KeyedStorage) (lowersHosts : Bool) (files : FileTree) :
    Except Fault RuleSet := do
  let (hosts, rules) ← stored storage files
  return ⟨hostsOf lowersHosts hosts, elementRulesOf rules⟩

def hostsValue (hosts : List HostRule) : Json :=
  .array (hosts.map fun rule => .text rule.hostname)

def elementRulesValue (rules : List ElementRule) : Json :=
  .array (rules.map ElementRule.toJson)

def subscribe (subscriber : Subscriber) (store : RuleStore) : RuleStore :=
  { store with subscribers := store.subscribers ++ [subscriber] }

/-- The first subscription under a name taken away. -/
def unsubscribe (name : Text) (store : RuleStore) : RuleStore :=
  { store with subscribers := store.subscribers.eraseP (·.name = name) }

end RuleStore

structure Editor where
  machine : Machine
  store : RuleStore

abbrev Editing := ExceptT Fault (StateM Editor)

namespace Editing

def act {α : Type} (action : Action α) : Editing α := do
  let editor ← get
  let (result, machine) := action.runOn editor.machine
  set { editor with machine := machine }
  match result with
  | .ok a => return a
  | .error e => throw e

def runOn {α : Type} (editing : Editing α) (editor : Editor) : Except Fault α × Editor :=
  Id.run (StateT.run (ExceptT.run editing) editor)

/-- What a part of the work would give, with a failure as a value. -/
def outcome {α : Type} (editing : Editing α) : Editing (Except Fault α) := do
  let (result, editor) := editing.runOn (← get)
  set editor
  return result

def store : Editing RuleStore := do
  return (← get).store

def modifyStore (change : RuleStore → RuleStore) : Editing Unit :=
  modify fun editor => { editor with store := change editor.store }

end Editing

end SiteFilter
