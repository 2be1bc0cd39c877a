import SiteFilter.Proofs.Journal
import SiteFilter.Proofs.Store.Commit

/-!
# Calls of the rule store

The operations of the store as data, with what each of them asks for: a change of one of the lists,
if there is anything to change, and an answer.
-/

namespace SiteFilter.RuleStore

open FileTree Effect Editing

inductive Call
  | addHost (name : Text)
  | removeHost (name : Text)
  | addElementRule (rule : ElementRule)
  | removeElementRule (rule : ElementRule)
  | removeElementRuleByKey (key : Text)
  | importRules (document : Text)
  | clearElementRules
  | republish

inductive Answer
  | added (isNew : Bool)
  | counted (count : Nat)
  | done
  | propagated (report : Option Report)

namespace Call

def work : Call → Editing Answer
  | .addHost name => .added <$> RuleStore.addHost name
  | .removeHost name => .counted <$> RuleStore.removeHost name
  | .addElementRule rule => .added <$> RuleStore.addElementRule rule
  | .removeElementRule rule => .counted <$> RuleStore.removeElementRule rule
  | .removeElementRuleByKey key => .counted <$> RuleStore.removeElementRuleByKey key
  | .importRules document => .counted <$> RuleStore.importRules document
  | .clearElementRules => (fun _ => .done) <$> RuleStore.clearElementRules
  | .republish => .propagated <$> RuleStore.republish

/-- Carries out an operation: its answer or its fault, and the process afterwards. -/
def perform (call : Call) (editor : Editor) : Except Fault Answer × Editor :=
  call.work.runOn editor

def run (editor : Editor) (calls : List Call) : Editor :=
  calls.foldl (fun editor call => (call.perform editor).2) editor

structure Plan where
  change : Option (Part × RuleSet)
  answer : Answer

def Plan.idle (answer : Answer) : Plan :=
  ⟨none, answer⟩

def planAddHost (lowersHosts : Bool) (rules : RuleSet) (name : Text) : Plan :=
  match HostRule.make (normalizeHost lowersHosts name) with
  | .error _ => .idle (.added false)
  | .ok rule =>
      if rule ∈ rules.hosts then .idle (.added false)
      else ⟨some (.hosts, ⟨rules.hosts ++ [rule], rules.elementRules⟩), .added true⟩

def planRemoveHost (lowersHosts : Bool) (rules : RuleSet) (name : Text) : Plan :=
  let names := [name.strip, normalizeHost lowersHosts name]
  let count := rules.hosts.countP fun rule => rule.hostname ∈ names
  if count = 0 then .idle (.counted 0)
  else
    ⟨some (.hosts, ⟨rules.hosts.filter fun rule => rule.hostname ∉ names, rules.elementRules⟩),
      .counted count⟩

def planAddElementRule (rules : RuleSet) (rule : ElementRule) : Plan :=
  if rule ∈ rules.elementRules then .idle (.added false)
  else ⟨some (.elementRules, ⟨rules.hosts, rules.elementRules ++ [rule]⟩), .added true⟩

def planRemoveElementRule (rules : RuleSet) (rule : ElementRule) : Plan :=
  let count := rules.elementRules.count rule
  if count = 0 then .idle (.counted 0)
  else
    ⟨some (.elementRules, ⟨rules.hosts, rules.elementRules.filter (· ≠ rule)⟩), .counted count⟩

def planImport (rules : RuleSet) (document : Text) : Plan :=
  let added := distinct ((RuleDocument.parse document).filter (· ∉ rules.elementRules))
  if added.isEmpty then .idle (.counted 0)
  else
    ⟨some (.elementRules, ⟨rules.hosts, rules.elementRules ++ added⟩), .counted added.length⟩

def planClear (rules : RuleSet) : Plan :=
  if rules.elementRules.isEmpty then .idle .done
  else ⟨some (.elementRules, ⟨rules.hosts, []⟩), .done⟩

/-- What an operation on rules asks for; propagating them again asks for no change. -/
def plan? (lowersHosts : Bool) (rules : RuleSet) : Call → Option Plan
  | .addHost name => some (planAddHost lowersHosts rules name)
  | .removeHost name => some (planRemoveHost lowersHosts rules name)
  | .addElementRule rule => some (planAddElementRule rules rule)
  | .removeElementRule rule => some (planRemoveElementRule rules rule)
  | .removeElementRuleByKey key =>
      match ElementRule.ofKey key with
      | .ok rule => some (planRemoveElementRule rules rule)
      | .error _ => some (.idle (.counted 0))
  | .importRules document => some (planImport rules document)
  | .clearElementRules => some (planClear rules)
  | .republish => none

end Call

def Follows (before : Editor) (plan : Call.Plan) (result : Except Fault Answer)
    (after : Editor) : Prop :=
  match plan.change with
  | none =>
      result = .ok plan.answer ∧ after.store = before.store ∧
        after.machine.files = before.machine.files
  | some (part, rules) =>
      ∃ ended, Commits before part rules ended after ∧ result = ended.map fun _ => plan.answer

/-! ## Each operation follows its plan -/

/-- Nothing but notes came between two states of a process. -/
structure Noted (before after : Editor) : Prop where
  store : after.store = before.store
  alike : before.machine.Alike after.machine
  does : before.machine.Does [] [] after.machine

theorem Noted.refl (editor : Editor) : Noted editor editor :=
  ⟨rfl, .refl _, .refl _⟩

theorem Noted.trans {before middle after : Editor} (first : Noted before middle)
    (second : Noted middle after) : Noted before after :=
  ⟨second.store.trans first.store, first.alike.trans second.alike,
    first.does.behindNothing second.does⟩

theorem note_noted (level : Level) (origin : String) (message : Text) (editor : Editor) :
    Ensures (act (Action.note level origin message)) editor fun result after =>
      result = .ok () ∧ Noted editor after := by
  refine (Editing.act_spec ((Action.note_spec level origin message editor.machine).and
    (Action.note_does level origin message editor.machine))).mono ?_
  rintro result after ⟨store, ⟨done, alike⟩, -, does⟩
  exact ⟨done, store, alike, does⟩

/--
What is left to show of an operation with a plan: how it ends if nothing is to be changed, and how
the change ends otherwise. Notes may come before and behind.
-/
def Call.Plan.Leads (plan : Call.Plan) (editor : Editor)
    (post : Except Fault Answer → Editor → Prop) : Prop :=
  match plan.change with
  | none => ∀ after, Noted editor after → post (.ok plan.answer) after
  | some (part, rules) =>
      ∀ start, Noted editor start → Ensures (commit part rules) start fun ended middle =>
        ∀ after, Noted middle after → post (ended.map fun _ => plan.answer) after

section Plans

variable {editor : Editor} {post : Except Fault Answer → Editor → Prop}

/-- A change with nothing but notes around it. -/
theorem commitThen {α : Type} {part : Part} {rules : RuleSet} {start : Editor}
    {next : Unit → Editing α} {value : α} {f : α → Answer}
    (leads : (Call.Plan.mk (some (part, rules)) (f value)).Leads editor post)
    (noted : Noted editor start)
    (quiet : ∀ middle, Ensures (next ()) middle fun result after =>
      result = .ok value ∧ Noted middle after) :
    Ensures (commit part rules >>= next) start fun result after => post (result.map f) after := by
  refine .bind (leads start noted) ?_ ?_
  · intro _ middle known
    refine (quiet middle).mono ?_
    rintro _ after ⟨rfl, noted'⟩
    exact known after noted'
  · intro e after known
    exact known after (.refl after)

theorem commitReturn {α : Type} {part : Part} {rules : RuleSet} {value : α} {f : α → Answer}
    (leads : (Call.Plan.mk (some (part, rules)) (f value)).Leads editor post) :
    Ensures (do
      commit part rules
      return value) editor fun result after => post (result.map f) after :=
  commitThen leads (.refl editor) fun middle => .pure ⟨rfl, .refl middle⟩

theorem addHost_leads {name : Text}
    (leads : (Call.planAddHost editor.store.lowersHosts editor.store.snapshot name).Leads editor
      post) :
    Ensures (addHost name) editor fun result after => post (result.map .added) after := by
  apply Editing.storeThen
  unfold Call.planAddHost at leads
  cases made : HostRule.make (normalizeHost editor.store.lowersHosts name) with
  | error e =>
      rw [made] at leads
      exact .pure (leads editor (.refl editor))
  | ok rule =>
      simp only [made] at leads
      dsimp only
      by_cases there : rule ∈ editor.store.hosts
      · have there' : rule ∈ editor.store.snapshot.hosts := there
        rw [if_pos there'] at leads
        rw [if_pos there]
        exact .pure (leads editor (.refl editor))
      · have there' : rule ∉ editor.store.snapshot.hosts := there
        rw [if_neg there'] at leads
        rw [if_neg there]
        exact commitReturn leads

theorem removeHost_leads {name : Text}
    (leads : (Call.planRemoveHost editor.store.lowersHosts editor.store.snapshot name).Leads editor
      post) :
    Ensures (removeHost name) editor fun result after => post (result.map .counted) after := by
  apply Editing.storeThen
  unfold Call.planRemoveHost at leads
  dsimp only [RuleStore.snapshot] at leads ⊢
  split
  · rename_i none
    rw [if_pos none] at leads
    exact .pure (leads editor (.refl editor))
  · rename_i some
    rw [if_neg some] at leads
    exact commitReturn leads

theorem addElementRule_leads {rule : ElementRule}
    (leads : (Call.planAddElementRule editor.store.snapshot rule).Leads editor post) :
    Ensures (addElementRule rule) editor fun result after => post (result.map .added) after := by
  apply Editing.storeThen
  unfold Call.planAddElementRule at leads
  by_cases there : rule ∈ editor.store.elementRules
  · have there' : rule ∈ editor.store.snapshot.elementRules := there
    rw [if_pos there'] at leads
    rw [if_pos there]
    exact .pure (leads editor (.refl editor))
  · have there' : rule ∉ editor.store.snapshot.elementRules := there
    rw [if_neg there'] at leads
    rw [if_neg there]
    exact commitReturn leads

theorem removeElementRule_leads {rule : ElementRule}
    (leads : (Call.planRemoveElementRule editor.store.snapshot rule).Leads editor post) :
    Ensures (removeElementRule rule) editor fun result after =>
      post (result.map .counted) after := by
  apply Editing.storeThen
  unfold Call.planRemoveElementRule at leads
  dsimp only [RuleStore.snapshot] at leads ⊢
  split
  · rename_i none
    rw [if_pos none] at leads
    exact .pure (leads editor (.refl editor))
  · rename_i some
    rw [if_neg some] at leads
    exact commitReturn leads

theorem clearElementRules_leads
    (leads : (Call.planClear editor.store.snapshot).Leads editor post) :
    Ensures clearElementRules editor fun result after =>
      post (result.map fun _ => .done) after := by
  apply Editing.storeThen
  unfold Call.planClear at leads
  cases empty : editor.store.elementRules.isEmpty with
  | true =>
      have empty' : editor.store.snapshot.elementRules.isEmpty = true := empty
      rw [if_pos empty'] at leads
      exact .pure (leads editor (.refl editor))
  | false =>
      have some : ¬ editor.store.snapshot.elementRules.isEmpty = true := by
        rw [show editor.store.snapshot.elementRules.isEmpty = false from empty]
        exact Bool.false_ne_true
      rw [if_neg some] at leads
      refine (leads editor (.refl editor)).mono ?_
      intro result after known
      exact known after (.refl after)

theorem importRules_leads {document : Text}
    (leads : (Call.planImport editor.store.snapshot document).Leads editor post) :
    Ensures (importRules document) editor fun result after =>
      post (result.map .counted) after := by
  refine .bindOk (note_noted _ _ _ editor) ?_
  intro start noted
  apply Editing.storeThen
  rw [noted.store]
  unfold Call.planImport at leads
  generalize found : distinct ((RuleDocument.parse document).filter
    (· ∉ editor.store.elementRules)) = added
  have found' : distinct ((RuleDocument.parse document).filter
    (· ∉ editor.store.snapshot.elementRules)) = added := found
  rw [found'] at leads
  dsimp only at leads
  have quiet (middle : Editor) : Ensures (do
      act (Action.note .info source (Text.ofString "Imported " ++ Text.ofNat added.length
        ++ Text.ofString " new element rules"))
      return added.length) middle fun result after =>
        result = .ok added.length ∧ Noted middle after :=
    .bindOk (note_noted _ _ _ middle) fun after noted => .pure ⟨rfl, noted⟩
  dsimp only
  cases empty : added.isEmpty with
  | true =>
      rw [empty, if_pos rfl] at leads
      rw [List.isEmpty_iff] at empty
      subst empty
      refine (quiet start).mono ?_
      rintro _ after ⟨rfl, noted'⟩
      exact leads after (noted.trans noted')
  | false =>
      rw [empty, if_neg Bool.false_ne_true] at leads
      exact commitThen (f := .counted) leads noted quiet

/-- Every operation but the one that only propagates comes to what its plan says. -/
theorem work_leads {call : Call} {plan : Call.Plan}
    (planned : call.plan? editor.store.lowersHosts editor.store.snapshot = some plan)
    (leads : plan.Leads editor post) : Ensures call.work editor post := by
  cases call with
  | addHost name =>
      cases planned
      exact .map (addHost_leads leads)
  | removeHost name =>
      cases planned
      exact .map (removeHost_leads leads)
  | addElementRule rule =>
      cases planned
      exact .map (addElementRule_leads leads)
  | removeElementRule rule =>
      cases planned
      exact .map (removeElementRule_leads leads)
  | removeElementRuleByKey key =>
      apply Ensures.map
      unfold removeElementRuleByKey
      simp only [Call.plan?] at planned
      cases found : ElementRule.ofKey key with
      | error e =>
          rw [found] at planned
          cases planned
          exact .pure (leads editor (.refl editor))
      | ok rule =>
          rw [found] at planned
          cases planned
          exact removeElementRule_leads leads
  | importRules document =>
      cases planned
      exact .map (importRules_leads leads)
  | clearElementRules =>
      cases planned
      exact .map (clearElementRules_leads leads)
  | republish => cases planned

end Plans

/-- When nobody is subscribed an operation follows its plan. -/
theorem work_spec {editor : Editor} (nobody : editor.store.subscribers = []) {call : Call}
    {plan : Call.Plan}
    (planned : call.plan? editor.store.lowersHosts editor.store.snapshot = some plan) :
    Ensures call.work editor (Follows editor plan) := by
  apply work_leads planned
  unfold Call.Plan.Leads Follows
  split
  · intro after noted
    exact ⟨rfl, noted.store, noted.alike.files⟩
  · intro start noted
    have nobody' : start.store.subscribers = [] := by
      rw [noted.store]
      exact nobody
    refine (commit_spec nobody' _ _).mono ?_
    intro ended middle commits after noted'
    exact ⟨ended, commits.congr ⟨noted.store.symm, noted.alike.files.symm⟩
      ⟨noted'.store, noted'.alike.files⟩, rfl⟩

/-- Propagating again changes no rules. -/
theorem republish_spec (editor : Editor) :
    Ensures Call.republish.work editor fun result after =>
      after.store.core = editor.store.core ∧
        ∃ ended, Propagates editor.store.propagator editor.store.snapshot editor.machine.files
          ended after.machine.files ∧ result = ended.map .propagated := by
  apply Ensures.map
  apply Editing.storeThen
  refine (propagate_spec _ editor).mono ?_
  rintro result after ⟨core, propagates⟩
  exact ⟨core, result, propagates, rfl⟩

end SiteFilter.RuleStore
