import Mathlib.Data.List.Nodup
import SiteFilter.Proofs.Store.Runs

/-!
# The store as a pair of ordered sets

Seen from outside the store is two lists without repetitions, one of normalized host names and one
of valid rules. Every operation does to them what its name says, or it is refused and does nothing.
-/

namespace SiteFilter.RuleStore

/-- Host names and rules in the order in which they came. -/
structure OrderedSets where
  hosts : List Text
  rules : List ElementRule
deriving DecidableEq

namespace OrderedSets

def ofRules (rules : RuleSet) : OrderedSets :=
  ⟨rules.hosts.map (·.hostname), rules.elementRules⟩

/-- No repetitions, names that are not empty and normalized, and rules that are valid. -/
structure IsValid (lowersHosts : Bool) (sets : OrderedSets) : Prop where
  hosts_nodup : sets.hosts.Nodup
  hosts_named : ∀ name ∈ sets.hosts, name ≠ [] ∧ normalizeHost lowersHosts name = name
  rules_nodup : sets.rules.Nodup
  rules_valid : ∀ rule ∈ sets.rules,
    rule.domain ≠ [] ∧ rule.selector ≠ [] ∧ Text.hasInfix ruleDelimiter rule.domain = false

def remove (sets : OrderedSets) (rule : ElementRule) : OrderedSets × Option Answer :=
  if rule ∈ sets.rules then (⟨sets.hosts, sets.rules.erase rule⟩, some (.counted 1))
  else (sets, some (.counted 0))

/-- What an operation does, with the answer that it has to give if one is prescribed. -/
def step (lowersHosts : Bool) (sets : OrderedSets) : Call → OrderedSets × Option Answer
  | .addHost name =>
      let name := normalizeHost lowersHosts name
      if name ≠ [] ∧ name ∉ sets.hosts then
        (⟨sets.hosts ++ [name], sets.rules⟩, some (.added true))
      else (sets, some (.added false))
  | .removeHost name =>
      let name := normalizeHost lowersHosts name
      if name ∈ sets.hosts then (⟨sets.hosts.erase name, sets.rules⟩, some (.counted 1))
      else (sets, some (.counted 0))
  | .addElementRule rule =>
      if rule ∉ sets.rules then (⟨sets.hosts, sets.rules ++ [rule]⟩, some (.added true))
      else (sets, some (.added false))
  | .removeElementRule rule => sets.remove rule
  | .removeElementRuleByKey key =>
      match ElementRule.ofKey key with
      | .ok rule => sets.remove rule
      | .error _ => (sets, some (.counted 0))
  | .importRules document =>
      let rules := (RuleDocument.parse document).foldl addNew sets.rules
      (⟨sets.hosts, rules⟩, some (.counted (rules.length - sets.rules.length)))
  | .clearElementRules => (⟨sets.hosts, []⟩, some .done)
  | .republish => (sets, none)

/-! ## Plans and steps -/

theorem hostname_injective {rule other : HostRule} (h : rule.hostname = other.hostname) :
    rule = other := by
  cases rule
  cases other
  cases h
  rfl

theorem ofRules_injective {rules other : RuleSet} (h : ofRules rules = ofRules other) :
    rules = other := by
  have hosts : rules.hosts = other.hosts :=
    List.map_injective_iff.mpr (fun _ _ => hostname_injective) (congrArg OrderedSets.hosts h)
  have elementRules := congrArg OrderedSets.rules h
  exact congrArg₂ RuleSet.mk hosts elementRules

theorem isValid_ofRules {lowersHosts : Bool} {rules : RuleSet} (h : IsKept lowersHosts rules) :
    (ofRules rules).IsValid lowersHosts := by
  refine ⟨h.hosts_nodup.map fun _ _ => hostname_injective, fun name inside => ?_,
    h.elementRules_nodup, fun rule _ => ⟨rule.domain_ne, rule.selector_ne, rule.no_delimiter⟩⟩
  obtain ⟨rule, listed, rfl⟩ := List.mem_map.mp inside
  exact ⟨rule.hostname_ne, h.hosts_normalized rule listed⟩

def planned (rules : RuleSet) (plan : Call.Plan) : RuleSet :=
  match plan.change with
  | none => rules
  | some (_, changed) => changed

/-- A plan does what a step does, and has the answer that is prescribed. -/
def Agrees (rules : RuleSet) (plan : Call.Plan) (next : OrderedSets × Option Answer) : Prop :=
  ofRules (planned rules plan) = next.1 ∧ next.2 = some plan.answer

variable {lowersHosts : Bool} {rules : RuleSet}

theorem agrees_idle (answer : Answer) :
    Agrees rules (.idle answer) (ofRules rules, some answer) :=
  ⟨rfl, rfl⟩

theorem mem_names (rule : HostRule) {hosts : List HostRule} :
    rule.hostname ∈ hosts.map (·.hostname) ↔ rule ∈ hosts := by
  constructor
  · intro inside
    obtain ⟨other, listed, same⟩ := List.mem_map.mp inside
    rwa [← hostname_injective same]
  · exact fun listed => List.mem_map.mpr ⟨rule, listed, rfl⟩

theorem agrees_addHost (name : Text) :
    Agrees rules (Call.planAddHost lowersHosts rules name)
      (step lowersHosts (ofRules rules) (.addHost name)) := by
  unfold Call.planAddHost step
  dsimp only
  generalize normalizeHost lowersHosts name = kept
  by_cases empty : kept = []
  · subst empty
    rw [if_neg fun h => h.1 rfl]
    exact agrees_idle _
  · rw [HostRule.make, dif_neg empty]
    dsimp only
    have listed : kept ∈ (ofRules rules).hosts ↔ (⟨kept, empty⟩ : HostRule) ∈ rules.hosts :=
      mem_names ⟨kept, empty⟩
    by_cases there : (⟨kept, empty⟩ : HostRule) ∈ rules.hosts
    · rw [if_pos there, if_neg fun h => h.2 (listed.mpr there)]
      exact agrees_idle _
    · rw [if_neg there, if_pos ⟨empty, fun h => there (listed.mp h)⟩]
      refine ⟨?_, rfl⟩
      simp [planned, ofRules]

/-- A kept name is the name as given only if it is the name as kept. -/
theorem mem_names_iff (kept : IsKept lowersHosts rules) (name : Text) {rule : HostRule}
    (listed : rule ∈ rules.hosts) :
    rule.hostname ∈ [name.strip, normalizeHost lowersHosts name] ↔
      rule.hostname = normalizeHost lowersHosts name := by
  simp only [List.mem_cons, List.not_mem_nil, or_false]
  constructor
  · rintro (stripped | same)
    · have settled : normalizeHost lowersHosts rule.hostname = rule.hostname :=
        kept.hosts_normalized rule listed
      rw [← settled, stripped, normalizeHost_strip]
    · exact same
  · exact .inr

theorem agrees_removeHost (kept : IsKept lowersHosts rules) (name : Text) :
    Agrees rules (Call.planRemoveHost lowersHosts rules name)
      (step lowersHosts (ofRules rules) (.removeHost name)) := by
  have nodup : (rules.hosts.map (·.hostname)).Nodup := (isValid_ofRules kept).hosts_nodup
  have count : (rules.hosts.countP fun rule =>
      rule.hostname ∈ [name.strip, normalizeHost lowersHosts name]) =
        (rules.hosts.map (·.hostname)).count (normalizeHost lowersHosts name) := by
    rw [List.count, List.countP_map]
    apply List.countP_congr
    intro rule listed
    simpa using mem_names_iff kept name listed
  have left : ((rules.hosts.filter fun rule =>
      rule.hostname ∉ [name.strip, normalizeHost lowersHosts name]).map (·.hostname)) =
        (rules.hosts.map (·.hostname)).erase (normalizeHost lowersHosts name) := by
    rw [nodup.erase_eq_filter, List.filter_map]
    congr 1
    apply List.filter_congr
    intro rule listed
    have iff := mem_names_iff kept name listed
    rw [Bool.eq_iff_iff]
    simp only [Function.comp, decide_eq_true_eq, bne_iff_ne, ne_eq, iff]
  unfold Call.planRemoveHost step
  dsimp only
  rw [count]
  by_cases there : normalizeHost lowersHosts name ∈ rules.hosts.map (·.hostname)
  · have there' : normalizeHost lowersHosts name ∈ (ofRules rules).hosts := there
    rw [List.count_eq_one_of_mem nodup there, if_neg (by decide), if_pos there']
    refine ⟨?_, rfl⟩
    exact congrArg (OrderedSets.mk · rules.elementRules) left
  · have there' : normalizeHost lowersHosts name ∉ (ofRules rules).hosts := there
    rw [List.count_eq_zero_of_not_mem there, if_pos rfl, if_neg there']
    exact agrees_idle _

theorem agrees_addElementRule (rule : ElementRule) :
    Agrees rules (Call.planAddElementRule rules rule)
      (step lowersHosts (ofRules rules) (.addElementRule rule)) := by
  unfold Call.planAddElementRule step
  dsimp only
  by_cases there : rule ∈ rules.elementRules
  · have there' : ¬ rule ∉ (ofRules rules).rules := fun h => h there
    rw [if_pos there, if_neg there']
    exact agrees_idle _
  · have there' : rule ∉ (ofRules rules).rules := there
    rw [if_neg there, if_pos there']
    exact ⟨rfl, rfl⟩

theorem agrees_removeElementRule (kept : IsKept lowersHosts rules) (rule : ElementRule) :
    Agrees rules (Call.planRemoveElementRule rules rule) ((ofRules rules).remove rule) := by
  have nodup := kept.elementRules_nodup
  unfold Call.planRemoveElementRule remove
  dsimp only
  by_cases there : rule ∈ rules.elementRules
  · have there' : rule ∈ (ofRules rules).rules := there
    rw [List.count_eq_one_of_mem nodup there, if_neg (by decide), if_pos there']
    refine ⟨?_, rfl⟩
    change OrderedSets.mk _ _ = OrderedSets.mk _ _
    congr 1
    change _ = rules.elementRules.erase rule
    rw [nodup.erase_eq_filter]
    apply List.filter_congr
    intro other _
    rw [Bool.eq_iff_iff]
    simp only [decide_eq_true_eq, bne_iff_ne]
  · have there' : rule ∉ (ofRules rules).rules := there
    rw [List.count_eq_zero_of_not_mem there, if_pos rfl, if_neg there']
    exact agrees_idle _

theorem agrees_importRules (document : Text) :
    Agrees rules (Call.planImport rules document)
      (step lowersHosts (ofRules rules) (.importRules document)) := by
  have all := Call.append_distinct rules.elementRules (RuleDocument.parse document)
  have start : (ofRules rules).rules = rules.elementRules := rfl
  unfold Call.planImport step
  dsimp only
  rw [start, ← all]
  generalize distinct ((RuleDocument.parse document).filter (· ∉ rules.elementRules)) = added
  rw [List.length_append, Nat.add_sub_cancel_left]
  cases added with
  | nil =>
      rw [List.append_nil]
      exact agrees_idle _
  | cons rule others => exact ⟨rfl, rfl⟩

theorem agrees_clear :
    Agrees rules (Call.planClear rules)
      (step lowersHosts (ofRules rules) .clearElementRules) := by
  unfold Call.planClear
  by_cases empty : rules.elementRules = []
  · rw [empty]
    refine ⟨?_, rfl⟩
    exact congrArg (OrderedSets.mk _) empty
  · rw [List.isEmpty_eq_false_iff.mpr empty]
    exact ⟨rfl, rfl⟩

/-- What an operation asks for is what the machine does. -/
theorem agrees_plan {call : Call} {plan : Call.Plan} (kept : IsKept lowersHosts rules)
    (planned : call.plan? lowersHosts rules = some plan) :
    Agrees rules plan (step lowersHosts (ofRules rules) call) := by
  cases call with
  | addHost name =>
      cases planned
      exact agrees_addHost name
  | removeHost name =>
      cases planned
      exact agrees_removeHost kept name
  | addElementRule rule =>
      cases planned
      exact agrees_addElementRule rule
  | removeElementRule rule =>
      cases planned
      exact agrees_removeElementRule kept rule
  | removeElementRuleByKey key =>
      dsimp only [step]
      simp only [Call.plan?] at planned
      cases found : ElementRule.ofKey key with
      | ok rule =>
          rw [found] at planned
          cases planned
          exact agrees_removeElementRule kept rule
      | error e =>
          rw [found] at planned
          cases planned
          exact agrees_idle _
  | importRules document =>
      cases planned
      exact agrees_importRules document
  | clearElementRules =>
      cases planned
      exact agrees_clear
  | republish => cases planned

/-! ## Runs -/

/--
How an operation may end. It does what the machine does, with the answer that is prescribed; or it
is refused by the storage and does nothing; or it does what the machine does and is not propagated.
-/
def Allows (lowersHosts : Bool) (sets : OrderedSets) (call : Call) (result : Except Fault Answer)
    (after : OrderedSets) : Prop :=
  match result with
  | .ok answer =>
      after = (sets.step lowersHosts call).1 ∧
        ∀ expected ∈ (sets.step lowersHosts call).2, answer = expected
  | .error e =>
      (e.isOfStorage = true ∧ after = sets) ∨
        ((∃ listFault channelFault, e = .notPropagated listFault channelFault) ∧
          after = (sets.step lowersHosts call).1)

theorem allows_of_propagates {propagator : Option Propagator} {files after : FileTree}
    {result : Except Fault (Option Report)} {sets : OrderedSets} {call : Call}
    {f : Option Report → Answer} (h : Propagates propagator rules files result after)
    (nameable : ∀ p ∈ propagator, p.IsNameable files)
    (expected : ∀ report, ∀ answer ∈ (sets.step lowersHosts call).2, f report = answer) :
    sets.Allows lowersHosts call (result.map f) (sets.step lowersHosts call).1 := by
  cases result with
  | ok report => exact ⟨rfl, expected report⟩
  | error e =>
      refine .inr ⟨?_, rfl⟩
      cases propagator with
      | none => cases h.1
      | some propagator =>
          obtain ⟨listFault, channelFault, -, ⟨same, -⟩ | odd⟩ := h
          · exact ⟨listFault, channelFault, same⟩
          · exact absurd (nameable propagator rfl) odd

theorem allows_step {call : Call} {before : Editor} {result : Except Fault Answer} {after : Editor}
    (step : call.Step before result after) (lowers : before.store.lowersHosts = lowersHosts)
    (kept : IsKept lowersHosts before.store.snapshot)
    (nameable : ∀ p ∈ before.store.propagator, p.IsNameable before.machine.files) :
    (ofRules before.store.snapshot).Allows lowersHosts call result
      (ofRules after.store.snapshot) := by
  subst lowers
  cases step with
  | idle planned nothing store files =>
      obtain ⟨same, answer⟩ := agrees_plan kept planned
      rw [OrderedSets.planned, nothing] at same
      rw [store]
      refine ⟨same, fun expected prescribed => ?_⟩
      rw [answer] at prescribed
      exact Option.some.inj prescribed
  | refused planned change storage store files =>
      exact .inl ⟨storage, congrArg ofRules (snapshot_of_core store)⟩
  | @stored _ _ changed _ _ _ _ planned change store encoded written propagates =>
      obtain ⟨same, answer⟩ := agrees_plan kept planned
      rw [OrderedSets.planned, change] at same
      have rules : after.store.snapshot = changed := snapshot_of_core store
      rw [rules, same]
      refine allows_of_propagates propagates (fun p inside => ?_) fun _ expected prescribed => ?_
      · exact (nameable p inside).of_current written.current
      · rw [answer] at prescribed
        exact Option.some.inj prescribed
  | republished again store propagates =>
      subst again
      have rules : after.store.snapshot = before.store.snapshot := snapshot_of_core store
      rw [rules]
      exact allows_of_propagates propagates nameable fun _ _ none => nomatch none

/--
After every run of operations on a store that was opened, its names and rules are two valid ordered
sets, and every operation does to them what the machine does.
-/
theorem calls_refine {machine : Machine} {storage : KeyedStorage} {propagator : Option Propagator}
    {lowersHosts : Bool} {editor : Editor}
    (opened : Opens machine storage propagator lowersHosts editor)
    (nameable : machine.files.IsNameable storage.directory)
    (sinks : ∀ p ∈ propagator, p.IsNameable machine.files) (calls : List Call) :
    (ofRules (Call.run editor calls).store.snapshot).IsValid lowersHosts ∧
      ∀ call : Call,
        (ofRules (Call.run editor calls).store.snapshot).Allows lowersHosts call
          (call.perform (Call.run editor calls)).1
          (ofRules (call.perform (Call.run editor calls)).2.store.snapshot) := by
  have nameable' := opened.nameable nameable
  have continues : Continues editor (Call.run editor calls) :=
    Call.run_preserves calls (fun _ h call => h.perform nameable' call) opened.continues
  generalize Call.run editor calls = before at continues
  have kept := continues.kept
  rw [opened.lowersHosts_eq] at kept
  refine ⟨isValid_ofRules kept, fun call => ?_⟩
  refine allows_step (continues.step nameable' call)
    (continues.lowersHosts.trans opened.lowersHosts_eq) kept fun p inside => ?_
  rw [continues.propagator, opened.propagator_eq] at inside
  refine (sinks p inside).of_current ?_
  rw [continues.current, opened.files_eq]

/-- A new installation to which a host was added. -/
theorem calls_refine_new :
    (ofRules (Call.run (newEditor true)
        [.addHost (Text.ofString " A.com ")]).store.snapshot).IsValid true ∧
      ∀ call : Call,
        (ofRules (Call.run (newEditor true)
            [.addHost (Text.ofString " A.com ")]).store.snapshot).Allows true call
          (call.perform (Call.run (newEditor true) [.addHost (Text.ofString " A.com ")])).1
          (ofRules (call.perform (Call.run (newEditor true)
            [.addHost (Text.ofString " A.com ")])).2.store.snapshot) :=
  calls_refine (opens_newEditor true) (by decide) (fun p inside => by cases inside; decide)
    [.addHost (Text.ofString " A.com ")]

end OrderedSets

end SiteFilter.RuleStore
