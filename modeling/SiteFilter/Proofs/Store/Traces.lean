import SiteFilter.Proofs.Store.OrderedSets

/-!
# Traces of calls

What a run of calls makes of the rules, entry by entry: what each call answers and whether it changes
the rules. A call for one of the two lists reads and changes that list only. So the entries of one
list, taken out of a trace, are a trace of their own, and they do not depend on those of the other.
-/

namespace SiteFilter.RuleStore

open OrderedSets (planned)

/-! ## The list of a call -/

/-- The list that a call is for; to propagate again is for none. -/
def Call.part? : Call → Option Part
  | .addHost _ | .removeHost _ => some .hosts
  | .addElementRule _ | .removeElementRule _ | .removeElementRuleByKey _ | .importRules _
  | .clearElementRules => some .elementRules
  | .republish => none

def Call.isFor (part : Part) (call : Call) : Bool :=
  call.part? = some part

theorem Call.isFor_iff {part : Part} {call : Call} :
    call.isFor part = true ↔ call.part? = some part :=
  decide_eq_true_iff

/-- No call is for both lists. -/
theorem Call.isFor_apart {part other : Part} {call : Call} (own : call.isFor part = true)
    (different : part ≠ other) : call.isFor other = false := by
  rw [isFor, isFor_iff.mp own]
  simpa using different

/-- Every call that changes rules is for one of the lists. -/
theorem Call.exists_part {call : Call} (mutating : call ≠ .republish) :
    ∃ part, call.part? = some part := by
  cases call with
  | republish => exact absurd rfl mutating
  | _ => exact ⟨_, rfl⟩

/-- Whether rules have the same list. -/
def Part.Agrees (rules other : RuleSet) : Part → Prop
  | .hosts => rules.hosts = other.hosts
  | .elementRules => rules.elementRules = other.elementRules

variable {part : Part} {rules other middle : RuleSet} {lowersHosts : Bool}

theorem Part.agrees_refl (part : Part) (rules : RuleSet) : part.Agrees rules rules := by
  cases part <;> rfl

theorem Part.Agrees.symm (h : part.Agrees rules other) : part.Agrees other rules := by
  cases part <;> exact Eq.symm h

theorem Part.Agrees.trans (h : part.Agrees rules middle) (h' : part.Agrees middle other) :
    part.Agrees rules other := by
  cases part <;> exact Eq.trans h h'

theorem Part.Spares.agrees (h : part.Spares rules other) {second : Part} (apart : second ≠ part) :
    second.Agrees other rules := by
  cases part <;> cases second
  · exact absurd rfl apart
  · exact h
  · exact h
  · exact absurd rfl apart

/-- Rules with the same two lists are the same. -/
theorem eq_of_agrees (h : ∀ part : Part, part.Agrees rules other) : rules = other :=
  congrArg₂ RuleSet.mk (h .hosts) (h .elementRules)

/-- Plans for two sets of rules that have a list in common: neither changes anything, or both make
the same change to this list. -/
inductive Twin (part : Part) (rules other : RuleSet) : Call.Plan → Call.Plan → Prop
  | idle (answer : Answer) : Twin part rules other (.idle answer) (.idle answer)
  | change {changed changed' : RuleSet} (answer : Answer) (spares : part.Spares rules changed)
      (spares' : part.Spares other changed') (agrees : part.Agrees changed changed') :
      Twin part rules other ⟨some (part, changed), answer⟩ ⟨some (part, changed'), answer⟩

section Twin

variable {plan plan' : Call.Plan}

theorem Twin.answer (h : Twin part rules other plan plan') : plan.answer = plan'.answer := by
  cases h <;> rfl

theorem Twin.changes (h : Twin part rules other plan plan') :
    plan.change.isSome = plan'.change.isSome := by
  cases h <;> rfl

theorem Twin.planned (h : Twin part rules other plan plan') (agrees : part.Agrees rules other) :
    part.Agrees (planned rules plan) (planned other plan') := by
  cases h with
  | idle answer => exact agrees
  | change answer spares spares' agrees' => exact agrees'

theorem twin_removeElementRule (same : rules.elementRules = other.elementRules)
    (rule : ElementRule) :
    Twin .elementRules rules other (Call.planRemoveElementRule rules rule)
      (Call.planRemoveElementRule other rule) := by
  unfold Call.planRemoveElementRule
  rw [same]
  dsimp only
  split
  · exact .idle _
  · exact .change _ rfl rfl rfl

/-- A call for a list makes the same of it whatever the other list is. -/
theorem twin_plan {call : Call} (isFor : call.part? = some part)
    (agrees : part.Agrees rules other)
    (h : call.plan? lowersHosts rules = some plan)
    (h' : call.plan? lowersHosts other = some plan') : Twin part rules other plan plan' := by
  cases call with
  | addHost name =>
      cases isFor; cases h; cases h'
      have same : rules.hosts = other.hosts := agrees
      unfold Call.planAddHost
      split
      · exact .idle _
      · rw [same]
        split
        · exact .idle _
        · exact .change _ rfl rfl rfl
  | removeHost name =>
      cases isFor; cases h; cases h'
      have same : rules.hosts = other.hosts := agrees
      unfold Call.planRemoveHost
      rw [same]
      dsimp only
      split
      · exact .idle _
      · exact .change _ rfl rfl rfl
  | addElementRule rule =>
      cases isFor; cases h; cases h'
      have same : rules.elementRules = other.elementRules := agrees
      unfold Call.planAddElementRule
      rw [same]
      split
      · exact .idle _
      · exact .change _ rfl rfl rfl
  | removeElementRule rule =>
      cases isFor; cases h; cases h'
      exact twin_removeElementRule agrees rule
  | removeElementRuleByKey key =>
      cases isFor
      simp only [Call.plan?] at h h'
      cases found : ElementRule.ofKey key with
      | error e =>
          rw [found] at h h'
          cases h; cases h'
          exact .idle _
      | ok rule =>
          rw [found] at h h'
          cases h; cases h'
          exact twin_removeElementRule agrees rule
  | importRules document =>
      cases isFor; cases h; cases h'
      have same : rules.elementRules = other.elementRules := agrees
      unfold Call.planImport
      rw [same]
      dsimp only
      split
      · exact .idle _
      · exact .change _ rfl rfl rfl
  | clearElementRules =>
      cases isFor; cases h; cases h'
      have same : rules.elementRules = other.elementRules := agrees
      unfold Call.planClear
      rw [same]
      split
      · exact .idle _
      · exact .change _ rfl rfl rfl
  | republish => cases isFor

/-- A change that a call for a list asks for is one of this list. -/
theorem plan_spares {call : Call} (isFor : call.part? = some part)
    (h : call.plan? lowersHosts rules = some plan) {second : Part} {changed : RuleSet}
    (asked : plan.change = some (second, changed)) :
    second = part ∧ part.Spares rules changed := by
  have twin := twin_plan isFor (part.agrees_refl rules) h h
  cases twin with
  | idle answer => cases asked
  | change answer spares _ _ =>
      cases asked
      exact ⟨rfl, spares⟩

end Twin

/-! ## Entries -/

/-- What becomes of a call: its answer, and whether it changes the rules. -/
structure Entry where
  call : Call
  answer : Answer
  changes : Bool

/-- What calls for the two lists make of rules, one after the other. -/
inductive Traces (lowersHosts : Bool) : RuleSet → List Entry → RuleSet → Prop
  | nil (rules : RuleSet) : Traces lowersHosts rules [] rules
  | cons {rules final : RuleSet} {call : Call} {plan : Call.Plan} {entries : List Entry}
      (asked : call.plan? lowersHosts rules = some plan)
      (rest : Traces lowersHosts (planned rules plan) entries final) :
      Traces lowersHosts rules (⟨call, plan.answer, plan.change.isSome⟩ :: entries) final

section Traces

variable {entries entries' : List Entry} {final final' : RuleSet}

/-- A trace is settled by its calls. -/
theorem Traces.unique (h : Traces lowersHosts rules entries final)
    (h' : Traces lowersHosts rules entries' final')
    (same : entries.map (·.call) = entries'.map (·.call)) : entries = entries' ∧ final = final' := by
  induction h generalizing entries' with
  | nil rules =>
      cases h' with
      | nil => exact ⟨rfl, rfl⟩
      | cons asked rest => cases same
  | cons asked rest ih =>
      cases h' with
      | nil => cases same
      | cons asked' rest' =>
          obtain ⟨rfl, later⟩ := List.cons.inj same
          obtain rfl := Option.some.inj (asked.symm.trans asked')
          obtain ⟨rfl, rfl⟩ := ih rest' later
          exact ⟨rfl, rfl⟩

def entriesOf (part : Part) (entries : List Entry) : List Entry :=
  entries.filter fun entry => entry.call.isFor part

theorem entriesOf_cons (part : Part) (entry : Entry) (entries : List Entry) :
    entriesOf part (entry :: entries) =
      if entry.call.isFor part then entry :: entriesOf part entries else entriesOf part entries :=
  List.filter_cons

/-- The entries of a list are a trace of their own, from any rules with this list. -/
theorem Traces.entriesOf (h : Traces lowersHosts rules entries final)
    (agrees : part.Agrees rules other) :
    ∃ ending, Traces lowersHosts other (entriesOf part entries) ending ∧
      part.Agrees final ending := by
  induction h generalizing other with
  | nil rules => exact ⟨other, .nil other, agrees⟩
  | @cons rules final call plan entries asked rest ih =>
      have mutating : call ≠ .republish := by
        rintro rfl
        cases asked
      by_cases isFor : call.isFor part = true
      · obtain ⟨plan', asked'⟩ := call.exists_plan lowersHosts other mutating
        have twin := twin_plan (Call.isFor_iff.mp isFor) agrees asked asked'
        obtain ⟨ending, traces, agrees'⟩ := ih (twin.planned agrees)
        refine ⟨ending, ?_, agrees'⟩
        rw [entriesOf_cons, if_pos isFor, twin.answer, twin.changes]
        exact .cons asked' traces
      · -- An entry of the other list leaves this one as it is.
        have spared : part.Agrees (planned rules plan) rules := by
          unfold planned
          split
          · exact part.agrees_refl rules
          · rename_i second changed change
            obtain ⟨own, found⟩ := call.exists_part mutating
            obtain ⟨-, spares⟩ := plan_spares found asked change
            exact spares.agrees fun same => isFor (Call.isFor_iff.mpr (found.trans (same ▸ rfl)))
        obtain ⟨ending, traces, agrees'⟩ := ih (spared.trans agrees)
        refine ⟨ending, ?_, agrees'⟩
        rw [entriesOf_cons, if_neg isFor]
        exact traces

/-- Traces with the same calls for a list have the same entries of it, and end with the same list. -/
theorem Traces.entriesOf_eq (h : Traces lowersHosts rules entries final)
    (h' : Traces lowersHosts rules entries' final')
    (same : (RuleStore.entriesOf part entries).map (·.call) =
      (RuleStore.entriesOf part entries').map (·.call)) :
    RuleStore.entriesOf part entries = RuleStore.entriesOf part entries' ∧
      part.Agrees final final' := by
  obtain ⟨ending, traces, agrees⟩ := h.entriesOf (part.agrees_refl rules)
  obtain ⟨ending', traces', agrees'⟩ := h'.entriesOf (part.agrees_refl rules)
  obtain ⟨entries_eq, rfl⟩ := traces.unique traces' same
  exact ⟨entries_eq, agrees.trans agrees'.symm⟩

def touches (entries : List Entry) (part : Part) : Bool :=
  (entriesOf part entries).any (·.changes)

/-- Entries of one list change only this one. -/
theorem touches_eq (own : ∀ entry ∈ entries, entry.call.isFor part = true) (second : Part) :
    touches entries second = (decide (part = second) && entries.any (·.changes)) := by
  unfold touches RuleStore.entriesOf
  by_cases same : part = second
  · subst same
    rw [List.filter_eq_self.mpr own, decide_eq_true rfl, Bool.true_and]
  · rw [List.filter_eq_nil_iff.mpr, decide_eq_false same]
    · rfl
    · intro entry inside
      rw [Call.isFor_apart (own entry inside) same]
      exact Bool.false_ne_true

end Traces

end SiteFilter.RuleStore
