import SiteFilter.Proofs.Store.Calls
import SiteFilter.Proofs.Store.Loading

/-!
# Runs of operations

What every operation of a store that was opened leaves in place: where the rules are stored and
propagated, that nobody is subscribed, and that the rules are kept without repetitions and by
normalized names.
-/

namespace SiteFilter.RuleStore

open FileTree Effect

/-! ## Changes keep rules as they are kept -/

theorem mem_of_make {name : Text} {rule : HostRule} (h : HostRule.make name = .ok rule) :
    rule.hostname = name := by
  unfold HostRule.make at h
  split at h
  · cases h
  · cases h
    rfl

def Answer.IsPlain : Answer → Prop
  | .propagated _ => False
  | _ => True

namespace Call

/--
A planned change is one of a single list, a change at all, and the rules are kept as they should
be. The answer is not that of a propagation.
-/
structure Plan.IsSound (lowersHosts : Bool) (rules : RuleSet) (plan : Plan) : Prop where
  answer : plan.answer.IsPlain
  change : ∀ part changed, plan.change = some (part, changed) →
    IsKept lowersHosts changed ∧ part.Spares rules changed ∧ changed ≠ rules

variable {lowersHosts : Bool} {rules : RuleSet}

theorem isSound_idle {answer : Answer} (plain : answer.IsPlain) :
    (Plan.idle answer).IsSound lowersHosts rules := by
  refine ⟨plain, ?_⟩
  rintro _ _ ⟨⟩

theorem isSound_change {part : Part} {changed : RuleSet} {answer : Answer}
    (plain : answer.IsPlain) (kept : IsKept lowersHosts changed)
    (spares : part.Spares rules changed) (new : changed ≠ rules) :
    (Plan.mk (some (part, changed)) answer).IsSound lowersHosts rules := by
  refine ⟨plain, ?_⟩
  rintro _ _ same
  cases same
  exact ⟨kept, spares, new⟩

theorem isSound_planAddHost (kept : IsKept lowersHosts rules) (name : Text) :
    (planAddHost lowersHosts rules name).IsSound lowersHosts rules := by
  unfold planAddHost
  split
  · exact isSound_idle trivial
  · rename_i rule made
    split
    · exact isSound_idle trivial
    · rename_i fresh
      refine isSound_change trivial ⟨?_, fun other inside => ?_, kept.elementRules_nodup⟩ rfl ?_
      · have added := nodup_addNew kept.hosts_nodup rule
        rwa [addNew, if_neg fresh] at added
      · rcases List.mem_append.mp inside with old | new
        · exact kept.hosts_normalized other old
        · rw [List.mem_singleton.mp new, mem_of_make made]
          exact isNormalized_normalizeHost lowersHosts name
      · intro same
        have longer := congrArg (·.hosts.length) same
        simp at longer

/-- Rules of which some are taken away are not the same. -/
theorem filter_ne_of_countP {α : Type} {keeps drops : α → Bool} (apart : ∀ a, keeps a = !drops a)
    {items : List α} (some : items.countP drops ≠ 0) : items.filter keeps ≠ items := by
  intro same
  apply some
  rw [List.countP_eq_zero]
  intro a inside dropped
  have kept := List.filter_eq_self.mp same a inside
  rw [apart, dropped] at kept
  cases kept

theorem isSound_planRemoveHost (kept : IsKept lowersHosts rules) (name : Text) :
    (planRemoveHost lowersHosts rules name).IsSound lowersHosts rules := by
  unfold planRemoveHost
  dsimp only
  split
  · exact isSound_idle trivial
  · rename_i some
    refine isSound_change trivial
      ⟨kept.hosts_nodup.filter _, fun other inside => ?_, kept.elementRules_nodup⟩ rfl ?_
    · exact kept.hosts_normalized other (List.mem_filter.mp inside).1
    · intro same
      refine filter_ne_of_countP (fun rule => ?_) some (congrArg RuleSet.hosts same)
      exact decide_not

theorem isSound_planAddElementRule (kept : IsKept lowersHosts rules) (rule : ElementRule) :
    (planAddElementRule rules rule).IsSound lowersHosts rules := by
  unfold planAddElementRule
  split
  · exact isSound_idle trivial
  · rename_i fresh
    have added := nodup_addNew kept.elementRules_nodup rule
    rw [addNew, if_neg fresh] at added
    refine isSound_change trivial ⟨kept.hosts_nodup, kept.hosts_normalized, added⟩ rfl ?_
    intro same
    have longer := congrArg (·.elementRules.length) same
    simp at longer

theorem isSound_planRemoveElementRule (kept : IsKept lowersHosts rules) (rule : ElementRule) :
    (planRemoveElementRule rules rule).IsSound lowersHosts rules := by
  unfold planRemoveElementRule
  dsimp only
  split
  · exact isSound_idle trivial
  · rename_i some
    refine isSound_change trivial
      ⟨kept.hosts_nodup, kept.hosts_normalized, kept.elementRules_nodup.filter _⟩ rfl ?_
    intro same
    refine filter_ne_of_countP (fun other => ?_) some (congrArg RuleSet.elementRules same)
    rw [Bool.eq_iff_iff]
    simp

/-- Adding what is new of a document is adding its rules one after another. -/
theorem append_distinct {α : Type} [DecidableEq α] (old items : List α) :
    old ++ distinct (items.filter (· ∉ old)) = items.foldl addNew old := by
  have step (items : List α) : ∀ done : List α, (∀ a ∈ done, a ∉ old) →
      old ++ (items.filter (· ∉ old)).foldl addNew done =
        items.foldl addNew (old ++ done) := by
    -- What was new so far is kept apart from what was there before.
    induction items with
    | nil => exact fun done _ => rfl
    | cons item items ih =>
        intro done apart
        rw [List.foldl_cons]
        by_cases there : item ∈ old
        · rw [List.filter_cons_of_neg (by simpa using there), ih done apart]
          congr 1
          exact (if_pos (List.mem_append_left _ there)).symm
        · rw [List.filter_cons_of_pos (by simpa using there), List.foldl_cons,
            ih (addNew done item)]
          · congr 1
            unfold addNew
            by_cases listed : item ∈ done
            · rw [if_pos listed, if_pos (List.mem_append_right _ listed)]
            · rw [if_neg listed, if_neg, List.append_assoc]
              rw [List.mem_append]
              exact fun h => h.elim there listed
          · intro a inside
            rcases mem_addNew.mp inside with old' | rfl
            · exact apart a old'
            · exact there
  rw [distinct_eq, step items [] nofun, List.append_nil]

theorem isSound_planImport (kept : IsKept lowersHosts rules) (document : Text) :
    (planImport rules document).IsSound lowersHosts rules := by
  unfold planImport
  dsimp only
  split
  · exact isSound_idle trivial
  · rename_i some
    have all := nodup_foldl_addNew (RuleDocument.parse document) kept.elementRules_nodup
    rw [← append_distinct] at all
    refine isSound_change trivial ⟨kept.hosts_nodup, kept.hosts_normalized, all⟩ rfl ?_
    intro same
    apply some
    rw [List.isEmpty_iff]
    exact List.append_right_eq_self.mp (congrArg RuleSet.elementRules same)

theorem isSound_planClear (kept : IsKept lowersHosts rules) :
    (planClear rules).IsSound lowersHosts rules := by
  unfold planClear
  split
  · exact isSound_idle trivial
  · rename_i some
    refine isSound_change trivial ⟨kept.hosts_nodup, kept.hosts_normalized, List.nodup_nil⟩ rfl ?_
    intro same
    apply some
    rw [List.isEmpty_iff]
    exact (congrArg RuleSet.elementRules same).symm

theorem isSound_plan {call : Call} {plan : Plan} (kept : IsKept lowersHosts rules)
    (planned : call.plan? lowersHosts rules = some plan) : plan.IsSound lowersHosts rules := by
  cases call with
  | addHost name =>
      cases planned
      exact isSound_planAddHost kept name
  | removeHost name =>
      cases planned
      exact isSound_planRemoveHost kept name
  | addElementRule rule =>
      cases planned
      exact isSound_planAddElementRule kept rule
  | removeElementRule rule =>
      cases planned
      exact isSound_planRemoveElementRule kept rule
  | removeElementRuleByKey key =>
      simp only [plan?] at planned
      split at planned
      · cases planned
        exact isSound_planRemoveElementRule kept _
      · cases planned
        exact isSound_idle trivial
  | importRules document =>
      cases planned
      exact isSound_planImport kept document
  | clearElementRules =>
      cases planned
      exact isSound_planClear kept
  | republish => cases planned

end Call

/-! ## All that an operation can do -/

/-- Only the operation that propagates again has no plan. -/
theorem Call.eq_republish {call : Call} {lowersHosts : Bool} {rules : RuleSet}
    (unplanned : call.plan? lowersHosts rules = none) : call = .republish := by
  cases call with
  | republish => rfl
  | removeElementRuleByKey key =>
      simp only [Call.plan?] at unplanned
      split at unplanned
      · cases unplanned
      · cases unplanned
  | _ => cases unplanned

theorem Call.exists_plan (call : Call) (lowersHosts : Bool) (rules : RuleSet)
    (planned : call ≠ .republish) : ∃ plan, call.plan? lowersHosts rules = some plan := by
  cases found : call.plan? lowersHosts rules with
  | none => exact absurd (Call.eq_republish found) planned
  | some plan => exact ⟨plan, rfl⟩

/-- How an operation ends, when nobody is subscribed and the storage can be named. -/
inductive Call.Step (call : Call) (before : Editor) : Except Fault Answer → Editor → Prop
  /-- There is nothing to change. -/
  | idle {plan : Call.Plan} {after : Editor}
      (planned : call.plan? before.store.lowersHosts before.store.snapshot = some plan)
      (nothing : plan.change = none) (store : after.store = before.store)
      (files : after.machine.files = before.machine.files) :
      Call.Step call before (.ok plan.answer) after
  /-- A change could not be stored. -/
  | refused {plan : Call.Plan} {part : Part} {rules : RuleSet} {e : Fault} {after : Editor}
      (planned : call.plan? before.store.lowersHosts before.store.snapshot = some plan)
      (change : plan.change = some (part, rules)) (storage : e.isOfStorage = true)
      (store : after.store.core = before.store.core)
      (files : Furnished before.machine.files after.machine.files
        (before.machine.files.origin before.store.storage.directory)
        before.store.storage.directory.parts) :
      Call.Step call before (.error e) after
  /-- A change was stored and then propagated. -/
  | stored {plan : Call.Plan} {part : Part} {rules : RuleSet}
      {propagated : Except Fault (Option Report)} {data : Bytes} {stored : FileTree}
      {after : Editor}
      (planned : call.plan? before.store.lowersHosts before.store.snapshot = some plan)
      (change : plan.change = some (part, rules))
      (store : after.store.core = (before.store.withRules rules).core)
      (encoded : part.encode rules = .ok data)
      (written : Replaced before.machine.files stored (before.store.storage.fileOf part.key) data)
      (propagates : Propagates before.store.propagator rules stored propagated
        after.machine.files) :
      Call.Step call before (propagated.map fun _ => plan.answer) after
  /-- The rules were propagated again. -/
  | republished {propagated : Except Fault (Option Report)} {after : Editor}
      (again : call = .republish) (store : after.store.core = before.store.core)
      (propagates : Propagates before.store.propagator before.store.snapshot before.machine.files
        propagated after.machine.files) :
      Call.Step call before (propagated.map .propagated) after

theorem Call.perform_step {editor : Editor} (nobody : editor.store.subscribers = [])
    (nameable : editor.machine.files.IsNameable editor.store.storage.directory) (call : Call) :
    call.Step editor (call.perform editor).1 (call.perform editor).2 := by
  cases planned : call.plan? editor.store.lowersHosts editor.store.snapshot with
  | none =>
      have again := Call.eq_republish planned
      subst again
      obtain ⟨core, ended, propagates, same⟩ := republish_spec editor
      rw [perform, Editing.runOn_eq, same]
      exact .republished rfl core propagates
  | some plan =>
      have follows := work_spec nobody planned
      change Follows editor plan (call.perform editor).1 (call.perform editor).2 at follows
      unfold Follows at follows
      split at follows
      · rename_i nothing
        obtain ⟨same, store, files⟩ := follows
        rw [same]
        exact .idle planned nothing store files
      · rename_i part rules change
        obtain ⟨ended, commits, same⟩ := follows
        rw [same]
        cases commits with
        | refused storage store files => exact .refused planned change storage store files
        | unnameable odd => exact absurd nameable odd
        | @stored propagated _ _ _ store encoded written propagates =>
            have step := Call.Step.stored planned change store encoded written propagates
            cases propagated with
            | ok report => exact step
            | error e => exact step

/-! ## What stays -/

theorem Propagates.current {propagator : Option Propagator} {rules : RuleSet}
    {files after : FileTree} {result : Except Fault (Option Report)}
    (h : Propagates propagator rules files result after) : after.current = files.current := by
  cases propagator with
  | none => rw [h.2]
  | some propagator =>
      obtain ⟨_, _, propagated, -⟩ := h
      exact propagated.current

/-- A process that came from another one by operations. -/
structure Continues (start editor : Editor) : Prop where
  storage : editor.store.storage = start.store.storage
  propagator : editor.store.propagator = start.store.propagator
  lowersHosts : editor.store.lowersHosts = start.store.lowersHosts
  nobody : editor.store.subscribers = []
  current : editor.machine.files.current = start.machine.files.current
  kept : IsKept start.store.lowersHosts editor.store.snapshot

theorem Continues.of_core {start editor after : Editor} (h : Continues start editor)
    (rules : RuleSet) (core : after.store.core = (editor.store.withRules rules).core)
    (current : after.machine.files.current = editor.machine.files.current)
    (kept : IsKept start.store.lowersHosts rules) : Continues start after := by
  have snapshot : after.store.snapshot = rules := snapshot_of_core core
  refine ⟨?_, ?_, ?_, ?_, current.trans h.current, ?_⟩
  · exact (congrArg RuleStore.storage core).trans h.storage
  · exact (congrArg RuleStore.propagator core).trans h.propagator
  · exact (congrArg RuleStore.lowersHosts core).trans h.lowersHosts
  · exact (congrArg RuleStore.subscribers core).trans h.nobody
  · rwa [snapshot]

theorem Continues.isKept {start editor : Editor} (h : Continues start editor) :
    IsKept editor.store.lowersHosts editor.store.snapshot := by
  rw [h.lowersHosts]
  exact h.kept

theorem Continues.step {start editor : Editor} (h : Continues start editor)
    (nameable : start.machine.files.IsNameable start.store.storage.directory) (call : Call) :
    call.Step editor (call.perform editor).1 (call.perform editor).2 := by
  apply call.perform_step h.nobody
  rw [h.storage]
  exact nameable.of_current h.current

theorem Continues.perform {start editor : Editor} (h : Continues start editor)
    (nameable : start.machine.files.IsNameable start.store.storage.directory) (call : Call) :
    Continues start (call.perform editor).2 := by
  have step := h.step nameable call
  generalize call.perform editor = ended at step ⊢
  obtain ⟨result, after⟩ := ended
  dsimp only at step ⊢
  cases step with
  | idle planned nothing store files =>
      refine h.of_core editor.store.snapshot ?_ ?_ h.kept
      · exact congrArg core store
      · rw [files]
  | refused planned change storage store files =>
      exact h.of_core editor.store.snapshot store files.current h.kept
  | stored planned change store encoded written propagates =>
      have sound := Call.isSound_plan h.isKept planned
      refine h.of_core _ store (propagates.current.trans written.current) ?_
      rw [← h.lowersHosts]
      exact (sound.change _ _ change).1
  | republished again store propagates =>
      exact h.of_core editor.store.snapshot store propagates.current h.kept

/-- What every operation preserves holds after every run. -/
theorem Call.run_preserves {holds : Editor → Prop} (calls : List Call)
    (step : ∀ editor, holds editor → ∀ call : Call, holds (call.perform editor).2)
    {editor : Editor} (start : holds editor) : holds (Call.run editor calls) := by
  induction calls generalizing editor with
  | nil => exact start
  | cons call calls ih => exact ih (step editor start call)

/-! ## Opening -/

/-- A process whose store has just taken its rules from storage. -/
def Opens (machine : Machine) (storage : KeyedStorage) (propagator : Option Propagator)
    (lowersHosts : Bool) (editor : Editor) : Prop :=
  load.runOn ⟨machine, fresh storage propagator lowersHosts⟩ = (.ok (), editor)

theorem Opens.spec {machine : Machine} {storage : KeyedStorage} {propagator : Option Propagator}
    {lowersHosts : Bool} {editor : Editor}
    (h : Opens machine storage propagator lowersHosts editor) :
    ∃ rules, read storage lowersHosts machine.files = .ok rules ∧
      editor.store = (fresh storage propagator lowersHosts).withRules rules ∧
      machine.Alike editor.machine := by
  obtain ⟨alike, loaded⟩ := load_spec ⟨machine, fresh storage propagator lowersHosts⟩
  rw [← Editing.runOn_eq, show load.runOn _ = _ from h] at alike loaded
  split at loaded
  · rename_i rules found
    exact ⟨rules, found, loaded.2, alike⟩
  · cases loaded.1

section Opens

variable {machine : Machine} {storage : KeyedStorage} {propagator : Option Propagator}
  {lowersHosts : Bool} {editor : Editor}
  (h : Opens machine storage propagator lowersHosts editor)

include h

theorem Opens.files_eq : editor.machine.files = machine.files := by
  obtain ⟨rules, -, -, alike⟩ := h.spec
  exact alike.files

theorem Opens.storage_eq : editor.store.storage = storage := by
  obtain ⟨rules, -, store, -⟩ := h.spec
  exact congrArg RuleStore.storage store

theorem Opens.propagator_eq : editor.store.propagator = propagator := by
  obtain ⟨rules, -, store, -⟩ := h.spec
  exact congrArg RuleStore.propagator store

theorem Opens.lowersHosts_eq : editor.store.lowersHosts = lowersHosts := by
  obtain ⟨rules, -, store, -⟩ := h.spec
  exact congrArg RuleStore.lowersHosts store

theorem Opens.nameable (nameable : machine.files.IsNameable storage.directory) :
    editor.machine.files.IsNameable editor.store.storage.directory := by
  rw [h.files_eq, h.storage_eq]
  exact nameable

end Opens

/-- A store can be opened when its storage can be read. -/
theorem opens_of_read {machine : Machine} {storage : KeyedStorage} {lowersHosts : Bool}
    {rules : RuleSet} (h : read storage lowersHosts machine.files = .ok rules)
    (propagator : Option Propagator) :
    Opens machine storage propagator lowersHosts
      (load.runOn ⟨machine, fresh storage propagator lowersHosts⟩).2 := by
  have loaded := (load_spec ⟨machine, fresh storage propagator lowersHosts⟩).2
  split at loaded
  · exact Prod.ext loaded.1 rfl
  · rename_i refused
    cases h.symm.trans refused

theorem isKept_of_read {storage : KeyedStorage} {lowersHosts : Bool} {files : FileTree}
    {rules : RuleSet} (h : read storage lowersHosts files = .ok rules) :
    IsKept lowersHosts rules := by
  unfold read at h
  cases found : stored storage files with
  | error e =>
      rw [found] at h
      cases h
  | ok values =>
      rw [found] at h
      cases h
      exact isKept_of_stored lowersHosts values.1 values.2

theorem Opens.continues {machine : Machine} {storage : KeyedStorage}
    {propagator : Option Propagator} {lowersHosts : Bool} {editor : Editor}
    (h : Opens machine storage propagator lowersHosts editor) : Continues editor editor := by
  obtain ⟨rules, found, store, -⟩ := h.spec
  have kept := isKept_of_read found
  refine ⟨rfl, rfl, rfl, ?_, rfl, ?_⟩
  · rw [store]
    rfl
  · rw [store]
    exact kept

/-! ## A new installation -/

def ownStorage : KeyedStorage :=
  ⟨⟨1, [Text.ofString "data"]⟩, .usual⟩

def newEditor (lowersHosts : Bool) : Editor :=
  (load.runOn ⟨bareMachine, fresh ownStorage (some sharedSinks) lowersHosts⟩).2

theorem opens_newEditor (lowersHosts : Bool) :
    Opens bareMachine ownStorage (some sharedSinks) lowersHosts (newEditor lowersHosts) := by
  apply opens_of_read
  apply read_of_absent
  intro part
  cases part with
  | hosts => rfl
  | elementRules => rfl

end SiteFilter.RuleStore
