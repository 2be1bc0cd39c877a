import SiteFilter.Proofs.Sinks
import SiteFilter.Proofs.Store.Runs

/-!
# What sinks hold after a run

Each sink holds the image of the rules of the latest propagation in which it was written, or what
it held in the beginning. So a propagation that meets no fault brings both sinks up to date, however
many failed before it.
-/

namespace SiteFilter

open FileTree

namespace RuleStore

/-! ## Propagations of a run -/

structure Attempt where
  rules : RuleSet
  listFault : Option Fault
  channelFault : Option Fault

/--
The propagation that an operation made, as told by its result. There was one when the rules were
changed or propagated again, and when a fault says so.
-/
def attempt? (before : RuleSet) (result : Except Fault Answer) (after : RuleSet) :
    Option Attempt :=
  match result with
  | .ok (.propagated (some _)) => some ⟨after, none, none⟩
  | .ok _ => if after = before then none else some ⟨after, none, none⟩
  | .error (.notPropagated listFault channelFault) => some ⟨after, listFault, channelFault⟩
  | .error _ => none

theorem attempt?_of_ne {before after : RuleSet} (new : after ≠ before) (answer : Answer) :
    attempt? before (.ok answer) after = some ⟨after, none, none⟩ := by
  unfold attempt?
  split
  · rfl
  · rw [if_neg new]
  · rename_i same
    cases same
  · rename_i same
    cases same

theorem attempt?_of_eq {rules : RuleSet} {answer : Answer} (plain : answer.IsPlain) :
    attempt? rules (.ok answer) rules = none := by
  unfold attempt?
  split
  · rename_i report same
    cases same
    exact plain.elim
  · rw [if_pos rfl]
  · rename_i same
    cases same
  · rfl

theorem attempt?_of_storage {before after : RuleSet} {e : Fault} (h : e.isOfStorage = true) :
    attempt? before (.error e) after = none := by
  cases e with
  | notPropagated listFault channelFault => cases h
  | _ => rfl

namespace Call

/-- The propagation that an operation makes, if it makes one. -/
def attempt? (editor : Editor) (call : Call) : Option Attempt :=
  RuleStore.attempt? editor.store.snapshot (call.perform editor).1
    (call.perform editor).2.store.snapshot

def attempts (editor : Editor) : List Call → List Attempt
  | [] => []
  | call :: calls => (call.attempt? editor).toList ++ attempts (call.perform editor).2 calls

end Call

/-- The rules of the latest propagation in which a sink met no fault. -/
def latest (fault : Attempt → Option Fault) (attempts : List Attempt) : Option RuleSet :=
  (attempts.filter fun attempt => (fault attempt).isNone).getLast?.map (·.rules)

theorem latest_concat (fault : Attempt → Option Fault) (attempts : List Attempt)
    (attempt : Attempt) :
    latest fault (attempts ++ [attempt]) =
      if (fault attempt).isNone then some attempt.rules else latest fault attempts := by
  unfold latest
  rw [List.filter_append]
  cases came : fault attempt with
  | none => simp [came]
  | some e => simp [came]

/-! ## One operation -/

/-- The rules of a store go to two sinks that are apart from each other and from its storage. -/
structure HasSinks (propagator : Propagator) (storage : KeyedStorage) (files : FileTree) : Prop where
  nameable : propagator.IsNameable files
  apart : propagator.IsApart files
  own : ∀ part : Part, ∀ target ∈ [propagator.filterListPath, propagator.payloadPath],
    files.placeOf target ≠ storage.placeOf files part.key

theorem HasSinks.of_current {propagator : Propagator} {storage : KeyedStorage}
    {files after : FileTree} (h : HasSinks propagator storage files)
    (current : after.current = files.current) : HasSinks propagator storage after := by
  obtain ⟨nameable, ⟨places, reloads⟩, own⟩ := h
  refine ⟨nameable.of_current current, ⟨?_, ?_⟩, ?_⟩
  · rw [placeOf_eq current, placeOf_eq current]
    exact places
  · intro target sink
    rw [wayOf_eq current]
    exact reloads target sink
  · intro part target sink
    rw [KeyedStorage.placeOf, placeOf_eq current, placeOf_eq current]
    exact own part target sink

/-- Both sinks after a propagation, which may not have been made. -/
def Comes (propagator : Propagator) (files : FileTree) (attempt : Option Attempt)
    (after : FileTree) : Prop :=
  match attempt with
  | none =>
      Retains files after propagator.filterListPath ∧ Retains files after propagator.payloadPath
  | some attempt =>
      Brings files propagator.filterListPath (Propagator.IsList attempt.rules) attempt.listFault
          after ∧
        Brings files propagator.payloadPath (Propagator.IsPayload attempt.rules)
          attempt.channelFault after

theorem comes_of_propagates {propagator : Propagator} {rules before : RuleSet}
    {files after : FileTree} {result : Except Fault (Option Report)} {f : Option Report → Answer}
    (nameable : propagator.IsNameable files) (apart : propagator.IsApart files)
    (h : Propagates (some propagator) rules files result after)
    (done : ∀ report, attempt? before (.ok (f (some report))) rules = some ⟨rules, none, none⟩) :
    Comes propagator files (attempt? before (result.map f) rules) after := by
  obtain ⟨listFault, channelFault, propagated, ended⟩ := h
  have brings := propagated.brings apart
  cases result with
  | ok report? =>
      cases report? with
      | none => exact ended.elim
      | some report =>
          obtain ⟨-, -, rfl, rfl⟩ := ended
          change Comes propagator files (attempt? before (.ok (f (some report))) rules) after
          rw [done report]
          exact brings
  | error e =>
      rcases ended with ⟨rfl, -⟩ | odd
      · exact brings
      · exact absurd nameable odd

variable {propagator : Propagator}

theorem Call.Step.comes {call : Call} {before after : Editor} {result : Except Fault Answer}
    (step : call.Step before result after) (there : before.store.propagator = some propagator)
    (kept : IsKept before.store.lowersHosts before.store.snapshot)
    (sinks : HasSinks propagator before.store.storage before.machine.files) :
    Comes propagator before.machine.files
      (RuleStore.attempt? before.store.snapshot result after.store.snapshot)
      after.machine.files := by
  cases step with
  | idle planned nothing store files =>
      have plain := (isSound_plan kept planned).answer
      rw [store, attempt?_of_eq plain]
      exact ⟨.of_eq files, .of_eq files⟩
  | refused planned change storage store files =>
      rw [attempt?_of_storage storage]
      exact ⟨files.retains _, files.retains _⟩
  | @stored plan part rules propagated data stored _ planned change store encoded written
      propagates =>
      obtain ⟨-, -, new⟩ := (isSound_plan kept planned).change _ _ change
      have same : after.store.snapshot = rules := snapshot_of_core store
      rw [there] at propagates
      have later := sinks.of_current written.current
      have comes : Comes propagator stored (RuleStore.attempt? before.store.snapshot
          (propagated.map fun _ => plan.answer) rules) after.machine.files :=
        comes_of_propagates later.nameable later.apart propagates
          fun _ => attempt?_of_ne new plan.answer
      have list := written.retains (sinks.own part propagator.filterListPath (by simp))
      have channel := written.retains (sinks.own part propagator.payloadPath (by simp))
      rw [same]
      unfold Comes at comes ⊢
      split at comes
      · exact ⟨list.trans comes.1, channel.trans comes.2⟩
      · exact ⟨list.thenBrings comes.1, channel.thenBrings comes.2⟩
  | @republished propagated _ again store propagates =>
      rw [snapshot_of_core store]
      rw [there] at propagates
      exact comes_of_propagates sinks.nameable sinks.apart propagates fun _ => rfl

/-- There is no propagation error without a fault of a sink. -/
theorem Call.Step.fault_of_notPropagated {call : Call} {before after : Editor}
    {listFault channelFault : Option Fault}
    (step : call.Step before (.error (.notPropagated listFault channelFault)) after)
    (there : before.store.propagator = some propagator)
    (sinks : HasSinks propagator before.store.storage before.machine.files) :
    ¬ (listFault = none ∧ channelFault = none) := by
  have faulty {files : FileTree} {rules : RuleSet} {propagated : Except Fault (Option Report)}
      {f : Option Report → Answer} {later : FileTree}
      (propagates : Propagates (some propagator) rules files propagated later)
      (nameable : propagator.IsNameable files)
      (same : propagated.map f = .error (.notPropagated listFault channelFault)) :
      ¬ (listFault = none ∧ channelFault = none) := by
    cases propagated with
    | ok report => cases same
    | error e =>
        cases same
        obtain ⟨l, c, -, ⟨same', some⟩ | odd⟩ := propagates
        · cases same'
          exact some
        · exact absurd nameable odd
  generalize ended : (Except.error (.notPropagated listFault channelFault) :
    Except Fault Answer) = result at step
  cases step with
  | idle planned nothing store files => cases ended
  | refused planned change storage store files =>
      cases ended
      cases storage
  | stored planned change store encoded written propagates =>
      rw [there] at propagates
      exact faulty propagates (sinks.of_current written.current).nameable ended.symm
  | republished again store propagates =>
      rw [there] at propagates
      exact faulty propagates sinks.nameable ended.symm

/-- Rules that were changed or propagated again without a fault were propagated. -/
theorem Call.Step.attempt?_of_ok {call : Call} {before after : Editor} {answer : Answer}
    (step : call.Step before (.ok answer) after)
    (there : before.store.propagator = some propagator)
    (effective : call = .republish ∨ after.store.snapshot ≠ before.store.snapshot) :
    RuleStore.attempt? before.store.snapshot (.ok answer) after.store.snapshot =
      some ⟨after.store.snapshot, none, none⟩ := by
  rcases effective with rfl | new
  · generalize ended : (Except.ok answer : Except Fault Answer) = result at step
    cases step with
    | idle planned => cases planned
    | refused planned => cases planned
    | stored planned => cases planned
    | @republished propagated _ again store propagates =>
        rw [there] at propagates
        cases propagated with
        | error e => cases ended
        | ok report? =>
            cases ended
            cases report? with
            | none =>
                obtain ⟨_, _, -, never⟩ := propagates
                exact never.elim
            | some report => rfl
  · exact attempt?_of_ne new answer

/-! ## Runs -/

/-- A sink holds the image of rules, or as long as there are none what it held in the beginning. -/
def Holds (start files : FileTree) (target : Path) (image : RuleSet → Bytes → Prop) :
    Option RuleSet → Prop
  | some rules => ∃ data, image rules data ∧ files.read target = .ok data
  | none => files.contentOf target = start.contentOf target

section Holds

variable {start files after : FileTree} {target : Path} {image : RuleSet → Bytes → Prop}
  {rules? : Option RuleSet}

theorem Holds.retained (h : Holds start files target image rules?)
    (kept : Retains files after target) : Holds start after target image rules? := by
  cases rules? with
  | none => exact kept.contentOf.trans h
  | some rules =>
      obtain ⟨data, right, there⟩ := h
      exact ⟨data, right, kept.read there⟩

theorem Holds.brings (h : Holds start files target image rules?) {rules : RuleSet}
    {fault : Option Fault} (brings : Brings files target (image rules) fault after) :
    Holds start after target image (if fault.isNone then some rules else rules?) := by
  cases fault with
  | none => exact brings
  | some e => exact h.retained brings

end Holds

/-- Both sinks hold the images of the rules that came to them last. -/
structure HoldLatest (propagator : Propagator) (start files : FileTree) (attempts : List Attempt) :
    Prop where
  list : Holds start files propagator.filterListPath Propagator.IsList
    (latest (·.listFault) attempts)
  channel : Holds start files propagator.payloadPath Propagator.IsPayload
    (latest (·.channelFault) attempts)

theorem HoldLatest.comes {start files after : FileTree} {attempts : List Attempt}
    {attempt : Option Attempt} (h : HoldLatest propagator start files attempts)
    (comes : Comes propagator files attempt after) :
    HoldLatest propagator start after (attempts ++ attempt.toList) := by
  cases attempt with
  | none =>
      rw [Option.toList_none, List.append_nil]
      exact ⟨h.list.retained comes.1, h.channel.retained comes.2⟩
  | some attempt =>
      refine ⟨?_, ?_⟩
      · rw [Option.toList_some, latest_concat]
        exact h.list.brings comes.1
      · rw [Option.toList_some, latest_concat]
        exact h.channel.brings comes.2

section Runs

variable {start editor : Editor} (continues : Continues start editor)
  (there : start.store.propagator = some propagator)
  (nameable : start.machine.files.IsNameable start.store.storage.directory)
  (sinks : HasSinks propagator start.store.storage start.machine.files)

include continues there nameable sinks

theorem comes_perform (call : Call) :
    Comes propagator editor.machine.files (call.attempt? editor)
      (call.perform editor).2.machine.files := by
  refine (continues.step nameable call).comes (continues.propagator.trans there)
    continues.isKept ?_
  rw [continues.storage]
  exact sinks.of_current continues.current

theorem holdLatest_run (calls : List Call) {attempts : List Attempt}
    (h : HoldLatest propagator start.machine.files editor.machine.files attempts) :
    HoldLatest propagator start.machine.files (Call.run editor calls).machine.files
      (attempts ++ Call.attempts editor calls) := by
  -- Earlier propagations still count: a sink that fails from now on holds what they brought.
  induction calls generalizing editor attempts with
  | nil =>
      rw [Call.attempts, List.append_nil]
      exact h
  | cons call calls ih =>
      rw [Call.attempts, ← List.append_assoc]
      exact ih (continues.perform nameable call)
        (h.comes (comes_perform continues there nameable sinks call))

end Runs

/-- Both sinks are up to date: the blocking engine and the pages find these rules in them. -/
structure AreImages (propagator : Propagator) (files : FileTree) (rules : RuleSet) : Prop where
  list : ∃ data, Propagator.IsList rules data ∧ files.read propagator.filterListPath = .ok data
  channel : ∃ data, Propagator.IsPayload rules data ∧ files.read propagator.payloadPath = .ok data
  value : propagator.channel.get? files channelKey = .ok (some (channelPayload rules))

theorem get?_channelKey {files : FileTree} {rules : RuleSet} {data : Bytes}
    (payload : Propagator.IsPayload rules data)
    (there : files.read propagator.payloadPath = .ok data) :
    propagator.channel.get? files channelKey = .ok (some (channelPayload rules)) :=
  KeyedStorage.get?_of_read Propagator.isKey_channelKey there
    (payload.valueIn _)

/--
How an operation leaves the sinks. When it changes the rules or propagates them again, and meets no
fault, both are up to date. When it ends in a propagation error, a sink without a fault is up to
date and the other one holds what it held. With any other fault both hold what they held.
-/
def Leaves (propagator : Propagator) (call : Call) (before : Editor) (result : Except Fault Answer)
    (after : Editor) : Prop :=
  match result with
  | .ok _ =>
      call = .republish ∨ after.store.snapshot ≠ before.store.snapshot →
        AreImages propagator after.machine.files after.store.snapshot
  | .error (.notPropagated listFault channelFault) =>
      ¬ (listFault = none ∧ channelFault = none) ∧
        Holds before.machine.files after.machine.files propagator.filterListPath
          Propagator.IsList (if listFault.isNone then some after.store.snapshot else none) ∧
        Holds before.machine.files after.machine.files propagator.payloadPath
          Propagator.IsPayload (if channelFault.isNone then some after.store.snapshot else none)
  | .error _ =>
      Holds before.machine.files after.machine.files propagator.filterListPath
          Propagator.IsList none ∧
        Holds before.machine.files after.machine.files propagator.payloadPath
          Propagator.IsPayload none

theorem Call.Step.leaves {call : Call} {before after : Editor} {result : Except Fault Answer}
    (step : call.Step before result after) (there : before.store.propagator = some propagator)
    (kept : IsKept before.store.lowersHosts before.store.snapshot)
    (sinks : HasSinks propagator before.store.storage before.machine.files) :
    Leaves propagator call before result after := by
  have comes := step.comes there kept sinks
  unfold Leaves
  split
  · intro effective
    rw [step.attempt?_of_ok there effective] at comes
    obtain ⟨list, data, payload, found⟩ := comes
    exact ⟨list, ⟨data, payload, found⟩, get?_channelKey payload found⟩
  · refine ⟨step.fault_of_notPropagated there sinks, ?_, ?_⟩
    · have held : Holds before.machine.files before.machine.files propagator.filterListPath
          Propagator.IsList none := rfl
      exact held.brings comes.1
    · have held : Holds before.machine.files before.machine.files propagator.payloadPath
          Propagator.IsPayload none := rfl
      exact held.brings comes.2
  · rename_i e other
    have none : RuleStore.attempt? before.store.snapshot (.error e) after.store.snapshot =
        none := by
      unfold RuleStore.attempt?
      split
      · rename_i same
        cases same
      · rename_i same
        cases same
      · rename_i same
        cases same
        exact absurd rfl (other _ _)
      · rfl
    rw [none] at comes
    exact ⟨comes.1.contentOf, comes.2.contentOf⟩

/--
After every run each sink holds the image of the rules of the latest propagation in which it was
written, or what it held in the beginning, whatever failed in the run.
-/
theorem sinks_hold_latest {machine : Machine} {storage : KeyedStorage} {lowersHosts : Bool}
    {editor : Editor} (opened : Opens machine storage (some propagator) lowersHosts editor)
    (nameable : machine.files.IsNameable storage.directory)
    (sinks : HasSinks propagator storage machine.files) (calls : List Call) :
    HoldLatest propagator machine.files (Call.run editor calls).machine.files
        (Call.attempts editor calls) ∧
      (∀ rules ∈ latest (·.channelFault) (Call.attempts editor calls),
        propagator.channel.get? (Call.run editor calls).machine.files channelKey =
          .ok (some (channelPayload rules))) ∧
      ∀ call : Call, Leaves propagator call (Call.run editor calls)
        (call.perform (Call.run editor calls)).1 (call.perform (Call.run editor calls)).2 := by
  have there := opened.propagator_eq
  have nameable' := opened.nameable nameable
  have sinks' : HasSinks propagator editor.store.storage editor.machine.files := by
    rw [opened.files_eq, opened.storage_eq]
    exact sinks
  have begun : HoldLatest propagator editor.machine.files editor.machine.files [] := ⟨rfl, rfl⟩
  have held := holdLatest_run opened.continues there nameable' sinks' calls begun
  rw [List.nil_append, opened.files_eq] at held
  have continues : Continues editor (Call.run editor calls) :=
    Call.run_preserves calls (fun _ h call => h.perform nameable' call) opened.continues
  refine ⟨held, fun rules came => ?_, fun call => ?_⟩
  · have channel := held.channel
    rw [show latest _ _ = some rules from came] at channel
    obtain ⟨data, payload, found⟩ := channel
    exact get?_channelKey payload found
  · refine (continues.step nameable' call).leaves (continues.propagator.trans there)
      continues.isKept ?_
    rw [continues.storage]
    exact sinks'.of_current continues.current

/-- A new installation to which a host was added. -/
theorem sinks_hold_latest_new :
    HoldLatest sharedSinks bareMachine.files
        (Call.run (newEditor true) [.addHost (Text.ofString "a.com")]).machine.files
        (Call.attempts (newEditor true) [.addHost (Text.ofString "a.com")]) ∧
      (∀ rules ∈ latest (·.channelFault)
          (Call.attempts (newEditor true) [.addHost (Text.ofString "a.com")]),
        sharedSinks.channel.get?
            (Call.run (newEditor true) [.addHost (Text.ofString "a.com")]).machine.files
            channelKey = .ok (some (channelPayload rules))) ∧
      ∀ call : Call, Leaves sharedSinks call
        (Call.run (newEditor true) [.addHost (Text.ofString "a.com")])
        (call.perform (Call.run (newEditor true) [.addHost (Text.ofString "a.com")])).1
        (call.perform (Call.run (newEditor true) [.addHost (Text.ofString "a.com")])).2 := by
  refine sinks_hold_latest (opens_newEditor true) (by decide) ⟨by decide, ⟨by decide, ?_⟩, ?_⟩ _
  · exact fun target _ r _ => Reloader.leavesAlone_none _ r
  · intro part
    cases part <;> decide

end RuleStore

end SiteFilter
