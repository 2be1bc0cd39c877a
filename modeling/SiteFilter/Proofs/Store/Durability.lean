import SiteFilter.Proofs.Likeness
import SiteFilter.Proofs.Store.Runs

/-!
# Memory and storage

What a store holds in memory is what its storage holds, after every operation and whatever fails on
the way. So a process that is started anew goes on where the old one stopped, and nobody can tell
from the answers and the rules that it was.
-/

namespace SiteFilter.RuleStore

open FileTree Effect

/-! ## Sinks that keep off a storage -/

/--
Whether sinks leave a storage alone: their paths do not lead along the files of the storage, and
requests to reload touch nothing on the way to these files.
-/
structure KeepsOff (propagator : Propagator) (storage : KeyedStorage) (files : FileTree) :
    Prop where
  sinks : ∀ part : Part, ∀ target ∈ [propagator.filterListPath, propagator.payloadPath],
    storage.placeOf files part.key ∉ files.wayOf target
  reloads : ∀ part : Part, ∀ r ∈ files.wayOf (storage.fileOf part.key),
    propagator.reloader.LeavesAlone propagator.engine r

section Sinks

variable {propagator : Propagator} {storage : KeyedStorage} {files after : FileTree}
  {lowersHosts : Bool} {rules : RuleSet}

theorem KeepsOff.of_current (h : KeepsOff propagator storage files)
    (current : after.current = files.current) : KeepsOff propagator storage after := by
  refine ⟨fun part target inside => ?_, fun part r inside => ?_⟩
  · rw [wayOf_eq current, KeyedStorage.placeOf, placeOf_eq current]
    exact h.sinks part target inside
  · rw [wayOf_eq current] at inside
    exact h.reloads part r inside

theorem Stores.reloaded {machine : Machine} (off : KeepsOff propagator storage machine.files)
    (h : Stores storage lowersHosts machine.files rules) :
    Stores storage lowersHosts
      ((propagator.reloader.ask propagator.engine).runOn machine).2.files rules := by
  refine h.mono fun part value shown => shown.spared ?_ ?_ ?_
  · exact (Reloader.ask_spec propagator.reloader propagator.engine machine).2
  · exact fun r inside => .of_eq (off.reloads part r inside machine)
  · exact off.reloads part _ (placeOf_mem_wayOf _ _) machine

/-- A propagation leaves the rules in storage. -/
theorem Stores.propagated {propagated : RuleSet} {listFault channelFault : Option Fault}
    (off : KeepsOff propagator storage files) (h : Stores storage lowersHosts files rules)
    (ended : propagator.Propagated propagated files listFault channelFault after) :
    Stores storage lowersHosts after rules := by
  have kept : after.current = files.current ∧ Stores storage lowersHosts after rules := by
    refine ended.preserves (fun now => now.current = files.current ∧
      Stores storage lowersHosts now rules) ⟨rfl, h⟩ ?_ ?_
    · rintro target inside before data result later write ⟨current, stores⟩
      exact ⟨write.current.trans current,
        stores.avoided write fun part => (off.of_current current).sinks part target inside⟩
    · rintro machine ⟨current, stores⟩
      have asked := (Reloader.ask_spec propagator.reloader propagator.engine machine).2
      exact ⟨asked.trans current, stores.reloaded (off.of_current current)⟩
  exact kept.2

end Sinks

theorem Stores.propagates {propagator : Option Propagator} {storage : KeyedStorage}
    {files after : FileTree} {lowersHosts : Bool} {rules propagated : RuleSet}
    {result : Except Fault (Option Report)} (off : ∀ p ∈ propagator, KeepsOff p storage files)
    (h : Stores storage lowersHosts files rules)
    (ended : Propagates propagator propagated files result after) :
    Stores storage lowersHosts after rules := by
  cases propagator with
  | none =>
      rw [ended.2]
      exact h
  | some propagator =>
      obtain ⟨listFault, channelFault, done, -⟩ := ended
      exact h.propagated (off propagator rfl) done

/-! ## Operations -/

/-- A process that came from another one by operations, and whose storage holds its rules. -/
structure Durable (start editor : Editor) : Prop extends Continues start editor where
  stored : Stores start.store.storage start.store.lowersHosts editor.machine.files
    editor.store.snapshot

theorem Durable.perform {start editor : Editor} (h : Durable start editor)
    (nameable : start.machine.files.IsNameable start.store.storage.directory)
    (off : ∀ p ∈ start.store.propagator, KeepsOff p start.store.storage start.machine.files)
    (call : Call) : Durable start (call.perform editor).2 := by
  refine ⟨h.toContinues.perform nameable call, ?_⟩
  have off' {files : FileTree} (current : files.current = editor.machine.files.current) :
      ∀ p ∈ editor.store.propagator, KeepsOff p start.store.storage files := by
    intro p inside
    rw [h.propagator] at inside
    exact (off p inside).of_current (current.trans h.current)
  have step := h.step nameable call
  generalize call.perform editor = ended at step ⊢
  obtain ⟨result, after⟩ := ended
  dsimp only at step ⊢
  -- Only a stored change writes to the key files, and it writes the one whose rules it changed.
  cases step with
  | idle planned nothing store files =>
      rw [store, files]
      exact h.stored
  | refused planned change storage store files =>
      rw [h.storage] at files
      rw [snapshot_of_core store]
      exact h.stored.furnished files
  | @stored plan part rules propagated data stored _ planned change store encoded written
      propagates =>
      obtain ⟨kept', spares, -⟩ := (Call.isSound_plan h.isKept planned).change _ _ change
      rw [h.lowersHosts] at kept'
      rw [h.storage] at written
      have same : after.store.snapshot = rules := snapshot_of_core store
      rw [same]
      have stores := h.stored.replaced kept' spares encoded written
      exact stores.propagates (off' written.current) propagates
  | republished again store propagates =>
      rw [snapshot_of_core store]
      exact h.stored.propagates (off' rfl) propagates

theorem Opens.durable {machine : Machine} {storage : KeyedStorage}
    {propagator : Option Propagator} {lowersHosts : Bool} {editor : Editor}
    (h : Opens machine storage propagator lowersHosts editor) (closed : machine.files.Closed)
    (named : storage.directory.IsNamed) (steady : machine.files.Steady storage.directory) :
    Durable editor editor := by
  refine ⟨h.continues, ?_⟩
  obtain ⟨rules, found, store, alike⟩ := h.spec
  rw [alike.files, store]
  exact stores_of_read closed named steady found

/-! ## Restarts -/

def restart (editor : Editor) : Except Fault Unit × Editor :=
  load.runOn ⟨editor.machine,
    fresh editor.store.storage editor.store.propagator editor.store.lowersHosts⟩

/-- A new process can be started in the place of this one, and has its rules. -/
def Resumes (editor : Editor) : Prop :=
  (restart editor).1 = .ok () ∧ (restart editor).2.store.snapshot = editor.store.snapshot

theorem Durable.restart {start editor : Editor} (h : Durable start editor) :
    (restart editor).1 = .ok () ∧ editor.Alike (restart editor).2 := by
  have found : read editor.store.storage editor.store.lowersHosts editor.machine.files =
      .ok editor.store.snapshot := by
    rw [h.storage, h.lowersHosts]
    exact read_of_stores h.stored
  have opened : Opens editor.machine editor.store.storage editor.store.propagator
      editor.store.lowersHosts (RuleStore.restart editor).2 := opens_of_read found _
  obtain ⟨rules, found', store, journal, machine⟩ := opened.spec
  cases found.symm.trans found'
  refine ⟨congrArg Prod.fst opened, journal, none, ?_⟩
  have rest : (fresh editor.store.storage editor.store.propagator
      editor.store.lowersHosts).withRules editor.store.snapshot =
        { editor.store with lastReport := none } := by
    unfold withRules fresh snapshot
    rw [← h.nobody]
  exact congrArg₂ Editor.mk machine (store.trans rest)

theorem Durable.of_alike {start editor other : Editor} (h : Durable start editor)
    (alike : editor.Alike other) : Durable start other := by
  obtain ⟨journal, report, rfl⟩ := alike
  exact ⟨⟨h.storage, h.propagator, h.lowersHosts, h.nobody, h.current, h.kept⟩, h.stored⟩

/-- What happens to a store: an operation, or a restart of its process. -/
inductive Turn
  | operation (call : Call)
  | restart

namespace Turn

def next (editor : Editor) : Turn → Editor
  | .operation call => (call.perform editor).2
  | .restart => (RuleStore.restart editor).2

def run (editor : Editor) (turns : List Turn) : Editor :=
  turns.foldl next editor

def calls (turns : List Turn) : List Call :=
  turns.filterMap fun turn =>
    match turn with
    | .operation call => some call
    | .restart => none

/-- The answers to the operations of a run with restarts, each with the rules behind it. -/
def answers (editor : Editor) : List Turn → List (Except Fault Answer × RuleSet)
  | [] => []
  | .operation call :: turns =>
      ((call.perform editor).1, (call.perform editor).2.store.snapshot) ::
        answers (call.perform editor).2 turns
  | .restart :: turns => answers (RuleStore.restart editor).2 turns

end Turn

theorem Call.perform_respects (call : Call) : Respects Editor.Alike call.work := by
  have likeness := Editor.Alike.likeness
  cases call with
  | addHost name => exact .map _ (addHost_respects likeness name)
  | removeHost name => exact .map _ (removeHost_respects likeness name)
  | addElementRule rule => exact .map _ (addElementRule_respects likeness rule)
  | removeElementRule rule => exact .map _ (removeElementRule_respects likeness rule)
  | removeElementRuleByKey key => exact .map _ (removeElementRuleByKey_respects likeness key)
  | importRules document => exact .map _ (importRules_respects likeness document)
  | clearElementRules => exact .map _ (clearElementRules_respects likeness)
  | republish => exact .map _ republish_respects

section Restarts

variable {start : Editor}
  (nameable : start.machine.files.IsNameable start.store.storage.directory)
  (off : ∀ p ∈ start.store.propagator, KeepsOff p start.store.storage start.machine.files)

include nameable off

theorem Durable.next {editor : Editor} (h : Durable start editor) (turn : Turn) :
    Durable start (turn.next editor) := by
  cases turn with
  | operation call => exact h.perform nameable off call
  | restart => exact h.of_alike h.restart.2

theorem Durable.run {editor : Editor} (h : Durable start editor) (turns : List Turn) :
    Durable start (Turn.run editor turns) := by
  induction turns generalizing editor with
  | nil => exact h
  | cons turn turns ih => exact ih (h.next nameable off turn)

/-- Restarts on one side make no difference. -/
theorem Durable.answers_eq {editor other : Editor} (h : Durable start editor)
    (alike : editor.Alike other) (turns : List Turn) :
    Turn.answers other turns = Turn.answers editor ((Turn.calls turns).map .operation) := by
  -- A restart moves the other process alone, and what it comes to is still like this one.
  induction turns generalizing editor other with
  | nil => rfl
  | cons turn turns ih =>
      cases turn with
      | operation call =>
          obtain ⟨same, alike'⟩ := call.perform_respects editor other alike
          change (call.perform editor).1 = (call.perform other).1 at same
          change (call.perform editor).2.Alike (call.perform other).2 at alike'
          change ((call.perform other).1, (call.perform other).2.store.snapshot) ::
              Turn.answers (call.perform other).2 turns =
            ((call.perform editor).1, (call.perform editor).2.store.snapshot) ::
              Turn.answers (call.perform editor).2 ((Turn.calls turns).map .operation)
          rw [same, alike'.snapshot, ih (h.perform nameable off call) alike']
      | restart =>
          have again := (h.of_alike alike).restart.2
          exact ih h (alike.trans again)

end Restarts

/--
After every run of operations and restarts, whatever failed in it, a new process has the rules of
the one that it replaces. Restarts change neither the answers of the operations nor the rules.
-/
theorem restart_resumes {machine : Machine} {storage : KeyedStorage}
    {propagator : Option Propagator} {lowersHosts : Bool} {editor : Editor}
    (opened : Opens machine storage propagator lowersHosts editor) (closed : machine.files.Closed)
    (nameable : machine.files.IsNameable storage.directory)
    (steady : machine.files.Steady storage.directory)
    (off : ∀ p ∈ propagator, KeepsOff p storage machine.files) (turns : List Turn) :
    Resumes (Turn.run editor turns) ∧
      Turn.answers editor turns = Turn.answers editor ((Turn.calls turns).map .operation) := by
  have durable := opened.durable closed nameable.1 steady
  have nameable' := opened.nameable nameable
  have off' : ∀ p ∈ editor.store.propagator,
      KeepsOff p editor.store.storage editor.machine.files := by
    rw [opened.files_eq, opened.storage_eq, opened.propagator_eq]
    exact off
  refine ⟨?_, durable.answers_eq nameable' off' (.refl editor) turns⟩
  obtain ⟨done, same⟩ := (durable.run nameable' off' turns).restart
  exact ⟨done, same.snapshot⟩

/-- A new installation to which a host is added before and after a restart. -/
theorem restart_resumes_new :
    Resumes (Turn.run (newEditor true)
        [.operation (.addHost (Text.ofString "A.com")), .restart]) ∧
      Turn.answers (newEditor true) [.operation (.addHost (Text.ofString "A.com")), .restart] =
        Turn.answers (newEditor true) ((Turn.calls
          [.operation (.addHost (Text.ofString "A.com")), .restart]).map .operation) := by
  refine restart_resumes (opens_newEditor true) ?_ (by decide) trivial ?_ _
  · intro route there
    cases route with
    | nil => rfl
    | cons name names => exact absurd rfl there
  · intro p inside
    cases inside
    refine ⟨?_, fun part r _ => Reloader.leavesAlone_none _ r⟩
    intro part
    cases part <;> decide

/-! ## Storages that do not stay in their place -/

theorem opens_of_isOk {machine : Machine} {storage : KeyedStorage}
    {propagator : Option Propagator} {lowersHosts : Bool}
    (h : (load.runOn ⟨machine, fresh storage propagator lowersHosts⟩).1.isOk = true) :
    Opens machine storage propagator lowersHosts
      (load.runOn ⟨machine, fresh storage propagator lowersHosts⟩).2 := by
  unfold Opens
  rcases hr : load.runOn ⟨machine, fresh storage propagator lowersHosts⟩ with ⟨e | ⟨⟩, after⟩
  · rw [hr] at h
    cases h
  · rfl

def usedMachine : Machine :=
  Machine.start
    ⟨[([Text.ofString "data"], .directory),
      ([Text.ofString "data", Text.ofString "Hosts.json"],
        .file (Utf8.encodeAny (Text.ofString "[\"x.com\"]")))], []⟩

def exampleRule : ElementRule :=
  ⟨Text.ofString "b.com", Text.ofString ".x", by decide, by decide, by decide⟩

/-- A way to `/data` over a directory that is not there yet. -/
def roundaboutStorage : KeyedStorage :=
  ⟨⟨1, [Text.ofString "new", parentName, Text.ofString "data"]⟩, .usual⟩

/-- A directory with a name too long, in a directory that is not there yet. -/
def overlongStorage : KeyedStorage :=
  ⟨⟨1, [Text.ofString "new", List.replicate 300 (CodePoint.ofChar 'a')]⟩, .usual⟩

/-- A filter list in a directory that stands in the place of the hosts of `ownStorage`. -/
def intrusiveSinks : Propagator :=
  ⟨⟨1, [Text.ofString "data", Text.ofString "Hosts.json", Text.ofString "list.json"]⟩,
    ⟨⟨1, [Text.ofString "group"]⟩, .usual⟩, .null, .none⟩

/--
A process does not go on as before when its storage comes to stand elsewhere with the first write,
or can be reached no more then, or when a sink makes a directory in the place of one of its files.
-/
theorem not_resumes :
    (∃ editor, Opens usedMachine roundaboutStorage none true editor ∧
        usedMachine.files.IsNameable roundaboutStorage.directory ∧
        ¬ Resumes (Call.run editor [.addElementRule exampleRule])) ∧
      (∃ editor, Opens bareMachine overlongStorage none true editor ∧
        bareMachine.files.IsNameable overlongStorage.directory ∧
        ¬ Resumes (Call.run editor [.addElementRule exampleRule])) ∧
      (∃ editor, Opens bareMachine ownStorage (some intrusiveSinks) true editor ∧
        bareMachine.files.IsNameable ownStorage.directory ∧
        (∀ part : Part, ownStorage.placeOf bareMachine.files part.key ∉
          [bareMachine.files.placeOf intrusiveSinks.filterListPath,
            bareMachine.files.placeOf intrusiveSinks.payloadPath]) ∧
        ¬ Resumes (Call.run editor [.addElementRule exampleRule])) := by
  refine ⟨⟨_, opens_of_isOk (by decide +kernel), by decide, ?_⟩,
    ⟨_, opens_of_isOk (by decide +kernel), by decide +kernel, ?_⟩,
    ⟨_, opens_of_isOk (by decide +kernel), by decide, ?_, ?_⟩⟩
  · rintro ⟨-, same⟩
    exact absurd (congrArg (·.hosts.length) same) (by decide +kernel)
  · rintro ⟨done, -⟩
    exact absurd (congrArg Except.isOk done) (by decide +kernel)
  · intro part
    cases part <;> decide
  · rintro ⟨done, -⟩
    exact absurd (congrArg Except.isOk done) (by decide +kernel)

end SiteFilter.RuleStore
