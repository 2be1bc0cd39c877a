import SiteFilter.Proofs.Store.Runs

/-!
# The order of effects

A call that may change the rules does nothing at all, or fails to store its change, or does all of
these in turn: it stores the changed list, propagates the rules, and tells them to everybody who is
subscribed. Which of the three it was can be told from its result and from the rules.
-/

namespace SiteFilter

open FileTree Effect

/-- How a call ends that gives an answer when its propagation met no fault. -/
def Report.closes {α : Type} (report : Report) (answer : α) : Except Fault α :=
  match report.fault? with
  | none => .ok answer
  | some e => .error e

theorem Report.map_closes {α β : Type} (report : Report) (f : α → β) (answer : α) :
    (report.closes answer).map f = report.closes (f answer) := by
  unfold closes
  cases report.fault? <;> rfl

namespace RuleStore

/-! ## Three steps -/

def listeners (names : List Text) : List Subscriber :=
  names.map fun name => ⟨name, .silent⟩

structure Stored (storage : KeyedStorage) (part : Part) (rules : RuleSet)
    (machine after : Machine) : Prop where
  does : machine.Does [.writing (storage.fileOf part.key)] [] after
  files : ∃ data, part.encode rules = .ok data ∧
    Replaced machine.files after.files (storage.fileOf part.key) data

/-- Rules are brought to the filter list and then to the payload, and then a reload is asked for. -/
structure Brought (propagator : Propagator) (rules : RuleSet) (report : Report)
    (machine after : Machine) : Prop where
  does : machine.Does
    (propagator.listWrites rules ++ propagator.payloadWrites rules ++
      propagator.requests report.filterListFault.isNone machine.defersReloads)
    (propagator.requestsLater report.filterListFault.isNone machine.defersReloads) after
  files : propagator.Propagated rules machine.files report.filterListFault report.channelFault
    after.files

structure Told (names : List Text) (rules : RuleSet) (machine after : Machine) : Prop where
  does : machine.Does (names.map fun name => .telling name rules) [] after
  files : after.files = machine.files

theorem persist_does (part : Part) (editor : Editor) :
    Ensures (persist part) editor fun _ after =>
      editor.machine.Does
        (editor.store.storage.writes part.key (part.value editor.store.snapshot)) []
        after.machine := by
  apply Editing.storeThen
  have isKey := part.isShortKey.isKey
  cases part with
  | hosts =>
      exact (Editing.act_spec (KeyedStorage.put_does _ isKey _ _)).mono fun _ _ known => known.2
  | elementRules =>
      exact (Editing.act_spec (KeyedStorage.put_does _ isKey _ _)).mono fun _ _ known => known.2

theorem propagate_brings {editor : Editor} {propagator : Propagator}
    (there : editor.store.propagator = some propagator)
    (nameable : propagator.IsNameable editor.machine.files) (rules : RuleSet) :
    Ensures (propagate rules) editor fun result after => ∃ report : Report,
      result = report.closes (some report) ∧
        after.store = { editor.store with lastReport := some report } ∧
          Brought propagator rules report editor.machine after.machine := by
  apply Editing.storeThen
  rw [there]
  refine .bind (Editing.act_spec ((propagator.propagate_spec rules editor.machine).and
    (propagator.propagate_does rules editor.machine))) ?_ ?_
  · rintro report after ⟨store, ⟨listFault, channelFault, propagated, rfl, rfl⟩, does⟩
    apply Editing.modifyStoreThen
    unfold Report.closes
    cases ends : report.fault? with
    | none =>
        refine .pure ⟨report, by rw [ends], ?_, does report rfl, propagated⟩
        rw [store]
    | some e =>
        refine .throw ⟨report, by rw [ends], ?_, does report rfl, propagated⟩
        rw [store]
  · rintro e after ⟨-, ⟨_, _, -, odd⟩, -⟩
    exact absurd nameable odd

theorem forM_tells {names : List Text} {rules : RuleSet} {tell : Subscriber → Editing PUnit}
    (each : ∀ name editor, Ensures (tell ⟨name, .silent⟩) editor fun result after =>
      result = .ok ⟨⟩ ∧ after.store = editor.store ∧
        Told [name] rules editor.machine after.machine) (editor : Editor) :
    Ensures ((listeners names).forM tell) editor fun result after =>
      result = .ok ⟨⟩ ∧ after.store = editor.store ∧
        Told names rules editor.machine after.machine := by
  induction names generalizing editor with
  | nil => exact .pure ⟨rfl, rfl, .refl _, rfl⟩
  | cons name names ih =>
      refine .bindOk (each name editor) ?_
      rintro middle ⟨store, told⟩
      refine (ih middle).mono ?_
      rintro result after ⟨done, store', told'⟩
      exact ⟨done, store'.trans store, told.does.trans told'.does, told'.files.trans told.files⟩

theorem announceAll_tells {names : List Text} {editor : Editor}
    (quiet : editor.store.subscribers = listeners names) (rules : RuleSet) :
    Ensures (announceAll rules) editor fun result after =>
      result = .ok () ∧ after.store = editor.store ∧
        Told names rules editor.machine after.machine := by
  apply Editing.storeThen
  unfold announce
  apply Editing.storeThen
  rw [quiet]
  refine forM_tells ?_ editor
  intro name editor
  refine .bindOk (Editing.actOk_spec (Q := fun after =>
    Told [name] rules editor.machine after) (Ensures.change ⟨rfl, ?_, rfl⟩)) ?_
  · exact .onEvent editor.machine (.telling name rules) rfl
  · rintro after ⟨store, told⟩
    exact .pure ⟨rfl, store, told⟩

/-! ## A change -/

/-- How a change ends: it cannot be stored, or all three steps are taken. -/
inductive Carried (propagator : Propagator) (names : List Text) (part : Part) (rules : RuleSet)
    (before : Editor) : Except Fault Unit → Editor → Prop
  | refused {e : Fault} {after : Editor} (storage : e.isOfStorage = true)
      (store : after.store = before.store)
      (files : Furnished before.machine.files after.machine.files
        (before.machine.files.origin before.store.storage.directory)
        before.store.storage.directory.parts)
      (does : before.machine.Does (before.store.storage.writes part.key (part.value rules)) []
        after.machine) :
      Carried propagator names part rules before (.error e) after
  | effective {report : Report} {stored propagated : Machine} {after : Editor}
      (store : after.store = { before.store.withRules rules with lastReport := some report })
      (stores : Stored before.store.storage part rules before.machine stored)
      (brings : Brought propagator rules report stored propagated)
      (tells : Told names rules propagated after.machine) :
      Carried propagator names part rules before (report.closes ()) after

/-- A process with silent subscribers, whose paths are all made of names. -/
structure IsReady (propagator : Propagator) (names : List Text) (editor : Editor) : Prop where
  quiet : editor.store.subscribers = listeners names
  sinks : editor.store.propagator = some propagator
  storageNameable : editor.machine.files.IsNameable editor.store.storage.directory
  sinksNameable : propagator.IsNameable editor.machine.files

theorem commit_carries {propagator : Propagator} {names : List Text} {editor : Editor}
    (ready : IsReady propagator names editor) (part : Part) (rules : RuleSet) :
    Ensures (commit part rules) editor (Carried propagator names part rules editor) := by
  refine commitWith_rule ((persist_spec part _).and (persist_does part _)) ?_ ?_
  -- The rules are taken back for a fault of the storage only, and there is no other one here.
  · rintro e after ⟨⟨store, made, kind⟩, does⟩
    have storage := kind ready.storageNameable
    rw [if_pos storage]
    refine .refused storage ?_ made does
    rw [store]
    rfl
  · rintro middle ⟨⟨store, data, encoded, written⟩, does⟩
    have writes : editor.store.storage.writes part.key (part.value rules) =
        [.writing (editor.store.storage.fileOf part.key)] := by
      unfold KeyedStorage.writes
      rw [(KeyedStorage.encodeValue_own_ok_iff (readable_partValue part rules)).mpr encoded]
    change editor.machine.Does (editor.store.storage.writes part.key (part.value rules)) []
      middle.machine at does
    rw [writes] at does
    have stored : Stored editor.store.storage part rules editor.machine middle.machine :=
      ⟨does, data, encoded, written⟩
    have sinks : middle.store.propagator = some propagator := by
      rw [store]
      exact ready.sinks
    have nameable := ready.sinksNameable.of_current written.current
    refine (propagate_brings sinks nameable rules).mono ?_
    rintro _ propagated ⟨report, rfl, reported, brought⟩
    rw [store] at reported
    have quiet : propagated.store.subscribers = listeners names := by
      rw [reported]
      exact ready.quiet
    refine (announceAll_tells quiet rules).mono ?_
    rintro _ after ⟨rfl, kept, told⟩
    have carried := Carried.effective (kept.trans reported) stored brought told
    rw [← report.map_closes (fun _ => ()) (some report)] at carried
    exact carried

/-! ## A call -/

/-- An answer that tells of no change. -/
def Answer.IsNothing : Answer → Prop
  | .added isNew => isNew = false
  | .counted count => count = 0
  | .done => True
  | .propagated _ => False

/-- A call asks for other rules, where one list is changed, and would give an answer. -/
structure Call.Asks (call : Call) (store : RuleStore) (part : Part) (rules : RuleSet)
    (answer : Answer) : Prop where
  planned : call.plan? store.lowersHosts store.snapshot = some ⟨some (part, rules), answer⟩
  spares : part.Spares store.snapshot rules
  new : rules ≠ store.snapshot

/-- The three ways in which a call may end. -/
inductive Way
  | idle
  | refused
  | effective

/-- How a call ends, in each of the three ways. -/
inductive Ends (propagator : Propagator) (names : List Text) (call : Call) (before : Editor) :
    Way → Except Fault Answer → Editor → Prop
  /-- Nothing is done and nothing is changed. -/
  | idle {answer : Answer} {after : Editor} (nothing : answer.IsNothing)
      (store : after.store = before.store)
      (files : after.machine.files = before.machine.files)
      (does : before.machine.Does [] [] after.machine) :
      Ends propagator names call before .idle (.ok answer) after
  /-- The changed list cannot be stored; nothing else is tried. -/
  | refused {part : Part} {rules : RuleSet} {answer : Answer} {e : Fault} {after : Editor}
      (asks : call.Asks before.store part rules answer) (storage : e.isOfStorage = true)
      (store : after.store = before.store)
      (files : Furnished before.machine.files after.machine.files
        (before.machine.files.origin before.store.storage.directory)
        before.store.storage.directory.parts)
      (does : before.machine.Does (before.store.storage.writes part.key (part.value rules)) []
        after.machine) :
      Ends propagator names call before .refused (.error e) after
  /-- The rules are changed and all three steps are taken, whatever the sinks meet. -/
  | effective {part : Part} {rules : RuleSet} {answer : Answer} {report : Report}
      {stored propagated : Machine} {after : Editor}
      (asks : call.Asks before.store part rules answer)
      (store : after.store = { before.store.withRules rules with lastReport := some report })
      (stores : Stored before.store.storage part rules before.machine stored)
      (brings : Brought propagator rules report stored propagated)
      (tells : Told names rules propagated after.machine)
      (requested : after.machine.requests ≤ before.machine.requests + 1) :
      Ends propagator names call before .effective (report.closes answer) after

section Calls

variable {propagator : Propagator} {names : List Text} {call : Call} {before after : Editor}
  {way : Way} {result : Except Fault Answer}

/-- The way can be told from the result and the rules. -/
theorem Ends.way_eq (h : Ends propagator names call before way result after) :
    way = if after.store.snapshot = before.store.snapshot then
      if result.isOk then .idle else .refused
    else .effective := by
  cases h with
  | idle nothing store files does =>
      rw [if_pos (congrArg RuleStore.snapshot store)]
      rfl
  | refused asks storage store files does =>
      rw [if_pos (congrArg RuleStore.snapshot store)]
      rfl
  | effective asks store stores brings tells requested =>
      have changed := congrArg RuleStore.snapshot store
      rw [if_neg]
      intro same
      exact asks.new (changed.symm.trans same)

/-- Whether a plan without a change has an answer that tells of none. -/
def Call.Plan.IsHonest (plan : Call.Plan) : Prop :=
  plan.change = none → plan.answer.IsNothing

theorem isHonest_change (change : Part × RuleSet) (answer : Answer) :
    (Call.Plan.mk (some change) answer).IsHonest := by
  rintro ⟨⟩

theorem isHonest_removeElementRule (rules : RuleSet) (rule : ElementRule) :
    (Call.planRemoveElementRule rules rule).IsHonest := by
  unfold Call.planRemoveElementRule
  dsimp only
  split
  · exact fun _ => rfl
  · exact isHonest_change _ _

theorem isHonest_plan {lowersHosts : Bool} {rules : RuleSet} {plan : Call.Plan}
    (planned : call.plan? lowersHosts rules = some plan) : plan.IsHonest := by
  cases call with
  | addHost name =>
      cases planned
      unfold Call.planAddHost
      split
      · exact fun _ => rfl
      · split
        · exact fun _ => rfl
        · exact isHonest_change _ _
  | removeHost name =>
      cases planned
      unfold Call.planRemoveHost
      dsimp only
      split
      · exact fun _ => rfl
      · exact isHonest_change _ _
  | addElementRule rule =>
      cases planned
      unfold Call.planAddElementRule
      split
      · exact fun _ => rfl
      · exact isHonest_change _ _
  | removeElementRule rule =>
      cases planned
      exact isHonest_removeElementRule rules rule
  | removeElementRuleByKey key =>
      simp only [Call.plan?] at planned
      split at planned
      · cases planned
        exact isHonest_removeElementRule rules _
      · cases planned
        exact fun _ => rfl
  | importRules document =>
      cases planned
      unfold Call.planImport
      dsimp only
      split
      · exact fun _ => rfl
      · exact isHonest_change _ _
  | clearElementRules =>
      cases planned
      unfold Call.planClear
      split
      · exact fun _ => trivial
      · exact isHonest_change _ _
  | republish => cases planned

/-- The three steps come to one request to reload at most. -/
theorem requests_le {part : Part} {rules : RuleSet} {storage : KeyedStorage} {report : Report}
    {machine stored propagated told : Machine}
    (stores : Stored storage part rules machine stored)
    (brings : Brought propagator rules report stored propagated)
    (tells : Told names rules propagated told) : told.requests ≤ machine.requests + 1 := by
  have silent : (names.map fun name => Event.telling name rules).countP Event.isRequest = 0 := by
    rw [List.countP_map, List.countP_eq_zero]
    rintro name - ⟨⟩
  have first : stored.requests = machine.requests := stores.does.requests_eq
  have second := Propagator.requests_of_does brings.does
  have third := tells.does.requests_eq
  rw [silent] at third
  have one : (if report.filterListFault.isNone then 1 else 0) ≤ 1 := by split <;> decide
  rw [third, second, first]
  exact Nat.add_le_add_left one _

/-- What a change comes to is what the call comes to that asks for it. -/
theorem Carried.ends {part : Part} {rules : RuleSet} {answer : Answer} {start middle : Editor}
    {ended : Except Fault Unit}
    (h : Carried propagator names part rules start ended middle)
    (asks : call.Asks before.store part rules answer) (noted : Noted before start)
    (noted' : Noted middle after) :
    ∃ way, Ends propagator names call before way (ended.map fun _ => answer) after := by
  have store := noted.store
  have files := noted.alike.files
  cases h with
  | refused storage kept made does =>
      rw [store] at kept does
      rw [store, files, ← noted'.alike.files] at made
      exact ⟨.refused, .refused asks storage (noted'.store.trans kept) made
        ((noted.does.behindNothing does).thenNothing noted'.does)⟩
  | @effective report stored propagated _ changed stores brings tells =>
      rw [store] at changed stores
      have stores' : Stored before.store.storage part rules before.machine stored := by
        refine ⟨noted.does.behindNothing stores.does, ?_⟩
        rw [← files]
        exact stores.files
      have tells' : Told names rules propagated after.machine :=
        ⟨tells.does.thenNothing noted'.does, noted'.alike.files.trans tells.files⟩
      rw [Report.map_closes]
      exact ⟨.effective, .effective asks (noted'.store.trans changed) stores' brings tells'
        (requests_le stores' brings tells')⟩

theorem IsReady.noted (ready : IsReady propagator names before) (noted : Noted before after) :
    IsReady propagator names after := by
  obtain ⟨store, alike, -⟩ := noted
  constructor
  · rw [store]
    exact ready.quiet
  · rw [store]
    exact ready.sinks
  · rw [store, alike.files]
    exact ready.storageNameable
  · rw [alike.files]
    exact ready.sinksNameable

/-- Every call but the one that only propagates ends in one of the three ways. -/
theorem IsReady.perform_ends (ready : IsReady propagator names before)
    (kept : IsKept before.store.lowersHosts before.store.snapshot)
    (mutating : call ≠ .republish) :
    ∃ way, Ends propagator names call before way (call.perform before).1
      (call.perform before).2 := by
  obtain ⟨plan, planned⟩ := call.exists_plan before.store.lowersHosts before.store.snapshot mutating
  have sound := Call.isSound_plan kept planned
  suffices leads : plan.Leads before fun result after =>
      ∃ way, Ends propagator names call before way result after from work_leads planned leads
  unfold Call.Plan.Leads
  split
  · rename_i nothing
    intro after noted
    exact ⟨.idle, .idle (isHonest_plan planned nothing) noted.store noted.alike.files noted.does⟩
  · rename_i part rules change
    obtain ⟨-, spares, new⟩ := sound.change part rules change
    have asks : call.Asks before.store part rules plan.answer := by
      refine ⟨?_, spares, new⟩
      rw [← change]
      exact planned
    intro start noted
    refine (commit_carries (ready.noted noted) part rules).mono ?_
    intro ended middle carried after noted'
    exact carried.ends asks noted noted'

end Calls

/-! ## Every state of a process -/

/--
The states of a process since its store was opened, with the names under which somebody is
subscribed. Between two calls everything else on the machine may change but the directory that the
process works in.
-/
inductive Reaches (start : Editor) : List Text → Editor → Prop
  | opened : Reaches start [] start
  | performed {names : List Text} {editor : Editor} (call : Call)
      (before : Reaches start names editor) : Reaches start names (call.perform editor).2
  | loaded {names : List Text} {editor : Editor} (before : Reaches start names editor) :
      Reaches start names (load.runOn editor).2
  | subscribed {names : List Text} {editor : Editor} (name : Text)
      (before : Reaches start names editor) :
      Reaches start (names ++ [name]) { editor with store := editor.store.subscribe ⟨name, .silent⟩ }
  | unsubscribed {names : List Text} {editor : Editor} (name : Text)
      (before : Reaches start names editor) :
      Reaches start (names.erase name) { editor with store := editor.store.unsubscribe name }
  | meanwhile {names : List Text} {editor : Editor} (machine : Machine)
      (current : machine.files.current = editor.machine.files.current)
      (before : Reaches start names editor) :
      Reaches start names { editor with machine := machine }

def alone (editor : Editor) : Editor :=
  { editor with store := { editor.store with subscribers := [] } }

/-- A process that came from another one, with silent subscribers. -/
structure Attends (start : Editor) (names : List Text) (editor : Editor) : Prop where
  continues : Continues start (alone editor)
  quiet : editor.store.subscribers = listeners names

namespace Attends

variable {start editor after : Editor} {names : List Text} {propagator : Propagator}

theorem of_core (h : Attends start names editor) (rules : RuleSet)
    (core : after.store.core = (editor.store.withRules rules).core)
    (current : after.machine.files.current = editor.machine.files.current)
    (kept : IsKept start.store.lowersHosts rules) : Attends start names after := by
  have alone := congrArg (fun store : RuleStore => { store with subscribers := [] }) core
  exact ⟨h.continues.of_core rules alone current kept,
    (congrArg RuleStore.subscribers core).trans h.quiet⟩

theorem isReady (h : Attends start names editor) (there : start.store.propagator = some propagator)
    (nameable : start.machine.files.IsNameable start.store.storage.directory)
    (sinks : propagator.IsNameable start.machine.files) : IsReady propagator names editor := by
  refine ⟨h.quiet, h.continues.propagator.trans there, ?_, sinks.of_current h.continues.current⟩
  rw [show editor.store.storage = _ from h.continues.storage]
  exact nameable.of_current h.continues.current

theorem isKept (h : Attends start names editor) :
    IsKept editor.store.lowersHosts editor.store.snapshot :=
  h.continues.isKept

theorem of_ends {call : Call} {way : Way} {result : Except Fault Answer}
    (h : Attends start names editor) (ends : Ends propagator names call editor way result after) :
    Attends start names after := by
  have kept := h.continues.kept
  cases ends with
  | idle nothing store files does =>
      refine h.of_core editor.store.snapshot (congrArg core store) ?_ kept
      rw [files]
  | refused asks storage store files does =>
      exact h.of_core editor.store.snapshot (congrArg core store) files.current kept
  | @effective part rules answer report stored propagated _ asks store stores brings tells _ =>
      obtain ⟨data, -, written⟩ := stores.files
      have changed := congrArg core store
      refine h.of_core rules changed ?_ ?_
      · rw [tells.files, brings.files.current, written.current]
      · have lowersHosts : editor.store.lowersHosts = start.store.lowersHosts :=
          h.continues.lowersHosts
        rw [← lowersHosts]
        exact ((Call.isSound_plan h.isKept asks.planned).change part rules rfl).1

theorem perform (h : Attends start names editor) (there : start.store.propagator = some propagator)
    (nameable : start.machine.files.IsNameable start.store.storage.directory)
    (sinks : propagator.IsNameable start.machine.files) (call : Call) :
    Attends start names (call.perform editor).2 := by
  by_cases mutating : call = .republish
  · subst mutating
    obtain ⟨core, ended, propagates, -⟩ := republish_spec editor
    exact h.of_core editor.store.snapshot core propagates.current h.continues.kept
  · obtain ⟨way, ends⟩ := (h.isReady there nameable sinks).perform_ends h.isKept mutating
    exact h.of_ends ends

theorem load (h : Attends start names editor) : Attends start names (load.runOn editor).2 := by
  obtain ⟨alike, loaded⟩ := load_spec editor
  rw [← Editing.runOn_eq] at alike loaded
  have current := congrArg FileTree.current alike.files
  have lowersHosts : editor.store.lowersHosts = start.store.lowersHosts := h.continues.lowersHosts
  split at loaded
  · rename_i rules found
    refine h.of_core rules (congrArg core loaded.2) current ?_
    rw [← lowersHosts]
    exact isKept_of_read found
  · exact h.of_core editor.store.snapshot (congrArg core loaded.2) current h.continues.kept

end Attends

theorem eraseP_listeners (name : Text) (names : List Text) :
    (listeners names).eraseP (·.name = name) = listeners (names.erase name) := by
  unfold listeners
  rw [List.eraseP_map, List.erase_eq_eraseP']
  congr 2
  funext other
  exact Bool.eq_iff_iff.mpr (decide_eq_true_iff.trans beq_iff_eq.symm)

theorem Reaches.attends {start editor : Editor} {names : List Text} {propagator : Propagator}
    (h : Reaches start names editor) (begun : Attends start [] start)
    (there : start.store.propagator = some propagator)
    (nameable : start.machine.files.IsNameable start.store.storage.directory)
    (sinks : propagator.IsNameable start.machine.files) : Attends start names editor := by
  -- A call keeps what the next one starts from, in whichever way it ends; subscriptions are told
  -- by their names alone, and other changes of the machine touch nothing that a store holds.
  induction h with
  | opened => exact begun
  | performed call _ ih => exact ih.perform there nameable sinks call
  | loaded _ ih => exact ih.load
  | @subscribed names editor name _ ih =>
      refine ⟨ih.continues, ?_⟩
      unfold subscribe listeners
      rw [List.map_append, ih.quiet]
      rfl
  | @unsubscribed names editor name _ ih =>
      refine ⟨ih.continues, ?_⟩
      unfold unsubscribe
      rw [ih.quiet]
      exact eraseP_listeners name names
  | meanwhile machine current _ ih =>
      exact ih.of_core _ rfl current ih.continues.kept

/--
In every state of a process with sinks and silent subscribers, each call that may change the rules
ends in just one of three ways: nothing is done at all; or the one write of the changed list fails,
with a fault of the storage, and nothing else is done; or the rules are changed, and the list is
stored, then the rules are propagated with one request to reload at most, and then they are told to
everybody who is subscribed, in the order of the subscriptions and whatever the sinks met.
-/
theorem effects_in_order {machine : Machine} {storage : KeyedStorage} {propagator : Propagator}
    {lowersHosts : Bool} {start editor : Editor} {names : List Text} {call : Call}
    (opened : Opens machine storage (some propagator) lowersHosts start)
    (nameable : machine.files.IsNameable storage.directory)
    (sinks : propagator.IsNameable machine.files) (reaches : Reaches start names editor)
    (mutating : call ≠ .republish) :
    ∃! way, Ends propagator names call editor way (call.perform editor).1
      (call.perform editor).2 := by
  have begun : Attends start [] start := by
    have continues := opened.continues
    refine ⟨⟨rfl, rfl, rfl, rfl, rfl, continues.kept⟩, continues.nobody⟩
  have there := opened.propagator_eq
  have nameable' := opened.nameable nameable
  have sinks' : propagator.IsNameable start.machine.files := by
    rw [opened.files_eq]
    exact sinks
  have attends := reaches.attends begun there nameable' sinks'
  obtain ⟨way, ends⟩ := (attends.isReady there nameable' sinks').perform_ends attends.isKept mutating
  refine ⟨way, ends, ?_⟩
  intro other ends'
  exact ends'.way_eq.trans ends.way_eq.symm

def leftEditor : Editor :=
  let store := ((newEditor true).store.subscribe ⟨Text.ofString "list", .silent⟩).subscribe
    ⟨Text.ofString "page", .silent⟩
  let editor := ((Call.addHost (Text.ofString "a.com")).perform { newEditor true with store }).2
  { editor with store := editor.store.unsubscribe (Text.ofString "list") }

theorem reaches_left : Reaches (newEditor true) [Text.ofString "page"] leftEditor := by
  have names : ([] ++ [Text.ofString "list"] ++ [Text.ofString "page"]).erase
      (Text.ofString "list") = [Text.ofString "page"] := by
    decide
  rw [← names]
  exact .unsubscribed _ (.performed _ (.subscribed _ (.subscribed _ .opened)))

/-- Another host is added after one of two subscribers has left. -/
theorem effects_in_order_left :
    Opens bareMachine ownStorage (some sharedSinks) true (newEditor true) ∧
      bareMachine.files.IsNameable ownStorage.directory ∧
      sharedSinks.IsNameable bareMachine.files ∧
      Reaches (newEditor true) [Text.ofString "page"] leftEditor ∧
      ∃! way, Ends sharedSinks [Text.ofString "page"] (.addHost (Text.ofString "b.com")) leftEditor
        way ((Call.addHost (Text.ofString "b.com")).perform leftEditor).1
        ((Call.addHost (Text.ofString "b.com")).perform leftEditor).2 :=
  ⟨opens_newEditor true, by decide, by decide, reaches_left,
    effects_in_order (opens_newEditor true) (by decide) (by decide) reaches_left (by rintro ⟨⟩)⟩

/-- The third write is refused; a reload is asked for and the page is told all the same. -/
example :
    let refusals := [none, none, some .noSpace]
    let editor : Editor := { leftEditor with machine := { leftEditor.machine with refusals } }
    let ended := (Call.addHost (Text.ofString "b.com")).perform editor
    ended.1.isOk = false ∧
      (ended.2.machine.deeds.drop editor.machine.deeds.length).map Event.isWrite =
        [true, true, true, false, false] := by
  decide +kernel

end RuleStore

end SiteFilter
