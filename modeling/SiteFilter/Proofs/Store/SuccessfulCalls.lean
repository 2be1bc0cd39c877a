import SiteFilter.Proofs.Likeness
import SiteFilter.Proofs.Propagation.Contents
import SiteFilter.Proofs.Store.Traces

/-!
# Calls whose writes succeed

When nothing that a call writes fails, and subscribers neither fail nor call back, the call gives
the answer of its plan. It changes one list or none, and the file of that list, the filter list and
the payload are then written in this order.
-/

namespace SiteFilter

open FileTree Effect

/-! ## Calm subscribers -/

def Subscriber.isCalm (subscriber : Subscriber) : Bool :=
  match subscriber.reaction with
  | .silent | .unsubscribe _ => true
  | .fail _ | .addHost _ => false

namespace RuleStore

def IsCalm (store : RuleStore) : Prop :=
  ∀ subscriber ∈ store.subscribers, subscriber.isCalm = true

instance (store : RuleStore) : Decidable store.IsCalm :=
  inferInstanceAs (Decidable (∀ subscriber ∈ store.subscribers, _))

/-- A process after its rules were told: at most some subscriptions are gone. -/
structure Heard (before after : Editor) : Prop where
  store : { after.store with subscribers := before.store.subscribers } = before.store
  calm : after.store.IsCalm
  files : after.machine.files = before.machine.files

theorem Heard.refl {editor : Editor} (calm : editor.store.IsCalm) : Heard editor editor :=
  ⟨rfl, calm, rfl⟩

theorem Heard.trans {before middle after : Editor} (first : Heard before middle)
    (second : Heard middle after) : Heard before after := by
  refine ⟨?_, second.calm, second.files.trans first.files⟩
  have store := congrArg
    (fun store : RuleStore => { store with subscribers := before.store.subscribers }) second.store
  exact store.trans first.store

theorem forM_heard {subscribers : List Subscriber} (calm : ∀ s ∈ subscribers, s.isCalm = true)
    {tell : Subscriber → Editing PUnit}
    (each : ∀ s, s.isCalm = true → ∀ editor : Editor, editor.store.IsCalm →
      Ensures (tell s) editor fun result after => result = .ok ⟨⟩ ∧ Heard editor after)
    {editor : Editor} (start : editor.store.IsCalm) :
    Ensures (subscribers.forM tell) editor fun result after =>
      result = .ok ⟨⟩ ∧ Heard editor after := by
  induction subscribers generalizing editor with
  | nil => exact .pure ⟨rfl, .refl start⟩
  | cons subscriber subscribers ih =>
      refine .bindOk (each _ (calm _ List.mem_cons_self) editor start) ?_
      intro middle heard
      refine (ih (fun s inside => calm s (List.mem_cons_of_mem _ inside)) heard.calm).mono ?_
      rintro result after ⟨done, heard'⟩
      exact ⟨done, heard.trans heard'⟩

/-- Calm subscribers are told the rules, and nothing else changes. -/
theorem announceAll_heard {editor : Editor} (calm : editor.store.IsCalm) (rules : RuleSet) :
    Ensures (announceAll rules) editor fun result after =>
      result = .ok () ∧ Heard editor after := by
  apply Editing.storeThen
  unfold announce
  apply Editing.storeThen
  refine forM_heard calm ?_ calm
  intro subscriber isCalm editor start
  refine .bindOk (Editing.actOk_spec (Q := fun after => after.files = editor.machine.files)
    (Ensures.change ⟨rfl, rfl⟩)) ?_
  rintro told ⟨store, files⟩
  unfold Subscriber.isCalm at isCalm
  have heard : Heard editor told := by
    refine ⟨?_, ?_, files⟩
    · rw [store]
    · rw [store]
      exact start
  cases reaction : subscriber.reaction with
  | silent => exact .pure ⟨rfl, heard⟩
  | unsubscribe name =>
      refine Ensures.change ⟨rfl, heard.trans ⟨rfl, ?_, rfl⟩⟩
      exact fun other inside => heard.calm other (List.mem_of_mem_eraseP inside)
  | fail reason =>
      rw [reaction] at isCalm
      cases isCalm
  | addHost name =>
      rw [reaction] at isCalm
      cases isCalm

/-! ## What a process goes on with -/

/-- A process that came from another one by changes of the rules. -/
structure Derives (start editor : Editor) : Prop where
  storage : editor.store.storage = start.store.storage
  propagator : editor.store.propagator = start.store.propagator
  lowersHosts : editor.store.lowersHosts = start.store.lowersHosts
  current : editor.machine.files.current = start.machine.files.current
  calm : editor.store.IsCalm

def Part.octets (rules : RuleSet) (part : Part) : Bytes :=
  (part.encode rules).toOption.getD []

def storedAt (editor : Editor) (part : Part) (rules : RuleSet) (path : Path) : Option Bytes :=
  editor.machine.files.laid (editor.store.storage.fileOf part.key) (part.octets rules) path

def sinksAt (editor : Editor) (rules : RuleSet) (path : Path) : Option Bytes :=
  editor.store.propagator.bind (·.sinksAt editor.machine.files rules path)

/-- Whether requests to reload leave what is in the place of a path as it is. -/
def ReloadsSpare (editor : Editor) (path : Path) : Prop :=
  ∀ propagator, editor.store.propagator = some propagator →
    propagator.reloader.LeavesAlone propagator.engine (editor.machine.files.placeOf path)

/-- Nothing is touched when nobody is asked. -/
theorem reloadsSpare_of_none {editor : Editor} {propagator : Propagator}
    (there : editor.store.propagator = some propagator) (nobody : propagator.reloader = .none)
    (path : Path) : ReloadsSpare editor path := by
  intro other there'
  cases there.symm.trans there'
  rw [nobody]
  exact Reloader.leavesAlone_none _ _

namespace Derives

variable {start middle editor : Editor}

theorem refl (calm : start.store.IsCalm) : Derives start start :=
  ⟨rfl, rfl, rfl, rfl, calm⟩

theorem trans (h : Derives start middle) (h' : Derives middle editor) : Derives start editor :=
  ⟨h'.storage.trans h.storage, h'.propagator.trans h.propagator,
    h'.lowersHosts.trans h.lowersHosts, h'.current.trans h.current, h'.calm⟩

theorem storedAt (h : Derives start editor) : RuleStore.storedAt editor =
    RuleStore.storedAt start := by
  funext part rules path
  rw [RuleStore.storedAt, laid_of_current h.current, h.storage, RuleStore.storedAt]

theorem sinksAt (h : Derives start editor) : RuleStore.sinksAt editor =
    RuleStore.sinksAt start := by
  funext rules path
  unfold RuleStore.sinksAt Propagator.sinksAt
  rw [h.propagator]
  simp only [laid_of_current h.current]

theorem reloadsSpare (h : Derives start editor) {path : Path} (spare : ReloadsSpare start path) :
    ReloadsSpare editor path := by
  intro propagator there
  rw [placeOf_eq h.current]
  exact spare propagator (h.propagator ▸ there)

theorem of_noted (noted : Noted start editor) (calm : start.store.IsCalm) :
    Derives start editor := by
  refine ⟨?_, ?_, ?_, ?_, ?_⟩
  · rw [noted.store]
  · rw [noted.store]
  · rw [noted.store]
  · rw [noted.alike.files]
  · rw [noted.store]
    exact calm

end Derives

/-! ## Writes -/

/-- The writes of a change: its list is stored, and the sinks are brought up to date. -/
def write (part : Part) (rules : RuleSet) : Editing Unit := do
  Editing.modifyStore (·.withRules rules)
  persist part
  let _ ← propagate rules

/-- Whether everything that a call writes can be written. -/
def Call.canWrite (call : Call) (editor : Editor) : Bool :=
  match call.plan? editor.store.lowersHosts editor.store.snapshot with
  | some ⟨some (part, rules), _⟩ => ((write part rules).runOn editor).1.isOk
  | some ⟨none, _⟩ => true
  | none => ((propagate editor.store.snapshot).runOn editor).1.isOk

theorem write_respects (part : Part) (rules : RuleSet) :
    Respects Editor.Alike (write part rules) := by
  apply Respects.bind (Editing.modifyStore_respects fun _ report => ⟨report, rfl⟩)
  intro _
  apply Respects.bind (persist_respects Editor.Alike.likeness part)
  intro _
  exact .bind (propagate_respects rules) fun _ => .pure _

theorem Noted.editorAlike {before after : Editor} (h : Noted before after) :
    before.Alike after := by
  obtain ⟨journal, alike⟩ := h.alike
  refine ⟨journal, before.store.lastReport, ?_⟩
  rw [← alike, ← h.store]

/-- Writes that succeed are two steps that do. -/
theorem write_steps {part : Part} {rules : RuleSet} {editor : Editor}
    (written : ((write part rules).runOn editor).1.isOk = true) :
    ∃ stored brought report,
      exec (persist part) { editor with store := editor.store.withRules rules } =
          (.ok (), stored) ∧
        exec (propagate rules) stored = (.ok report, brought) := by
  have both : (exec (do
      persist part
      let _ ← propagate rules) { editor with store := editor.store.withRules rules }).1.isOk =
        true := written
  rw [exec_bind] at both
  rcases persisted : exec (persist part) { editor with store := editor.store.withRules rules } with
    ⟨e | _, stored⟩
  · rw [persisted] at both
    cases both
  · rw [persisted] at both
    dsimp only at both
    rw [exec_bind] at both
    rcases propagated : exec (propagate rules) stored with ⟨e | report, brought⟩
    · rw [propagated] at both
      cases both
    · exact ⟨stored, brought, report, rfl, propagated⟩

/-! ## A change that is made -/

/--
A change that was stored, propagated without a fault and told. In each place stands what the last
write to it has put there.
-/
structure Lands (before : Editor) (part : Part) (rules : RuleSet) (after : Editor) : Prop where
  derives : Derives before after
  snapshot : after.store.snapshot = rules
  contents : ∀ path, ReloadsSpare before path →
    after.machine.files.contentOf path = (sinksAt before rules path).or
      ((storedAt before part rules path).or (before.machine.files.contentOf path))

theorem setting_of_core {store other : RuleStore} (h : store.core = other.core) :
    store.storage = other.storage ∧ store.propagator = other.propagator ∧
      store.lowersHosts = other.lowersHosts ∧ store.subscribers = other.subscribers :=
  ⟨(congrArg RuleStore.storage h :), (congrArg RuleStore.propagator h :),
    (congrArg RuleStore.lowersHosts h :), (congrArg RuleStore.subscribers h :)⟩

theorem Propagates.contentOf {propagator : Option Propagator} {rules : RuleSet}
    {files after : FileTree} {report : Option Report}
    (h : Propagates propagator rules files (.ok report) after) {path : Path}
    (spare : ∀ sinks, propagator = some sinks →
      sinks.reloader.LeavesAlone sinks.engine (files.placeOf path)) :
    after.contentOf path =
      (propagator.bind (·.sinksAt files rules path)).or (files.contentOf path) := by
  cases propagator with
  | none =>
      rw [h.2]
      rfl
  | some sinks =>
      obtain ⟨listFault, channelFault, propagated, told⟩ := h
      cases report with
      | none => exact told.elim
      | some report =>
          obtain ⟨-, -, rfl, rfl⟩ := told
          exact propagated.contentOf (spare sinks rfl)

/-- A change whose writes succeed is made. -/
theorem commit_lands {editor : Editor} (calm : editor.store.IsCalm) {part : Part}
    {rules : RuleSet} (written : ((write part rules).runOn editor).1.isOk = true) :
    Ensures (commit part rules) editor fun result after =>
      result = .ok () ∧ Lands editor part rules after := by
  obtain ⟨stored, brought, report, persisted, propagated⟩ := write_steps written
  have storing := persist_spec part { editor with store := editor.store.withRules rules }
  unfold Ensures at storing
  rw [persisted] at storing
  obtain ⟨store, data, encoded, replaced⟩ := storing
  have bringing := propagate_spec rules stored
  unfold Ensures at bringing
  rw [propagated, store] at bringing
  obtain ⟨core, propagates⟩ := bringing
  have persists : Ensures (persist part) { editor with store := editor.store.withRules rules }
      fun result middle => (result, middle) = (.ok (), stored) := persisted
  refine commitWith_rule persists nofun ?_
  rintro _ ⟨⟩
  suffices ending : Ensures (announceAll rules) brought fun told after =>
      (told.bind fun _ => Except.ok ()) = .ok () ∧ Lands editor part rules after by
    unfold Ensures
    rw [propagated]
    exact ending
  obtain ⟨storage, sinks, lowersHosts, subscribers⟩ := setting_of_core core
  have calm' : brought.store.IsCalm := by
    unfold IsCalm
    rw [subscribers]
    exact calm
  refine (announceAll_heard calm' rules).mono ?_
  rintro _ after ⟨rfl, heard⟩
  have current : stored.machine.files.current = editor.machine.files.current := replaced.current
  have data_eq : data = part.octets rules := by
    rw [Part.octets, show part.encode rules = .ok data from encoded]
    rfl
  have derives : Derives editor after := by
    refine ⟨?_, ?_, ?_, ?_, heard.calm⟩
    · exact (congrArg RuleStore.storage heard.store).trans storage
    · exact (congrArg RuleStore.propagator heard.store).trans sinks
    · exact (congrArg RuleStore.lowersHosts heard.store).trans lowersHosts
    · rw [heard.files, propagates.current, current]
  refine ⟨rfl, derives, ?_, ?_⟩
  · exact (congrArg RuleStore.snapshot heard.store).trans (snapshot_of_core core)
  · intro path spare
    have spare' : ∀ sinks, editor.store.propagator = some sinks →
        sinks.reloader.LeavesAlone sinks.engine (stored.machine.files.placeOf path) := by
      rw [placeOf_eq current]
      exact spare
    rw [heard.files, propagates.contentOf spare', replaced.contentOf, data_eq]
    unfold sinksAt storedAt Propagator.sinksAt
    simp only [laid_of_current current]
    rfl

theorem Lands.noted {before start middle after : Editor} {part : Part} {rules : RuleSet}
    (noted : Noted before start) (h : Lands start part rules middle) (noted' : Noted middle after)
    (calm : before.store.IsCalm) : Lands before part rules after := by
  have first := Derives.of_noted noted calm
  refine ⟨(first.trans h.derives).trans (.of_noted noted' h.derives.calm), ?_, ?_⟩
  · rw [noted'.store]
    exact h.snapshot
  · intro path spare
    rw [noted'.alike.files, h.contents path (first.reloadsSpare spare), first.sinksAt,
      first.storedAt, noted.alike.files]

/-! ## A call that gives its answer -/

section Performing

variable {before : Editor} {call : Call} {plan : Call.Plan}
  (planned : call.plan? before.store.lowersHosts before.store.snapshot = some plan)

include planned

/-- A call that asks for no change makes nothing but notes. -/
theorem perform_idle (nothing : plan.change = none) :
    (call.perform before).1 = .ok plan.answer ∧ Noted before (call.perform before).2 := by
  change Ensures call.work before fun result after =>
    result = .ok plan.answer ∧ Noted before after
  apply work_leads planned
  unfold Call.Plan.Leads
  rw [nothing]
  exact fun after noted => ⟨rfl, noted⟩

/-- A call whose writes succeed gives its answer, and makes the change that it asks for. -/
theorem perform_lands (calm : before.store.IsCalm) (written : call.canWrite before = true)
    {part : Part} {rules : RuleSet} (change : plan.change = some (part, rules)) :
    (call.perform before).1 = .ok plan.answer ∧
      Lands before part rules (call.perform before).2 := by
  have writes : ((write part rules).runOn before).1.isOk = true := by
    obtain ⟨_, answer⟩ := plan
    cases change
    rwa [Call.canWrite, planned] at written
  change Ensures call.work before fun result after =>
    result = .ok plan.answer ∧ Lands before part rules after
  apply work_leads planned
  unfold Call.Plan.Leads
  rw [change]
  intro start noted
  have calm' : start.store.IsCalm := by rwa [noted.store]
  have writes' : ((write part rules).runOn start).1.isOk = true := by
    rwa [Editing.runOn_eq, ← (write_respects part rules _ _ noted.editorAlike).1,
      ← Editing.runOn_eq]
  refine (commit_lands calm' writes').mono ?_
  rintro _ middle ⟨rfl, lands⟩ after noted'
  exact ⟨rfl, lands.noted noted noted' calm⟩

end Performing

end RuleStore

end SiteFilter
