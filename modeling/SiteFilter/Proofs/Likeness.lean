import SiteFilter.Proofs.Reload
import SiteFilter.Propagation
import SiteFilter.Store.Source

/-!
# Processes that are alike

What is done gives the same on processes that are alike, and they stay alike. Of a machine the
operations of the store read the files and the refusals only, and of a store they do not read the
last report; they touch its sinks in a propagation only. So any likeness of processes that is kept
by a propagation is kept by every operation. One such likeness leaves out what is written and never
read: the journal of a machine and the last report of a store.
-/

namespace SiteFilter

open FileTree

/-! ## Effects on states that are alike -/

namespace Effect

variable {σ α β γ : Type} {alike : σ → σ → Prop}

def Agree (alike : σ → σ → Prop) (first : Effect σ α) (s : σ) (second : Effect σ α) (t : σ) :
    Prop :=
  (exec first s).1 = (exec second t).1 ∧ alike (exec first s).2 (exec second t).2

@[simp] theorem agree_map_iff {f : α → γ} {g : β → γ} {first : Effect σ α} {second : Effect σ β}
    {s t : σ} : Agree alike (f <$> first) s (g <$> second) t ↔
      (exec first s).1.map f = (exec second t).1.map g ∧
        alike (exec first s).2 (exec second t).2 := by
  rw [Agree, exec_map, exec_map]

/-- An effect does not tell states apart that are alike. -/
def Respects (alike : σ → σ → Prop) (effect : Effect σ α) : Prop :=
  ∀ s t, alike s t → Agree alike effect s effect t

/-- Two effects that give the same up to some part, and go on in the same way whatever it is. -/
theorem Agree.bindUpTo {first second : Effect σ α} {next next' : α → Effect σ β} {s t : σ}
    (f : α → γ) (h : Agree alike (f <$> first) s (f <$> second) t)
    (then_ : ∀ a b s' t', f a = f b → alike s' t' → Agree alike (next a) s' (next' b) t') :
    Agree alike (first >>= next) s (second >>= next') t := by
  obtain ⟨result, states⟩ := agree_map_iff.mp h
  rw [Agree, exec_bind, exec_bind]
  rcases hs : exec first s with ⟨e | a, middle⟩
  · rcases ht : exec second t with ⟨e' | b, middle'⟩
    · rw [hs, ht] at result states
      cases result
      exact ⟨rfl, states⟩
    · rw [hs, ht] at result
      cases result
  · rcases ht : exec second t with ⟨e' | b, middle'⟩
    · rw [hs, ht] at result
      cases result
    · rw [hs, ht] at result states
      exact then_ a b middle middle' (Except.ok.inj result) states

theorem Agree.bind {first second : Effect σ α} {next next' : α → Effect σ β} {s t : σ}
    (h : Agree alike first s second t)
    (then_ : ∀ a s' t', alike s' t' → Agree alike (next a) s' (next' a) t') :
    Agree alike (first >>= next) s (second >>= next') t := by
  refine .bindUpTo id (by rwa [id_map, id_map]) ?_
  rintro a _ s' t' rfl
  exact then_ a s' t'

namespace Respects

@[grind ←] theorem pure (a : α) : Respects alike (Pure.pure a : Effect σ α) :=
  fun _ _ same => ⟨rfl, same⟩

@[grind ←] theorem throw (e : Fault) : Respects alike (throw e : Effect σ α) :=
  fun _ _ same => ⟨rfl, same⟩

@[grind ←] theorem bind {first : Effect σ α} {next : α → Effect σ β}
    (h : Respects alike first) (then_ : ∀ a, Respects alike (next a)) :
    Respects alike (first >>= next) :=
  fun s t same => .bind (h s t same) then_

@[grind ←] theorem map {effect : Effect σ α} (f : α → β) (h : Respects alike effect) :
    Respects alike (f <$> effect) := by
  intro s t same
  obtain ⟨result, states⟩ := h s t same
  simp [Agree, result, states]

@[grind ←] theorem tryCatch {body : Effect σ α} {handle : Fault → Effect σ α}
    (h : Respects alike body) (handled : ∀ e, Respects alike (handle e)) :
    Respects alike (tryCatch body handle) := by
  intro s t same
  obtain ⟨result, states⟩ := h s t same
  unfold Agree
  rw [exec_tryCatch, exec_tryCatch]
  rcases hs : exec body s with ⟨e | a, middle⟩
  · rcases ht : exec body t with ⟨e' | b, middle'⟩
    · rw [hs, ht] at result states
      cases result
      exact handled e middle middle' states
    · rw [hs, ht] at result
      cases result
  · rcases ht : exec body t with ⟨e' | b, middle'⟩
    · rw [hs, ht] at result
      cases result
    · rw [hs, ht] at result states
      cases result
      exact ⟨rfl, states⟩

theorem getThen {next : σ → Effect σ β}
    (h : ∀ s t, alike s t → Agree alike (next s) s (next t) t) :
    Respects alike (MonadState.get >>= next) := by
  intro s t same
  simpa [Agree] using h s t same

@[grind ←] theorem forM {items : List α} {each : α → Effect σ PUnit}
    (h : ∀ a, Respects alike (each a)) : Respects alike (items.forM each) := by
  induction items with
  | nil => exact .pure _
  | cons item items ih => exact .bind (h item) fun _ => ih

end Respects

end Effect

open Effect

/-! ## Actions -/

/-- A likeness of machines that is kept when the same is done to files, refusals and journals. -/
structure Machine.Likeness (alike : Machine → Machine → Prop) : Prop where
  files : ∀ {s t}, alike s t → t.files = s.files
  refusals : ∀ {s t}, alike s t → t.refusals = s.refusals
  onFiles : ∀ {s t} files, alike s t → alike { s with files := files } { t with files := files }
  onRefusals : ∀ {s t} refusals, alike s t →
    alike { s with refusals := refusals } { t with refusals := refusals }
  record : ∀ {s t} event, alike s t →
    alike { s with journal := event :: s.journal } { t with journal := event :: t.journal }

theorem Machine.Alike.likeness : Machine.Likeness Machine.Alike where
  files := Machine.Alike.files
  refusals := by
    rintro machine _ ⟨journal, rfl⟩
    rfl
  onFiles := by
    rintro machine _ files ⟨journal, rfl⟩
    exact ⟨journal, rfl⟩
  onRefusals := by
    rintro machine _ refusals ⟨journal, rfl⟩
    exact ⟨journal, rfl⟩
  record := by
    rintro machine _ event ⟨journal, rfl⟩
    exact ⟨event :: journal, rfl⟩

section Likenesses

variable {α : Type} {alike : Machine → Machine → Prop}

namespace Action

@[grind ←] theorem ofExcept_respects (answer : Except Fault α) :
    Respects alike (ofExcept answer) := by
  cases answer with
  | ok a => exact .pure a
  | error e => exact .throw e

variable (h : Machine.Likeness alike)

include h

@[grind ←] theorem record_respects (event : Event) : Respects alike (record event) :=
  fun _ _ same => ⟨rfl, h.record event same⟩

@[grind ←] theorem note_respects (level : Level) (source : String) (message : Text) :
    Respects alike (note level source message) :=
  record_respects h _

@[grind ←] theorem ask_respects (question : FileTree → Except Fault α) :
    Respects alike (ask question) := by
  apply Respects.getThen
  intro machine other same
  rw [h.files same]
  exact ofExcept_respects _ machine other same

@[grind ←] theorem onFiles_respects (change : FileAction α) : Respects alike (onFiles change) := by
  intro machine other same
  rw [Agree, exec_onFiles, exec_onFiles, h.files same]
  exact ⟨rfl, h.onFiles _ same⟩

@[grind ←] theorem nextRefusal_respects : Respects alike nextRefusal := by
  apply Respects.getThen
  intro machine other same
  rw [h.refusals same]
  cases machine.refusals with
  | nil => exact ⟨rfl, same⟩
  | cons refusal refusals => exact ⟨rfl, h.onRefusals refusals same⟩

@[grind ←] theorem replaceFile_respects (path : Path) (data : Bytes) :
    Respects alike (replaceFile path data) := by
  unfold replaceFile
  grind

end Action

open SiteFilter.Action

variable (h : Machine.Likeness alike)

include h

@[grind ←] theorem KeyedStorage.put_respects (storage : KeyedStorage) (key : Text) (value : Json) :
    Respects alike (storage.put key value) := by
  refine .bind (ofExcept_respects _) fun path => ?_
  split
  · exact .throw _
  · refine .bind (.tryCatch (replaceFile_respects h path _) ?_) fun _ => note_respects h _ _ _
    intro e
    cases e <;> exact .throw _

namespace Propagator

@[grind ←] theorem writeFilterList_respects (propagator : Propagator) (rules : RuleSet) :
    Respects alike (propagator.writeFilterList rules) := by
  unfold writeFilterList
  grind

@[grind ←] theorem publish_respects (propagator : Propagator) (rules : RuleSet) :
    Respects alike (propagator.publish rules) := by
  unfold publish
  grind

@[grind ←] theorem attempt_respects {write : Action Nat} (writes : Respects alike write)
    (isDue : Fault → Bool) (remark : Fault → Text) :
    Respects alike (attempt write isDue remark) := by
  unfold attempt
  grind

@[grind ←] theorem noteReload_respects (engine : Json) (result : ReloadResult) :
    Respects alike (noteReload engine result) := by
  unfold noteReload
  grind

end Propagator

theorem RuleStore.noteRejected_respects (values : List Json) :
    Respects alike (noteRejected values) := by
  unfold noteRejected
  grind

end Likenesses

open SiteFilter.Action Machine.Alike

/-! ## Requests to reload -/

namespace Reloader

@[grind ←] theorem launch_respects (programs : Programs) (timeout : Float) (words : List Text) :
    Respects Machine.Alike (launch programs timeout words) := by
  unfold launch
  cases words.findSome? wordFault? with
  | some e => exact .throw e
  | none =>
      apply Respects.getThen
      rintro machine _ ⟨journal, rfl⟩
      dsimp only
      split
      · exact ⟨rfl, journal, rfl⟩
      · exact ⟨rfl, journal, rfl⟩
      · exact ⟨rfl, journal, rfl⟩

@[grind ←] theorem attempt_respects (reloader : Reloader) (engine : Json) :
    Respects Machine.Alike (attempt reloader engine) := by
  have machines := likeness
  cases reloader with
  | none => exact .pure _
  | custom answer => exact ofExcept_respects _
  | command programs words timeout =>
      unfold attempt
      grind

@[grind ←] theorem ask_respects (reloader : Reloader) (engine : Json) :
    Respects Machine.Alike (reloader.ask engine) := by
  have machines := likeness
  unfold ask
  grind

end Reloader

namespace Propagator

theorem signalReload_respects (propagator : Propagator) :
    Respects Machine.Alike propagator.signalReload := by
  apply Respects.getThen
  rintro machine _ ⟨journal, rfl⟩
  dsimp only
  split
  · exact ⟨rfl, journal, rfl⟩
  · have asks : Respects Machine.Alike (do
        let result ← propagator.reloader.ask propagator.engine
        noteReload propagator.engine result
        return .settled result : Action ReloadState) := by
      have machines := likeness
      grind
    exact asks machine _ ⟨journal, rfl⟩

theorem propagate_respects (propagator : Propagator) (rules : RuleSet) :
    Respects Machine.Alike (propagator.propagate rules) := by
  have machines := likeness
  have signals := signalReload_respects propagator
  unfold propagate
  grind

end Propagator

/-! ## Processes -/

/-- Whether processes differ in their journals and last reports only. -/
def Editor.Alike (editor other : Editor) : Prop :=
  ∃ journal report, other =
    ⟨{ editor.machine with journal := journal }, { editor.store with lastReport := report }⟩

namespace Editor.Alike

variable {editor middle other : Editor}

theorem refl (editor : Editor) : editor.Alike editor :=
  ⟨editor.machine.journal, editor.store.lastReport, rfl⟩

theorem trans (h : editor.Alike middle) (h' : middle.Alike other) : editor.Alike other := by
  obtain ⟨journal, report, rfl⟩ := h
  obtain ⟨journal', report', rfl⟩ := h'
  exact ⟨journal', report', rfl⟩

theorem snapshot (h : editor.Alike other) : other.store.snapshot = editor.store.snapshot := by
  obtain ⟨journal, report, rfl⟩ := h
  rfl

end Editor.Alike

namespace Editing

variable {α β γ : Type}

/-- Actions that agree on machines agree on processes. -/
theorem act_agree {alike : Editor → Editor → Prop} {alikeMachine : Machine → Machine → Prop}
    {first second : Action α} {editor other : Editor}
    (h : Agree alikeMachine first editor.machine second other.machine)
    (lift : ∀ machine machine', alikeMachine machine machine' →
      alike ⟨machine, editor.store⟩ ⟨machine', other.store⟩) :
    Agree alike (act first) editor (act second) other := by
  simpa [Agree] using And.intro h.1 (lift _ _ h.2)

theorem act_respects {action : Action α} (h : Respects Machine.Alike action) :
    Respects Editor.Alike (act action) := by
  rintro ⟨machine, store⟩ _ ⟨journal, report, rfl⟩
  apply act_agree (h machine { machine with journal := journal } ⟨journal, rfl⟩)
  rintro after _ ⟨journal', rfl⟩
  exact ⟨journal', report, rfl⟩

/-- What is done with an outcome, if it depends on some part of it only. -/
theorem outcomeThen_respects {alike : Editor → Editor → Prop} {editing : Editing α}
    {next : Except Fault α → Editing β} (f : α → γ) (h : Respects alike (f <$> editing))
    (unread : ∀ result result', result.map f = result'.map f → next result = next result')
    (respects : ∀ result, Respects alike (next result)) :
    Respects alike (outcome editing >>= next) := by
  intro editor other same
  refine .bindUpTo (Except.map f) ?_ ?_
  · obtain ⟨result, states⟩ := agree_map_iff.mp (h editor other same)
    exact ⟨congrArg Except.ok result, states⟩
  · intro result result' editor' other' agree same'
    rw [unread result result' agree]
    exact respects result' editor' other' same'

theorem storeThen_agree {alike : Editor → Editor → Prop} {next next' : RuleStore → Editing β}
    {editor other : Editor}
    (h : Agree alike (next editor.store) editor (next' other.store) other) :
    Agree alike (store >>= next) editor (store >>= next') other := by
  simpa [Agree] using h

/-- What is done with a store that is read, if it does not depend on the last report. -/
theorem respects_storeThen {next : RuleStore → Editing β}
    (unread : ∀ store report, next { store with lastReport := report } = next store)
    (h : ∀ store, Respects Editor.Alike (next store)) :
    Respects Editor.Alike (store >>= next) := by
  rintro editor _ ⟨journal, report, rfl⟩
  apply storeThen_agree
  rw [unread editor.store report]
  exact h editor.store editor _ ⟨journal, report, rfl⟩

theorem modifyStore_respects {change : RuleStore → RuleStore}
    (unread : ∀ store report, ∃ report',
      change { store with lastReport := report } = { change store with lastReport := report' }) :
    Respects Editor.Alike (modifyStore change) := by
  rintro editor _ ⟨journal, report, rfl⟩
  obtain ⟨report', same⟩ := unread editor.store report
  exact ⟨rfl, journal, report', congrArg (Editor.mk _) same⟩

end Editing

def Report.withoutReload (report : Report) : Report :=
  { report with reload := .unasked }

namespace RuleStore

open Editing

theorem propagate_respects (rules : RuleSet) : Respects Editor.Alike (propagate rules) := by
  apply respects_storeThen (fun _ _ => rfl)
  intro store
  split
  · exact .pure _
  · rename_i propagator _
    apply Respects.bind (act_respects (propagator.propagate_respects rules))
    intro report
    apply Respects.bind (modifyStore_respects fun _ _ => ⟨some report, rfl⟩)
    intro _
    split
    · exact .throw _
    · exact .pure _

theorem republish_respects : Respects Editor.Alike republish := by
  apply respects_storeThen (fun _ _ => rfl)
  intro store
  exact propagate_respects _

end RuleStore

/-! ## Operations -/

/-- Whether a change of a store leaves its last report and its sinks aside. -/
def RuleStore.SparesSinks (change : RuleStore → RuleStore) : Prop :=
  ∀ store report propagator,
    change { store with lastReport := report, propagator := propagator } =
      { change store with lastReport := report, propagator := propagator }

theorem RuleStore.SparesSinks.same {change : RuleStore → RuleStore} (h : SparesSinks change)
    (store : RuleStore) :
    (change store).lastReport = store.lastReport ∧
      (change store).propagator = store.propagator := by
  rw [show change store = _ from h store store.lastReport store.propagator]
  exact ⟨rfl, rfl⟩

/--
A likeness of processes that is kept by what machines that are alike agree on, by changes of the
rules and of the subscribers, and by a propagation, of which the request to reload may differ.
-/
structure Editor.Likeness (alike : Editor → Editor → Prop) : Prop where
  store : ∀ {s t}, alike s t → ∃ report propagator,
    t.store = { s.store with lastReport := report, propagator := propagator }
  act : ∀ {α : Type} {action : Action α},
    (∀ {alike}, Machine.Likeness alike → Respects alike action) →
      Respects alike (Editing.act action)
  modifyStore : ∀ {change : RuleStore → RuleStore}, RuleStore.SparesSinks change →
    Respects alike (Editing.modifyStore change)
  propagate : ∀ rules,
    Respects alike (Option.map Report.withoutReload <$> RuleStore.propagate rules)

theorem Editor.Alike.likeness : Editor.Likeness Editor.Alike where
  store := by
    rintro editor _ ⟨journal, report, rfl⟩
    exact ⟨report, editor.store.propagator, rfl⟩
  act h := Editing.act_respects (h Machine.Alike.likeness)
  modifyStore h := Editing.modifyStore_respects fun store report => by
    refine ⟨report, (h store report store.propagator).trans ?_⟩
    rw [← (h.same store).2]
  propagate rules := .map _ (RuleStore.propagate_respects rules)

section Operations

variable {α β : Type} {alike : Editor → Editor → Prop} (h : Editor.Likeness alike)

include h

theorem Editor.Likeness.storeThen {next : RuleStore → Editing β}
    (unread : ∀ store report propagator,
      next { store with lastReport := report, propagator := propagator } = next store)
    (respects : ∀ store, Respects alike (next store)) :
    Respects alike (Editing.store >>= next) := by
  intro editor other same
  obtain ⟨report, propagator, sameStore⟩ := h.store same
  have reads : next other.store = next editor.store := by
    rw [sameStore]
    exact unread _ _ _
  apply Editing.storeThen_agree
  rw [reads]
  exact respects editor.store editor other same

@[grind ←] theorem Editor.Likeness.note (level : Level) (source : String) (message : Text) :
    Respects alike (Editing.act (Action.note level source message)) :=
  h.act fun likeness => note_respects likeness level source message

namespace RuleStore

open Editing

theorem persist_respects (part : Part) : Respects alike (persist part) := by
  apply h.storeThen (fun _ _ _ => rfl)
  intro store
  cases part with
  | hosts => exact h.act fun likeness => store.storage.put_respects likeness _ _
  | elementRules => exact h.act fun likeness => store.storage.put_respects likeness _ _

theorem withRules_respects (rules : RuleSet) :
    Respects alike (modifyStore (·.withRules rules)) :=
  h.modifyStore fun _ _ _ => rfl

theorem commitWith_respects {announce : RuleSet → Editing Unit}
    (announces : ∀ rules, Respects alike (announce rules)) (part : Part) (rules : RuleSet) :
    Respects alike (commitWith announce part rules) := by
  apply h.storeThen (fun _ _ _ => rfl)
  intro before
  apply Respects.bind (withRules_respects h rules)
  intro _
  apply Respects.bind
  · apply Respects.tryCatch (persist_respects h part)
    intro e
    dsimp only
    split
    · exact .bind (withRules_respects h before.snapshot) fun _ => .throw e
    · exact .throw e
  · intro _
    apply outcomeThen_respects (Option.map Report.withoutReload) (h.propagate rules)
    · rintro (e | report) (e' | report') same
      · cases same
        rfl
      · cases same
      · cases same
      · rfl
    · intro propagated
      apply Respects.bind (announces rules)
      intro _
      split
      · exact .pure _
      · exact .throw _

theorem addHostWith_respects {announce : RuleSet → Editing Unit}
    (announces : ∀ rules, Respects alike (announce rules)) (name : Text) :
    Respects alike (addHostWith announce name) := by
  apply h.storeThen (fun _ _ _ => rfl)
  intro store
  have commits := commitWith_respects h announces
  grind

theorem announce_respects (fuel : Nat) (rules : RuleSet) :
    Respects alike (announce fuel rules) := by
  induction fuel generalizing rules with
  | zero => exact .pure _
  | succ fuel ih =>
      apply h.storeThen (fun _ _ _ => rfl)
      intro store
      apply Respects.forM
      intro subscriber
      have adds := addHostWith_respects h ih
      have leaves (name : Text) : Respects alike (modifyStore (unsubscribe name)) :=
        h.modifyStore fun _ _ _ => rfl
      refine .bind (h.act fun likeness => record_respects likeness _) fun _ => ?_
      grind

theorem announceAll_respects (rules : RuleSet) : Respects alike (announceAll rules) := by
  apply h.storeThen (fun _ _ _ => rfl)
  intro store
  exact announce_respects h _ rules

@[grind ←] theorem commit_respects (part : Part) (rules : RuleSet) :
    Respects alike (commit part rules) :=
  commitWith_respects h (announceAll_respects h) part rules

theorem addHost_respects (name : Text) : Respects alike (addHost name) :=
  addHostWith_respects h (announceAll_respects h) name

theorem removeHost_respects (name : Text) : Respects alike (removeHost name) := by
  apply h.storeThen (fun _ _ _ => rfl)
  intro store
  grind

theorem addElementRule_respects (rule : ElementRule) :
    Respects alike (addElementRule rule) := by
  apply h.storeThen (fun _ _ _ => rfl)
  intro store
  grind

@[grind ←] theorem removeElementRule_respects (rule : ElementRule) :
    Respects alike (removeElementRule rule) := by
  apply h.storeThen (fun _ _ _ => rfl)
  intro store
  grind

theorem removeElementRuleByKey_respects (key : Text) :
    Respects alike (removeElementRuleByKey key) := by
  unfold removeElementRuleByKey
  grind

@[grind ←] theorem importRules_respects (document : Text) :
    Respects alike (importRules document) := by
  refine .bind (h.note _ _ _) fun _ => h.storeThen (fun _ _ _ => rfl) fun store => ?_
  grind

theorem republishUpTo_respects :
    Respects alike (Option.map Report.withoutReload <$> republish) := by
  unfold republish
  rw [map_bind]
  exact h.storeThen (fun _ _ _ => rfl) fun _ => h.propagate _

theorem clearElementRules_respects : Respects alike clearElementRules := by
  apply h.storeThen (fun _ _ _ => rfl)
  intro store
  grind

theorem load_respects : Respects alike load := by
  apply h.storeThen (fun _ _ _ => rfl)
  intro store
  refine .bind (h.act fun likeness => ask_respects likeness _) fun found => ?_
  refine .bind (h.act fun likeness => noteRejected_respects likeness _) fun _ => ?_
  exact .bind (withRules_respects h _) fun _ => h.note _ _ _

theorem importFrom_respects (env : Environment) (fetch : Text → Fetched) (name : Text) :
    Respects alike (importFrom env fetch name) := by
  have given (answer : Except Fault Text) : Respects alike (act (Action.ofExcept answer)) :=
    h.act fun _ => ofExcept_respects answer
  have asks (question : FileTree → Except Fault Text) : Respects alike (act (ask question)) :=
    h.act fun likeness => ask_respects likeness question
  unfold importFrom
  grind

end RuleStore

end Operations

end SiteFilter
