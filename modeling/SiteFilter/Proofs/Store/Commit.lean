import SiteFilter.Proofs.Propagation
import SiteFilter.Store.Edit

/-!
# Changes of the rules, step by step

A change is stored, and then propagated. When it cannot be stored the rules are as they were; when
it is stored the rules are the new ones, whatever becomes of the sinks.
-/

namespace SiteFilter

open FileTree Effect

/-! ## Parts of the work of an editor -/

namespace Editing

variable {α β : Type} {editor : Editor}

theorem act_spec {action : Action α} {known : Except Fault α → Machine → Prop}
    (h : Ensures action editor.machine known) :
    Ensures (act action) editor fun result after =>
      after.store = editor.store ∧ known result after.machine := by
  simpa [Ensures] using h

/-- An action that cannot fail. -/
theorem actOk_spec {action : Action α} {a : α} {Q : Machine → Prop}
    (h : Ensures action editor.machine fun result after => result = .ok a ∧ Q after) :
    Ensures (act action) editor fun result after =>
      result = .ok a ∧ after.store = editor.store ∧ Q after.machine := by
  refine (act_spec h).mono ?_
  rintro result after ⟨store, done, known⟩
  exact ⟨done, store, known⟩

theorem outcome_spec {editing : Editing α} {known : Except Fault α → Editor → Prop}
    (h : Ensures editing editor known) :
    Ensures (outcome editing) editor fun result after =>
      ∃ ended, result = .ok ended ∧ known ended after := by
  simpa [Ensures] using h

theorem storeThen {next : RuleStore → Editing β} {post : Except Fault β → Editor → Prop}
    (h : Ensures (next editor.store) editor post) :
    Ensures (store >>= next) editor post := by
  simpa [Ensures] using h

theorem modifyStoreThen {change : RuleStore → RuleStore} {next : PUnit → Editing β}
    {post : Except Fault β → Editor → Prop}
    (h : Ensures (next ⟨⟩) { editor with store := change editor.store } post) :
    Ensures (modifyStore change >>= next) editor post :=
  Ensures.changeThen h

end Editing

namespace RuleStore

/-- A store without its last report, on which nothing else depends. -/
def core (store : RuleStore) : RuleStore :=
  { store with lastReport := none }

theorem snapshot_of_core {store other : RuleStore} (h : store.core = other.core) :
    store.snapshot = other.snapshot := by
  have hosts := congrArg RuleStore.hosts h
  have rules := congrArg RuleStore.elementRules h
  exact congrArg₂ RuleSet.mk hosts rules

/-! ## Storing -/

def Part.key : Part → Text
  | .hosts => hostsKey
  | .elementRules => elementRulesKey

def Part.value (rules : RuleSet) : Part → Json
  | .hosts => hostsValue rules.hosts
  | .elementRules => elementRulesValue rules.elementRules

def Part.encode (rules : RuleSet) (part : Part) : Except EncodeError Bytes :=
  Utf8.encode ((part.value rules).write .stored)

theorem readable_hostsValue (hosts : List HostRule) :
    Json.Readable .stored Json.ownDepth (hostsValue hosts) := by
  refine .array fun item inside => ?_
  obtain ⟨rule, -, rfl⟩ := List.mem_map.mp inside
  exact .text nofun

theorem readable_partValue (part : Part) (rules : RuleSet) :
    Json.Readable .stored Json.ownDepth (part.value rules) := by
  cases part with
  | hosts => exact readable_hostsValue rules.hosts
  | elementRules => exact ElementRule.readable_toJsons rfl rules.elementRules

theorem Part.encode_of_encodeValue {part : Part} {rules : RuleSet} {limits : Json.Limits}
    {data : Bytes} (h : KeyedStorage.encodeValue limits (part.value rules) = .ok data) :
    part.encode rules = .ok data :=
  (KeyedStorage.encodeValue_own_ok_iff (readable_partValue part rules)).mp h

/-- Whoever reads what is stored for a list of rules finds the list. -/
theorem Part.valueIn_encode {part : Part} {rules : RuleSet} {data : Bytes}
    (h : part.encode rules = .ok data) (limits : Json.Limits) :
    KeyedStorage.valueIn limits data = .ok (part.value rules) := by
  have own := readable_partValue part rules
  have encoded : KeyedStorage.encodeValue limits (part.value rules) = .ok data :=
    (KeyedStorage.encodeValue_own_ok_iff own).mpr h
  exact KeyedStorage.valueIn_encodeValue (own.within limits) encoded

theorem Part.isShortKey (part : Part) : KeyedStorage.IsShortKey part.key := by
  cases part with
  | hosts => exact ⟨by decide, by decide⟩
  | elementRules => exact ⟨by decide, by decide⟩

/-- A list of rules is stored, unless it has no octets or the files refuse. -/
theorem putPart_spec (part : Part) (rules : RuleSet) (storage : KeyedStorage) (machine : Machine) :
    Ensures (storage.put part.key (part.value rules)) machine fun result after =>
      match result with
      | .ok _ => ∃ data, part.encode rules = .ok data ∧
          Replaced machine.files after.files (storage.fileOf part.key) data
      | .error e =>
          Furnished machine.files after.files (machine.files.origin storage.directory)
              storage.directory.parts ∧
            (machine.files.IsNameable storage.directory → e.isOfStorage = true) := by
  have own := readable_partValue part rules
  refine (KeyedStorage.put_spec storage part.isShortKey.isKey (part.value rules) machine).mono ?_
  intro result after told
  cases result with
  | ok _ =>
      obtain ⟨data, encoded, replaced⟩ := told
      exact ⟨data, Part.encode_of_encodeValue encoded, replaced⟩
  | error e =>
      exact ⟨told.1, fun nameable => told.2 nameable (KeyedStorage.encodeValue_own_ne_deep own)⟩

theorem persist_spec (part : Part) (editor : Editor) :
    Ensures (persist part) editor fun result after =>
      after.store = editor.store ∧
        match result with
        | .ok _ => ∃ data, part.encode editor.store.snapshot = .ok data ∧
            Replaced editor.machine.files after.machine.files
              (editor.store.storage.fileOf part.key) data
        | .error e =>
            Furnished editor.machine.files after.machine.files
                (editor.machine.files.origin editor.store.storage.directory)
                editor.store.storage.directory.parts ∧
              (editor.machine.files.IsNameable editor.store.storage.directory →
                e.isOfStorage = true) := by
  apply Editing.storeThen
  cases part with
  | hosts =>
      exact Editing.act_spec (putPart_spec .hosts editor.store.snapshot editor.store.storage _)
  | elementRules =>
      exact Editing.act_spec (putPart_spec .elementRules editor.store.snapshot editor.store.storage _)

/-! ## Propagating -/

/-- How the sinks, if there are any, end up when rules are propagated. -/
def Propagates (propagator : Option Propagator) (rules : RuleSet) (files : FileTree)
    (result : Except Fault (Option Report)) (after : FileTree) : Prop :=
  match propagator with
  | none => result = .ok none ∧ after = files
  | some propagator =>
      ∃ listFault channelFault, propagator.Propagated rules files listFault channelFault after ∧
        match result with
        | .ok none => False
        | .ok (some report) =>
            report.filterListFault = none ∧ report.channelFault = none ∧
              listFault = none ∧ channelFault = none
        | .error e =>
            (e = .notPropagated listFault channelFault ∧
                ¬ (listFault = none ∧ channelFault = none)) ∨
              ¬ propagator.IsNameable files

theorem propagate_spec (rules : RuleSet) (editor : Editor) :
    Ensures (propagate rules) editor fun result after =>
      after.store.core = editor.store.core ∧
        Propagates editor.store.propagator rules editor.machine.files result
          after.machine.files := by
  apply Editing.storeThen
  cases there : editor.store.propagator with
  | none => exact .pure ⟨rfl, rfl, rfl⟩
  | some propagator =>
      refine .bind (Editing.act_spec (propagator.propagate_spec rules editor.machine)) ?_ ?_
      · rintro report after ⟨store, listFault, channelFault, propagated, rfl, rfl⟩
        apply Editing.modifyStoreThen
        have core : ({ after.store with lastReport := some report } : RuleStore).core =
            editor.store.core := by
          rw [store]
          rfl
        cases listed : report.filterListFault with
        | none =>
            cases published : report.channelFault with
            | none =>
                rw [listed, published] at propagated
                simp only [Report.fault?, Report.ok, listed, published]
                exact .pure ⟨core, _, _, propagated, listed, published, rfl, rfl⟩
            | some e =>
                rw [listed, published] at propagated
                simp only [Report.fault?, Report.ok, listed, published]
                exact .throw ⟨core, _, _, propagated, .inl ⟨rfl, nofun⟩⟩
        | some e =>
            rw [listed] at propagated
            simp only [Report.fault?, Report.ok, listed]
            exact .throw ⟨core, _, _, propagated, .inl ⟨rfl, nofun⟩⟩
      · rintro e after ⟨store, listFault, channelFault, propagated, odd⟩
        exact ⟨congrArg core store, listFault, channelFault, propagated, .inr odd⟩

/-! ## Committing -/

/-- How a change ends: nothing is changed, or the change is stored and then propagated. -/
inductive Commits (before : Editor) (part : Part) (rules : RuleSet) :
    Except Fault Unit → Editor → Prop
  /-- The change could not be stored. -/
  | refused {e : Fault} {after : Editor} (storage : e.isOfStorage = true)
      (store : after.store.core = before.store.core)
      (files : Furnished before.machine.files after.machine.files
        (before.machine.files.origin before.store.storage.directory)
        before.store.storage.directory.parts) :
      Commits before part rules (.error e) after
  /-- The path of the storage is not made of names. -/
  | unnameable {e : Fault} {after : Editor}
      (odd : ¬ before.machine.files.IsNameable before.store.storage.directory) :
      Commits before part rules (.error e) after
  | stored {result : Except Fault (Option Report)} {data : Bytes} {stored : FileTree}
      {after : Editor} (store : after.store.core = (before.store.withRules rules).core)
      (encoded : part.encode rules = .ok data)
      (written : Replaced before.machine.files stored (before.store.storage.fileOf part.key) data)
      (propagated : Propagates before.store.propagator rules stored result after.machine.files) :
      Commits before part rules (result.map fun _ => ()) after

/-- How a change ends does not depend on the journal. -/
theorem Commits.congr {before before' : Editor} {part : Part} {rules : RuleSet}
    {result : Except Fault Unit} {after after' : Editor} (h : Commits before part rules result after)
    (start : before'.store = before.store ∧ before'.machine.files = before.machine.files)
    (ending : after'.store = after.store ∧ after'.machine.files = after.machine.files) :
    Commits before' part rules result after' := by
  obtain ⟨start, startFiles⟩ := start
  obtain ⟨ending, endFiles⟩ := ending
  cases h with
  | refused storage store files =>
      rw [← start, ← ending] at store
      rw [← start, ← startFiles, ← endFiles] at files
      exact .refused storage store files
  | unnameable odd =>
      rw [← start, ← startFiles] at odd
      exact .unnameable odd
  | stored store encoded written propagated =>
      rw [← start, ← ending] at store
      rw [← start, ← startFiles] at written
      rw [← start, ← endFiles] at propagated
      exact .stored store encoded written propagated

/-- A change by its steps: it is stored, and then propagated and told whatever the sinks meet. -/
theorem commitWith_rule {announce : RuleSet → Editing Unit} {part : Part} {rules : RuleSet}
    {editor : Editor} {known post : Except Fault Unit → Editor → Prop}
    (persists : Ensures (persist part) { editor with store := editor.store.withRules rules } known)
    (refused : ∀ e stored, known (.error e) stored → post (.error e)
      (if e.isOfStorage then
        { stored with store := stored.store.withRules editor.store.snapshot }
      else stored))
    (kept : ∀ stored, known (.ok ()) stored →
      Ensures (propagate rules) stored fun propagated brought =>
        Ensures (announce rules) brought fun told after =>
          post (told.bind fun _ => propagated.map fun _ => ()) after) :
    Ensures (commitWith announce part rules) editor post := by
  apply Editing.storeThen
  apply Editing.modifyStoreThen
  refine .bind (Q := fun result after => (result = .ok () ∧ known (.ok ()) after) ∨
    ∃ e, result = .error e ∧ post (.error e) after) ?_ ?_ ?_
  · refine .tryCatch persists (fun _ stored holds => .inl ⟨rfl, holds⟩) ?_
    intro e stored holds
    have ended := refused e stored holds
    by_cases storage : e.isOfStorage = true
    · rw [if_pos storage] at ended ⊢
      exact Editing.modifyStoreThen (.throw (.inr ⟨e, rfl, ended⟩))
    · rw [if_neg storage] at ended ⊢
      exact Ensures.pureThen (.throw (.inr ⟨e, rfl, ended⟩))
  · rintro _ stored (⟨-, holds⟩ | ⟨_, ⟨⟩, -⟩)
    refine .bind (Editing.outcome_spec (kept stored holds)) ?_ ?_
    · rintro propagated brought ⟨_, ⟨⟩, telling⟩
      refine .bind telling ?_ fun _ _ ended => ended
      intro _ after ended
      cases propagated with
      | ok report => exact .pure ended
      | error e => exact .throw ended
    · rintro _ _ ⟨_, ⟨⟩, -⟩
  · rintro _ after (⟨⟨⟩, -⟩ | ⟨e, ⟨⟩, ended⟩)
    exact ended

theorem announceAll_spec {editor : Editor} (nobody : editor.store.subscribers = [])
    (rules : RuleSet) :
    Ensures (announceAll rules) editor fun result after => result = .ok () ∧ after = editor := by
  apply Editing.storeThen
  unfold announce
  apply Editing.storeThen
  rw [nobody]
  exact .pure ⟨rfl, rfl⟩

theorem commit_spec {editor : Editor} (nobody : editor.store.subscribers = []) (part : Part)
    (rules : RuleSet) : Ensures (commit part rules) editor (Commits editor part rules) := by
  refine commitWith_rule (persist_spec part _) ?_ ?_
  · rintro e after ⟨store, made, storage⟩
    cases kind : e.isOfStorage with
    | true =>
        rw [if_pos rfl]
        refine .refused kind ?_ made
        rw [store]
        rfl
    | false =>
        rw [if_neg Bool.false_ne_true]
        refine .unnameable fun nameable => ?_
        rw [storage nameable] at kind
        cases kind
  · rintro middle ⟨store, data, encoded, written⟩
    refine (propagate_spec rules middle).mono ?_
    rintro propagated brought ⟨core, propagates⟩
    have silent : brought.store.subscribers = [] := by
      have listed := congrArg RuleStore.subscribers core
      rw [store] at listed
      exact listed.trans nobody
    rw [store] at core propagates
    refine (announceAll_spec silent rules).mono ?_
    rintro _ after ⟨rfl, rfl⟩
    exact .stored core encoded written propagates

end RuleStore

end SiteFilter
