import SiteFilter.Proofs.Likeness
import SiteFilter.Proofs.Propagation.Independence
import SiteFilter.Proofs.Store.EffectOrder

/-!
# Operations that are not propagated

An operation ends in a propagation error only when a write to a sink fails. Then the rules are
stored, and they were stored while the sinks were still as before.
-/

namespace SiteFilter

open FileTree Effect

namespace Propagator

variable {propagator : Propagator} {rules : RuleSet} {machine : Machine}

/-- The filter list cannot be written, or the payload cannot be written behind it. -/
def Falters (propagator : Propagator) (rules : RuleSet) (machine : Machine) : Prop :=
  (∃ e, ((propagator.writeFilterList rules).runOn machine).1 = .error e) ∨
    ∃ e, ((propagator.publish rules).runOn
      ((propagator.writeFilterList rules).runOn machine).2).1 = .error e

/-- A report tells of a fault only when a write failed. -/
theorem propagate_falters (rules : RuleSet) (nameable : propagator.IsNameable machine.files) :
    Ensures (propagator.propagate rules) machine fun result _ =>
      ∃ report, result = .ok report ∧ (report.ok = false → propagator.Falters rules machine) := by
  refine (propagate_parts rules nameable).mono ?_
  rintro _ after ⟨report, listed, published, rfl, list, channel, -⟩
  refine ⟨report, rfl, fun faulty => ?_⟩
  have listTold := list.told
  have channelTold := channel.told
  split at listTold
  · split at channelTold
    · rw [Report.ok, listTold.1, channelTold.1] at faulty
      cases faulty
    · rename_i e refused
      have same := (publish_respects Machine.Alike.likeness propagator rules _ _ list.alike).1
      exact .inr ⟨e, same.trans refused⟩
  · rename_i e refused
    exact .inl ⟨e, refused⟩

end Propagator

namespace RuleStore

/--
A propagation that fails, when a key of the storage was written or nothing was to be stored: nothing
else is done before it, and it leaves the files as they are at the end.
-/
structure Stalls (storage : KeyedStorage) (propagator : Propagator) (rules : RuleSet)
    (files : FileTree) (machine : Machine) (after : FileTree) : Prop where
  awaits : machine.files = files ∨ ∃ part : Part, ∃ data,
    Replaced files machine.files (storage.fileOf part.key) data
  falters : propagator.Falters rules machine
  ends : after = ((propagator.propagate rules).runOn machine).2.files

/-- A propagation error comes from a propagation that failed when the rules were stored. -/
def IsGrounded {α : Type} (propagator : Propagator) (before : Editor) (result : Except Fault α)
    (after : Editor) : Prop :=
  ∀ listFault channelFault, result = .error (.notPropagated listFault channelFault) →
    ∃ machine : Machine, (before.machine.refusals = [] → machine.refusals = []) ∧
      Stalls before.store.storage propagator after.store.snapshot before.machine.files machine
        after.machine.files

variable {propagator : Propagator} {editor : Editor}

theorem propagate_falters (there : editor.store.propagator = some propagator)
    (nameable : propagator.IsNameable editor.machine.files) (rules : RuleSet) :
    Ensures (propagate rules) editor fun result after =>
      (∀ e, result = .error e → propagator.Falters rules editor.machine) ∧
        after.machine = ((propagator.propagate rules).runOn editor.machine).2 := by
  apply Editing.storeThen
  rw [there]
  have ends : Ensures (propagator.propagate rules) editor.machine fun _ after =>
      after = ((propagator.propagate rules).runOn editor.machine).2 := rfl
  refine .bind (Editing.act_spec ((propagator.propagate_falters rules nameable).and ends)) ?_ ?_
  · rintro report after ⟨-, ⟨_, ⟨⟩, falters⟩, same⟩
    apply Editing.modifyStoreThen
    unfold Report.fault?
    cases fine : report.ok with
    | true => exact .pure ⟨nofun, same⟩
    | false => exact .throw ⟨fun _ _ => falters fine, same⟩
  · rintro e after ⟨-, ⟨_, ⟨⟩, -⟩, -⟩

theorem persist_refusals (part : Part) (editor : Editor) :
    Ensures (persist part) editor fun _ after =>
      editor.machine.refusals = [] → after.machine.refusals = [] := by
  apply Editing.storeThen
  cases part with
  | hosts =>
      exact (Editing.act_spec (KeyedStorage.put_refusals _ _ _ _)).mono fun _ _ known => known.2
  | elementRules =>
      exact (Editing.act_spec (KeyedStorage.put_refusals _ _ _ _)).mono fun _ _ known => known.2

section Grounds

variable (ready : IsReady propagator [] editor)

include ready

theorem commit_isGrounded (part : Part) (rules : RuleSet) :
    Ensures (commit part rules) editor (IsGrounded propagator editor) := by
  refine commitWith_rule ((persist_spec part _).and (persist_refusals part _)) ?_ ?_
  · rintro e after ⟨⟨-, -, storage⟩, -⟩ listFault channelFault same
    cases same
    cases storage ready.storageNameable
  · rintro stored ⟨⟨store, data, -, written⟩, refusals⟩
    have there : stored.store.propagator = some propagator := by
      rw [store]
      exact ready.sinks
    have nameable := ready.sinksNameable.of_current written.current
    refine ((propagate_spec rules stored).and (propagate_falters there nameable rules)).mono ?_
    rintro propagated brought ⟨⟨core, -⟩, falters, ends⟩
    have nobody : brought.store.subscribers = [] := by
      have listed := congrArg RuleStore.subscribers core
      rw [store] at listed
      exact listed.trans ready.quiet
    have snapshot : brought.store.snapshot = rules := by
      rw [snapshot_of_core core, store]
      rfl
    refine (announceAll_spec nobody rules).mono ?_
    rintro _ after ⟨rfl, rfl⟩ listFault channelFault same
    rw [snapshot]
    cases propagated with
    | ok report => cases same
    | error e =>
        exact ⟨stored.machine, refusals, .inr ⟨part, data, written⟩, falters e rfl,
          congrArg Machine.files ends⟩

/-- There is no propagation error without a write that failed. -/
theorem Call.perform_isGrounded (call : Call) :
    IsGrounded propagator editor (call.perform editor).1 (call.perform editor).2 := by
  change Ensures call.work editor (IsGrounded propagator editor)
  cases planned : call.plan? editor.store.lowersHosts editor.store.snapshot with
  | none =>
      cases Call.eq_republish planned
      apply Ensures.map
      apply Editing.storeThen
      refine ((propagate_spec _ editor).and
        (propagate_falters ready.sinks ready.sinksNameable _)).mono ?_
      rintro result after ⟨⟨core, -⟩, falters, ends⟩ listFault channelFault same
      rw [snapshot_of_core core]
      cases result with
      | ok report => cases same
      | error e =>
          exact ⟨editor.machine, id, .inl rfl, falters e rfl, congrArg Machine.files ends⟩
  | some plan =>
      have leads : plan.Leads editor (IsGrounded propagator editor) := by
        unfold Call.Plan.Leads
        split
        · exact fun _ _ _ _ => nofun
        · intro start noted
          have grounded := commit_isGrounded (ready.noted noted)
          refine (grounded _ _).mono ?_
          intro ended middle grounds after noted' listFault channelFault same
          have failed : ended = .error (.notPropagated listFault channelFault) := by
            cases ended with
            | ok done => cases same
            | error e =>
                cases same
                rfl
          obtain ⟨machine, refusals, stalls⟩ := grounds listFault channelFault failed
          rw [noted.store, noted.alike.files] at stalls
          rw [noted'.store, noted'.alike.files]
          refine ⟨machine, fun none => refusals ?_, stalls⟩
          obtain ⟨journal, same⟩ := noted.alike
          rw [same]
          exact none
      exact work_leads planned leads

end Grounds

end RuleStore

end SiteFilter
