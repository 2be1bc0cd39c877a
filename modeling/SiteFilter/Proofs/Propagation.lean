import SiteFilter.Proofs.KeyedStorage
import SiteFilter.Proofs.Reload
import SiteFilter.Proofs.Rule.Written
import SiteFilter.Propagation

/-!
# What a propagation does to the files

Each sink gets its new content or is left as it was, whatever becomes of the other. When the paths
of the sinks are made of names a propagation always ends in a report, which says which of the two
happened.
-/

namespace SiteFilter

open FileTree Effect

/-! ## Single sinks -/

/--
A file is brought to a content, or a fault is met and nothing changes but for directories on the way
to the file.
-/
def Delivers (files : FileTree) (target : Path) (content : Bytes → Prop) (fault : Option Fault)
    (after : FileTree) : Prop :=
  match fault with
  | none => ∃ data, content data ∧ Replaced files after target data
  | some _ => Furnished files after (files.origin target) target.parts.dropLast

namespace Delivers

variable {files after : FileTree} {target : Path} {content : Bytes → Prop} {fault : Option Fault}

/-- What holds of every replacement of the file holds of a delivery. -/
theorem exists_replaces (h : Delivers files target content fault after) :
    ∃ data result, Replaces files target data result after ∧
      (fault = none → result = .ok () ∧ content data) := by
  cases fault with
  | none =>
      obtain ⟨data, right, replaced⟩ := h
      exact ⟨data, .ok (), replaced, fun _ => ⟨rfl, right⟩⟩
  | some e => exact ⟨[], .error (.os ⟨.noEntry, [], none⟩), ⟨h, fun _ => ⟨_, rfl⟩⟩, nofun⟩

theorem current (h : Delivers files target content fault after) :
    after.current = files.current := by
  obtain ⟨data, result, replaces, -⟩ := h.exists_replaces
  exact replaces.current

end Delivers

namespace Propagator

def payloadPath (propagator : Propagator) : Path :=
  propagator.channel.fileOf channelKey

def IsList (rules : RuleSet) (data : Bytes) : Prop :=
  FilterList.serialize (FilterList.compile rules) = .ok data

def IsPayload (rules : RuleSet) (data : Bytes) : Prop :=
  Utf8.encode ((channelPayload rules).write .stored) = .ok data

/-- The payload is a document that fits in whatever the limits are. -/
theorem readable_channelPayload (rules : RuleSet) :
    Json.Readable .stored Json.ownDepth (channelPayload rules) :=
  ElementRule.readable_toJsons rfl rules.elementRules

/-- Whoever reads a payload finds the rules. -/
theorem IsPayload.valueIn {rules : RuleSet} {data : Bytes} (h : IsPayload rules data)
    (limits : Json.Limits) : KeyedStorage.valueIn limits data = .ok (channelPayload rules) := by
  have own := readable_channelPayload rules
  have encoded : KeyedStorage.encodeValue limits (channelPayload rules) = .ok data :=
    (KeyedStorage.encodeValue_own_ok_iff own).mpr h
  exact KeyedStorage.valueIn_encodeValue (own.within limits) encoded

def IsNameable (propagator : Propagator) (files : FileTree) : Prop :=
  files.IsNameable propagator.filterListPath ∧
    files.IsNameable propagator.channel.directory

instance (propagator : Propagator) (files : FileTree) : Decidable (propagator.IsNameable files) :=
  inferInstanceAs (Decidable (_ ∧ _))

theorem IsNameable.of_current {propagator : Propagator} {files after : FileTree}
    (h : propagator.IsNameable files) (current : after.current = files.current) :
    propagator.IsNameable after :=
  ⟨h.1.of_current current, h.2.of_current current⟩

theorem isKey_channelKey : KeyedStorage.isKey channelKey = true := by
  decide

theorem writeFilterList_spec (propagator : Propagator) (rules : RuleSet) (machine : Machine) :
    Ensures (propagator.writeFilterList rules) machine fun result after =>
      match result with
      | .ok _ => Delivers machine.files propagator.filterListPath (IsList rules) none after.files
      | .error e =>
          Delivers machine.files propagator.filterListPath (IsList rules) (some e) after.files ∧
            (machine.files.IsNameable propagator.filterListPath → isListFault e = true) := by
  apply Action.noteThen
  intro journal
  apply Action.ofExceptThen
  · intro data serialized
    refine .bind (Action.replaceFile_spec _ data _) ?_ ?_
    · intro _ after replaced
      apply Action.noteThen
      intro journal'
      exact .pure ⟨data, serialized, replaced⟩
    · rintro e after ⟨made, os⟩
      refine ⟨made, fun nameable => ?_⟩
      obtain ⟨refusal, rfl⟩ := os nameable
      rfl
  · intro e refused
    refine ⟨.refl _ _ _, fun _ => ?_⟩
    unfold FilterList.serialize at refused
    split at refused
    · cases refused
    · cases refused
      rfl

theorem publish_spec (propagator : Propagator) (rules : RuleSet) (machine : Machine) :
    Ensures (propagator.publish rules) machine fun result after =>
      match result with
      | .ok _ => Delivers machine.files propagator.payloadPath (IsPayload rules) none after.files
      | .error e =>
          Delivers machine.files propagator.payloadPath (IsPayload rules) (some e) after.files ∧
            (machine.files.IsNameable propagator.channel.directory → e.isOfStorage = true) := by
  refine .bind (propagator.channel.put_spec isKey_channelKey (channelPayload rules) machine) ?_ ?_
  · rintro _ after ⟨data, encoded, replaced⟩
    have payload := (KeyedStorage.encodeValue_own_ok_iff (readable_channelPayload rules)).mp encoded
    exact .pure ⟨data, payload, replaced⟩
  · rintro e after ⟨made, storage⟩
    refine ⟨?_, fun nameable =>
      storage nameable (KeyedStorage.encodeValue_own_ne_deep (readable_channelPayload rules))⟩
    change Furnished _ _ _ (propagator.channel.fileOf channelKey).parts.dropLast
    rw [KeyedStorage.fileOf, List.dropLast_concat]
    exact made

/-- An attempt gives the fault that is due to the sink, and fails for any other. -/
theorem attempt_spec {write : Action Nat} {isDue : Fault → Bool} {machine : Machine}
    {target : Path} {content : Bytes → Prop} {nameable : Prop} (remark : Fault → Text)
    (h : Ensures write machine fun result after =>
      match result with
      | .ok _ => Delivers machine.files target content none after.files
      | .error e => Delivers machine.files target content (some e) after.files ∧
          (nameable → isDue e = true)) :
    Ensures (attempt write isDue remark) machine fun result after =>
      match result with
      | .ok (_, fault) => Delivers machine.files target content fault after.files
      | .error e => Delivers machine.files target content (some e) after.files ∧ ¬ nameable := by
  refine .tryCatch (Q := fun result after =>
    match result with
    | .ok (_, fault) => Delivers machine.files target content fault after.files
    | .error e => Delivers machine.files target content (some e) after.files ∧
        (nameable → isDue e = true)) ?_ ?_ ?_
  · refine .bind h ?_ ?_
    · intro count after delivered
      exact .pure delivered
    · intro e after refused
      exact refused
  · rintro ⟨count, fault⟩ after delivered
    exact delivered
  · rintro e after ⟨delivered, due⟩
    split
    · apply Action.noteThen
      intro journal
      exact .pure delivered
    · rename_i other
      exact .throw ⟨delivered, fun h => other (due h)⟩

/-! ## Both sinks -/

/-- The files after a request to reload, which may have been put off. -/
def Reloaded (propagator : Propagator) (files after : FileTree) : Prop :=
  after = files ∨ ∃ machine : Machine, machine.files = files ∧
    after = ((propagator.reloader.ask propagator.engine).runOn machine).2.files

theorem noteReload_spec (engine : Json) (result : ReloadResult) (machine : Machine) :
    Ensures (noteReload engine result) machine fun answer after =>
      answer = .ok () ∧ machine.Alike after := by
  unfold noteReload
  split
  · exact Action.note_spec _ _ _ _
  · exact Action.note_spec _ _ _ _

theorem signalReload_spec (propagator : Propagator) (machine : Machine) :
    Ensures propagator.signalReload machine fun result after =>
      (∃ state, result = .ok state) ∧ propagator.Reloaded machine.files after.files := by
  apply Ensures.getThen
  split
  · exact Ensures.setThen (.pure ⟨⟨_, rfl⟩, .inl rfl⟩)
  · have asked : Ensures (propagator.reloader.ask propagator.engine) machine fun result after =>
        (∃ r, result = .ok r) ∧ propagator.Reloaded machine.files after.files :=
      ⟨(Reloader.ask_spec _ _ machine).1, .inr ⟨machine, rfl, rfl⟩⟩
    refine .bind asked ?_ ?_
    · rintro result after ⟨-, reloaded⟩
      refine .bindOk (noteReload_spec _ result after) ?_
      intro final alike
      rw [← alike.files] at reloaded
      exact .pure ⟨⟨_, rfl⟩, reloaded⟩
    · rintro _ _ ⟨⟨_, same⟩, -⟩
      cases same

/-- What becomes of the files when rules are propagated and the sinks meet these faults. -/
def Propagated (propagator : Propagator) (rules : RuleSet) (files : FileTree)
    (listFault channelFault : Option Fault) (after : FileTree) : Prop :=
  ∃ listed published,
    Delivers files propagator.filterListPath (IsList rules) listFault listed ∧
      Delivers listed propagator.payloadPath (IsPayload rules) channelFault published ∧
        propagator.Reloaded published after

theorem current_of_reloaded {propagator : Propagator} {files after : FileTree}
    (h : propagator.Reloaded files after) : after.current = files.current := by
  rcases h with rfl | ⟨machine, rfl, rfl⟩
  · rfl
  · exact (Reloader.ask_spec propagator.reloader propagator.engine machine).2

theorem Propagated.current {propagator : Propagator} {rules : RuleSet} {files after : FileTree}
    {listFault channelFault : Option Fault}
    (h : propagator.Propagated rules files listFault channelFault after) :
    after.current = files.current := by
  obtain ⟨listed, published, list, channel, reloaded⟩ := h
  rw [current_of_reloaded reloaded, channel.current, list.current]

/-- A report tells what became of the sinks; there is none only when a path is not made of names. -/
def Ends (propagator : Propagator) (rules : RuleSet) (files : FileTree)
    (result : Except Fault Report) (after : FileTree) : Prop :=
  ∃ listFault channelFault,
    propagator.Propagated rules files listFault channelFault after ∧
      match result with
      | .ok report => report.filterListFault = listFault ∧ report.channelFault = channelFault
      | .error _ => ¬ propagator.IsNameable files

/-- How a propagation ends when both sinks were attempted: with a request to reload if need be. -/
theorem report_spec {propagator : Propagator} {entries count : Nat}
    {listFault channelFault : Option Fault} {published : Machine}
    {post : Except Fault Report → Machine → Prop}
    (asked : listFault.isNone = true →
      Ensures propagator.signalReload published fun result final => ∃ state, result = .ok state ∧
        ∀ note, post (.ok ⟨entries, count, listFault, channelFault, state⟩)
          { final with journal := .noted note :: final.journal })
    (unasked : listFault.isNone = false →
      ∀ note, post (.ok ⟨entries, count, listFault, channelFault, .unasked⟩)
        { published with journal := .noted note :: published.journal }) :
    Ensures (do
      let reload ← if listFault.isNone then propagator.signalReload else pure .unasked
      Action.note .info source
        (Text.ofString "Propagated " ++ Text.ofNat entries ++ Text.ofString " filter entries, "
          ++ Text.ofNat count ++ Text.ofString " in-page rules")
      return (⟨entries, count, listFault, channelFault, reload⟩ : Report)) published post := by
  cases known : listFault.isNone with
  | true =>
      rw [if_pos rfl]
      refine .bind (asked known) ?_ ?_
      · rintro _ final ⟨state, ⟨⟩, holds⟩
        exact Ensures.changeThen (.pure (holds _))
      · rintro _ _ ⟨_, ⟨⟩, -⟩
  | false =>
      rw [if_neg Bool.false_ne_true]
      exact Ensures.pureThen (Ensures.changeThen (.pure (unasked known _)))

theorem propagate_spec (propagator : Propagator) (rules : RuleSet) (machine : Machine) :
    Ensures (propagator.propagate rules) machine fun result after =>
      propagator.Ends rules machine.files result after.files := by
  refine .bind (attempt_spec _ (writeFilterList_spec propagator rules machine)) ?_ ?_
  · rintro ⟨entries, listFault⟩ listed list
    refine .bind (attempt_spec _ (publish_spec propagator rules listed)) ?_ ?_
    · rintro ⟨count, channelFault⟩ published channel
      refine report_spec (fun _ => ?_) fun _ _ => ?_
      · refine (signalReload_spec propagator published).mono ?_
        rintro _ final ⟨⟨state, rfl⟩, reloaded⟩
        exact ⟨state, rfl, fun _ => ⟨_, _, ⟨_, _, list, channel, reloaded⟩, rfl, rfl⟩⟩
      · exact ⟨_, _, ⟨_, _, list, channel, .inl rfl⟩, rfl, rfl⟩
    · rintro e published ⟨channel, odd⟩
      exact ⟨_, _, ⟨_, _, list, channel, .inl rfl⟩,
        fun nameable => odd (nameable.2.of_current list.current)⟩
  · rintro e listed ⟨list, odd⟩
    exact ⟨_, some e, ⟨_, _, list, .refl _ _ _, .inl rfl⟩, fun nameable => odd nameable.1⟩

/-- What survives writes to the sinks and requests to reload survives a propagation. -/
theorem Propagated.preserves {propagator : Propagator} {rules : RuleSet} {files after : FileTree}
    {listFault channelFault : Option Fault}
    (h : propagator.Propagated rules files listFault channelFault after)
    (holds : FileTree → Prop) (start : holds files)
    (write : ∀ target ∈ [propagator.filterListPath, propagator.payloadPath],
      ∀ before data result later, Replaces before target data result later →
        holds before → holds later)
    (reload : ∀ machine : Machine, holds machine.files →
      holds ((propagator.reloader.ask propagator.engine).runOn machine).2.files) :
    holds after := by
  obtain ⟨listed, published, list, channel, reloaded⟩ := h
  obtain ⟨data, result, replaces, -⟩ := list.exists_replaces
  obtain ⟨data', result', replaces', -⟩ := channel.exists_replaces
  have afterList := write _ (by simp) _ _ _ _ replaces start
  have afterChannel := write _ (by simp) _ _ _ _ replaces' afterList
  rcases reloaded with rfl | ⟨machine, rfl, rfl⟩
  · exact afterChannel
  · exact reload machine afterChannel

end Propagator

/-! ## A new installation -/

def sharedSinks : Propagator :=
  ⟨⟨1, [Text.ofString "group", Text.ofString "list.json"]⟩, ⟨⟨1, [Text.ofString "group"]⟩, .usual⟩,
    .null, .none⟩

end SiteFilter
