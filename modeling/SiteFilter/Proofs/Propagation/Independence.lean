import Mathlib.Data.List.Permutation
import SiteFilter.Proofs.Journal
import SiteFilter.Proofs.KeyedStorage.Putting
import SiteFilter.Proofs.Rule.Written
import SiteFilter.Proofs.Sinks

/-!
# The sinks do not depend on each other

Whether a sink is brought up to date, and what it holds then, is the same as if nobody had tried to
write to the other one. This takes that neither sink is in the place of the other, or leads through
it; that both stand in one directory does no harm.
-/

namespace SiteFilter

open FileTree Effect

/-! ## Places that change -/

theorem FileTree.MadeAt.contentOf {tree after : FileTree} {path : Path}
    (current : after.current = tree.current) (h : MadeAt tree after (tree.placeOf path)) :
    after.contentOf path = tree.contentOf path := by
  unfold FileTree.contentOf
  rw [placeOf_eq current]
  rcases h with same | ⟨missing, made⟩
  · rw [same]
  · rw [missing, made]

namespace Delivers

variable {files after : FileTree} {target : Path} {content : Bytes → Prop} {fault : Option Fault}

/-- Behind a delivery all places are as before but for directories and a file that was written. -/
theorem madeAt (h : Delivers files target content fault after) {r : Route}
    (spared : fault = none → r ≠ files.placeOf target) : MadeAt files after r := by
  cases fault with
  | none =>
      obtain ⟨data, -, replaced⟩ := h
      rcases replaced.elsewhere r (spared rfl) with same | ⟨missing, made, -⟩
      · exact .inl same
      · exact .inr ⟨missing, made⟩
  | some e => exact Furnished.madeAt h r

theorem wellFormed (h : Delivers files target content fault after) (start : files.WellFormed) :
    after.WellFormed := by
  obtain ⟨data, result, replaces, -⟩ := h.exists_replaces
  exact replaces.wellFormed start

end Delivers

namespace Propagator

variable {propagator : Propagator} {rules : RuleSet} {machine : Machine}

/-! ## Attempts -/

/--
An attempt to write: it reports what was counted, or the fault that was met, and leaves what the
write alone leaves, but for notes.
-/
structure Attempted (write : Action Nat) (machine : Machine) (count : Nat) (fault : Option Fault)
    (after : Machine) : Prop where
  told : match (write.runOn machine).1 with
    | .ok n => fault = none ∧ count = n
    | .error e => fault = some e ∧ count = 0
  alike : (write.runOn machine).2.Alike after

theorem attempt_attempted {write : Action Nat} {isDue : Fault → Bool} (remark : Fault → Text)
    (due : Ensures write machine fun result _ => ∀ e, result = .error e → isDue e = true) :
    Ensures (attempt write isDue remark) machine fun result after =>
      ∃ count fault, result = .ok (count, fault) ∧
        Attempted write machine count fault after := by
  have ran : Ensures write machine fun result after => write.runOn machine = (result, after) := rfl
  refine .tryCatch (Q := fun result after =>
    (∃ count, result = .ok (count, none) ∧ write.runOn machine = (.ok count, after)) ∨
      ∃ e, result = .error e ∧ write.runOn machine = (.error e, after)) ?_ ?_ ?_
  · exact .bind ran (fun count _ same => .pure (.inl ⟨count, rfl, same⟩))
      fun e _ same => .inr ⟨e, rfl, same⟩
  · rintro _ after (⟨count, came, same⟩ | ⟨e, came, -⟩)
    · cases came
      refine ⟨count, none, rfl, ?_, ?_⟩
      · rw [same]
        exact ⟨rfl, rfl⟩
      · rw [same]
        exact .refl after
    · cases came
  · rintro e after (⟨count, came, -⟩ | ⟨e', came, same⟩)
    · cases came
    cases came
    have failed : isDue e = true := due e (congrArg Prod.fst same)
    rw [if_pos failed]
    refine .bindOk (Action.note_spec _ _ _ after) ?_
    intro final alike
    refine .pure ⟨0, some e, rfl, ?_, ?_⟩
    · rw [same]
      exact ⟨rfl, rfl⟩
    · rw [same]
      exact alike

/-- An attempt delivers what the write does. -/
theorem Attempted.delivers {write : Action Nat} {count : Nat} {fault : Option Fault}
    {after : Machine} {target : Path} {content : Bytes → Prop} {due : Fault → Prop}
    (h : Attempted write machine count fault after)
    (spec : Ensures write machine fun result after =>
      match result with
      | .ok _ => Delivers machine.files target content none after.files
      | .error e => Delivers machine.files target content (some e) after.files ∧ due e) :
    Delivers machine.files target content fault after.files := by
  unfold Ensures at spec
  rw [← Action.runOn_eq] at spec
  obtain ⟨told, alike⟩ := h
  rw [alike.files]
  split at told
  · rename_i came
    rw [came] at spec
    rw [told.1]
    exact spec
  · rename_i came
    rw [came] at spec
    rw [told.1]
    exact spec.1

/-- A propagation is one attempt on the filter list, one on the payload, and a request to reload. -/
theorem propagate_parts (rules : RuleSet) (nameable : propagator.IsNameable machine.files) :
    Ensures (propagator.propagate rules) machine fun result after =>
      ∃ report listed published, result = .ok report ∧
        Attempted (propagator.writeFilterList rules) machine report.entriesWritten
          report.filterListFault listed ∧
        Attempted (propagator.publish rules) listed report.rulesPublished report.channelFault
          published ∧
        propagator.Reloaded published.files after.files := by
  have listDue : Ensures (propagator.writeFilterList rules) machine fun result _ =>
      ∀ e, result = .error e → isListFault e = true := by
    refine (writeFilterList_spec propagator rules machine).mono ?_
    rintro _ _ known e rfl
    exact known.2 nameable.1
  refine .bind (attempt_attempted _ listDue) ?_ ?_
  · rintro _ listed ⟨entries, listFault, same, list⟩
    cases same
    have current := (list.delivers (writeFilterList_spec propagator rules machine)).current
    have channelDue : Ensures (propagator.publish rules) listed fun result _ =>
        ∀ e, result = .error e → e.isOfStorage = true := by
      refine (publish_spec propagator rules listed).mono ?_
      rintro _ _ known e rfl
      exact known.2 (nameable.2.of_current current)
    refine .bind (attempt_attempted _ channelDue) ?_ ?_
    · rintro _ published ⟨count, channelFault, same, channel⟩
      cases same
      refine report_spec (fun _ => ?_) fun _ _ => ?_
      · refine (signalReload_spec propagator published).mono ?_
        rintro _ final ⟨⟨state, rfl⟩, reloaded⟩
        exact ⟨state, rfl, fun _ => ⟨_, listed, published, rfl, list, channel, reloaded⟩⟩
      · exact ⟨_, listed, published, rfl, list, channel, .inl rfl⟩
    · rintro _ _ ⟨_, _, same, -⟩
      cases same
  · rintro _ _ ⟨_, _, same, -⟩
    cases same

/-! ## Counts and faults -/

theorem length_compile (rules : RuleSet) : (FilterList.compile rules).length = rules.size := by
  simp [FilterList.compile, RuleSet.size]

theorem writeFilterList_count (propagator : Propagator) (rules : RuleSet) (machine : Machine) :
    Ensures (propagator.writeFilterList rules) machine fun result _ =>
      ∀ n, result = .ok n → n = rules.size := by
  apply Action.noteThen
  intro journal
  apply Action.ofExceptThen
  · intro data _
    refine .bind (Q := fun _ _ => True) trivial ?_ fun _ _ _ => nofun
    intro _ after _
    apply Action.noteThen
    intro journal'
    exact .pure fun n same => (Except.ok.inj same).symm.trans (length_compile rules)
  · exact fun _ _ => nofun

theorem publish_count (propagator : Propagator) (rules : RuleSet) (machine : Machine) :
    Ensures (propagator.publish rules) machine fun result _ =>
      ∀ n, result = .ok n → n = rules.elementRules.length :=
  .bind (Q := fun _ _ => True) trivial (fun _ _ _ => .pure fun _ same => (Except.ok.inj same).symm)
    fun _ _ _ => nofun

/-- The payload is written just when it has octets and its file can be written. -/
theorem publish_isOk (rules : RuleSet) (machine : Machine) (wellFormed : machine.files.WellFormed)
    (room : machine.files.HasRoom propagator.payloadPath [propagator.payloadPath]) :
    Ensures (propagator.publish rules) machine fun result _ =>
      (∃ n, result = .ok n) ↔ (∃ data, IsPayload rules data) ∧ machine.refusal? = none ∧
        machine.files.Writable propagator.payloadPath := by
  have put := KeyedStorage.put_isOk isKey_channelKey wellFormed room (channelPayload rules)
  simp only [KeyedStorage.encodeValue_own_ok_iff (readable_channelPayload rules)] at put
  refine .bind put ?_ ?_
  · intro _ _ known
    exact .pure ⟨fun _ => known.mp rfl, fun _ => ⟨_, rfl⟩⟩
  · intro e _ refused
    exact ⟨nofun, fun possible => nomatch refused.mpr possible⟩

/-- Whether publishing rules can fail so: for what the payload is, or for where it is to be. -/
def IsPublishFault (propagator : Propagator) (rules : RuleSet) (e : Fault) : Prop :=
  match Utf8.encode ((channelPayload rules).write .stored) with
  | .error cause => e = .unencodableKey channelKey (.encoding cause)
  | .ok _ => ∃ cause, e = .unwritableKey channelKey propagator.payloadPath cause

theorem publish_fault (rules : RuleSet) (machine : Machine)
    (nameable : machine.files.IsNameable propagator.channel.directory) :
    Ensures (propagator.publish rules) machine fun result _ =>
      ∀ e, result = .error e → propagator.IsPublishFault rules e := by
  refine .bind (KeyedStorage.put_fault isKey_channelKey nameable (channelPayload rules)) ?_ ?_
  · exact fun _ _ _ => .pure nofun
  · rintro cause _ known _ ⟨⟩
    have told := known cause rfl
    rw [KeyedStorage.encodeValue_own (readable_channelPayload rules)] at told
    unfold IsPublishFault
    cases encoded : Utf8.encode ((channelPayload rules).write .stored) with
    | error e =>
        rw [encoded] at told
        exact told
    | ok data =>
        rw [encoded] at told
        exact told

/-! ## Each sink as if it were alone -/

/--
Whether the sinks can be named, neither is in the place of the other or leads through it, and there
are temporary names for the payload.
-/
structure IsSeparate (propagator : Propagator) (files : FileTree) : Prop where
  nameable : propagator.IsNameable files
  listOff : files.placeOf propagator.filterListPath ∉ files.wayOf propagator.payloadPath
  payloadOff : files.placeOf propagator.payloadPath ∉ files.wayOf propagator.filterListPath
  room : files.HasRoom propagator.payloadPath [propagator.filterListPath, propagator.payloadPath]

end Propagator

/--
Whether two faults of a sink are of one kind: they are the same, or its file cannot be written. Then
the refusals may be of different directories on the way.
-/
inductive Fault.Resembles : Fault → Fault → Prop
  | same (e : Fault) : Resembles e e
  | unwritable {key : Text} {path : Path} (cause cause' : OsError) :
      Resembles (.unwritableKey key path cause) (.unwritableKey key path cause')

/--
What becomes of a sink, compared to a write to it alone: it is reported written, or refused for a
reason of the same kind, and it holds the same. When it is written it holds the new content, and
all of it was counted; when it is refused it holds what it held, and nothing was counted.
-/
structure SinkEnds (alone : Except Fault Nat × Machine) (before written : FileTree) (target : Path)
    (content : Bytes → Prop) (size count : Nat) (fault : Option Fault) : Prop where
  outcome : match alone.1 with
    | .ok _ => fault = none
    | .error e => ∃ e', fault = some e' ∧ e.Resembles e'
  same : written.contentOf target = alone.2.files.contentOf target
  holds : fault = none → ∃ data, content data ∧ written.read target = .ok data
  keeps : fault ≠ none → written.contentOf target = before.contentOf target
  counts : count = if fault.isNone then size else 0

theorem Delivers.contentOf {files after : FileTree} {target : Path} {content : Bytes → Prop}
    {fault : Option Fault} (h : Delivers files target content fault after) :
    match fault with
    | none => ∃ data, content data ∧ after.contentOf target = some data
    | some _ => after.contentOf target = files.contentOf target := by
  cases fault with
  | none =>
      obtain ⟨data, right, replaced⟩ := h
      refine ⟨data, right, ?_⟩
      rw [FileTree.contentOf, placeOf_eq replaced.current, replaced.written]
  | some e => exact MadeAt.contentOf h.current (h.madeAt nofun)

/-- A sink ends as it does alone when it is delivered alike, to files in which it is the same. -/
theorem SinkEnds.of_delivers {alone : Except Fault Nat × Machine}
    {before files after written : FileTree} {target : Path} {content : Bytes → Prop}
    {size count : Nat} {fault : Option Fault} (aloneFault : Option Fault)
    (unique : ∀ data data', content data → content data' → data = data')
    (outcome : match alone.1 with
      | .ok _ => fault = none ∧ aloneFault = none
      | .error e => (∃ e', fault = some e' ∧ e.Resembles e') ∧ aloneFault = some e)
    (counts : count = if fault.isNone then size else 0)
    (aloneDelivers : Delivers before target content aloneFault alone.2.files)
    (start : files.contentOf target = before.contentOf target)
    (delivers : Delivers files target content fault after)
    (later : Retains after written target) :
    SinkEnds alone before written target content size count fault := by
  have came := delivers.contentOf
  have alike := aloneDelivers.contentOf
  refine ⟨?_, ?_, ?_, ?_, counts⟩
  · split at outcome
    · exact outcome.1
    · exact outcome.1
  · rw [later.contentOf]
    split at outcome
    · obtain ⟨rfl, rfl⟩ := outcome
      obtain ⟨data, right, found⟩ := came
      obtain ⟨data', right', found'⟩ := alike
      rw [found, found', unique data data' right right']
    · obtain ⟨⟨e', rfl, -⟩, rfl⟩ := outcome
      rw [came, alike, start]
  · rintro rfl
    obtain ⟨data, right, replaced⟩ := delivers
    exact ⟨data, right, later.read replaced.read⟩
  · intro failed
    cases fault with
    | none => exact absurd rfl failed
    | some e => rw [later.contentOf, came, start]

namespace Propagator

variable {propagator : Propagator} {rules : RuleSet} {machine listed published : Machine}

/-- The payload is written behind the filter list just when it would be written alone. -/
theorem publish_alone (wellFormed : machine.files.WellFormed)
    (separate : propagator.IsSeparate machine.files) {listFault : Option Fault}
    (list : Delivers machine.files propagator.filterListPath (IsList rules) listFault listed.files) :
    (∃ n, ((propagator.publish rules).runOn listed).1 = .ok n) ↔
      ∃ n, ((propagator.publish rules).runOn { machine with refusals := listed.refusals }).1 =
        .ok n := by
  obtain ⟨data, result, replaces, -⟩ := list.exists_replaces
  have current := list.current
  have room : machine.files.HasRoom propagator.payloadPath [propagator.payloadPath] :=
    separate.room.mono (by simp)
  have room' : listed.files.HasRoom propagator.payloadPath [propagator.payloadPath] :=
    (separate.room.replaces (by simp) replaces).mono (by simp)
  have behind := publish_isOk rules listed (list.wellFormed wellFormed) room'
  have alone := publish_isOk rules { machine with refusals := listed.refusals } wellFormed room
  have writable : listed.files.Writable propagator.payloadPath ↔
      machine.files.Writable propagator.payloadPath := by
    refine writable_congr current (fun r inside => list.madeAt ?_) ?_
    · rintro - rfl
      exact separate.listOff (wayOf_parent_subset _ _ inside)
    · exact replaces.avoided separate.payloadOff
  refine behind.trans (Iff.trans ?_ alone.symm)
  rw [writable]
  rfl

theorem IsSeparate.apart {files : FileTree} (h : propagator.IsSeparate files) :
    files.placeOf propagator.filterListPath ≠ files.placeOf propagator.payloadPath := by
  intro same
  apply h.listOff
  rw [same]
  exact files.placeOf_mem_wayOf propagator.payloadPath

theorem counts_of_attempted {write : Action Nat} {count size : Nat} {fault : Option Fault}
    {after : Machine} (h : Attempted write machine count fault after)
    (counted : Ensures write machine fun result _ => ∀ n, result = .ok n → n = size) :
    count = if fault.isNone then size else 0 := by
  have told := h.told
  split at told
  · rename_i came
    rw [told.1, told.2]
    exact counted _ came
  · rw [told.1, told.2]
    rfl

theorem list_ends {count : Nat} {fault channelFault : Option Fault}
    (separate : propagator.IsSeparate machine.files)
    (list : Attempted (propagator.writeFilterList rules) machine count fault listed)
    (payload : Delivers listed.files propagator.payloadPath (IsPayload rules) channelFault
      published.files) :
    SinkEnds ((propagator.writeFilterList rules).runOn machine) machine.files published.files
      propagator.filterListPath (IsList rules) rules.size count fault := by
  have delivers := list.delivers (writeFilterList_spec propagator rules machine)
  have unique (data data' : Bytes) (h : IsList rules data) (h' : IsList rules data') :
      data = data' := Except.ok.inj (h.symm.trans h')
  refine .of_delivers fault unique ?_
    (counts_of_attempted list (writeFilterList_count propagator rules machine)) ?_ rfl delivers ?_
  · have told := list.told
    split at told
    · exact ⟨told.1, told.1⟩
    · exact ⟨⟨_, told.1, .same _⟩, told.1⟩
  · rw [← list.alike.files]
    exact delivers
  · apply payload.retains
    rw [placeOf_eq delivers.current, placeOf_eq delivers.current]
    exact separate.apart

theorem IsPublishFault.resembles {e e' : Fault} (h : propagator.IsPublishFault rules e)
    (h' : propagator.IsPublishFault rules e') : e.Resembles e' := by
  unfold IsPublishFault at h h'
  cases encoded : Utf8.encode ((channelPayload rules).write .stored) with
  | error cause =>
      rw [encoded] at h h'
      rw [h, h']
      exact .same _
  | ok data =>
      rw [encoded] at h h'
      obtain ⟨cause, rfl⟩ := h
      obtain ⟨cause', rfl⟩ := h'
      exact .unwritable _ _

theorem payload_ends {count : Nat} {fault listFault : Option Fault}
    (wellFormed : machine.files.WellFormed) (separate : propagator.IsSeparate machine.files)
    (list : Delivers machine.files propagator.filterListPath (IsList rules) listFault listed.files)
    (payload : Attempted (propagator.publish rules) listed count fault published) :
    SinkEnds ((propagator.publish rules).runOn { machine with refusals := listed.refusals })
      machine.files published.files propagator.payloadPath (IsPayload rules)
      rules.elementRules.length count fault := by
  have delivers := payload.delivers (publish_spec propagator rules listed)
  have unique (data data' : Bytes) (h : IsPayload rules data) (h' : IsPayload rules data') :
      data = data' := Except.ok.inj (h.symm.trans h')
  have start : listed.files.contentOf propagator.payloadPath =
      machine.files.contentOf propagator.payloadPath := by
    obtain ⟨data, result, replaces, -⟩ := list.exists_replaces
    exact MadeAt.contentOf list.current (.inl (replaces.avoided separate.payloadOff))
  have both := publish_alone wellFormed separate list
  have faultBehind := publish_fault rules listed (separate.nameable.2.of_current list.current)
  have faultAlone := publish_fault rules { machine with refusals := listed.refusals }
    separate.nameable.2
  have deliversAlone := publish_spec propagator rules { machine with refusals := listed.refusals }
  have told := payload.told
  have counts := counts_of_attempted payload (publish_count propagator rules listed)
  unfold Ensures at faultBehind faultAlone deliversAlone
  rw [← Action.runOn_eq] at faultBehind faultAlone deliversAlone
  generalize (propagator.publish rules).runOn { machine with refusals := listed.refusals } = alone
    at *
  obtain ⟨ended, final⟩ := alone
  cases ended with
  | ok n =>
      obtain ⟨m, came⟩ := both.mpr ⟨n, rfl⟩
      rw [came] at told
      exact .of_delivers _ unique ⟨told.1, rfl⟩ counts deliversAlone start delivers (.of_eq rfl)
  | error e =>
      cases came : ((propagator.publish rules).runOn listed).1 with
      | ok m => cases both.mp ⟨m, came⟩ |>.choose_spec
      | error e' =>
          rw [came] at told
          refine .of_delivers _ unique ⟨⟨e', told.1, ?_⟩, rfl⟩ counts deliversAlone.1 start delivers
            (.of_eq rfl)
          exact (faultAlone e rfl).resembles (faultBehind e' came)

theorem refusals_listed {count : Nat} {fault : Option Fault}
    (list : Attempted (propagator.writeFilterList rules) machine count fault listed) :
    listed.refusals = machine.refusals.drop (propagator.listWrites rules).length := by
  have wrote : machine.Does (propagator.listWrites rules) []
      ((propagator.writeFilterList rules).runOn machine).2 :=
    writeFilterList_does propagator rules machine
  obtain ⟨journal, same⟩ := list.alike
  have writes : (propagator.listWrites rules).countP Event.isWrite =
      (propagator.listWrites rules).length := by
    unfold listWrites
    split <;> rfl
  rw [← writes, ← wrote.refusals_eq, same]

/-- A propagation asks for one reload, or puts one off, when the filter list was written. -/
theorem requests_propagate (propagator : Propagator) (rules : RuleSet) (machine : Machine) :
    Ensures (propagator.propagate rules) machine fun result after =>
      ∀ report, result = .ok report →
        after.requests = machine.requests + if report.filterListFault.isNone then 1 else 0 := by
  refine (propagate_does propagator rules machine).mono ?_
  intro result after did report same
  exact requests_of_does (did report same)

end Propagator

open Propagator

theorem Report.fault?_eq_none_iff (report : Report) :
    report.fault? = none ↔ report.filterListFault = none ∧ report.channelFault = none := by
  unfold Report.fault? Report.ok
  cases report.filterListFault <;> cases report.channelFault <;> simp

/--
A propagation ends in a report, and each sink ends as it does when it alone is attempted, whatever
becomes of the other one. Nothing else changes but for directories. A reload is requested once if
the filter list was written, and not at all otherwise; the report holds a fault if one of the sinks
met one. What a request to reload does to the files comes after all this.
-/
theorem sinks_independent {propagator : Propagator} {machine : Machine} (rules : RuleSet)
    (wellFormed : machine.files.WellFormed) (separate : propagator.IsSeparate machine.files) :
    ∃ report after written,
      (propagator.propagate rules).runOn machine = (.ok report, after) ∧
        propagator.Reloaded written after.files ∧
        SinkEnds ((propagator.writeFilterList rules).runOn machine) machine.files written
          propagator.filterListPath (IsList rules) rules.size report.entriesWritten
          report.filterListFault ∧
        SinkEnds
          ((propagator.publish rules).runOn { machine with
            refusals := machine.refusals.drop (propagator.listWrites rules).length })
          machine.files written propagator.payloadPath (IsPayload rules)
          rules.elementRules.length report.rulesPublished report.channelFault ∧
        (report.channelFault = none →
          propagator.channel.get? written channelKey = .ok (some (channelPayload rules))) ∧
        (∀ r, MadeAt machine.files written r ∨
          (r = machine.files.placeOf propagator.filterListPath ∧ report.filterListFault = none) ∨
          (r = machine.files.placeOf propagator.payloadPath ∧ report.channelFault = none)) ∧
        (after.requests = machine.requests + if report.filterListFault.isNone then 1 else 0) ∧
        (report.fault? = none ↔ report.filterListFault = none ∧ report.channelFault = none) := by
  obtain ⟨report, listed, published, same, list, payload, reloaded⟩ :=
    propagate_parts rules separate.nameable
  have requested := requests_propagate propagator rules machine report same
  have delivers := list.delivers (writeFilterList_spec propagator rules machine)
  have delivers' := payload.delivers (publish_spec propagator rules listed)
  have payloadEnds := payload_ends wellFormed separate delivers payload
  rw [refusals_listed list] at payloadEnds
  refine ⟨report, _, published.files, Prod.ext same rfl, reloaded,
    list_ends separate list delivers', payloadEnds, ?_, ?_, requested, report.fault?_eq_none_iff⟩
  · intro written
    obtain ⟨data, isPayload, found⟩ := payloadEnds.holds written
    exact KeyedStorage.get?_of_read isKey_channelKey found
      (isPayload.valueIn _)
  · intro r
    by_cases list : r = machine.files.placeOf propagator.filterListPath ∧
        report.filterListFault = none
    · exact .inr (.inl list)
    · by_cases payload : r = machine.files.placeOf propagator.payloadPath ∧
          report.channelFault = none
      · exact .inr (.inr payload)
      · left
        refine (delivers.madeAt fun none here => list ⟨here, none⟩).trans
          (delivers'.madeAt fun none here => payload ⟨here.trans ?_, none⟩)
        exact placeOf_eq delivers.current _

/-! ## A payload that is there although it cannot be written -/

def halfRule : ElementRule :=
  ⟨[⟨0xD800, by decide⟩], Text.ofString ".b", by decide, by decide, by decide⟩

/-- The payload of the rule as somebody else may have written it, in ASCII alone. -/
def halfPayload : Bytes :=
  Utf8.encodeAny ((channelPayload ⟨[], [halfRule]⟩).write .request)

def heldMachine : Machine :=
  let group := [Text.ofString "group"]
  Machine.start
    ((bareMachine.files.put group .directory).put (group ++ [KeyedStorage.fileName channelKey])
      (.file halfPayload))

theorem valueIn_halfPayload :
    KeyedStorage.valueIn .usual halfPayload = .ok (channelPayload ⟨[], [halfRule]⟩) := by
  cbv

theorem wellFormed_held : heldMachine.files.WellFormed :=
  wellFormed_of_nodes (by decide +kernel) rfl nofun

theorem isSeparate_held : sharedSinks.IsSeparate heldMachine.files :=
  ⟨by decide, by decide, by decide, hasRoom_of_small (by decide +kernel)⟩

/-- The payload is kept, and the filter list is not written. -/
theorem sinks_independent_held :
    ∃ report after written,
      (sharedSinks.propagate ⟨[], [halfRule]⟩).runOn heldMachine = (.ok report, after) ∧
        sharedSinks.Reloaded written after.files ∧
        SinkEnds ((sharedSinks.writeFilterList ⟨[], [halfRule]⟩).runOn heldMachine)
          heldMachine.files written sharedSinks.filterListPath (IsList ⟨[], [halfRule]⟩) 1
          report.entriesWritten report.filterListFault ∧
        SinkEnds
          ((sharedSinks.publish ⟨[], [halfRule]⟩).runOn { heldMachine with
            refusals := heldMachine.refusals.drop
              (sharedSinks.listWrites ⟨[], [halfRule]⟩).length })
          heldMachine.files written sharedSinks.payloadPath (IsPayload ⟨[], [halfRule]⟩) 1
          report.rulesPublished report.channelFault ∧
        (report.channelFault = none →
          sharedSinks.channel.get? written channelKey =
            .ok (some (channelPayload ⟨[], [halfRule]⟩))) ∧
        (∀ r, MadeAt heldMachine.files written r ∨
          (r = heldMachine.files.placeOf sharedSinks.filterListPath ∧
            report.filterListFault = none) ∨
          (r = heldMachine.files.placeOf sharedSinks.payloadPath ∧ report.channelFault = none)) ∧
        (after.requests = heldMachine.requests +
          if report.filterListFault.isNone then 1 else 0) ∧
        (report.fault? = none ↔ report.filterListFault = none ∧ report.channelFault = none) :=
  sinks_independent ⟨[], [halfRule]⟩ wellFormed_held isSeparate_held

/--
A fault of the payload does not mean that the key does not hold all rules: the payload could not be
written, and it was there before.
-/
theorem held_although_refused :
    heldMachine.files.WellFormed ∧ sharedSinks.IsSeparate heldMachine.files ∧
      ∃ report, ((sharedSinks.propagate ⟨[], [halfRule]⟩).runOn heldMachine).1 = .ok report ∧
        ¬ (report.channelFault = none ↔
          sharedSinks.channel.get?
              ((sharedSinks.propagate ⟨[], [halfRule]⟩).runOn heldMachine).2.files channelKey =
            .ok (some (channelPayload ⟨[], [halfRule]⟩))) := by
  refine ⟨wellFormed_held, isSeparate_held, ?_⟩
  cases came : ((sharedSinks.propagate ⟨[], [halfRule]⟩).runOn heldMachine).1 with
  | error e =>
      have ok : ((sharedSinks.propagate ⟨[], [halfRule]⟩).runOn heldMachine).1.isOk = true := by
        decide +kernel
      rw [came] at ok
      cases ok
  | ok report =>
      refine ⟨report, rfl, fun same => ?_⟩
      have refused : (((sharedSinks.propagate ⟨[], [halfRule]⟩).runOn heldMachine).1.toOption.bind
          (·.channelFault)).isSome = true := by
        decide +kernel
      have held : (((sharedSinks.propagate ⟨[], [halfRule]⟩).runOn heldMachine).2.files.read
          sharedSinks.payloadPath).toOption = some halfPayload := by
        decide +kernel
      cases there : ((sharedSinks.propagate ⟨[], [halfRule]⟩).runOn heldMachine).2.files.read
          sharedSinks.payloadPath with
      | error e =>
          rw [there] at held
          cases held
      | ok data =>
          rw [there] at held
          cases held
          have value := KeyedStorage.get?_of_read isKey_channelKey there valueIn_halfPayload
          rw [came, show (Except.ok report : Except Fault Report).toOption.bind _ = _ from
            same.mpr value] at refused
          cases refused

end SiteFilter
