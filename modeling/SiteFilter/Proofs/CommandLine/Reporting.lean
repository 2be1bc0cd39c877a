import SiteFilter.Proofs.CommandLine.Tasks

/-!
# Faults that are reported

The program reports what an operation of the store fails with: a refusal of the file system, a path
that cannot be one, a fault of the storage, or sinks that were not brought up to date. So a fault
that ends the program unreported was met before, in reading.
-/

namespace SiteFilter

open Effect

/-! ## Changes to a file tree -/

/-- The faults of paths and of the file system. -/
@[grind] inductive Fault.IsOfFiles : Fault → Prop
  | os (e : OsError) : IsOfFiles (.os e)
  | encoding (e : EncodeError) : IsOfFiles (.encoding e)
  | nulInPath : IsOfFiles .nulInPath

namespace FileTree

variable {tree : FileTree} {path : Path} {e : Fault}

@[grind →] theorem isOfFiles_of_stat (h : tree.stat path = .error e) : e.IsOfFiles := by
  rcases stat_error h with ⟨cause, rfl⟩ | ⟨cause, rfl⟩ | rfl
  · exact .os cause
  · exact .encoding cause
  · exact .nulInPath

@[grind →] theorem isOfFiles_of_find (h : tree.find path = .error e) : e.IsOfFiles := by
  have unfound : tree.stat path = .error e := by
    unfold stat
    rw [h]
    rfl
  exact isOfFiles_of_stat unfound

@[grind →] theorem isOfFiles_of_hasDirectory (h : tree.hasDirectory path = .error e) :
    e.IsOfFiles := by
  unfold hasDirectory at h
  split at h
  · cases h
  · rename_i e' refused
    cases h
    obtain ⟨cause, rfl⟩ := look_error refused
    exact .os cause

end FileTree

namespace FileAction

@[grind ←] theorem ask_failsOnly {α : Type} {question : FileTree → Except Fault α}
    (h : ∀ tree e, question tree = .error e → e.IsOfFiles) :
    FailsOnly Fault.IsOfFiles (ask question) := by
  unfold ask
  grind

@[grind ←] theorem refuse_failsOnly {α : Type} (cause : OsCause) (path : Path) :
    FailsOnly Fault.IsOfFiles (refuse cause path : FileAction α) :=
  .throw (.os _)

@[grind ←] theorem place_failsOnly (path : Path) : FailsOnly Fault.IsOfFiles (place path) := by
  unfold place
  grind

@[grind ←] theorem makeDirectory_failsOnly (path : Path) :
    FailsOnly Fault.IsOfFiles (makeDirectory path) := by
  unfold makeDirectory
  grind

@[grind ←] theorem unlessDirectory_failsOnly (path : Path) {e : Fault} (h : e.IsOfFiles) :
    FailsOnly Fault.IsOfFiles (unlessDirectory path e) := by
  unfold unlessDirectory
  grind

@[grind ←] theorem ensureDirectory_failsOnly (path : Path) :
    FailsOnly Fault.IsOfFiles (ensureDirectory path) := by
  unfold ensureDirectory
  grind

@[grind ←] theorem makeDirectoriesFrom_failsOnly (fuel : Nat) (path : Path) :
    FailsOnly Fault.IsOfFiles (makeDirectoriesFrom fuel path) := by
  induction fuel generalizing path with
  | zero => exact ensureDirectory_failsOnly path
  | succ fuel ih =>
      unfold makeDirectoriesFrom
      grind

@[grind ←] theorem unlinkIfThere_failsOnly (path : Path) :
    FailsOnly Fault.IsOfFiles (unlinkIfThere path) := by
  unfold unlinkIfThere unlink
  grind

@[grind ←] theorem rename_failsOnly (source target : Path) :
    FailsOnly Fault.IsOfFiles (rename source target) := by
  unfold rename
  grind

end FileAction

theorem AtomicWrite.run_failsOnly (refusal : Option OsCause) (target : Path) (data : Bytes) :
    FailsOnly Fault.IsOfFiles (run refusal target data) := by
  have step (temporary : Path) (step : WriteStep) :
      FailsOnly Fault.IsOfFiles (perform temporary target step) := by
    unfold perform
    grind
  unfold run FileAction.makeDirectories discard
  grind

/-! ## Actions and operations -/

open CommandLine (isReported)

abbrev Reports {σ α : Type} (effect : Effect σ α) : Prop :=
  FailsOnly (fun e => isReported e = true) effect

theorem Fault.IsOfFiles.isReported {e : Fault} (h : e.IsOfFiles) :
    CommandLine.isReported e = true := by
  cases h <;> rfl

namespace Action

variable {α : Type} {due : Fault → Prop}

@[grind ←] theorem ofExcept_failsOnly {answer : Except Fault α}
    (h : ∀ e, answer = .error e → due e) : FailsOnly due (ofExcept answer) := by
  cases answer with
  | ok a => exact .pure a
  | error e => exact .throw (h e rfl)

@[grind ←] theorem note_failsOnly (level : Level) (source : String) (message : Text) :
    FailsOnly due (note level source message) :=
  .modify _

@[grind ←] theorem onFiles_failsOnly {change : FileAction α} (h : FailsOnly due change) :
    FailsOnly due (onFiles change) := by
  intro machine
  exact onFiles_spec (h machine.files)

@[grind ←] theorem nextRefusal_failsOnly : FailsOnly due nextRefusal := by
  unfold nextRefusal
  grind

@[grind ←] theorem replaceFile_failsOnly (path : Path) (data : Bytes) :
    FailsOnly Fault.IsOfFiles (replaceFile path data) := by
  unfold replaceFile
  refine .bind (.modify _) fun _ => .bind nextRefusal_failsOnly fun refusal => ?_
  exact onFiles_failsOnly (AtomicWrite.run_failsOnly refusal path data)

@[grind ←] theorem replaceFile_reported (path : Path) (data : Bytes) :
    Reports (replaceFile path data) :=
  (replaceFile_failsOnly path data).mono fun _ => Fault.IsOfFiles.isReported

end Action

/-- The storage reports why one of the program's own values is not stored. -/
theorem KeyedStorage.put_reported (storage : KeyedStorage) (key : Text) {value : Json}
    (own : Json.Readable .stored Json.ownDepth value) : Reports (storage.put key value) := by
  refine .bind (Action.ofExcept_failsOnly ?_) fun path => ?_
  · intro e refused
    unfold pathOf at refused
    split at refused
    · cases refused
    · cases refused
      rfl
  · rw [encodeValue_own own]
    cases Utf8.encode (value.write .stored) with
    | error e => exact .throw rfl
    | ok data =>
        refine .bind (.tryCatch (Action.replaceFile_reported path data) ?_) fun _ =>
          Action.note_failsOnly _ _ _
        intro e reported
        split
        · exact .throw rfl
        · exact .throw reported

namespace Propagator

theorem writeFilterList_reported (propagator : Propagator) (rules : RuleSet) :
    Reports (propagator.writeFilterList rules) := by
  refine .bind (Action.note_failsOnly _ _ _) fun _ => ?_
  refine .bind (Action.ofExcept_failsOnly fun e refused => ?_) fun data => ?_
  · unfold FilterList.serialize at refused
    split at refused
    · cases refused
    · cases refused
      rfl
  · exact .bind (Action.replaceFile_reported _ data) fun _ =>
      .bind (Action.note_failsOnly _ _ _) fun _ => .pure _

theorem publish_reported (propagator : Propagator) (rules : RuleSet) :
    Reports (propagator.publish rules) :=
  .bind (propagator.channel.put_reported channelKey (readable_channelPayload rules))
    fun _ => .pure _

theorem attempt_reported {write : Action Nat} (isDue : Fault → Bool) (remark : Fault → Text)
    (h : Reports write) : Reports (attempt write isDue remark) := by
  unfold attempt
  grind

theorem signalReload_reported (propagator : Propagator) : Reports propagator.signalReload := by
  intro machine
  refine (signalReload_spec propagator machine).mono ?_
  rintro _ after ⟨⟨state, rfl⟩, -⟩ e ⟨⟩

theorem propagate_reported (propagator : Propagator) (rules : RuleSet) :
    Reports (propagator.propagate rules) := by
  refine .bind (attempt_reported _ _ (propagator.writeFilterList_reported rules)) ?_
  rintro ⟨entries, listFault⟩
  refine .bind (attempt_reported _ _ (propagator.publish_reported rules)) ?_
  rintro ⟨published, channelFault⟩
  have noted (state : ReloadState) : Reports (do
      Action.note .info source
        (Text.ofString "Propagated " ++ Text.ofNat entries ++ Text.ofString " filter entries, "
          ++ Text.ofNat published ++ Text.ofString " in-page rules")
      return (⟨entries, published, listFault, channelFault, state⟩ : Report)) :=
    .bind (Action.note_failsOnly _ _ _) fun _ => .pure _
  dsimp only
  split
  · exact .bind propagator.signalReload_reported noted
  · exact .bind (.pure _) noted

end Propagator

namespace Editing

variable {α : Type} {due : Fault → Prop}

@[grind ←] theorem act_failsOnly {action : Action α} (h : FailsOnly due action) :
    FailsOnly due (act action) := by
  intro editor
  refine (act_spec (h editor.machine)).mono ?_
  rintro result after ⟨-, failed⟩
  exact failed

@[grind ←] theorem store_failsOnly : FailsOnly due store :=
  .bind .get fun _ => .pure _

@[grind ←] theorem modifyStore_failsOnly (change : RuleStore → RuleStore) :
    FailsOnly due (modifyStore change) :=
  .modify _

end Editing

namespace RuleStore

theorem persist_reported (part : Part) : Reports (persist part) := by
  refine .bind Editing.store_failsOnly fun store => ?_
  have puts (part : Part) : Reports (store.storage.put part.key (part.value store.snapshot)) :=
    store.storage.put_reported part.key (readable_partValue part store.snapshot)
  cases part with
  | hosts => exact Editing.act_failsOnly (puts .hosts)
  | elementRules => exact Editing.act_failsOnly (puts .elementRules)

theorem propagate_reported (rules : RuleSet) : Reports (propagate rules) := by
  refine .bind Editing.store_failsOnly fun store => ?_
  split
  · exact .pure _
  · rename_i propagator there
    refine .bind (Editing.act_failsOnly (propagator.propagate_reported rules)) fun report => ?_
    refine .bind (Editing.modifyStore_failsOnly _) fun _ => ?_
    split
    · rename_i e failed
      refine .throw ?_
      unfold Report.fault? at failed
      split at failed
      · cases failed
      · cases failed
        rfl
    · exact .pure _

theorem republish_reported : Reports republish :=
  .bind Editing.store_failsOnly fun _ => propagate_reported _

/-- When nobody is subscribed, a change fails with its own faults only. -/
theorem commit_reported {editor : Editor} (nobody : editor.store.subscribers = []) (part : Part)
    (rules : RuleSet) :
    Ensures (commit part rules) editor fun result _ => ∀ e, result = .error e →
      isReported e = true := by
  refine commitWith_rule ((persist_spec part _).and (persist_reported part _)) ?_ ?_
  · rintro e stored ⟨-, failed⟩ _ ⟨⟩
    exact failed e rfl
  · rintro stored ⟨⟨store, -⟩, -⟩
    refine ((propagate_spec rules stored).and (propagate_reported rules stored)).mono ?_
    rintro propagated brought ⟨⟨core, -⟩, failed⟩
    have silent : brought.store.subscribers = [] := by
      have listed := congrArg RuleStore.subscribers core
      rw [store] at listed
      exact listed.trans nobody
    refine (announceAll_spec silent rules).mono ?_
    rintro _ after ⟨rfl, -⟩
    cases propagated with
    | ok report => exact nofun
    | error e =>
        rintro _ ⟨⟩
        exact failed e rfl

/-- When nobody is subscribed, an operation fails only with what the program reports. -/
theorem Call.perform_reported {editor : Editor} (nobody : editor.store.subscribers = [])
    (call : Call) {e : Fault} (failed : (call.perform editor).1 = .error e) :
    isReported e = true := by
  suffices works : Ensures call.work editor fun result _ => ∀ e, result = .error e →
      isReported e = true from works e failed
  by_cases again : call = .republish
  · subst again
    exact republish_reported.map Answer.propagated editor
  · obtain ⟨plan, planned⟩ := call.exists_plan editor.store.lowersHosts editor.store.snapshot again
    apply work_leads planned
    unfold Call.Plan.Leads
    split
    · exact fun _ _ => nofun
    · intro start noted
      have nobody' : start.store.subscribers = [] := by
        rw [noted.store]
        exact nobody
      refine (commit_reported nobody' _ _).mono ?_
      intro ended middle failed after noted'
      cases ended with
      | ok _ => exact nofun
      | error e =>
          rintro _ ⟨⟩
          exact failed e rfl

end RuleStore

end SiteFilter
