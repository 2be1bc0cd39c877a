import SiteFilter.Proofs.CommandLine.Reading
import SiteFilter.Proofs.CommandLine.Reporting
import SiteFilter.Proofs.Store.Durability
import SiteFilter.Proofs.Store.Faltering
import SiteFilter.Proofs.Store.OrderedSets
import SiteFilter.Proofs.Store.SinkConsistency

/-!
# Exit codes

What the exit code of an editing command says about the files: whether the rules that the command
makes are stored, and whether they came to the sinks.
-/

namespace SiteFilter

open FileTree Effect RuleStore

/-! ## Operations that do nothing -/

/-- A fault of the storage is told when a change could not be stored, and only then. -/
theorem RuleStore.Call.Step.retains {call : Call} {before after : Editor} {e : Fault}
    {propagator : Propagator} (step : call.Step before (.error e) after)
    (storage : e.isOfStorage = true) (ready : IsReady propagator [] before) (path : Path) :
    Retains before.machine.files after.machine.files path := by
  -- What comes to the sinks ends in a propagation error, which is no fault of the storage.
  have due {rules : RuleSet} {files later : FileTree} {propagated : Except Fault (Option Report)}
      {f : Option Report → Answer}
      (propagates : Propagates before.store.propagator rules files propagated later)
      (current : files.current = before.machine.files.current)
      (same : propagated.map f = .error e) : False := by
    rw [ready.sinks] at propagates
    cases propagated with
    | ok report => cases same
    | error e' =>
        cases same
        obtain ⟨listFault, channelFault, -, ⟨rfl, -⟩ | odd⟩ := propagates
        · cases storage
        · exact odd (ready.sinksNameable.of_current current)
  generalize ended : (Except.error e : Except Fault Answer) = result at step
  cases step with
  | idle => cases ended
  | refused planned change _ store files => exact files.retains path
  | stored planned change store encoded written propagates =>
      exact (due propagates written.current ended.symm).elim
  | republished again store propagates => exact (due propagates rfl ended.symm).elim

/-- An operation that leaves both sets as they are leaves the files alone. -/
theorem RuleStore.Call.perform_idle {call : Call} {editor : Editor}
    (nobody : editor.store.subscribers = [])
    (kept : IsKept editor.store.lowersHosts editor.store.snapshot) (mutating : call ≠ .republish)
    (same : ((OrderedSets.ofRules editor.store.snapshot).step editor.store.lowersHosts call).1 =
      .ofRules editor.store.snapshot) :
    (∃ answer, (call.perform editor).1 = .ok answer) ∧
      (call.perform editor).2.machine.files = editor.machine.files := by
  obtain ⟨plan, planned⟩ := call.exists_plan editor.store.lowersHosts editor.store.snapshot mutating
  obtain ⟨made, -⟩ := OrderedSets.agrees_plan kept planned
  have unchanged := OrderedSets.ofRules_injective (made.trans same)
  have follows : Ensures call.work editor (Follows editor plan) := work_spec nobody planned
  unfold Ensures Follows at follows
  split at follows
  · exact ⟨⟨_, follows.1⟩, follows.2.2⟩
  · rename_i part rules change
    obtain ⟨-, -, new⟩ := (isSound_plan kept planned).change part rules change
    unfold OrderedSets.planned at unchanged
    rw [change] at unchanged
    exact absurd unchanged new

namespace CommandLine

/-! ## What is known of a store that was opened -/

/--
Whether a store and its sinks stand in order: their paths are made of names, the storage stays where
it is when directories are made, the sinks are apart from each other and from the storage, and
requests to reload touch neither.
-/
structure IsOrderly (store : RuleStore) (files : FileTree) : Prop where
  nameable : files.IsNameable store.storage.directory
  steady : files.Steady store.storage.directory
  sinks : ∀ propagator ∈ store.propagator, HasSinks propagator store.storage files
  off : ∀ propagator ∈ store.propagator, KeepsOff propagator store.storage files

def Task.Holds (task : Task) (files : FileTree) (rules : RuleSet) : Prop :=
  RuleStore.read task.store.storage task.store.lowersHosts files = .ok rules

/-- The rules that a task makes: those of its store, with its operation done to the two sets. -/
def Task.Makes (task : Task) (rules : RuleSet) : Prop :=
  OrderedSets.ofRules rules =
    match task.call? with
    | none => .ofRules task.store.snapshot
    | some call => ((OrderedSets.ofRules task.store.snapshot).step task.store.lowersHosts call).1

/-- Whether there is something to write: the rules change, or they are to be propagated again. -/
def Task.Acts (task : Task) : Prop :=
  task.call? = some .republish ∨ ¬ task.Makes task.store.snapshot

structure IsOpened (store : RuleStore) (files : FileTree) (propagator : Propagator) : Prop where
  nobody : store.subscribers = []
  sinks : store.propagator = some propagator
  holds : RuleStore.read store.storage store.lowersHosts files = .ok store.snapshot

section Opened

variable {env : Environment} {fetch : Text → Fetched} {files : FileTree} {invocation : Invocation}

theorem isOpened_of_opened {store : RuleStore} (h : opened env files invocation = .ok store) :
    ∃ propagator, IsOpened store files propagator := by
  obtain ⟨settings, -, h⟩ := exists_of_bind_ok h
  obtain ⟨fresh, described, h⟩ := exists_of_bind_ok h
  obtain ⟨rules, holds, h⟩ := exists_of_bind_ok h
  cases h
  obtain ⟨propagator, started⟩ := fresh_of_ofSettings described
  refine ⟨propagator, ?_, ?_, holds⟩
  · rw [started]
    rfl
  · rw [started]
    rfl

theorem task_spec {task : Task} (h : taskOf env fetch files invocation = .ok task) :
    (∃ propagator, IsOpened task.store files propagator) ∧
      ∃ document, task.call? = invocation.command.call? document := by
  obtain ⟨store, opens, h⟩ := exists_of_bind_ok h
  obtain ⟨document, -, h⟩ := exists_of_bind_ok h
  cases h
  exact ⟨isOpened_of_opened opens, document, rfl⟩

end Opened

/-! ## What exit codes say -/

/-- The propagation of rules fails, behind nothing but that the rules are stored. -/
def Task.Stalls (task : Task) (propagator : Propagator) (rules : RuleSet)
    (files after : FileTree) : Prop :=
  ∃ machine : Machine, machine.refusals = [] ∧
    RuleStore.Stalls task.store.storage propagator rules files machine after

/-- Nothing is changed but for directories, and storage holds the rules that it held. -/
def IsUntouched (task? : Except Fault Task) (files after : FileTree) : Prop :=
  (∀ path, Retains files after path) ∧ ∀ task, task? = .ok task → task.Holds after task.store.snapshot

/-- The rules are stored, and the sinks hold them if they are new or propagated again. -/
def IsAccomplished (task? : Except Fault Task) (command : Command) (after : FileTree) : Prop :=
  ∃ task rules propagator, task? = .ok task ∧ task.Makes rules ∧ task.Holds after rules ∧
    task.store.propagator = some propagator ∧
      (rules ≠ task.store.snapshot ∨ command = .reload → AreImages propagator after rules)

/-- The exit code of an editing command tells the truth about the files before and after it. -/
structure TellsTruth (outlets : Outlets) (task? : Except Fault Task) (command : Command)
    (files : FileTree) (code : Nat) (after : FileTree) : Prop where
  /-- A command that is done is refused behind that when an outlet does not take what it says. -/
  refused : code = exitRefused → IsUntouched task? files after ∨
    outlets.Refuse ∧ IsAccomplished task? command after
  /-- The rules are stored, and a sink could not be written. -/
  partly : code = exitPartly → ∃ task rules propagator, task? = .ok task ∧ task.Makes rules ∧
    task.Holds after rules ∧ task.store.propagator = some propagator ∧
      task.Stalls propagator rules files after
  done : code = exitDone → IsAccomplished task? command after

/-- A run ends with one of the exit codes, and what it says is true. -/
def ExitsTruly (outlets : Outlets) (task? : Except Fault Task) (command : Command)
    (files : FileTree) (ending : Ending) (after : FileTree) : Prop :=
  ∃ code, code ∈ [exitDone, exitPartly, exitRefused] ∧ ending = .exit code ∧
    TellsTruth outlets task? command files code after

structure EndsTruly (outlets : Outlets) (task? : Except Fault Task) (command : Command)
    (files : FileTree) (ending : Ending) (after : FileTree) : Prop where
  /-- A fault of reading that is not reported ends the program, before anything is changed. -/
  unreported : ∀ e, task? = .error e → isReported e = false → ending = .broken e ∧ after = files
  /-- No other fault does, unless an outlet does not take what the program says. -/
  broken : ∀ e, ending = .broken e → task? = .error e ∧ isReported e = false ∨
    outlets.Refuse ∧ ∃ failure, e = .unprinted failure
  parsed : ∀ refusal, ending ≠ .refused refusal
  exits : ∀ code, ending = .exit code → code ∈ [exitDone, exitPartly, exitRefused] ∧
    ((∀ task, task? = .ok task → task.Acts → IsOrderly task.store files) →
      TellsTruth outlets task? command files code after)

section Truth

variable {outlets : Outlets} {task : Task} {command : Command} {files after : FileTree}
  {propagator : Propagator}

theorem exitsTruly_refused {task? : Except Fault Task} {ending : Ending}
    (ends : ending = .exit exitRefused) (untouched : IsUntouched task? files after) :
    ExitsTruly outlets task? command files ending after :=
  ⟨exitRefused, by simp, ends, fun _ => .inl untouched, nofun, nofun⟩

theorem exitsTruly_unprinted {task? : Except Fault Task} {ending : Ending}
    (ends : ending = .exit exitRefused) (refuse : outlets.Refuse)
    (accomplished : IsAccomplished task? command after) :
    ExitsTruly outlets task? command files ending after :=
  ⟨exitRefused, by simp, ends, fun _ => .inr ⟨refuse, accomplished⟩, nofun, nofun⟩

theorem exitsTruly_partly {ending : Ending} {rules : RuleSet} (ends : ending = .exit exitPartly)
    (opened : IsOpened task.store files propagator) (makes : task.Makes rules)
    (holds : task.Holds after rules) (stalls : task.Stalls propagator rules files after) :
    ExitsTruly outlets (.ok task) command files ending after :=
  ⟨exitPartly, by simp, ends, nofun,
    fun _ => ⟨task, rules, propagator, rfl, makes, holds, opened.sinks, stalls⟩, nofun⟩

theorem exitsTruly_done {task? : Except Fault Task} {ending : Ending}
    (ends : ending = .exit exitDone) (accomplished : IsAccomplished task? command after) :
    ExitsTruly outlets task? command files ending after :=
  ⟨exitDone, by simp, ends, nofun, nofun, fun _ => accomplished⟩

theorem endingOf_refused {e : Fault} (reported : isReported e = true)
    (other : ∀ listFault channelFault, e ≠ .notPropagated listFault channelFault) :
    endingOf (.error e) = .exit exitRefused := by
  rw [endingOf_error other, if_pos reported]

/-- Without a fault that is not reported there is an exit code. -/
theorem exists_exit {result : Except Fault Nat}
    (told : ∀ code, result = .ok code → code = exitDone ∨ code = exitRefused)
    (reported : ∀ e, result = .error e → isReported e = true) :
    ∃ code ∈ [exitDone, exitPartly, exitRefused], endingOf result = .exit code := by
  cases result with
  | ok code =>
      refine ⟨code, ?_, rfl⟩
      rcases told code rfl with rfl | rfl <;> simp
  | error e =>
      by_cases partly : ∃ listFault channelFault, e = .notPropagated listFault channelFault
      · obtain ⟨listFault, channelFault, rfl⟩ := partly
        exact ⟨exitPartly, by simp, rfl⟩
      · refine ⟨exitRefused, by simp, endingOf_refused (reported e rfl) ?_⟩
        exact fun listFault channelFault same => partly ⟨listFault, channelFault, same⟩

/-- A task ends with an exit code, whatever the places are that its store is for. -/
theorem Task.Ends.exists_exit {result : Except Fault Nat} {machine later : Machine}
    (h : task.Ends outlets machine result later) (nobody : task.store.subscribers = []) :
    ∃ code ∈ [exitDone, exitPartly, exitRefused], endingOf result = .exit code := by
  unfold Task.Ends at h
  split at h
  · obtain ⟨rfl | rfl | ⟨-, failure, rfl⟩, -⟩ := h
    · exact ⟨exitDone, by simp, rfl⟩
    · exact ⟨exitRefused, by simp, rfl⟩
    · exact ⟨exitRefused, by simp, rfl⟩
  · rename_i call _
    obtain ⟨editor, store, -, told | ⟨-, -, failure, rfl⟩, -⟩ := h
    · rw [← store] at nobody
      rw [told]
      cases ended : (call.perform editor).1 with
      | ok answer => exact ⟨exitDone, by simp, rfl⟩
      | error e =>
          refine CommandLine.exists_exit nofun ?_
          rintro _ ⟨⟩
          exact call.perform_reported nobody ended
    · exact ⟨exitRefused, by simp, rfl⟩

/-- An operation of a task begins: its store was opened, stands in order, and is still the same. -/
structure Begins (task : Task) (propagator : Propagator) (files : FileTree) (editor : Editor) :
    Prop where
  opened : IsOpened task.store files propagator
  orderly : IsOrderly task.store files
  closed : files.Closed
  store : editor.store = task.store
  files : editor.machine.files = files

section Operations

variable {call : Call} {editor : Editor} (begins : Begins task propagator files editor)

include begins

namespace Begins

theorem there : editor.store.propagator = some propagator := by
  rw [begins.store]
  exact begins.opened.sinks

theorem nameable : editor.machine.files.IsNameable editor.store.storage.directory := by
  rw [begins.store, begins.files]
  exact begins.orderly.nameable

theorem sinks : HasSinks propagator editor.store.storage editor.machine.files := by
  rw [begins.store, begins.files]
  exact begins.orderly.sinks propagator begins.opened.sinks

theorem off :
    ∀ p ∈ editor.store.propagator, KeepsOff p editor.store.storage editor.machine.files := by
  rw [begins.store, begins.files]
  exact begins.orderly.off

theorem durable : Durable editor editor := by
  have kept := isKept_of_read begins.opened.holds
  have nobody := begins.opened.nobody
  rw [← begins.store] at kept nobody
  refine ⟨⟨rfl, rfl, rfl, nobody, rfl, kept⟩, ?_⟩
  rw [begins.store, begins.files]
  exact stores_of_read begins.closed begins.orderly.nameable.1 begins.orderly.steady
    begins.opened.holds

theorem ready : IsReady propagator [] editor :=
  ⟨begins.durable.nobody, begins.there, begins.nameable, begins.sinks.nameable⟩

theorem step (call : Call) : call.Step editor (call.perform editor).1 (call.perform editor).2 :=
  begins.durable.step begins.nameable call

/-- However an operation ends, storage holds the rules that the store then has. -/
theorem holds (call : Call) :
    task.Holds (call.perform editor).2.machine.files (call.perform editor).2.store.snapshot := by
  have stored := read_of_stores (begins.durable.perform begins.nameable begins.off call).stored
  rw [begins.store] at stored
  exact stored

theorem allows (call : Call) :
    (OrderedSets.ofRules task.store.snapshot).Allows task.store.lowersHosts call
      (call.perform editor).1 (.ofRules (call.perform editor).2.store.snapshot) := by
  rw [← begins.store]
  refine OrderedSets.allows_step (begins.step call) rfl begins.durable.isKept ?_
  intro p inside
  rw [begins.there] at inside
  cases inside
  exact begins.sinks.nameable

end Begins

theorem isAccomplished_of_ok {answer : Answer} (asked : task.call? = some call)
    (again : command = .reload → call = .republish)
    (ended : (call.perform editor).1 = .ok answer) :
    IsAccomplished (.ok task) command (call.perform editor).2.machine.files := by
  have allows := begins.allows call
  have leaves := (begins.step call).leaves begins.there begins.durable.isKept begins.sinks
  rw [ended] at allows leaves
  have makes : task.Makes (call.perform editor).2.store.snapshot := by
    unfold Task.Makes
    rw [asked]
    exact allows.1
  refine ⟨task, _, propagator, rfl, makes, begins.holds call, begins.opened.sinks, ?_⟩
  intro effective
  apply leaves
  rcases effective with new | reload
  · rw [begins.store]
    exact .inr new
  · exact .inl (again reload)

theorem exitsTruly_error {e : Fault} (asked : task.call? = some call)
    (unrefused : editor.machine.refusals = [])
    (ended : (call.perform editor).1 = .error e) :
    ExitsTruly outlets (.ok task) command files (endingOf (.error e))
      (call.perform editor).2.machine.files := by
  have allows := begins.allows call
  have holds := begins.holds call
  rw [ended] at allows
  rcases allows with ⟨storage, unchanged⟩ | ⟨⟨listFault, channelFault, rfl⟩, made⟩
  · have nobody := begins.opened.nobody
    rw [← begins.store] at nobody
    have refused : endingOf (.error e) = .exit exitRefused := by
      refine endingOf_refused (call.perform_reported nobody ended) ?_
      rintro _ _ rfl
      cases storage
    refine exitsTruly_refused refused ⟨?_, ?_⟩
    · intro path
      have step := begins.step call
      rw [ended] at step
      rw [← begins.files]
      exact step.retains storage begins.ready path
    · intro same found
      cases found
      rw [OrderedSets.ofRules_injective unchanged] at holds
      exact holds
  · have makes : task.Makes (call.perform editor).2.store.snapshot := by
      unfold Task.Makes
      rw [asked]
      exact made
    obtain ⟨machine, refusals, stalls⟩ :=
      call.perform_isGrounded begins.ready listFault channelFault ended
    rw [begins.files, begins.store] at stalls
    exact exitsTruly_partly rfl begins.opened makes holds ⟨machine, refusals unrefused, stalls⟩

theorem exitsTruly_operation {result : Except Fault Nat} (asked : task.call? = some call)
    (again : command = .reload → call = .republish)
    (unrefused : editor.machine.refusals = [])
    (told : result = (call.perform editor).1.map (fun _ => exitDone) ∨
      (call.perform editor).1.isOk = true ∧ Session.IsUnprinted outlets result) :
    ExitsTruly outlets (.ok task) command files (endingOf result)
      (call.perform editor).2.machine.files := by
  cases ended : (call.perform editor).1 with
  | ok answer =>
      have accomplished := isAccomplished_of_ok begins asked again ended
      rw [ended] at told
      rcases told with rfl | ⟨-, refuse, failure, rfl⟩
      · exact exitsTruly_done rfl accomplished
      · exact exitsTruly_unprinted rfl refuse accomplished
  | error e =>
      rw [ended] at told
      rcases told with rfl | ⟨⟨⟩, -⟩
      exact exitsTruly_error begins asked unrefused ended

end Operations

theorem exitsTruly_task {result : Except Fault Nat} {machine : Machine}
    (opened : IsOpened task.store files propagator) (closed : files.Closed)
    (orderly : task.Acts → IsOrderly task.store files)
    (again : command = .reload → task.call? = some .republish)
    (ends : task.Ends outlets (Machine.start files) result machine) :
    ExitsTruly outlets (.ok task) command files (endingOf result) machine.files := by
  -- Without an operation, or with an idle one, storage holds what it held.
  have idle (same : machine.files = files) : task.Holds machine.files task.store.snapshot := by
    rw [same]
    exact opened.holds
  have untouched (same : machine.files = files) :
      IsUntouched (.ok task) files machine.files := by
    refine ⟨fun path => .of_eq same, ?_⟩
    rintro _ ⟨⟩
    exact idle same
  have accomplished (makes : task.Makes task.store.snapshot)
      (alone : task.call? ≠ some .republish) (same : machine.files = files) :
      IsAccomplished (.ok task) command machine.files := by
    refine ⟨task, _, propagator, rfl, makes, idle same, opened.sinks, ?_⟩
    rintro (new | reload)
    · exact absurd rfl new
    · exact absurd (again reload) alone
  unfold Task.Ends at ends
  split at ends
  · rename_i none
    obtain ⟨told, same⟩ := ends
    have makes : task.Makes task.store.snapshot := by
      unfold Task.Makes
      rw [none]
    rcases told with rfl | rfl | ⟨-, failure, rfl⟩
    · exact exitsTruly_done rfl (accomplished makes (by rw [none]; nofun) same)
    · exact exitsTruly_refused rfl (untouched same)
    · exact exitsTruly_refused rfl (untouched same)
  · rename_i call asked
    obtain ⟨editor, store, ⟨journal, machine'⟩, told, rfl⟩ := ends
    have files' : editor.machine.files = files := by
      rw [machine']
      rfl
    by_cases acts : task.Acts
    · refine exitsTruly_operation ⟨opened, orderly acts, closed, store, files'⟩ asked ?_ ?_ told
      · intro reload
        rw [asked] at again
        exact Option.some.inj (again reload)
      · rw [machine']
        rfl
    · obtain ⟨mutating, makes⟩ := not_or.mp acts
      rw [not_not] at makes
      have nobody := opened.nobody
      have kept := isKept_of_read opened.holds
      have alone := makes
      unfold Task.Makes at alone
      rw [asked] at alone
      rw [← store] at nobody kept alone
      obtain ⟨⟨answer, ended⟩, same⟩ := call.perform_idle nobody kept
        (fun again => mutating (asked.trans (congrArg some again))) alone.symm
      rw [ended] at told
      rcases told with rfl | ⟨-, -, failure, rfl⟩
      · exact exitsTruly_done rfl (accomplished makes mutating (same.trans files'))
      · exact exitsTruly_refused rfl (untouched (same.trans files'))

/-- A fault of reading that is not reported ends the program. -/
theorem EndsTruly.of_unreported {e : Fault} (unreported : isReported e = false)
    (unchanged : after = files) :
    EndsTruly outlets (.error e) command files (.broken e) after where
  unreported := by
    rintro _ ⟨⟩ -
    exact ⟨rfl, unchanged⟩
  broken := by
    rintro _ ⟨⟩
    exact .inl ⟨rfl, unreported⟩
  parsed := nofun
  exits := nofun

/-- What ends with an exit code can only be kept from it by an outlet. -/
theorem EndsTruly.of_exits {task? : Except Fault Task} {ending : Ending} {code : Nat}
    (reported : ∀ e, task? = .error e → isReported e = true)
    (ends : ending = .exit code ∨ (∃ code', Ending.exit code = .exit code') ∧ outlets.Refuse ∧
      ∃ failure, ending = .broken (.unprinted failure))
    (known : code ∈ [exitDone, exitPartly, exitRefused])
    (truth : (∀ task, task? = .ok task → task.Acts → IsOrderly task.store files) →
      ExitsTruly outlets task? command files (.exit code) after) :
    EndsTruly outlets task? command files ending after where
  unreported := by
    intro e failed unreported
    rw [reported e failed] at unreported
    cases unreported
  broken := by
    rcases ends with rfl | ⟨-, refuse, failure, rfl⟩
    · exact nofun
    · rintro _ ⟨⟩
      exact .inr ⟨refuse, failure, rfl⟩
  parsed := by
    rcases ends with rfl | ⟨-, -, failure, rfl⟩ <;> exact nofun
  exits := by
    rcases ends with rfl | ⟨-, -, failure, rfl⟩
    · rintro _ ⟨⟩
      refine ⟨known, fun orderly => ?_⟩
      obtain ⟨_, -, ⟨⟩, tells⟩ := truth orderly
      exact tells
    · exact nofun

end Truth

section Runs

variable {env : Environment} {fetch : Text → Fetched} {files : FileTree} {requests : List Bytes}
  {arguments : List Text} {invocation : Invocation}

/--
Every editing command that the arguments spell ends with exit code 0, 1 or 2 that tells the truth
where everything stands in order, unless it meets a fault in reading that is not reported, or an
outlet does not take what is said.
-/
theorem exit_code_truthful (accepted : Invocation.read arguments = .ok invocation)
    (editing : invocation.command.edits = true) (closed : files.Closed) :
    EndsTruly env.outlets (taskOf env fetch files invocation) invocation.command files
      (run env files fetch requests arguments).ending
      (run env files fetch requests arguments).files := by
  obtain ⟨result, machine, performs, ends, same⟩ := run_spec accepted editing
  generalize (run env files fetch requests arguments).ending = ending at ends
  rw [same]
  have reading := isOfReading_taskOf env fetch files invocation
  cases read : taskOf env fetch files invocation with
  | error e =>
      rw [read] at performs reading
      obtain ⟨rfl, unchanged⟩ := performs
      have other : ∀ listFault channelFault, e ≠ .notPropagated listFault channelFault := by
        rintro listFault channelFault rfl
        exact reading listFault channelFault rfl
      have untouched : IsUntouched (.error e) files machine.files :=
        ⟨fun path => .of_eq unchanged, nofun⟩
      rw [EndsAs, endingOf_error other] at ends
      cases reported : isReported e with
      | true =>
          rw [reported, if_pos rfl] at ends
          refine .of_exits ?_ ends (by simp) fun _ => exitsTruly_refused rfl untouched
          rintro _ ⟨⟩
          exact reported
      | false =>
          rw [reported, if_neg Bool.false_ne_true] at ends
          rcases ends with rfl | ⟨⟨code, ⟨⟩⟩, -⟩
          exact .of_unreported reported unchanged
  | ok task =>
      rw [read] at performs
      obtain ⟨⟨propagator, opened⟩, document, asked⟩ := task_spec read
      have again : invocation.command = .reload → task.call? = some .republish := by
        intro reload
        rw [asked, reload]
        rfl
      obtain ⟨code, known, exits⟩ := performs.exists_exit opened.nobody
      rw [EndsAs, exits] at ends
      refine .of_exits nofun ends known fun orderly => ?_
      rw [← exits]
      exact exitsTruly_task opened closed (orderly task rfl) again performs

end Runs

/-! ## Runs that block a host -/

def blockWords (name : String) : List Text :=
  ["--config", "/config.json", "--data-dir", "/data", "add-host", name].map Text.ofString

def blockRun (outlets : Outlets) (name : String) (files : FileTree) : Ran :=
  run { bareEnvironment with outlets := outlets } files offline [] (blockWords name)

def blockTask (files : FileTree) (invocation : Invocation) : Except Fault Task :=
  taskOf bareEnvironment offline files invocation

def passes (files : FileTree) (test : Task → Bool) : Bool :=
  match Invocation.read (blockWords "a.com") with
  | .error _ => false
  | .ok invocation =>
      invocation.command.edits &&
        match blockTask files invocation with
        | .error _ => false
        | .ok task => test task

theorem exists_of_passes {files : FileTree} {test : Task → Bool} (h : passes files test = true) :
    ∃ invocation task, Invocation.read (blockWords "a.com") = .ok invocation ∧
      invocation.command.edits = true ∧ blockTask files invocation = .ok task ∧
        test task = true := by
  unfold passes at h
  cases accepted : Invocation.read (blockWords "a.com") with
  | error refusal =>
      rw [accepted] at h
      cases h
  | ok invocation =>
      rw [accepted] at h
      obtain ⟨editing, h⟩ := (Bool.and_eq_true _ _).mp h
      cases read : blockTask files invocation with
      | error e =>
          rw [read] at h
          cases h
      | ok task =>
          rw [read] at h
          exact ⟨invocation, task, rfl, editing, read, h⟩

def exitsWith (code : Nat) : Ending → Bool
  | .exit code' => code' == code
  | _ => false

theorem exit_of_exitsWith {code : Nat} {ending : Ending} (h : exitsWith code ending = true) :
    ending = .exit code := by
  cases ending with
  | exit code' => exact congrArg Ending.exit (beq_iff_eq.mp h)
  | broken e => cases h
  | refused refusal => cases h

/-- A storage and two sinks that are apart, in `/data`. -/
def blockStorage : KeyedStorage :=
  ⟨⟨1, ["data", "defaults"].map Text.ofString⟩, .usual⟩

def blockList : Path :=
  ⟨1, ["data", "groups", "group.exactblock", "blockerList.json"].map Text.ofString⟩

def blockChannel : KeyedStorage :=
  ⟨⟨1, ["data", "groups", "group.exactblock", "defaults"].map Text.ofString⟩, .usual⟩

def standsThere (task : Task) : Bool :=
  decide (task.store.storage = blockStorage) &&
    match task.store.propagator with
    | some ⟨list, channel, _, .none⟩ => decide (list = blockList ∧ channel = blockChannel)
    | _ => false

theorem isOrderly_of_standsThere {task : Task} (h : standsThere task = true) :
    IsOrderly task.store bareMachine.files := by
  unfold standsThere at h
  obtain ⟨storage, sinks⟩ := (Bool.and_eq_true _ _).mp h
  rw [decide_eq_true_eq] at storage
  have there : ∀ propagator ∈ task.store.propagator, propagator.filterListPath = blockList ∧
      propagator.channel = blockChannel ∧ propagator.reloader = .none := by
    split at sinks
    · rename_i list channel engine some
      obtain ⟨rfl, rfl⟩ := of_decide_eq_true sinks
      rw [some]
      rintro _ ⟨⟩
      exact ⟨rfl, rfl, rfl⟩
    · cases sinks
  constructor
  · rw [storage]
    decide
  · rw [storage]
    exact steadyFrom_of_plain (by decide) _
  · intro propagator inside
    obtain ⟨list, channel, reloader⟩ := there propagator inside
    refine ⟨⟨?_, ?_⟩, ⟨?_, ?_⟩, ?_⟩
    · rw [list]
      decide
    · rw [channel]
      decide
    · unfold Propagator.payloadPath
      rw [list, channel]
      decide
    · rw [reloader]
      exact fun _ _ _ _ => Reloader.leavesAlone_none _ _
    · unfold Propagator.payloadPath
      rw [list, channel, storage]
      intro part
      cases part <;> decide
  · intro propagator inside
    obtain ⟨list, channel, reloader⟩ := there propagator inside
    constructor
    · unfold Propagator.payloadPath
      rw [list, channel, storage]
      intro part
      cases part <;> decide
    · rw [reloader]
      exact fun _ _ _ => Reloader.leavesAlone_none _ _

/-- A new installation in which a host is blocked. -/
theorem exit_code_truthful_new :
    ∃ invocation, Invocation.read (blockWords "a.com") = .ok invocation ∧
      (blockRun .open "a.com" bareMachine.files).ending = .exit exitDone ∧
      EndsTruly .open (blockTask bareMachine.files invocation) invocation.command bareMachine.files
        (blockRun .open "a.com" bareMachine.files).ending
        (blockRun .open "a.com" bareMachine.files).files ∧
      IsAccomplished (blockTask bareMachine.files invocation) invocation.command
        (blockRun .open "a.com" bareMachine.files).files := by
  have checked : passes bareMachine.files standsThere = true := by
    decide +kernel
  have done : exitsWith exitDone (blockRun .open "a.com" bareMachine.files).ending = true := by
    decide +kernel
  obtain ⟨invocation, task, accepted, editing, read, stands⟩ := exists_of_passes checked
  have closed : bareMachine.files.Closed := by
    intro route there
    cases route with
    | nil => rfl
    | cons name names => exact absurd rfl there
  have truthful : EndsTruly .open (blockTask bareMachine.files invocation) invocation.command
      bareMachine.files (blockRun .open "a.com" bareMachine.files).ending
      (blockRun .open "a.com" bareMachine.files).files :=
    @exit_code_truthful bareEnvironment offline bareMachine.files [] _ _ accepted editing closed
  have ends := exit_of_exitsWith done
  refine ⟨invocation, accepted, ends, truthful, ((truthful.exits _ ends).2 ?_).done rfl⟩
  intro task' same _
  cases read.symm.trans same
  exact isOrderly_of_standsThere stands

/-- Settings in the place where a command that blocks a host looks for them. -/
def configuredFiles (settings : String) : FileTree :=
  ⟨[([Text.ofString "config.json"], .file (Utf8.encodeAny (Text.ofString settings)))], []⟩

/-- Settings that put the filter list in the place of the stored hosts. -/
def misledFiles : FileTree :=
  configuredFiles "\x7b\"filter_list_name\": \"../../defaults/Hosts.json\"\x7d"

def asciiOutlets : Outlets where
  output _ next :=
    if next.all (·.val < 0x80) then none
    else some (.encoding (Text.ofString "ordinal not in range(128)"))
  errors _ _ := none

def faultLabel? : Ending → Option String
  | .broken e => some e.label
  | _ => none

def storedNames (files : FileTree) : Option (List Text) :=
  match RuleStore.read blockStorage true files with
  | .ok rules => some (rules.hosts.map (·.hostname))
  | .error _ => none

instance (task : Task) (rules : RuleSet) : Decidable (task.Makes rules) :=
  inferInstanceAs (Decidable (_ = _))

def misses (files : FileTree) (task : Task) : Bool :=
  match RuleStore.read task.store.storage task.store.lowersHosts files with
  | .ok rules => !decide (task.Makes rules)
  | .error _ => true

/--
Settings that are no object end the program with a fault of their kind. A host that is stored is
told to be refused when its name cannot be printed. And where the filter list is written into the
stored hosts, a host is told to be blocked and the rules that the command makes are not stored.
-/
theorem exit_code_fails :
    faultLabel? (blockRun .open "a.com" (configuredFiles "[1]")).ending = some "AttributeError" ∧
    (storedNames bareMachine.files = some [] ∧
      (blockRun asciiOutlets "é.com" bareMachine.files).ending = .exit exitRefused ∧
      storedNames (blockRun asciiOutlets "é.com" bareMachine.files).files =
        some [Text.ofString "é.com"]) ∧
    ∃ invocation, Invocation.read (blockWords "a.com") = .ok invocation ∧
      invocation.command.edits = true ∧ (∃ task, blockTask misledFiles invocation = .ok task) ∧
      (blockRun .open "a.com" misledFiles).ending = .exit exitDone ∧
      ¬ IsAccomplished (blockTask misledFiles invocation) invocation.command
        (blockRun .open "a.com" misledFiles).files := by
  refine ⟨by decide +kernel, ⟨by decide +kernel, exit_of_exitsWith (by decide +kernel),
    by decide +kernel⟩, ?_⟩
  have checked : passes misledFiles (misses (blockRun .open "a.com" misledFiles).files) = true := by
    decide +kernel
  have done : exitsWith exitDone (blockRun .open "a.com" misledFiles).ending = true := by
    decide +kernel
  obtain ⟨invocation, task, accepted, editing, read, missed⟩ := exists_of_passes checked
  refine ⟨invocation, accepted, editing, ⟨task, read⟩, exit_of_exitsWith done, ?_⟩
  rintro ⟨task', rules, propagator, same, makes, holds, -⟩
  cases read.symm.trans same
  unfold Task.Holds at holds
  unfold misses at missed
  rw [holds] at missed
  exact absurd makes (by simpa using missed)

end CommandLine

end SiteFilter
