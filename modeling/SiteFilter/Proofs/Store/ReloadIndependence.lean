import SiteFilter.Proofs.Propagation.Awaiting
import SiteFilter.Proofs.Store.Runs

/-!
# What an operation gives does not depend on reloads

Two processes with the same rules and files may ask different engines to reload, one at once and the
other later. As long as nobody who is asked touches the files, every request to the stores gives the
same, and the processes differ in nothing but what was noted and asked and in what their reports say
of the reload. What they say of it is what the engine answered, whenever somebody waits for it.
-/

namespace SiteFilter

open Effect Editing

/-! ## Processes that differ in reloads -/

/--
Processes whose stores are the same but for whom they ask to reload and for what their last reports
say of it, on machines that differ in notes and requests only. Whoever is asked leaves the files
alone.
-/
structure Editor.Parallel (editor other : Editor) : Prop where
  machine : editor.machine.Parallel other.machine
  store : ∃ report propagator,
    other.store = { editor.store with lastReport := report, propagator := propagator }
  lastReport : other.store.lastReport.map Report.withoutReload =
    editor.store.lastReport.map Report.withoutReload
  propagator : other.store.propagator.map Propagator.withoutReloader =
    editor.store.propagator.map Propagator.withoutReloader
  quiet : ∀ p ∈ editor.store.propagator, p.reloader.LeavesFiles p.engine
  quiet' : ∀ p ∈ other.store.propagator, p.reloader.LeavesFiles p.engine

namespace Editor.Parallel

variable {editor other : Editor}

theorem snapshot (h : editor.Parallel other) : other.store.snapshot = editor.store.snapshot := by
  obtain ⟨report, propagator, same⟩ := h.store
  rw [same]
  rfl

theorem onMachines (h : editor.Parallel other) {machine machine' : Machine}
    (parallel : machine.Parallel machine') :
    Editor.Parallel ⟨machine, editor.store⟩ ⟨machine', other.store⟩ :=
  ⟨parallel, h.store, h.lastReport, h.propagator, h.quiet, h.quiet'⟩

theorem onStores (h : editor.Parallel other) {change : RuleStore → RuleStore}
    (spares : RuleStore.SparesSinks change) :
    Editor.Parallel ⟨editor.machine, change editor.store⟩ ⟨other.machine, change other.store⟩ := by
  obtain ⟨report, propagator, same⟩ := h.store
  obtain ⟨reports, sinks⟩ := spares.same editor.store
  obtain ⟨reports', sinks'⟩ := spares.same other.store
  refine ⟨h.machine, ⟨report, propagator, ?_⟩, ?_, ?_, ?_, ?_⟩
  · rw [same]
    exact spares _ _ _
  · rw [reports, reports']
    exact h.lastReport
  · rw [sinks, sinks']
    exact h.propagator
  · rw [sinks]
    exact h.quiet
  · rw [sinks']
    exact h.quiet'

theorem onReports (h : editor.Parallel other) {report report' : Report}
    (same : report.withoutReload = report'.withoutReload) :
    Editor.Parallel ⟨editor.machine, { editor.store with lastReport := some report }⟩
      ⟨other.machine, { other.store with lastReport := some report' }⟩ := by
  obtain ⟨last, propagator, stores⟩ := h.store
  refine ⟨h.machine, ⟨some report', propagator, ?_⟩, congrArg some same.symm, h.propagator, h.quiet,
    h.quiet'⟩
  rw [stores]

end Editor.Parallel

namespace RuleStore

theorem propagate_parallel (rules : RuleSet) :
    Respects Editor.Parallel (Option.map Report.withoutReload <$> propagate rules) := by
  intro editor other parallel
  unfold propagate
  rw [map_bind]
  apply storeThen_agree
  have sinks := parallel.propagator
  cases own : editor.store.propagator with
  | none =>
      rw [own] at sinks
      rw [Option.map_eq_none_iff.mp sinks]
      exact ⟨rfl, parallel⟩
  | some propagator =>
      rw [own] at sinks
      obtain ⟨propagator', own', same⟩ := Option.map_eq_some_iff.mp sinks
      rw [own']
      dsimp only
      rw [map_bind, map_bind]
      refine .bindUpTo Report.withoutReload ?_ ?_
      · have agree := Propagator.propagate_parallel same (parallel.quiet _ own)
          (parallel.quiet' _ own') rules parallel.machine
        rw [agree_map_iff] at agree ⊢
        rw [exec_act, exec_act]
        exact ⟨agree.1, parallel.onMachines agree.2⟩
      -- What follows on a report depends on its sinks alone: the report is kept, and told of faults.
      · intro report report' between between' alike parallel
        rw [map_bind, map_bind]
        refine .bind ⟨rfl, parallel.onReports alike⟩ ?_
        intro _ after after' parallel
        have fault : report.fault? = report'.fault? := by
          change report.withoutReload.fault? = report'.withoutReload.fault?
          rw [alike]
        rw [fault]
        split
        · exact ⟨rfl, parallel⟩
        · exact ⟨congrArg (fun report => Except.ok (some report)) alike, parallel⟩

end RuleStore

theorem Editor.Parallel.likeness : Editor.Likeness Editor.Parallel where
  store := Editor.Parallel.store
  act respects _ _ parallel :=
    act_agree (respects Machine.Parallel.likeness _ _ parallel.machine)
      fun _ _ => parallel.onMachines
  modifyStore spares _ _ parallel := ⟨rfl, parallel.onStores spares⟩
  propagate := RuleStore.propagate_parallel

/-! ## What reports say of reloads -/

/--
Who is asked always answers the same, and since a moment it is what every report comes to: the last
report is still the one of that moment, or it has a request that comes to this result.
-/
structure Editor.Reports (defers : Bool) (before : Option Report) (first : Nat)
    (result : ReloadResult) (editor : Editor) : Prop where
  mode : editor.machine.defersReloads = defers
  answers : ∀ p ∈ editor.store.propagator, p.reloader.Answers p.engine result
  gives : editor.machine.queue.Gives first result
  last : editor.store.lastReport = before ∨
    ∃ report, editor.store.lastReport = some report ∧
      report.Gives editor.machine.queue first result

section Reporting

variable {defers : Bool} {before : Option Report} {first : Nat} {result : ReloadResult}
  {editor : Editor}

theorem Editor.Reports.grown (h : editor.Reports defers before first result) {machine : Machine}
    (grows : editor.machine.queue.Grows machine.queue)
    (gives : machine.queue.Gives first result) :
    Editor.Reports defers before first result ⟨machine, editor.store⟩ := by
  refine ⟨grows.1.trans h.mode, h.answers, gives, ?_⟩
  rcases h.last with same | ⟨report, own, known⟩
  · exact .inl same
  · exact .inr ⟨report, own, known.afterwards grows⟩

/-- A propagation makes a report of which the same is known. -/
theorem RuleStore.propagate_reports (h : editor.Reports defers before first result)
    (rules : RuleSet) :
    Ensures (propagate rules) editor fun _ after => after.Reports defers before first result := by
  apply Editing.storeThen
  cases own : editor.store.propagator with
  | none => exact .pure h
  | some propagator =>
      dsimp only
      refine .bind (Editing.act_spec
        (propagator.propagate_gives (h.answers _ own) h.gives rules)) ?_ ?_
      · rintro report ⟨machine, store⟩ ⟨rfl, grows, gives, known⟩
        apply Editing.modifyStoreThen
        have reports : Editor.Reports defers before first result
            ⟨machine, { editor.store with lastReport := some report }⟩ :=
          ⟨grows.1.trans h.mode, h.answers, gives, .inr ⟨report, rfl, known report rfl⟩⟩
        split
        · exact .throw reports
        · exact .pure reports
      · rintro e ⟨machine, store⟩ ⟨rfl, grows, gives, -⟩
        exact h.grown grows gives

theorem Editor.Reports.likeness :
    Editor.Likeness fun editor other =>
      editor = other ∧ editor.Reports defers before first result where
  store := by
    rintro editor _ ⟨rfl, -⟩
    exact ⟨editor.store.lastReport, editor.store.propagator, rfl⟩
  act := by
    rintro α action respects editor _ ⟨rfl, reports⟩
    have queue := Action.keeps_queue respects editor.machine
    refine ⟨rfl, rfl, ?_⟩
    rw [exec_act]
    refine reports.grown ?_ ?_
    · rw [queue]
      exact ⟨rfl, Nat.le_refl _⟩
    · rw [queue]
      exact reports.gives
  modifyStore := by
    rintro change spares editor _ ⟨rfl, reports⟩
    obtain ⟨last, sinks⟩ := spares.same editor.store
    refine ⟨rfl, rfl, reports.mode, ?_, reports.gives, ?_⟩
    · change ∀ p ∈ (change editor.store).propagator, _
      rw [sinks]
      exact reports.answers
    · change (change editor.store).lastReport = before ∨
        ∃ report, (change editor.store).lastReport = some report ∧ _
      rw [last]
      exact reports.last
  propagate := by
    rintro rules editor _ ⟨rfl, reports⟩
    refine ⟨rfl, rfl, ?_⟩
    rw [exec_map]
    exact RuleStore.propagate_reports reports rules

end Reporting

namespace RuleStore

/-! ## Requests to a store -/

inductive Request
  | operate (call : Call)
  /-- The rules of a document in a file or at an address are added. -/
  | importFrom (env : Environment) (fetch : Text → Fetched) (name : Text)
  | load
  | subscribe (subscriber : Subscriber)
  | unsubscribe (name : Text)

def Answer.withoutReload : Answer → Answer
  | .propagated report => .propagated (report.map Report.withoutReload)
  | answer => answer

namespace Request

def work : Request → Editing Answer
  | .operate call => call.work
  | .importFrom env fetch name => .counted <$> RuleStore.importFrom env fetch name
  | .load => (fun _ => .done) <$> RuleStore.load
  | .subscribe subscriber => (fun _ => .done) <$> modifyStore (RuleStore.subscribe subscriber)
  | .unsubscribe name => (fun _ => .done) <$> modifyStore (RuleStore.unsubscribe name)

def perform (request : Request) (editor : Editor) : Except Fault Answer × Editor :=
  request.work.runOn editor

end Request

theorem Call.workUpTo_respects {alike : Editor → Editor → Prop} (h : Editor.Likeness alike)
    (call : Call) : Respects alike (Answer.withoutReload <$> call.work) := by
  cases call with
  | addHost name => exact .map _ (.map _ (addHost_respects h name))
  | removeHost name => exact .map _ (.map _ (removeHost_respects h name))
  | addElementRule rule => exact .map _ (.map _ (addElementRule_respects h rule))
  | removeElementRule rule => exact .map _ (.map _ (removeElementRule_respects h rule))
  | removeElementRuleByKey key => exact .map _ (.map _ (removeElementRuleByKey_respects h key))
  | importRules document => exact .map _ (.map _ (importRules_respects h document))
  | clearElementRules => exact .map _ (.map _ (clearElementRules_respects h))
  | republish =>
      have reports := Respects.map Answer.propagated (republishUpTo_respects h)
      unfold work
      rw [Functor.map_map] at reports ⊢
      exact reports

theorem Request.workUpTo_respects {alike : Editor → Editor → Prop} (h : Editor.Likeness alike)
    (request : Request) : Respects alike (Answer.withoutReload <$> request.work) := by
  cases request with
  | operate call => exact call.workUpTo_respects h
  | importFrom env fetch name => exact .map _ (.map _ (importFrom_respects h env fetch name))
  | load => exact .map _ (.map _ (load_respects h))
  | subscribe subscriber => exact .map _ (.map _ (h.modifyStore fun _ _ _ => rfl))
  | unsubscribe name => exact .map _ (.map _ (h.modifyStore fun _ _ _ => rfl))

theorem Request.perform_parallel {editor other : Editor} (parallel : editor.Parallel other)
    (request : Request) :
    (request.perform editor).1.map Answer.withoutReload =
        (request.perform other).1.map Answer.withoutReload ∧
      (request.perform editor).2.Parallel (request.perform other).2 :=
  agree_map_iff.mp (request.workUpTo_respects Editor.Parallel.likeness editor other parallel)

theorem Request.perform_reports {defers : Bool} {before : Option Report} {first : Nat}
    {result : ReloadResult} {editor : Editor}
    (reports : editor.Reports defers before first result) (request : Request) :
    (request.perform editor).2.Reports defers before first result := by
  have agree := request.workUpTo_respects Editor.Reports.likeness editor editor ⟨rfl, reports⟩
  exact (agree_map_iff.mp agree).2.2

/-! ## Courses -/

/-- Whether a process went on at once, or let all requests be made that waited. -/
inductive Waits : Editor → Editor → Prop
  | none (editor : Editor) : Waits editor editor
  | all (editor : Editor) :
      Waits editor ⟨((settlePending none).runOn editor.machine).2, editor.store⟩

namespace Waits

variable {editor between : Editor}

theorem store (h : Waits editor between) : between.store = editor.store := by
  cases h <;> rfl

theorem parallel (h : Waits editor between) (quiet : editor.machine.IsQuiet) :
    editor.machine.Parallel between.machine := by
  cases h with
  | none => exact .refl quiet
  | all =>
      have settles := (settlePending_spec editor.machine).2
      exact settles.parallel quiet fun task among => quiet task (List.mem_of_mem_drop among)

theorem reports {defers : Bool} {before : Option Report} {first : Nat} {result : ReloadResult}
    (h : Waits editor between) (reports : editor.Reports defers before first result) :
    between.Reports defers before first result := by
  cases h with
  | none => exact reports
  | all =>
      have settles := (settlePending_spec editor.machine).2
      exact reports.grown settles.grows (settles.gives reports.gives)

end Waits

/-- A store is asked for one thing after the other. Between them requests to reload may be made. -/
inductive Course : Editor → List Request → List (Except Fault Answer) → Editor → Prop
  | done {editor after : Editor} (waits : Waits editor after) : Course editor [] [] after
  | ask {editor between after : Editor} {request : Request} {requests : List Request}
      {results : List (Except Fault Answer)} (waits : Waits editor between)
      (rest : Course (request.perform between).2 requests results after) :
      Course editor (request :: requests) ((request.perform between).1 :: results) after

namespace Course

variable {editor other after after' : Editor} {requests : List Request}
  {results results' : List (Except Fault Answer)}

theorem parallel_of_waits (parallel : editor.Parallel other) (waits : Waits editor after)
    (waits' : Waits other after') : after.Parallel after' := by
  have first := waits.parallel parallel.machine.quiet
  have second := waits'.parallel parallel.machine.quiet'
  have machines := first.symm.trans (parallel.machine.trans second)
  have start := parallel.onMachines machines
  rw [← waits.store, ← waits'.store] at start
  exact start

/-- Two courses of the same requests give the same, whenever requests to reload were made. -/
theorem parallel (course : Course editor requests results after)
    (course' : Course other requests results' after') (start : editor.Parallel other) :
    results.map (·.map Answer.withoutReload) = results'.map (·.map Answer.withoutReload) ∧
      after.Parallel after' := by
  -- Request by request along both courses; what was made before it on either side is seen in neither.
  induction course generalizing other results' with
  | done waits =>
      cases course' with
      | done waits' => exact ⟨rfl, parallel_of_waits start waits waits'⟩
  | @ask _ _ _ request _ _ waits _ ih =>
      cases course' with
      | ask waits' rest' =>
          obtain ⟨result, step⟩ :=
            request.perform_parallel (parallel_of_waits start waits waits')
          obtain ⟨same, ends⟩ := ih rest' step
          exact ⟨congrArg₂ List.cons result same, ends⟩

theorem reports {defers : Bool} {before : Option Report} {first : Nat} {result : ReloadResult}
    (course : Course editor requests results after)
    (start : editor.Reports defers before first result) :
    after.Reports defers before first result := by
  induction course with
  | done waits => exact waits.reports start
  | @ask _ _ _ request _ _ waits _ ih => exact ih (request.perform_reports (waits.reports start))

end Course

/-! ## Independence -/

/-- A process in which somebody else is asked to reload, now or later. -/
def asking (editor : Editor) (reloader : Reloader) (defers : Bool) : Editor :=
  ⟨{ editor.machine with defersReloads := defers },
    { editor.store with
      propagator := editor.store.propagator.map fun p => { p with reloader := reloader } }⟩

section Asking

variable {editor : Editor} {reloader other : Reloader}

theorem asking_quiet (leaves : ∀ p ∈ editor.store.propagator, reloader.LeavesFiles p.engine)
    (defers : Bool) :
    ∀ p ∈ (asking editor reloader defers).store.propagator, p.reloader.LeavesFiles p.engine := by
  intro p among
  obtain ⟨own, there, rfl⟩ := Option.map_eq_some_iff.mp among
  exact leaves own there

theorem asking_parallel (leaves : ∀ p ∈ editor.store.propagator, reloader.LeavesFiles p.engine)
    (leaves' : ∀ p ∈ editor.store.propagator, other.LeavesFiles p.engine)
    (pending : editor.machine.IsQuiet) (defers defers' : Bool) :
    (asking editor reloader defers).Parallel (asking editor other defers') := by
  refine ⟨⟨rfl, rfl, rfl, pending, pending⟩, ⟨_, _, rfl⟩, rfl, ?_, asking_quiet leaves defers,
    asking_quiet leaves' defers'⟩
  unfold asking
  dsimp only
  rw [Option.map_map, Option.map_map]
  rfl

theorem asking_reports {p : Propagator} {result : ReloadResult}
    (own : p ∈ editor.store.propagator) (answers : reloader.Answers p.engine result)
    (bounded : editor.machine.outcomes.length ≤ editor.machine.tasks.length) (defers : Bool) :
    (asking editor reloader defers).Reports defers editor.store.lastReport
      editor.machine.tasks.length result := by
  refine ⟨rfl, ?_, ⟨Nat.le_refl _, bounded, ?_, ?_⟩, .inl rfl⟩
  · intro p' among
    obtain ⟨own', there, rfl⟩ := Option.map_eq_some_iff.mp among
    cases there.symm.trans own
    exact answers
  · intro place task behind there
    change editor.machine.tasks[place]? = some task at there
    rw [List.getElem?_eq_none_iff.mpr behind] at there
    cases there
  · intro place outcome behind there
    change editor.machine.outcomes[place]? = some outcome at there
    rw [List.getElem?_eq_none_iff.mpr (Nat.le_trans bounded behind)] at there
    cases there

end Asking

/-- What a report tells of its reload: what it ended in, unless none was asked for. -/
structure TellsReload (report : Report) (result : ReloadResult) (machine : Machine) : Prop where
  awaited : ((report.awaitReload false).runOn machine).1 =
    .ok (some (if report.filterListFault.isNone then some result else none))
  recorded : machine.defersReloads = false →
    report.reload = if report.filterListFault.isNone then .settled result else .unasked

theorem tellsReload_of_gives {report : Report} {result : ReloadResult} {machine : Machine}
    {first : Nat} (gives : machine.queue.Gives first result)
    (known : report.Gives machine.queue first result) : TellsReload report result machine := by
  refine ⟨known.awaitReload gives, fun now => ?_⟩
  unfold Report.Gives ReloadState.Gives at known
  rw [if_neg (show ¬ machine.queue.defers = true from by
    rw [show machine.queue.defers = false from now]
    exact Bool.false_ne_true)] at known
  split at known
  · rename_i listed
    rw [if_pos listed]
    exact known
  · rename_i listed
    rw [if_neg listed]
    exact known

/--
Where the engine that is asked always answers the same, the last report tells this answer, unless no
report was made.
-/
def Informs (editor : Editor) (reloader : Reloader) (defers : Bool) (after : Editor) : Prop :=
  ∀ p ∈ editor.store.propagator, ∀ result, reloader.Answers p.engine result →
    after.machine.defersReloads = defers ∧
      (after.store.lastReport = editor.store.lastReport ∨
        ∃ report, after.store.lastReport = some report ∧ TellsReload report result after.machine)

theorem Course.informs {editor after : Editor} {reloader : Reloader} {defers : Bool}
    {requests : List Request} {results : List (Except Fault Answer)}
    (course : Course (asking editor reloader defers) requests results after)
    (bounded : editor.machine.outcomes.length ≤ editor.machine.tasks.length) :
    Informs editor reloader defers after := by
  intro p own result answers
  have reports := course.reports (asking_reports own answers bounded defers)
  refine ⟨reports.mode, ?_⟩
  rcases reports.last with same | ⟨report, made, known⟩
  · exact .inl same
  · exact .inr ⟨report, made, tellsReload_of_gives reports.gives known⟩

/--
Whom a process asks to reload, and whether that is done at once or put off, changes nothing but what
is told of the reload, as long as nobody who is asked touches the files. Any course of requests
gives the same results, and leaves the same rules, files, refusals, reports of the sinks, writes and
notifications. Of the reload a report tells what the engine answered, be it at once or when somebody
waits; an engine that fails is told to have answered so.
-/
theorem course_independent_of_reload {editor : Editor} {reloader other : Reloader}
    {defers defers' : Bool} {requests : List Request}
    {results results' : List (Except Fault Answer)} {after after' : Editor}
    (leaves : ∀ p ∈ editor.store.propagator, reloader.LeavesFiles p.engine)
    (leaves' : ∀ p ∈ editor.store.propagator, other.LeavesFiles p.engine)
    (pending : editor.machine.IsQuiet)
    (bounded : editor.machine.outcomes.length ≤ editor.machine.tasks.length)
    (course : Course (asking editor reloader defers) requests results after)
    (course' : Course (asking editor other defers') requests results' after') :
    (results.map (·.map Answer.withoutReload) = results'.map (·.map Answer.withoutReload) ∧
      after.Parallel after') ∧
    Informs editor reloader defers after ∧ Informs editor other defers' after' ∧
    ∀ answer engine, (Reloader.custom answer).LeavesFiles engine ∧
      (Reloader.custom answer).Answers engine (Reloader.reported (answer engine)) ∧
      ∀ e, answer engine = .error e → (Reloader.reported (answer engine)).ok = false := by
  have start := asking_parallel leaves leaves' pending defers defers'
  refine ⟨course.parallel course' start, course.informs bounded, course'.informs bounded, ?_⟩
  intro answer engine
  refine ⟨Reloader.leavesFiles_custom answer engine, Reloader.answers_custom answer engine, ?_⟩
  intro e fails
  rw [fails]
  rfl

def goneEngine : Reloader :=
  .custom fun _ => .error (.failure (Text.ofString "engine gone"))

def readyEngine : Reloader :=
  .custom fun _ => .ok ⟨true, []⟩

def unloaded : Editor :=
  ⟨bareMachine, fresh ownStorage (some sharedSinks) true⟩

def blocking : Request :=
  .operate (.addHost (Text.ofString "a.com"))

/-- A process that asks a failing engine at once, and one that asks a better one later. -/
theorem course_independent_of_reload_gone :
    ∃ results results' after after',
      Course (asking unloaded goneEngine false) [.load, blocking] results after ∧
      Course (asking unloaded readyEngine true) [.load, blocking] results' after' ∧
      results.map (·.map Answer.withoutReload) = results'.map (·.map Answer.withoutReload) ∧
      after.Parallel after' ∧ Informs unloaded goneEngine false after ∧
      Informs unloaded readyEngine true after' := by
  have course : Course (asking unloaded goneEngine false) [.load, blocking] _ _ :=
    .ask (.none _) (.ask (.none _) (.done (.none _)))
  have course' : Course (asking unloaded readyEngine true) [.load, blocking] _ _ :=
    .ask (.none _) (.ask (.all _) (.done (.all _)))
  have leaves : ∀ p ∈ unloaded.store.propagator, goneEngine.LeavesFiles p.engine :=
    fun p _ => Reloader.leavesFiles_custom _ p.engine
  have leaves' : ∀ p ∈ unloaded.store.propagator, readyEngine.LeavesFiles p.engine :=
    fun p _ => Reloader.leavesFiles_custom _ p.engine
  have pending : unloaded.machine.IsQuiet := by
    intro task among
    cases among
  obtain ⟨⟨same, parallel⟩, informs, informs', -⟩ :=
    course_independent_of_reload leaves leaves' pending (Nat.le_refl _) course course'
  exact ⟨_, _, _, _, course, course', same, parallel, informs, informs'⟩

end RuleStore

end SiteFilter
