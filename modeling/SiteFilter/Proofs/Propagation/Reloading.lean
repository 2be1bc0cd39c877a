import SiteFilter.Proofs.Journal
import SiteFilter.Proofs.Likeness

/-!
# Reloads are seen nowhere else

A propagation asks for a reload last, at once or later. As long as requests leave the files alone,
two propagations that differ in whom they ask, and when, write the same and report the same of the
sinks.
-/

namespace SiteFilter

open Effect

/-! ## Machines that differ in requests -/

namespace Machine

/-- What was done to files and to subscribers, from the first to the latest. -/
def outward (machine : Machine) : List Event :=
  machine.deeds.filter fun event => !event.isRequest

theorem outward_cons (machine : Machine) (event : Event) :
    ({ machine with journal := event :: machine.journal } : Machine).outward =
      machine.outward ++ if event.isNote || event.isRequest then [] else [event] := by
  unfold outward
  rw [deeds_cons, List.filter_append]
  cases event <;> rfl

end Machine

def ReloadTask.LeavesFiles (task : ReloadTask) : Prop :=
  task.reloader.LeavesFiles task.engine

namespace Machine

def IsQuiet (machine : Machine) : Prop :=
  ∀ task ∈ machine.tasks, task.LeavesFiles

/--
Machines with the same files and the same refusals ahead, on which the same was done to files and
subscribers. What they differ in are notes and requests; those that wait will leave the files alone.
-/
structure Parallel (machine other : Machine) : Prop where
  files : other.files = machine.files
  refusals : other.refusals = machine.refusals
  outward : other.outward = machine.outward
  quiet : machine.IsQuiet
  quiet' : other.IsQuiet

namespace Parallel

variable {machine middle other : Machine}

theorem refl (quiet : machine.IsQuiet) : machine.Parallel machine :=
  ⟨rfl, rfl, rfl, quiet, quiet⟩

theorem symm (h : machine.Parallel other) : other.Parallel machine :=
  ⟨h.files.symm, h.refusals.symm, h.outward.symm, h.quiet', h.quiet⟩

theorem trans (h : machine.Parallel middle) (h' : middle.Parallel other) :
    machine.Parallel other :=
  ⟨h'.files.trans h.files, h'.refusals.trans h.refusals, h'.outward.trans h.outward, h.quiet,
    h'.quiet'⟩

theorem likeness : Machine.Likeness Machine.Parallel where
  files := files
  refusals := refusals
  onFiles _ h := ⟨rfl, h.refusals, h.outward, h.quiet, h.quiet'⟩
  onRefusals _ h := ⟨h.files, rfl, h.outward, h.quiet, h.quiet'⟩
  record {machine other} event h := by
    refine ⟨h.files, h.refusals, ?_, h.quiet, h.quiet'⟩
    rw [outward_cons, outward_cons, h.outward]

end Parallel

/-- Where nothing but requests came, and the files are as before. -/
theorem Does.parallel {machine after : Machine} {deeds : List Event} {tasks : List ReloadTask}
    (h : machine.Does deeds tasks after) (requests : ∀ event ∈ deeds, event.isRequest = true)
    (files : after.files = machine.files) (quiet : machine.IsQuiet)
    (late : ∀ task ∈ tasks, task.LeavesFiles) : machine.Parallel after := by
  refine ⟨files, ?_, ?_, quiet, ?_⟩
  · have writes : deeds.countP Event.isWrite = 0 := by
      rw [List.countP_eq_zero]
      intro event among
      have request := requests event among
      cases event with
      | asking engine => exact Bool.false_ne_true
      | _ => cases request
    rw [h.refusals_eq, writes, List.drop_zero]
  · have none : (deeds.filter fun event => !event.isRequest) = [] := by
      rw [List.filter_eq_nil_iff]
      intro event among
      rw [requests event among]
      exact Bool.false_ne_true
    unfold outward
    rw [h.deeds_eq, List.filter_append, none, List.append_nil]
  · unfold IsQuiet
    rw [h.tasks_eq]
    intro task among
    rcases List.mem_append.mp among with there | new
    · exact quiet task there
    · exact late task new

end Machine

/-! ## Requests -/

namespace Reloader

variable {reloader : Reloader} {engine : Json} {machine : Machine}

theorem ask_parallel (leaves : reloader.LeavesFiles engine)
    (quiet : machine.IsQuiet) :
    Ensures (reloader.ask engine) machine fun result after =>
      (∃ r, result = .ok r) ∧ machine.Parallel after := by
  have files : Ensures (reloader.ask engine) machine fun _ after =>
      after.files = machine.files := leaves machine
  refine ((ask_does reloader engine machine).and files).mono ?_
  rintro result after ⟨⟨ended, does⟩, same⟩
  refine ⟨ended, does.parallel ?_ same quiet ?_⟩
  · intro event among
    rw [List.mem_singleton.mp among]
    rfl
  · exact fun _ => nofun

end Reloader

namespace Propagator

variable {propagator : Propagator} {machine : Machine}

theorem noteReload_noted (engine : Json) (result : ReloadResult) (machine : Machine) :
    Ensures (noteReload engine result) machine fun told after =>
      told = .ok () ∧ machine.Does [] [] after ∧ machine.Alike after := by
  unfold noteReload
  split
  all_goals
    refine ((Action.note_spec _ _ _ machine).and (Action.note_does _ _ _ machine)).mono ?_
    rintro told after ⟨⟨done, alike⟩, -, does⟩
    exact ⟨done, does, alike⟩

theorem signalReload_parallel (leaves : propagator.reloader.LeavesFiles propagator.engine)
    (quiet : machine.IsQuiet) :
    Ensures propagator.signalReload machine fun result after =>
      (∃ state, result = .ok state) ∧ machine.Parallel after := by
  have files : Ensures propagator.signalReload machine fun _ after =>
      after.files = machine.files := by
    apply Ensures.getThen
    split
    · exact Ensures.setThen (.pure rfl)
    · have asks : Ensures (propagator.reloader.ask propagator.engine) machine fun _ after =>
          after.files = machine.files := leaves machine
      refine .bind asks ?_ ?_
      · intro result asked same
        refine .bindOk (noteReload_noted _ result asked) ?_
        rintro noted ⟨-, alike⟩
        exact .pure (alike.files.trans same)
      · exact fun _ _ same => same
  refine ((signalReload_does propagator machine).and files).mono ?_
  rintro result after ⟨⟨ended, does⟩, same⟩
  refine ⟨ended, does.parallel ?_ same quiet ?_⟩
  · intro event among
    unfold requests at among
    split at among
    · rw [List.mem_singleton.mp among]
      rfl
    · cases among
  · intro task among
    unfold requestsLater at among
    split at among
    · rw [List.mem_singleton.mp among]
      exact leaves
    · cases among

def withoutReloader (propagator : Propagator) : Propagator :=
  { propagator with reloader := .none }

/-- Reports that differ in the states of their requests, and no more than that. -/
theorem noteThen_parallel {level : Level} {source : String} {message : Text}
    {report report' : Report} (same : report.withoutReload = report'.withoutReload)
    {machine other : Machine} (parallel : machine.Parallel other) :
    Agree Machine.Parallel
      (Report.withoutReload <$> do
        Action.note level source message
        return report) machine
      (Report.withoutReload <$> do
        Action.note level source message
        return report') other := by
  rw [map_bind, map_bind]
  refine .bind (Action.note_respects Machine.Parallel.likeness _ _ _ machine other parallel) ?_
  intro _ noted noted' parallel
  exact ⟨congrArg Except.ok same, parallel⟩

/-- Propagators that differ in whom they ask propagate alike. -/
theorem propagate_parallel {propagator other : Propagator}
    (same : other.withoutReloader = propagator.withoutReloader)
    (leaves : propagator.reloader.LeavesFiles propagator.engine)
    (leaves' : other.reloader.LeavesFiles other.engine) (rules : RuleSet) {start start' : Machine}
    (parallel : start.Parallel start') :
    Agree Machine.Parallel (Report.withoutReload <$> propagator.propagate rules) start
      (Report.withoutReload <$> other.propagate rules) start' := by
  obtain ⟨path, channel, engine, reloader⟩ := propagator
  obtain ⟨path', channel', engine', reloader'⟩ := other
  cases same
  have likeness := Machine.Parallel.likeness
  unfold propagate
  rw [map_bind, map_bind]
  -- Neither sink depends on who is asked, so both are attempted alike.
  refine .bind (attempt_respects likeness (writeFilterList_respects likeness _ rules) _ _
    start start' parallel) ?_
  rintro ⟨entries, listFault⟩ listed listed' parallel
  dsimp only
  rw [map_bind, map_bind]
  refine .bind (attempt_respects likeness (publish_respects likeness _ rules) _ _
    listed listed' parallel) ?_
  rintro ⟨count, channelFault⟩ published published' parallel
  dsimp only
  split
  · rw [map_bind, map_bind]
    refine .bindUpTo (fun _ => ()) ?_ fun _ _ _ _ _ => noteThen_parallel rfl
    obtain ⟨⟨state, told⟩, after⟩ := signalReload_parallel leaves parallel.quiet
    obtain ⟨⟨state', told'⟩, after'⟩ := signalReload_parallel leaves' parallel.quiet'
    rw [agree_map_iff, told, told']
    exact ⟨rfl, after.symm.trans (parallel.trans after')⟩
  · exact noteThen_parallel rfl parallel

end Propagator

end SiteFilter
