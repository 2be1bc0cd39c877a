import SiteFilter.Proofs.Propagation.Reloading

/-!
# Waiting for a reload

A request to reload is made at once, or it is put off and gets a place in a queue. Whoever waits lets
all requests be made that wait, in their order, and is told what the one of a report ended in. Where
the engine always answers the same, this is what every report comes to, whenever somebody waits.
-/

namespace SiteFilter

open Effect

/-! ## Queues -/

namespace Machine

/-- The requests of a machine that were put off, and what became of the first of them. -/
structure Queue where
  defers : Bool
  tasks : List ReloadTask
  outcomes : List (Option ReloadResult)

def queue (machine : Machine) : Queue :=
  ⟨machine.defersReloads, machine.tasks, machine.outcomes⟩

theorem likeness_queue (queue : Queue) :
    Likeness fun machine other => machine = other ∧ machine.queue = queue where
  files := by
    rintro machine _ ⟨rfl, -⟩
    rfl
  refusals := by
    rintro machine _ ⟨rfl, -⟩
    rfl
  onFiles := by
    rintro machine _ files ⟨rfl, same⟩
    exact ⟨rfl, same⟩
  onRefusals := by
    rintro machine _ refusals ⟨rfl, same⟩
    exact ⟨rfl, same⟩
  record := by
    rintro machine _ event ⟨rfl, same⟩
    exact ⟨rfl, same⟩

end Machine

open Machine (Queue)

/-- What keeps every likeness leaves the requests that wait as they are. -/
theorem Action.keeps_queue {α : Type} {action : Action α}
    (h : ∀ {alike}, Machine.Likeness alike → Respects alike action) (machine : Machine) :
    Ensures action machine fun _ after => after.queue = machine.queue :=
  (h (Machine.likeness_queue machine.queue) machine machine ⟨rfl, rfl⟩).2.2

theorem Reloader.ask_queue (reloader : Reloader) (engine : Json) (machine : Machine) :
    Ensures (reloader.ask engine) machine fun result after =>
      (∃ r, result = .ok r) ∧ after.queue = machine.queue := by
  refine (ask_changes reloader engine machine).mono ?_
  rintro result after ⟨ended, files, journal, rfl, -⟩
  exact ⟨ended, rfl⟩

/-! ## Requests that wait -/

structure Made (task : ReloadTask) (machine : Machine) (result : ReloadResult) (after : Machine) :
    Prop where
  result : ∀ r, task.reloader.Answers task.engine r → result = r
  queue : after.queue = machine.queue
  parallel : machine.IsQuiet → task.LeavesFiles → machine.Parallel after

theorem ReloadTask.ask_made (task : ReloadTask) (machine : Machine) :
    Ensures (task.reloader.ask task.engine) machine fun told after =>
      ∃ result, told = .ok result ∧ Made task machine result after := by
  have asks : Ensures (task.reloader.ask task.engine) machine fun told after =>
      (told, after) = (task.reloader.ask task.engine).runOn machine := rfl
  refine ((Reloader.ask_queue task.reloader task.engine machine).and asks).mono ?_
  rintro _ after ⟨⟨⟨result, rfl⟩, queue⟩, ran⟩
  refine ⟨result, rfl, ?_, queue, ?_⟩
  · intro r answers
    have same := answers machine
    rw [← ran] at same
    cases same
    rfl
  · intro quiet leaves
    have parallel := (Reloader.ask_parallel leaves quiet).2
    rwa [← Action.runOn_eq, ← ran] at parallel

theorem Made.noted {task : ReloadTask} {machine after noted : Machine} {result : ReloadResult}
    (h : Made task machine result after) (does : after.Does [] [] noted)
    (alike : after.Alike noted) : Made task machine result noted := by
  refine ⟨h.result, ?_, fun quiet leaves => ?_⟩
  · obtain ⟨journal, rfl⟩ := alike
    exact h.queue
  · have parallel := h.parallel quiet leaves
    exact parallel.trans
      (does.parallel (fun _ => nofun) alike.files parallel.quiet' fun _ => nofun)

/-- What becomes of requests that wait when somebody lets them be made. -/
structure Settles (machine : Machine) (tasks : List ReloadTask) (after : Machine) : Prop where
  defers : after.defersReloads = machine.defersReloads
  tasks_eq : after.tasks = machine.tasks
  made : ∃ outcomes, after.outcomes = machine.outcomes ++ outcomes ∧
    List.Forall₂ (fun task outcome => ∀ result,
      task.reloader.Answers task.engine result → outcome = some result) tasks outcomes
  parallel : machine.IsQuiet → (∀ task ∈ tasks, task.LeavesFiles) → machine.Parallel after

theorem Settles.cons {task : ReloadTask} {tasks : List ReloadTask} {machine middle after : Machine}
    {result : ReloadResult} (h : Made task machine result middle)
    (rest : Settles { middle with outcomes := middle.outcomes ++ [some result] } tasks after) :
    Settles machine (task :: tasks) after := by
  obtain ⟨defers, tasks_eq, ⟨outcomes, made, ends⟩, parallel⟩ := rest
  have queue := h.queue
  refine ⟨?_, ?_, ⟨some result :: outcomes, ?_, ?_⟩, ?_⟩
  · exact defers.trans (congrArg Queue.defers queue)
  · exact tasks_eq.trans (congrArg Queue.tasks queue)
  · have before : middle.outcomes = machine.outcomes := congrArg Queue.outcomes queue
    rw [made]
    change middle.outcomes ++ [some result] ++ outcomes = _
    rw [before, List.append_assoc]
    rfl
  · exact .cons (fun r answers => congrArg some (h.result r answers)) ends
  · intro quiet leave
    have first := h.parallel quiet (leave task List.mem_cons_self)
    have second := parallel first.quiet' fun task among =>
      leave task (List.mem_cons_of_mem _ among)
    exact first.trans ⟨second.files, second.refusals, second.outward, first.quiet', second.quiet'⟩

theorem settleFrom_spec (place : Nat) (tasks : List ReloadTask) (machine : Machine) :
    Ensures (settleFrom none place tasks) machine fun told after =>
      told = .ok () ∧ Settles machine tasks after := by
  induction tasks generalizing place machine with
  | nil =>
      exact .pure ⟨rfl, rfl, rfl, ⟨[], (List.append_nil _).symm, .nil⟩, fun quiet _ => .refl quiet⟩
  | cons task tasks ih =>
      unfold settleFrom
      rw [if_neg (fun same => nomatch same)]
      refine .bind (task.ask_made machine) ?_ ?_
      · rintro result asked ⟨_, same, made⟩
        cases same
        refine .bindOk (Propagator.noteReload_noted task.engine result asked) ?_
        rintro noted ⟨does, alike⟩
        refine Ensures.pureThen (Ensures.changeThen ((ih (place + 1) _).mono ?_))
        rintro told after ⟨done, rest⟩
        exact ⟨done, .cons (made.noted does alike) rest⟩
      · rintro e _ ⟨_, same, -⟩
        cases same

theorem settlePending_spec (machine : Machine) :
    Ensures (settlePending none) machine fun told after =>
      told = .ok () ∧ Settles machine (machine.tasks.drop machine.outcomes.length) after :=
  Ensures.getThen (settleFrom_spec _ _ machine)

/-! ## What is told of requests -/

/--
Of the requests from some place on, those that were made ended in one result, and those that wait
will.
-/
structure Machine.Queue.Gives (queue : Queue) (first : Nat) (result : ReloadResult) : Prop where
  early : first ≤ queue.tasks.length
  bounded : queue.outcomes.length ≤ queue.tasks.length
  tasks : ∀ place task, first ≤ place → queue.tasks[place]? = some task →
    task.reloader.Answers task.engine result
  outcomes : ∀ place outcome, first ≤ place → queue.outcomes[place]? = some outcome →
    outcome = some result

/-- A queue as it is later: requests were added, or made. -/
def Machine.Queue.Grows (queue later : Queue) : Prop :=
  later.defers = queue.defers ∧ queue.tasks.length ≤ later.tasks.length

/-- Whether a request comes to a result: at once, or when somebody waits for it. -/
def ReloadState.Gives (state : ReloadState) (queue : Queue) (first : Nat)
    (result : ReloadResult) : Prop :=
  if queue.defers then
    ∃ place, first ≤ place ∧ place < queue.tasks.length ∧ state = .waiting place
  else state = .settled result

/-- Whether a report has a request that comes to a result, if the filter list was written. -/
def Report.Gives (report : Report) (queue : Queue) (first : Nat) (result : ReloadResult) : Prop :=
  if report.filterListFault.isNone then report.reload.Gives queue first result
  else report.reload = .unasked

section Giving

variable {queue later : Queue} {first : Nat} {result : ReloadResult} {machine after : Machine}

theorem ReloadState.Gives.afterwards {state : ReloadState} (h : state.Gives queue first result)
    (grows : queue.Grows later) : state.Gives later first result := by
  unfold Gives at h ⊢
  rw [grows.1]
  split at h
  · rename_i defers
    rw [if_pos defers]
    obtain ⟨place, new, there, same⟩ := h
    exact ⟨place, new, Nat.lt_of_lt_of_le there grows.2, same⟩
  · rename_i defers
    rw [if_neg defers]
    exact h

theorem Report.Gives.afterwards {report : Report} (h : report.Gives queue first result)
    (grows : queue.Grows later) : report.Gives later first result := by
  unfold Gives at h ⊢
  split at h
  · rename_i listed
    rw [if_pos listed]
    exact h.afterwards grows
  · rename_i listed
    rw [if_neg listed]
    exact h

theorem Settles.grows {tasks : List ReloadTask} (h : Settles machine tasks after) :
    machine.queue.Grows after.queue :=
  ⟨h.defers, Nat.le_of_eq (congrArg List.length h.tasks_eq).symm⟩

/-- Behind a wait there is an outcome for every request. -/
theorem Settles.length_eq (h : Settles machine (machine.tasks.drop machine.outcomes.length) after)
    (bounded : machine.outcomes.length ≤ machine.tasks.length) :
    after.outcomes.length = after.tasks.length := by
  obtain ⟨outcomes, made, ends⟩ := h.made
  have length := ends.length_eq
  rw [List.length_drop] at length
  rw [made, h.tasks_eq, List.length_append]
  omega

theorem Settles.gives (h : Settles machine (machine.tasks.drop machine.outcomes.length) after)
    (gives : machine.queue.Gives first result) : after.queue.Gives first result := by
  obtain ⟨outcomes, made, ends⟩ := h.made
  refine ⟨?_, Nat.le_of_eq (h.length_eq gives.bounded), ?_, ?_⟩
  · change first ≤ after.tasks.length
    rw [h.tasks_eq]
    exact gives.early
  · change ∀ place task, first ≤ place → after.tasks[place]? = some task → _
    rw [h.tasks_eq]
    exact gives.tasks
  -- An outcome was there before, or it is that of a request which still waited.
  · intro place outcome new there
    change after.outcomes[place]? = some outcome at there
    rw [made, List.getElem?_append] at there
    split at there
    · exact gives.outcomes place outcome new there
    · rename_i behind
      obtain ⟨inside, rfl⟩ := List.getElem?_eq_some_iff.mp there
      have waits : place - machine.outcomes.length <
          (machine.tasks.drop machine.outcomes.length).length := by
        rw [ends.length_eq]
        exact inside
      refine ends.get waits inside result ?_
      apply gives.tasks place _ new
      have index : machine.outcomes.length + (place - machine.outcomes.length) = place := by omega
      change machine.tasks[place]? = _
      calc machine.tasks[place]?
          = (machine.tasks.drop machine.outcomes.length)[place - machine.outcomes.length]? := by
            rw [List.getElem?_drop, index]
        _ = some _ := List.getElem?_eq_getElem waits

/-- Who waits for the request of a report is told what it ended in. -/
theorem Report.Gives.awaitReload {report : Report} (gives : machine.queue.Gives first result)
    (h : report.Gives machine.queue first result) :
    Ensures (report.awaitReload false) machine fun told _ =>
      told = .ok (some (if report.filterListFault.isNone then some result else none)) := by
  refine .bindOk (settlePending_spec machine) ?_
  intro after settles
  have told := h.afterwards settles.grows
  have known := settles.gives gives
  unfold Report.Gives ReloadState.Gives at told
  cases listed : report.filterListFault.isNone with
  | false =>
      rw [listed] at told
      rw [show report.reload = .unasked from told]
      exact .pure rfl
  | true =>
      rw [listed, if_pos rfl] at told
      split at told
      · obtain ⟨place, new, there, same⟩ := told
        rw [same]
        apply Ensures.getThen
        have made : place < after.outcomes.length := by
          rw [settles.length_eq gives.bounded]
          exact there
        have outcome := known.outcomes place _ new (List.getElem?_eq_getElem made)
        rw [List.getElem?_eq_getElem made, outcome]
        exact .pure rfl
      · rw [told]
        exact .pure rfl

/-- A request that is put off gets a place of its own. -/
theorem Machine.Queue.Gives.put {task : ReloadTask}
    (answers : task.reloader.Answers task.engine result) (h : queue.Gives first result) :
    Gives { queue with tasks := queue.tasks ++ [task] } first result := by
  refine ⟨?_, ?_, ?_, h.outcomes⟩
  · exact Nat.le_trans h.early (by simp)
  · exact Nat.le_trans h.bounded (by simp)
  · intro place other new there
    dsimp only at there
    rw [List.getElem?_append] at there
    split at there
    · exact h.tasks place other new there
    · have own := List.mem_of_getElem? there
      rw [List.mem_singleton.mp own]
      exact answers

theorem Propagator.signalReload_gives {propagator : Propagator}
    (answers : propagator.reloader.Answers propagator.engine result)
    (gives : machine.queue.Gives first result) :
    Ensures propagator.signalReload machine fun told after =>
      ∃ state, told = .ok state ∧ machine.queue.Grows after.queue ∧
        after.queue.Gives first result ∧ state.Gives after.queue first result := by
  apply Ensures.getThen
  split
  · rename_i defers
    have ends : propagator.task.reloader.Answers propagator.task.engine result := answers
    have length : machine.tasks.length < (machine.tasks ++ [propagator.task]).length := by simp
    have waiting : ReloadState.Gives (.waiting machine.tasks.length)
        { machine.queue with tasks := machine.tasks ++ [propagator.task] } first result := by
      unfold ReloadState.Gives
      rw [if_pos (show machine.queue.defers = true from defers)]
      exact ⟨_, gives.early, length, rfl⟩
    exact Ensures.setThen
      (.pure ⟨_, rfl, ⟨rfl, Nat.le_of_lt length⟩, gives.put ends, waiting⟩)
  · rename_i now
    refine .bind (propagator.task.ask_made machine) ?_ ?_
    · rintro r asked ⟨_, same, made⟩
      cases same
      refine .bindOk (noteReload_noted propagator.engine r asked) ?_
      rintro noted ⟨does, alike⟩
      have queue := (made.noted does alike).queue
      have settled : ReloadState.Gives (.settled r) noted.queue first result := by
        unfold ReloadState.Gives
        rw [queue, if_neg (show ¬ machine.queue.defers = true from now),
          made.result result answers]
      rw [queue] at settled
      refine .pure ⟨_, rfl, ?_⟩
      rw [queue]
      exact ⟨⟨rfl, Nat.le_refl _⟩, gives, settled⟩
    · rintro e _ ⟨_, same, -⟩
      cases same

/-- The report of a propagation has a request that comes to a result. -/
theorem Propagator.propagate_gives {propagator : Propagator}
    (answers : propagator.reloader.Answers propagator.engine result)
    (gives : machine.queue.Gives first result) (rules : RuleSet) :
    Ensures (propagator.propagate rules) machine fun told after =>
      machine.queue.Grows after.queue ∧ after.queue.Gives first result ∧
        ∀ report, told = .ok report → report.Gives after.queue first result := by
  have same : machine.queue.Grows machine.queue := ⟨rfl, Nat.le_refl _⟩
  refine .bind (Action.keeps_queue (fun likeness => attempt_respects likeness
    (writeFilterList_respects likeness propagator rules) _ _) machine) ?_ ?_
  · rintro ⟨entries, listFault⟩ listed queue
    refine .bind (Action.keeps_queue (fun likeness => attempt_respects likeness
      (publish_respects likeness propagator rules) _ _) listed) ?_ ?_
    · rintro ⟨count, channelFault⟩ published queue'
      rw [queue] at queue'
      refine report_spec (fun list => ?_) fun list note => ?_
      · rw [← queue'] at gives
        refine (signalReload_gives answers gives).mono ?_
        rintro _ final ⟨state, told, grows, gives', known⟩
        refine ⟨state, told, fun note => ⟨?_, gives', ?_⟩⟩
        · rw [← queue']
          exact grows
        · rintro _ ⟨⟩
          unfold Report.Gives
          rw [if_pos list]
          exact known
      · change machine.queue.Grows published.queue ∧ published.queue.Gives first result ∧ _
        rw [queue']
        refine ⟨same, gives, ?_⟩
        rintro _ ⟨⟩
        unfold Report.Gives
        rw [list]
        rfl
    · intro e published queue'
      rw [queue', queue]
      exact ⟨same, gives, fun _ => nofun⟩
  · intro e listed queue
    rw [queue]
    exact ⟨same, gives, fun _ => nofun⟩

end Giving

end SiteFilter
