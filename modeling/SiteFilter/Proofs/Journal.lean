import SiteFilter.Proofs.Propagation

/-!
# What is done, and in which order

The journal without its notes tells which files were to be replaced, which requests were made and
who was told the rules. What a propagation does is told by its rules and by its report.
-/

namespace SiteFilter

open Effect

/-! ## Deeds -/

namespace Event

def isNote : Event → Bool
  | .noted _ => true
  | _ => false

def isWrite : Event → Bool
  | .writing _ => true
  | _ => false

def isRequest : Event → Bool
  | .asking _ => true
  | _ => false

end Event

namespace Machine

/-- The events that are no notes, from the first to the latest. -/
def deeds (machine : Machine) : List Event :=
  machine.events.filter fun event => !event.isNote

/-- How many requests to reload were made or put off. -/
def requests (machine : Machine) : Nat :=
  machine.deeds.countP Event.isRequest + machine.tasks.length

theorem deeds_cons (machine : Machine) (event : Event) :
    ({ machine with journal := event :: machine.journal } : Machine).deeds =
      machine.deeds ++ if event.isNote then [] else [event] := by
  unfold deeds events
  rw [List.reverse_cons, List.filter_append]
  cases event <;> rfl

/--
What was done between two states of a machine, and the requests to reload that were put off. Each
write meets the next of the refusals.
-/
structure Does (machine : Machine) (deeds : List Event) (tasks : List ReloadTask)
    (after : Machine) : Prop where
  deeds_eq : after.deeds = machine.deeds ++ deeds
  tasks_eq : after.tasks = machine.tasks ++ tasks
  defers_eq : after.defersReloads = machine.defersReloads
  refusals_eq : after.refusals = machine.refusals.drop (deeds.countP Event.isWrite)

namespace Does

variable {machine middle after : Machine} {deeds more : List Event} {tasks late : List ReloadTask}

theorem refl (machine : Machine) : machine.Does [] [] machine :=
  ⟨(List.append_nil _).symm, (List.append_nil _).symm, rfl, rfl⟩

theorem trans (first : machine.Does deeds tasks middle) (second : middle.Does more late after) :
    machine.Does (deeds ++ more) (tasks ++ late) after := by
  refine ⟨?_, ?_, second.defers_eq.trans first.defers_eq, ?_⟩
  · rw [second.deeds_eq, first.deeds_eq, List.append_assoc]
  · rw [second.tasks_eq, first.tasks_eq, List.append_assoc]
  · rw [second.refusals_eq, first.refusals_eq, List.drop_drop, List.countP_append]

/-- Nothing but notes came behind. -/
theorem thenNothing (first : machine.Does deeds tasks middle) (second : middle.Does [] [] after) :
    machine.Does deeds tasks after := by
  have both := first.trans second
  rwa [List.append_nil, List.append_nil] at both

/-- Nothing but notes came before. -/
theorem behindNothing (first : machine.Does [] [] middle) (second : middle.Does deeds tasks after) :
    machine.Does deeds tasks after :=
  first.trans second

theorem requests_eq (h : machine.Does deeds tasks after) :
    after.requests = machine.requests + (deeds.countP Event.isRequest + tasks.length) := by
  unfold requests
  rw [h.deeds_eq, h.tasks_eq, List.countP_append, List.length_append]
  omega

theorem onFiles (machine : Machine) (files : FileTree) :
    machine.Does [] [] { machine with files := files } :=
  ⟨(List.append_nil _).symm, (List.append_nil _).symm, rfl, rfl⟩

theorem onEvent (machine : Machine) (event : Event) (other : event.isWrite = false) :
    machine.Does (if event.isNote then [] else [event]) []
      { machine with journal := event :: machine.journal } := by
  refine ⟨machine.deeds_cons event, (List.append_nil _).symm, rfl, ?_⟩
  cases event with
  | writing path => cases other
  | _ => rfl

end Does

end Machine

/-! ## Actions -/

namespace Action

variable {α β : Type}

theorem note_does (level : Level) (source : String) (message : Text) (machine : Machine) :
    Ensures (note level source message) machine fun result after =>
      result = .ok () ∧ machine.Does [] [] after :=
  Ensures.change ⟨rfl, Machine.Does.onEvent machine (.noted ⟨level, source, message⟩) rfl⟩

theorem onFiles_does (change : FileAction α) (machine : Machine) :
    Ensures (onFiles change) machine fun _ after => machine.Does [] [] after := by
  unfold Ensures
  rw [exec_onFiles]
  exact .onFiles machine _

theorem replaceFile_does (path : Path) (data : Bytes) (machine : Machine) :
    Ensures (replaceFile path data) machine fun _ after =>
      machine.Does [.writing path] [] after := by
  apply recordThen
  -- The write has its place in the journal before its refusal is taken.
  have written (refusals : List (Option OsCause)) (same : refusals = machine.refusals.drop 1) :
      machine.Does [.writing path] []
        { machine with journal := .writing path :: machine.journal, refusals := refusals } :=
    ⟨machine.deeds_cons (.writing path), (List.append_nil _).symm, rfl, same⟩
  refine .bind (Q := fun _ after => machine.Does [.writing path] [] after) ?_ ?_ ?_
  · apply Ensures.getThen
    split
    · rename_i none
      refine .pure ?_
      have known := written [] (by rw [show machine.refusals = [] from none]; rfl)
      rwa [← show machine.refusals = [] from none] at known
    · rename_i refusal refusals some
      apply Ensures.setThen
      exact .pure (written refusals (by rw [show machine.refusals = _ from some]; rfl))
  · intro refusal middle known
    exact (onFiles_does _ middle).mono fun _ _ nothing => known.thenNothing nothing
  · exact fun _ _ known => known

end Action

/-! ## Keyed storage -/

namespace KeyedStorage

def writes (storage : KeyedStorage) (key : Text) (value : Json) : List Event :=
  match encodeValue storage.limits value with
  | .ok _ => [.writing (storage.fileOf key)]
  | .error _ => []

theorem put_does (storage : KeyedStorage) {key : Text} (valid : isKey key = true) (value : Json)
    (machine : Machine) :
    Ensures (storage.put key value) machine fun _ after =>
      machine.Does (storage.writes key value) [] after := by
  apply Action.ofExceptThen
  · intro path found
    rw [pathOf_eq storage valid] at found
    cases found
    unfold writes
    cases encodeValue storage.limits value with
    | error e => exact .throw (.refl machine)
    | ok data =>
        refine .bind (Q := fun _ after =>
          machine.Does [.writing (storage.fileOf key)] [] after) ?_ ?_ ?_
        · refine .tryCatch (Action.replaceFile_does _ data machine) (fun _ _ known => known) ?_
          intro e after known
          split
          · exact .throw known
          · exact .throw known
        · intro _ middle known
          exact (Action.note_does _ _ _ middle).mono fun _ _ noted => known.thenNothing noted.2
        · exact fun _ _ known => known
  · intro e refused
    rw [pathOf_eq storage valid] at refused
    cases refused

end KeyedStorage

/-! ## Requests to reload -/

namespace Reloader

theorem launch_does (programs : Programs) (timeout : Float) (words : List Text)
    (machine : Machine) :
    Ensures (launch programs timeout words) machine fun _ after => machine.Does [] [] after := by
  unfold launch
  cases words.findSome? wordFault? with
  | some e => exact .throw (.refl machine)
  | none =>
      apply Ensures.getThen
      dsimp only
      split
      · exact .pure (.refl machine)
      · exact .setThen (.pure (.onFiles machine _))
      · exact .setThen (.pure (.onFiles machine _))

theorem attempt_does (reloader : Reloader) (engine : Json) (machine : Machine) :
    Ensures (attempt reloader engine) machine fun _ after => machine.Does [] [] after := by
  cases reloader with
  | none => exact .pure (.refl machine)
  | custom answer =>
      exact Action.ofExcept_spec (.refl machine)
  | command programs words timeout =>
      apply Action.ofExceptThen
      · intro words _
        refine .bindOk (Action.note_does _ _ _ machine) ?_
        intro noted known
        exact (launch_does programs timeout words noted).mono fun _ _ launched =>
          known.thenNothing launched
      · exact fun _ _ => .refl machine

theorem ask_does (reloader : Reloader) (engine : Json) (machine : Machine) :
    Ensures (reloader.ask engine) machine fun result after =>
      (∃ r, result = .ok r) ∧ machine.Does [.asking engine] [] after := by
  apply Action.recordThen
  have asked := Machine.Does.onEvent machine (.asking engine) rfl
  refine .tryCatch (attempt_does reloader engine _) ?_ ?_
  · exact fun r after known => ⟨⟨r, rfl⟩, asked.thenNothing known⟩
  · exact fun e after known => .pure ⟨⟨_, rfl⟩, asked.thenNothing known⟩

end Reloader

/-! ## Propagation -/

namespace Propagator

def listWrites (propagator : Propagator) (rules : RuleSet) : List Event :=
  match FilterList.serialize (FilterList.compile rules) with
  | .ok _ => [.writing propagator.filterListPath]
  | .error _ => []

def payloadWrites (propagator : Propagator) (rules : RuleSet) : List Event :=
  propagator.channel.writes channelKey (channelPayload rules)

theorem writeFilterList_does (propagator : Propagator) (rules : RuleSet) (machine : Machine) :
    Ensures (propagator.writeFilterList rules) machine fun _ after =>
      machine.Does (propagator.listWrites rules) [] after := by
  refine .bindOk (Action.note_does _ _ _ machine) ?_
  intro noted known
  unfold listWrites
  apply Action.ofExceptThen
  · intro data serialized
    rw [serialized]
    refine .bind (Action.replaceFile_does _ data noted) ?_ ?_
    · intro _ after wrote
      refine .bindOk (Action.note_does _ _ _ after) ?_
      intro final noted'
      exact .pure ((known.behindNothing wrote).thenNothing noted')
    · exact fun _ _ wrote => known.behindNothing wrote
  · intro e refused
    rw [refused]
    exact known

theorem publish_does (propagator : Propagator) (rules : RuleSet) (machine : Machine) :
    Ensures (propagator.publish rules) machine fun _ after =>
      machine.Does (propagator.payloadWrites rules) [] after :=
  .bind (propagator.channel.put_does isKey_channelKey _ machine) (fun _ _ known => .pure known)
    fun _ _ known => known

theorem attempt_does {write : Action Nat} {machine : Machine} {deeds : List Event}
    (isDue : Fault → Bool) (remark : Fault → Text)
    (h : Ensures write machine fun _ after => machine.Does deeds [] after) :
    Ensures (attempt write isDue remark) machine fun _ after => machine.Does deeds [] after := by
  refine .tryCatch (Q := fun _ after => machine.Does deeds [] after)
    (.bind h (fun _ _ known => .pure known) fun _ _ known => known) (fun _ _ known => known) ?_
  intro e after known
  split
  · refine .bindOk (Action.note_does _ _ _ after) ?_
    exact fun final noted => .pure (known.thenNothing noted)
  · exact .throw known

/-- The request to reload that goes with a propagation, when it is made at once. -/
def requests (propagator : Propagator) (listed defers : Bool) : List Event :=
  if listed && !defers then [.asking propagator.engine] else []

/-- The request to reload that goes with a propagation, when it is put off. -/
def requestsLater (propagator : Propagator) (listed defers : Bool) : List ReloadTask :=
  if listed && defers then [propagator.task] else []

theorem noteReload_does (engine : Json) (result : ReloadResult) (machine : Machine) :
    Ensures (noteReload engine result) machine fun told after =>
      told = .ok () ∧ machine.Does [] [] after := by
  unfold noteReload
  split
  · exact Action.note_does _ _ _ machine
  · exact Action.note_does _ _ _ machine

theorem signalReload_does (propagator : Propagator) (machine : Machine) :
    Ensures propagator.signalReload machine fun result after =>
      (∃ state, result = .ok state) ∧
        machine.Does (propagator.requests true machine.defersReloads)
          (propagator.requestsLater true machine.defersReloads) after := by
  apply Ensures.getThen
  split
  · rename_i defers
    refine Ensures.setThen (.pure ⟨⟨_, rfl⟩, ?_⟩)
    have later : propagator.requestsLater true machine.defersReloads = [propagator.task] := by
      rw [requestsLater, show machine.defersReloads = true from defers]
      rfl
    have none : propagator.requests true machine.defersReloads = [] := by
      rw [requests, show machine.defersReloads = true from defers]
      rfl
    rw [later, none]
    exact ⟨(List.append_nil _).symm, rfl, rfl, rfl⟩
  · rename_i now
    have none : propagator.requestsLater true machine.defersReloads = [] := by
      rw [requestsLater, show machine.defersReloads = false from Bool.not_eq_true _ ▸ now]
      rfl
    have made : propagator.requests true machine.defersReloads = [.asking propagator.engine] := by
      rw [requests, show machine.defersReloads = false from Bool.not_eq_true _ ▸ now]
      rfl
    rw [none, made]
    refine .bind (Reloader.ask_does _ _ machine) ?_ ?_
    · rintro result after ⟨-, asked⟩
      refine .bindOk (noteReload_does _ result after) ?_
      exact fun final known => .pure ⟨⟨_, rfl⟩, asked.thenNothing known⟩
    · rintro _ _ ⟨⟨_, same⟩, -⟩
      cases same

/-- Of what a propagation does only its request to reload is one. -/
theorem requests_of_does {propagator : Propagator} {rules : RuleSet} {listed defers : Bool}
    {machine after : Machine}
    (h : machine.Does
      (propagator.listWrites rules ++ propagator.payloadWrites rules ++
        propagator.requests listed defers) (propagator.requestsLater listed defers) after) :
    after.requests = machine.requests + if listed then 1 else 0 := by
  have list : (propagator.listWrites rules).countP Event.isRequest = 0 := by
    unfold listWrites
    split <;> rfl
  have payload : (propagator.payloadWrites rules).countP Event.isRequest = 0 := by
    unfold payloadWrites KeyedStorage.writes
    split <;> rfl
  rw [h.requests_eq, List.countP_append, List.countP_append, list, payload]
  cases listed with
  | false => rfl
  | true => cases defers <;> rfl

/-- A propagation writes to its two sinks, in this order, and then asks for a reload if need be. -/
theorem propagate_does (propagator : Propagator) (rules : RuleSet) (machine : Machine) :
    Ensures (propagator.propagate rules) machine fun result after =>
      ∀ report, result = .ok report →
        machine.Does
          (propagator.listWrites rules ++ propagator.payloadWrites rules ++
            propagator.requests report.filterListFault.isNone machine.defersReloads)
          (propagator.requestsLater report.filterListFault.isNone machine.defersReloads) after := by
  refine .bind (attempt_does _ _ (writeFilterList_does propagator rules machine)) ?_
    fun _ _ _ => nofun
  rintro ⟨entries, listFault⟩ listed list
  refine .bind (attempt_does _ _ (publish_does propagator rules listed)) ?_ fun _ _ _ => nofun
  rintro ⟨count, channelFault⟩ published channel
  have both := list.trans channel
  have defers := both.defers_eq
  refine report_spec (fun known => ?_) fun known note => ?_
  · refine (signalReload_does propagator published).mono ?_
    rintro _ final ⟨⟨state, rfl⟩, asked⟩
    refine ⟨state, rfl, fun note => ?_⟩
    rintro _ ⟨⟩
    rw [known, ← defers]
    exact (both.trans asked).thenNothing (.onEvent final (.noted note) rfl)
  · rintro _ ⟨⟩
    rw [known]
    simp only [requests, requestsLater, Bool.false_and, Bool.false_eq_true, if_false,
      List.append_nil]
    exact both.thenNothing (.onEvent published (.noted note) rfl)

end Propagator

end SiteFilter
