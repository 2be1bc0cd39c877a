import SiteFilter.Proofs.CommandLine.Printing
import SiteFilter.Proofs.Store.Sources

/-!
# What commands come to

A command that edits the rules first reads: the settings, the rules that are stored, and the
document that is to be imported. From what it reads it is settled which operation of the store it
carries out, and it ends as that operation does.
-/

namespace SiteFilter.CommandLine

open Effect Session RuleStore

/-! ## What is read -/

def Invocation.settle (invocation : Invocation) (settings : Settings) : Settings :=
  match invocation.dataDirectory with
  | some (c :: directory) => { settings with dataDirectory := .text (c :: directory) }
  | _ => settings

def configured (env : Environment) (files : FileTree) (invocation : Invocation) :
    Except Fault Settings := do
  let path ← settingsPath env invocation.settingsFile
  return invocation.settle (← Settings.load env.limits files path)

def opened (env : Environment) (files : FileTree) (invocation : Invocation) :
    Except Fault RuleStore := do
  let settings ← configured env files invocation
  let store ← RuleStore.ofSettings settings env
  let rules ← RuleStore.read store.storage store.lowersHosts files
  return store.withRules rules

/-- The document that a command imports; the other commands need none. -/
def documentFor (env : Environment) (fetch : Text → Fetched) (files : FileTree) :
    Command → Except Fault Text
  | .importFrom name =>
      if isAddress name then documentOf name (fetch name) else documentIn env files name
  | _ => .ok []

namespace Command

def edits : Command → Bool
  | .addHost _ | .removeHost _ | .addRule _ | .removeRule _ | .importFrom _ | .clearRules
  | .reload => true
  | .exportTo _ | .list | .filterList | .serve => false

/-- The operation that a command comes to. A line that is no rule comes to none. -/
def call? (document : Text) : Command → Option Call
  | .addHost name => some (.addHost name)
  | .removeHost name => some (.removeHost name)
  | .addRule line => (RuleDocument.parseLine line).map .addElementRule
  | .removeRule line => (RuleDocument.parseLine line).map .removeElementRule
  | .importFrom _ => some (.importRules document)
  | .clearRules => some .clearElementRules
  | .reload => some .republish
  | .exportTo _ | .list | .filterList | .serve => none

end Command

/-- What an invocation is to do, once all is read: an operation on a store, if there is one. -/
structure Task where
  store : RuleStore
  call? : Option Call

def taskOf (env : Environment) (fetch : Text → Fetched) (files : FileTree)
    (invocation : Invocation) : Except Fault Task := do
  let store ← opened env files invocation
  let document ← documentFor env fetch files invocation.command
  return ⟨store, invocation.command.call? document⟩

/-! ## Commands and operations -/

/--
How a session ends in which an operation is carried out and the store behind it is given, unless an
outlet refuses what is said of it.
-/
def Carries (call : Call) (store : RuleStore) (terminal : Terminal)
    (result : Except Fault RuleStore) (after : Terminal) : Prop :=
  ∃ editor, editor.store = store ∧ terminal.machine.Alike editor.machine ∧
    (result = (call.perform editor).1.map (fun _ => (call.perform editor).2.store) ∨
      (call.perform editor).1.isOk = true ∧ IsUnprinted terminal.outlets result) ∧
    after.machine = (call.perform editor).2.machine ∧ after.outlets = terminal.outlets

section Carrying

variable {α : Type} {terminal : Terminal} {store : RuleStore}

/-- An edit carries out an operation when it does the same and what is printed then can be. -/
theorem carries_of_edit {editing : Editing α} {call : Call} {f : α → Answer}
    {next : α × RuleStore → Session RuleStore}
    (same : Ensures editing ⟨terminal.machine, store⟩ fun result after =>
      ∃ editor, editor.store = store ∧ terminal.machine.Alike editor.machine ∧
        call.perform editor = (result.map f, after) ∧
          ∀ a, result = .ok a → Prints (next (a, after.store)) after.store) :
    Ensures (edit store editing >>= next) terminal fun result after =>
      Carries call store terminal result after := by
  refine .bind (edit_spec same) ?_ ?_
  · rintro ⟨a, later⟩ between
      ⟨⟨ended, after, ⟨editor, start, alike, performed, prints⟩, machine, told⟩, outlets⟩
    cases ended with
    | error e => cases told
    | ok a' =>
        cases told
        refine (prints a rfl between).mono ?_
        rintro result final ⟨said, machine', outlets'⟩
        rw [outlets] at said
        refine ⟨editor, start, alike, ?_, ?_, outlets'.trans outlets⟩
        · rw [performed]
          exact said.imp id fun unprinted => ⟨rfl, unprinted⟩
        · rw [performed]
          exact machine'.trans machine
  · rintro e between
      ⟨⟨ended, after, ⟨editor, start, alike, performed, prints⟩, machine, told⟩, outlets⟩
    cases ended with
    | ok a => cases told
    | error e' =>
        cases told
        refine ⟨editor, start, alike, ?_, ?_, outlets⟩
        · rw [performed]
          exact .inl rfl
        · rw [performed]
          exact machine

theorem carries_of_work {editing : Editing α} {call : Call} {f : α → Answer}
    {next : α × RuleStore → Session RuleStore} (work : call.work = f <$> editing)
    (prints : Ensures editing ⟨terminal.machine, store⟩ fun result after =>
      ∀ a, result = .ok a → Prints (next (a, after.store)) after.store) :
    Ensures (edit store editing >>= next) terminal fun result after =>
      Carries call store terminal result after := by
  apply carries_of_edit (f := f)
  refine ⟨⟨terminal.machine, store⟩, rfl, .refl _, ?_, prints⟩
  rw [Call.perform, work, Editing.runOn_eq, exec_map]

theorem addHost_carries (nobody : store.subscribers = []) (name : Text) :
    Ensures (addHost store name) terminal fun result after =>
      Carries (.addHost name) store terminal result after := by
  refine carries_of_work (f := .added) rfl ?_
  have encodes : Ensures (RuleStore.addHost name) ⟨terminal.machine, store⟩ _ :=
    addHost_encodes nobody name
  refine encodes.mono ?_
  rintro _ after encodable added rfl
  dsimp only
  cases added with
  | true =>
      refine .andThen (.printLine (Utf8.encodable_append.mpr ⟨Utf8.encodable_ofString _, ?_⟩))
        (.pure _)
      cases last : after.store.hosts.getLast? with
      | none => exact fun _ => nofun
      | some rule => exact encodable rfl rule (List.mem_of_getLast? last)
  | false => exact .andThen (.printLine (Utf8.encodable_ofString _)) (.pure _)

theorem removeHost_carries (name : Text) :
    Ensures (removeHost store name) terminal fun result after =>
      Carries (.removeHost name) store terminal result after :=
  carries_of_work (f := .counted) rfl fun _ _ => .andThen (.count _ _ _) (.pure _)

theorem addRule_carries (nobody : store.subscribers = []) (rule : ElementRule) :
    Ensures (addRule store rule) terminal fun result after =>
      Carries (.addElementRule rule) store terminal result after := by
  refine carries_of_work (f := .added) rfl ?_
  have encodes : Ensures (RuleStore.addElementRule rule) ⟨terminal.machine, store⟩ _ :=
    addElementRule_encodes nobody rule
  refine encodes.mono ?_
  rintro _ after encodable added rfl
  dsimp only
  cases added with
  | true =>
      exact .andThen (.printLine (Utf8.encodable_append.mpr
        ⟨Utf8.encodable_ofString _, encodable rfl⟩)) (.pure _)
  | false => exact .andThen (.printLine (Utf8.encodable_ofString _)) (.pure _)

theorem clearRules_carries :
    Ensures (clearRules store) terminal fun result after =>
      Carries .clearElementRules store terminal result after :=
  carries_of_work (f := fun _ => .done) rfl
    fun _ _ => .andThen (.printLine (Utf8.encodable_ofString _)) (.pure _)

theorem reload_carries :
    Ensures (reload store) terminal fun result after =>
      Carries .republish store terminal result after :=
  carries_of_work (f := .propagated) rfl
    fun _ _ => .andThen (.count _ _ _) (.pure _)

theorem removeRule_carries {line : Text} {rule : ElementRule}
    (parsed : RuleDocument.parseLine line = some rule) :
    Ensures (removeRule store line) terminal fun result after =>
      Carries (.removeElementRule rule) store terminal result after := by
  unfold removeRule
  rw [parsed]
  exact carries_of_work (f := .counted) rfl fun _ _ => .andThen (.count _ _ _) (.pure _)

theorem removeRule_prints {line : Text} (unparsed : RuleDocument.parseLine line = none) :
    Prints (removeRule store line) store := by
  unfold removeRule
  rw [unparsed]
  exact .andThen (.pure (0, store)) (.andThen (.count _ _ _) (.pure _))

theorem importRules_carries {env : Environment} {fetch : Text → Fetched} {name document : Text}
    (found : documentFor env fetch terminal.machine.files (.importFrom name) = .ok document) :
    Ensures (importRules env fetch store name) terminal fun result after =>
      Carries (.importRules document) store terminal result after := by
  apply carries_of_edit (f := .counted)
  have receives := importFrom_receives env fetch name ⟨terminal.machine, store⟩
  rw [show sourceDocument env fetch terminal.machine.files name = _ from found] at receives
  refine receives.mono ?_
  intro result after known
  obtain ⟨start, noted, ran⟩ := known
  refine ⟨start, noted.store, noted.alike, ?_, fun _ _ => .andThen (.count _ _ _) (.pure _)⟩
  rw [Call.perform, Call.work, Editing.runOn_eq, exec_map, ← Editing.runOn_eq, ran]

theorem importRules_refused {env : Environment} {fetch : Text → Fetched} {name : Text} {e : Fault}
    (found : documentFor env fetch terminal.machine.files (.importFrom name) = .error e) :
    Ensures (importRules env fetch store name) terminal fun result after =>
      (result = .error e ∧ after.machine.files = terminal.machine.files) ∧
        after.outlets = terminal.outlets := by
  have receives := importFrom_receives env fetch name ⟨terminal.machine, store⟩
  rw [show sourceDocument env fetch terminal.machine.files name = _ from found] at receives
  refine .bind (edit_spec receives) ?_ ?_
  · rintro _ middle ⟨⟨_, editor, ⟨rfl, -⟩, -, told⟩, -⟩
    cases told
  · rintro _ middle ⟨⟨_, editor, ⟨rfl, noted⟩, machine, told⟩, outlets⟩
    cases told
    exact ⟨⟨rfl, (congrArg Machine.files machine).trans noted.alike.files⟩, outlets⟩

end Carrying

/--
How an invocation ends once all is read. Without an operation nothing is done to the files. An outlet
can bring it to its end behind all that is done.
-/
def Task.Ends (task : Task) (outlets : Outlets) (machine : Machine) (result : Except Fault Nat)
    (after : Machine) : Prop :=
  match task.call? with
  | none =>
      (result = .ok exitDone ∨ result = .ok exitRefused ∨ IsUnprinted outlets result) ∧
        after.files = machine.files
  | some call => ∃ editor, editor.store = task.store ∧ machine.Alike editor.machine ∧
      (result = (call.perform editor).1.map (fun _ => exitDone) ∨
        (call.perform editor).1.isOk = true ∧ IsUnprinted outlets result) ∧
      after = (call.perform editor).2.machine

/-- How an invocation ends for what it is to do, or for what cannot be read. -/
def Performs (task : Except Fault Task) (outlets : Outlets) (machine : Machine)
    (result : Except Fault Nat) (after : Machine) : Prop :=
  match task with
  | .error e => result = .error e ∧ after.files = machine.files
  | .ok task => task.Ends outlets machine result after

theorem Performs.behind {task : Except Fault Task} {outlets : Outlets}
    {machine start after : Machine} {result : Except Fault Nat}
    (h : Performs task outlets start result after) (alike : machine.Alike start) :
    Performs task outlets machine result after := by
  cases task with
  | error e => exact ⟨h.1, h.2.trans alike.files⟩
  | ok task =>
      unfold Performs Task.Ends at h ⊢
      dsimp only at h ⊢
      split
      · rename_i none
        rw [none] at h
        exact ⟨h.1, h.2.trans alike.files⟩
      · rename_i call some
        rw [some] at h
        obtain ⟨editor, store, alike', told, machine⟩ := h
        exact ⟨editor, store, alike.trans alike', told, machine⟩

section Performing

variable {env : Environment} {fetch : Text → Fetched} {terminal : Terminal} {store : RuleStore}

/-- What is told behind an operation does not change how it ends, but for an outlet. -/
theorem ends_of_carries {work : Session RuleStore} {call : Call}
    (h : Ensures work terminal fun result after => Carries call store terminal result after) :
    Ensures (do
      let later ← work
      reportReload later
      return exitDone) terminal fun result after =>
        Task.Ends ⟨store, some call⟩ terminal.outlets terminal.machine result after.machine ∧
          after.outlets = terminal.outlets := by
  refine .bind h ?_ ?_
  · rintro later middle ⟨editor, start, alike, told, machine, outlets⟩
    have silent : Prints (do
        reportReload later
        return exitDone) exitDone := .andThen (.reportReload later) (.pure exitDone)
    refine (silent middle).mono ?_
    rintro result after ⟨said, same, outlets'⟩
    rw [outlets] at said
    refine ⟨⟨editor, start, alike, ?_, same.trans machine⟩, outlets'.trans outlets⟩
    rcases told with told | ⟨-, -, failure, ⟨⟩⟩
    cases performed : (call.perform editor).1 with
    | ok answer => exact said.imp id fun unprinted => ⟨rfl, unprinted⟩
    | error e =>
        rw [performed] at told
        cases told
  · rintro e middle ⟨editor, start, alike, told, machine, outlets⟩
    refine ⟨⟨editor, start, alike, ?_, machine⟩, outlets⟩
    rcases told with told | ⟨ok, refuse, failure, ⟨⟩⟩
    · cases performed : (call.perform editor).1 with
      | ok answer =>
          rw [performed] at told
          cases told
      | error e' =>
          rw [performed] at told
          cases told
          exact .inl rfl
    · exact .inr ⟨ok, refuse, failure, rfl⟩

/-- What only prints ends as a task without an operation does. -/
theorem ends_of_prints {session : Session Nat} {code : Nat} (prints : Prints session code)
    (known : code = exitDone ∨ code = exitRefused) :
    Ensures session terminal fun result after =>
      Task.Ends ⟨store, none⟩ terminal.outlets terminal.machine result after.machine ∧
        after.outlets = terminal.outlets := by
  refine (prints terminal).mono ?_
  rintro result after ⟨told, machine, outlets⟩
  refine ⟨⟨?_, congrArg Machine.files machine⟩, outlets⟩
  rcases told with rfl | unprinted
  · exact known.imp (congrArg Except.ok) fun same => .inl (congrArg Except.ok same)
  · exact .inr (.inr unprinted)

theorem performEdit_spec {command : Command} (editing : command.edits = true)
    (nobody : store.subscribers = []) :
    Ensures (performEdit env fetch store command) terminal fun result after =>
      Performs ((documentFor env fetch terminal.machine.files command).map
        fun document => ⟨store, command.call? document⟩) terminal.outlets terminal.machine result
          after.machine ∧ after.outlets = terminal.outlets := by
  cases command with
  | addHost name => exact ends_of_carries (addHost_carries nobody name)
  | removeHost name => exact ends_of_carries (removeHost_carries name)
  | addRule line =>
      change Ensures _ terminal fun result after =>
        Task.Ends ⟨store, (RuleDocument.parseLine line).map .addElementRule⟩ terminal.outlets
          terminal.machine result after.machine ∧ after.outlets = terminal.outlets
      unfold performEdit
      dsimp only
      cases RuleDocument.parseLine line with
      | none => exact ends_of_prints (.andThen (.printError _) (.pure exitRefused)) (.inr rfl)
      | some rule => exact ends_of_carries (addRule_carries nobody rule)
  | removeRule line =>
      change Ensures _ terminal fun result after =>
        Task.Ends ⟨store, (RuleDocument.parseLine line).map .removeElementRule⟩ terminal.outlets
          terminal.machine result after.machine ∧ after.outlets = terminal.outlets
      cases parsed : RuleDocument.parseLine line with
      | none =>
          have silent : Prints (do
              let later ← removeRule store line
              reportReload later
              return exitDone) exitDone :=
            .andThen (removeRule_prints parsed) (.andThen (.reportReload store) (.pure exitDone))
          exact ends_of_prints silent (.inl rfl)
      | some rule => exact ends_of_carries (removeRule_carries parsed)
  | importFrom name =>
      cases found : documentFor env fetch terminal.machine.files (.importFrom name) with
      | error e =>
          refine .bind (importRules_refused found) ?_ fun _ _ refused => ?_
          · rintro _ _ ⟨⟨⟨⟩, -⟩, -⟩
          · obtain ⟨⟨⟨⟩, files⟩, outlets⟩ := refused
            exact ⟨⟨rfl, files⟩, outlets⟩
      | ok document => exact ends_of_carries (importRules_carries found)
  | clearRules => exact ends_of_carries clearRules_carries
  | reload => exact ends_of_carries reload_carries
  | exportTo target => cases editing
  | list => cases editing
  | filterList => cases editing
  | serve => cases editing

end Performing

theorem fresh_of_ofSettings {settings : Settings} {env : Environment} {store : RuleStore}
    (h : RuleStore.ofSettings settings env = .ok store) :
    ∃ propagator, store = fresh store.storage (some propagator) store.lowersHosts := by
  obtain ⟨storage, -, h⟩ := exists_of_bind_ok h
  obtain ⟨propagator, -, h⟩ := exists_of_bind_ok h
  cases h
  exact ⟨propagator, rfl⟩

section Invocations

variable {env : Environment} {fetch : Text → Fetched} {requests : List Bytes}
  {invocation : Invocation}

theorem settingsFor_spec (terminal : Terminal) :
    Ensures (settingsFor env invocation) terminal fun result after =>
      (result = configured env terminal.machine.files invocation ∧
        after.machine = terminal.machine) ∧ after.outlets = terminal.outlets := by
  unfold settingsFor configured Invocation.settle
  refine .bind (demand_spec _ terminal) ?_ ?_
  · rintro path middle ⟨⟨found, same⟩, outlets⟩
    rw [← found]
    refine .bind (act_spec (Action.ask_spec _ middle.machine)) ?_ ?_
    · rintro settings asked ⟨⟨loaded, same'⟩, outlets'⟩
      rw [same] at loaded same'
      rw [outlets] at outlets'
      dsimp only [bind, Except.bind]
      rw [← loaded]
      rcases invocation.dataDirectory with _ | _ | ⟨c, directory⟩
      · exact .pure ⟨⟨rfl, same'⟩, outlets'⟩
      · exact .pure ⟨⟨rfl, same'⟩, outlets'⟩
      · exact .pure ⟨⟨rfl, same'⟩, outlets'⟩
    · rintro e asked ⟨⟨loaded, same'⟩, outlets'⟩
      rw [same] at loaded same'
      dsimp only [bind, Except.bind]
      rw [← loaded]
      exact ⟨⟨rfl, same'⟩, outlets'.trans outlets⟩
  · rintro e middle ⟨⟨found, same⟩, outlets⟩
    rw [← found]
    exact ⟨⟨rfl, same⟩, outlets⟩

theorem load_loads (store : RuleStore) (terminal : Terminal) :
    Ensures (edit store RuleStore.load) terminal fun result after =>
      (terminal.machine.Alike after.machine ∧
        result = (RuleStore.read store.storage store.lowersHosts terminal.machine.files).map
          fun rules => ((), store.withRules rules)) ∧ after.outlets = terminal.outlets := by
  refine (edit_spec (load_spec ⟨terminal.machine, store⟩)).mono ?_
  rintro result after ⟨⟨ended, editor, ⟨alike, known⟩, machine, told⟩, outlets⟩
  rw [machine, told]
  refine ⟨⟨alike, ?_⟩, outlets⟩
  dsimp only at known
  split at known
  · rename_i rules found
    obtain ⟨rfl, loaded⟩ := known
    rw [found, loaded]
    rfl
  · rename_i e found
    obtain ⟨rfl, -⟩ := known
    rw [found]
    rfl

/-- Opening a store: the settings are read, and then the rules that are stored. -/
theorem openThen {k : RuleStore → Session Nat} {terminal : Terminal}
    {post : Except Fault Nat → Terminal → Prop}
    (ok : ∀ store later, opened env terminal.machine.files invocation = .ok store →
      terminal.machine.Alike later.machine → later.outlets = terminal.outlets →
      store.subscribers = [] → Ensures (k store) later post)
    (failed : ∀ e later, opened env terminal.machine.files invocation = .error e →
      terminal.machine.Alike later.machine → later.outlets = terminal.outlets →
      post (.error e) later) :
    Ensures (do
      let settings ← settingsFor env invocation
      let store ← demand (RuleStore.ofSettings settings env)
      let (_, store) ← edit store RuleStore.load
      k store) terminal post := by
  refine .bind (settingsFor_spec terminal) ?_ ?_
  · rintro settings configured ⟨⟨found, same⟩, outlets⟩
    refine .bind (demand_spec _ configured) ?_ ?_
    · rintro store described ⟨⟨named, same'⟩, outlets'⟩
      have start : described.machine = terminal.machine := same'.trans same
      have opens : opened env terminal.machine.files invocation =
          (RuleStore.read store.storage store.lowersHosts terminal.machine.files).map
            store.withRules := by
        unfold opened
        rw [← found]
        dsimp only [bind, Except.bind]
        rw [← named]
        rfl
      have loads := load_loads store described
      rw [start] at loads
      refine .bind loads ?_ ?_
      · rintro ⟨⟨⟩, later⟩ loaded ⟨⟨alike, told⟩, outlets''⟩
        cases read : RuleStore.read store.storage store.lowersHosts terminal.machine.files with
        | error e =>
            rw [read] at told
            cases told
        | ok rules =>
            rw [read] at told opens
            cases told
            obtain ⟨propagator, fresh⟩ := fresh_of_ofSettings named.symm
            refine ok _ loaded opens alike (outlets''.trans (outlets'.trans outlets)) ?_
            rw [fresh]
            rfl
      · rintro e loaded ⟨⟨alike, told⟩, outlets''⟩
        cases read : RuleStore.read store.storage store.lowersHosts terminal.machine.files with
        | error e' =>
            rw [read] at told opens
            cases told
            exact failed e loaded opens alike (outlets''.trans (outlets'.trans outlets))
        | ok rules =>
            rw [read] at told
            cases told
    · rintro e described ⟨⟨named, same'⟩, outlets'⟩
      refine failed e described ?_ ?_ (outlets'.trans outlets)
      · unfold opened
        rw [← found]
        dsimp only [bind, Except.bind]
        rw [← named]
      · rw [same', same]
        exact .refl _
  · rintro e configured ⟨⟨found, same⟩, outlets⟩
    refine failed e configured ?_ ?_ outlets
    · unfold opened
      rw [← found]
      rfl
    · rw [same]
      exact .refl _

/-- An editing command ends as its task does, or with the fault that keeps it from having one. -/
theorem perform_spec (editing : invocation.command.edits = true) (terminal : Terminal) :
    Ensures (perform env fetch requests invocation) terminal fun result after =>
      Performs (taskOf env fetch terminal.machine.files invocation) terminal.outlets
        terminal.machine result after.machine ∧ after.outlets = terminal.outlets := by
  -- An edit comes behind both choices of the command.
  have shape : perform env fetch requests invocation = (do
      let settings ← settingsFor env invocation
      let store ← demand (RuleStore.ofSettings settings env)
      let (_, store) ← edit store RuleStore.load
      performEdit env fetch store invocation.command) := by
    obtain ⟨file, directory, verbose, command⟩ := invocation
    cases command with
    | exportTo target => cases editing
    | list => cases editing
    | filterList => cases editing
    | serve => cases editing
    | _ => rfl
  rw [shape]
  refine openThen (k := fun store => performEdit env fetch store invocation.command) ?_ ?_
  · intro store later opens alike outlets nobody
    refine (performEdit_spec editing nobody).mono ?_
    rintro result after ⟨performs, outlets'⟩
    have task : taskOf env fetch terminal.machine.files invocation =
        (documentFor env fetch terminal.machine.files invocation.command).map
          fun document => ⟨store, invocation.command.call? document⟩ := by
      unfold taskOf
      rw [opens]
      rfl
    rw [alike.files, outlets] at performs
    rw [task]
    exact ⟨performs.behind alike, outlets'.trans outlets⟩
  · intro e later opens alike outlets
    unfold taskOf
    rw [opens]
    exact ⟨⟨rfl, alike.files⟩, outlets⟩

def endingOf : Except Fault Nat → Ending
  | .ok code => .exit code
  | .error (.notPropagated _ _) => .exit exitPartly
  | .error e => if isReported e then .exit exitRefused else .broken e

/-- Any fault but a propagation error is reported as an error, or it ends the program. -/
theorem endingOf_error {e : Fault}
    (other : ∀ listFault channelFault, e ≠ .notPropagated listFault channelFault) :
    endingOf (.error e) = if isReported e then .exit exitRefused else .broken e := by
  unfold endingOf
  split
  · rename_i same
    cases same
  · rename_i same
    cases same
    exact absurd rfl (other _ _)
  · rename_i same
    cases same
    rfl

/-- A fault is reported, unless an outlet refuses that; one that is not reported ends the program. -/
theorem report_spec (e : Fault) (terminal : Terminal) :
    Ensures (report e) terminal fun told after =>
      (told = .ok (endingOf (.error e)) ∨
        (∃ code, endingOf (.error e) = .exit code) ∧ IsUnprinted terminal.outlets told) ∧
      after.machine = terminal.machine := by
  have ends (t : Text) (code : Nat) : Ensures (do
      printError t
      return Ending.exit code) terminal fun told after =>
        (told = .ok (.exit code) ∨ IsUnprinted terminal.outlets told) ∧
          after.machine = terminal.machine := by
    refine (Prints.andThen (.printError t) (.pure (Ending.exit code)) terminal).mono ?_
    rintro told after ⟨said, machine, -⟩
    exact ⟨said, machine⟩
  unfold report
  split
  · refine (ends _ exitPartly).mono ?_
    rintro told after ⟨said, machine⟩
    exact ⟨said.imp id fun unprinted => ⟨⟨_, rfl⟩, unprinted⟩, machine⟩
  · rename_i other
    rw [endingOf_error other]
    split
    · refine (ends _ exitRefused).mono ?_
      rintro told after ⟨said, machine⟩
      exact ⟨said.imp id fun unprinted => ⟨⟨_, rfl⟩, unprinted⟩, machine⟩
    · exact .pure ⟨.inl rfl, rfl⟩

/--
How a run ends for what its session comes to, unless it is to end with an exit code and an outlet
refuses what is reported.
-/
def EndsAs (outlets : Outlets) (result : Except Fault Nat) (ending : Ending) : Prop :=
  ending = endingOf result ∨ (∃ code, endingOf result = .exit code) ∧ outlets.Refuse ∧
    ∃ failure, ending = .broken (.unprinted failure)

/-- A run with an editing command ends as its task tells, and leaves the files as the task does. -/
theorem run_spec {files : FileTree} {arguments : List Text}
    (accepted : Invocation.read arguments = .ok invocation)
    (editing : invocation.command.edits = true) :
    ∃ result machine, Performs (taskOf env fetch files invocation) env.outlets
        (Machine.start files) result machine ∧
      EndsAs env.outlets result (run env files fetch requests arguments).ending ∧
      (run env files fetch requests arguments).files = machine.files := by
  have ended : Ensures (session env fetch requests invocation)
      ⟨Machine.start files, env.outlets, [], [], []⟩ fun told after => ∃ result,
        Performs (taskOf env fetch files invocation) env.outlets (Machine.start files) result
          after.machine ∧ (told = .ok (endingOf result) ∨
            (∃ code, endingOf result = .exit code) ∧ IsUnprinted env.outlets told) := by
    have performs : Ensures (perform env fetch requests invocation)
        ⟨Machine.start files, env.outlets, [], [], []⟩ _ := perform_spec editing _
    refine .tryCatch (Q := fun told after => ∃ result,
      (Performs (taskOf env fetch files invocation) env.outlets (Machine.start files) result
        after.machine ∧ after.outlets = env.outlets) ∧ told = result.map .exit) ?_ ?_ ?_
    · refine .bind performs ?_ ?_
      · intro code after performs
        exact .pure ⟨.ok code, performs, rfl⟩
      · intro e after performs
        exact ⟨.error e, performs, rfl⟩
    · rintro ending after ⟨result, ⟨performs, -⟩, told⟩
      cases result with
      | ok code =>
          cases told
          exact ⟨.ok code, performs, .inl rfl⟩
      | error e => cases told
    · rintro e after ⟨result, ⟨performs, outlets⟩, told⟩
      cases result with
      | ok code => cases told
      | error e' =>
          cases told
          refine (report_spec e after).mono ?_
          rintro told final ⟨said, same⟩
          rw [outlets] at said
          rw [← same] at performs
          exact ⟨.error e, performs, said⟩
  obtain ⟨result, performs, told⟩ := ended
  unfold run
  rw [accepted]
  refine ⟨result, _, performs, ?_, rfl⟩
  unfold exec at told
  dsimp only
  rcases told with told | ⟨exits, refuse, failure, told⟩
  · rw [told]
    exact .inl rfl
  · rw [told]
    exact .inr ⟨exits, refuse, failure, rfl⟩

end Invocations

end SiteFilter.CommandLine
