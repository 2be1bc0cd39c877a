import SiteFilter.Store.Basic

/-!
# Effects

File actions, actions on a machine and parts of the work of an editor are of one kind: they change
a state and may fail, and a failure keeps what was changed before. What one of them comes to is
told by a condition on its result and on the state behind it.
-/

namespace SiteFilter

/-- What follows on a result gives something only when there is a result. -/
theorem exists_of_bind_ok {α β : Type} {first : Except Fault α} {next : α → Except Fault β} {b : β}
    (h : first >>= next = .ok b) : ∃ a, first = .ok a ∧ next a = .ok b := by
  cases first with
  | ok a => exact ⟨a, rfl, h⟩
  | error e => cases h

/-- What may fail, and changes a state in either case. -/
abbrev Effect (σ α : Type) := ExceptT Fault (StateM σ) α

namespace Effect

variable {σ α β : Type}

def exec (effect : Effect σ α) (s : σ) : Except Fault α × σ :=
  Id.run (StateT.run (ExceptT.run effect) s)

/-- Result and state satisfy a condition when the effect is run from a state. -/
def Ensures (effect : Effect σ α) (s : σ) (post : Except Fault α → σ → Prop) : Prop :=
  post (exec effect s).1 (exec effect s).2

@[simp] theorem exec_pure (a : α) (s : σ) : exec (pure a : Effect σ α) s = (.ok a, s) := rfl

@[simp] theorem exec_throw (e : Fault) (s : σ) :
    exec (throw e : Effect σ α) s = (.error e, s) := rfl

@[simp] theorem exec_get (s : σ) : exec (get : Effect σ σ) s = (.ok s, s) := rfl

@[simp] theorem exec_set (after s : σ) : exec (set after : Effect σ PUnit) s = (.ok ⟨⟩, after) :=
  rfl

@[simp] theorem exec_modify (f : σ → σ) (s : σ) :
    exec (modify f : Effect σ PUnit) s = (.ok ⟨⟩, f s) := rfl

@[simp] theorem exec_bind (first : Effect σ α) (next : α → Effect σ β) (s : σ) :
    exec (first >>= next) s =
      match exec first s with
      | (.ok a, middle) => exec (next a) middle
      | (.error e, middle) => (.error e, middle) := by
  change exec (ExceptT.bind first next) s = _
  unfold exec ExceptT.bind
  simp only [ExceptT.run, ExceptT.mk, StateT.run_bind, Id.run_bind]
  rcases Id.run (StateT.run first s) with ⟨_ | a, middle⟩
  · rfl
  · rfl

@[simp] theorem exec_tryCatch (body : Effect σ α) (handle : Fault → Effect σ α) (s : σ) :
    exec (tryCatch body handle) s =
      match exec body s with
      | (.ok a, middle) => (.ok a, middle)
      | (.error e, middle) => exec (handle e) middle := by
  change exec (ExceptT.tryCatch body handle) s = _
  unfold exec ExceptT.tryCatch
  simp only [ExceptT.run, ExceptT.mk, StateT.run_bind, Id.run_bind]
  rcases Id.run (StateT.run body s) with ⟨_ | a, middle⟩
  · rfl
  · rfl

@[simp] theorem exec_map (f : α → β) (effect : Effect σ α) (s : σ) :
    exec (f <$> effect) s = ((exec effect s).1.map f, (exec effect s).2) := by
  change exec (ExceptT.map f effect) s = _
  unfold exec ExceptT.map
  simp only [ExceptT.run, ExceptT.mk, StateT.run_bind, Id.run_bind]
  rcases Id.run (StateT.run effect s) with ⟨_ | a, after⟩
  · rfl
  · rfl

namespace Ensures

variable {s : σ} {post : Except Fault α → σ → Prop}

theorem pure {a : α} (h : post (.ok a) s) : Ensures (Pure.pure a) s post :=
  h

theorem throw {e : Fault} (h : post (.error e) s) : Ensures (throw e : Effect σ α) s post :=
  h

theorem mono {effect : Effect σ α} {known : Except Fault α → σ → Prop}
    (h : Ensures effect s known) (weaker : ∀ result after, known result after → post result after) :
    Ensures effect s post :=
  weaker _ _ h

/-- What is known of an effect in two ways. -/
theorem and {effect : Effect σ α} {known also : Except Fault α → σ → Prop}
    (h : Ensures effect s known) (h' : Ensures effect s also) :
    Ensures effect s fun result after => known result after ∧ also result after :=
  ⟨h, h'⟩

/-- A sequence: what is known of the first part is what the second starts from. -/
theorem bind {first : Effect σ α} {next : α → Effect σ β} {Q : Except Fault α → σ → Prop}
    {post : Except Fault β → σ → Prop} (h : Ensures first s Q)
    (ok : ∀ a between, Q (.ok a) between → Ensures (next a) between post)
    (failed : ∀ e between, Q (.error e) between → post (.error e) between) :
    Ensures (first >>= next) s post := by
  unfold Ensures at h ⊢
  rw [exec_bind]
  rcases hx : exec first s with ⟨e | a, between⟩
  · rw [hx] at h
    exact failed e between h
  · rw [hx] at h
    exact ok a between h

/-- A sequence whose first part cannot fail. -/
theorem bindOk {first : Effect σ α} {next : α → Effect σ β} {a : α} {Q : σ → Prop}
    {post : Except Fault β → σ → Prop}
    (h : Ensures first s fun result between => result = .ok a ∧ Q between)
    (ok : ∀ between, Q between → Ensures (next a) between post) :
    Ensures (first >>= next) s post := by
  refine .bind h ?_ ?_
  · rintro _ between ⟨same, known⟩
    cases same
    exact ok between known
  · rintro _ _ ⟨same, -⟩
    cases same

theorem pureThen {a : α} {next : α → Effect σ β} {post : Except Fault β → σ → Prop}
    (h : Ensures (next a) s post) : Ensures (Pure.pure a >>= next) s post := by
  simpa [Ensures] using h

theorem getThen {next : σ → Effect σ α} (h : Ensures (next s) s post) :
    Ensures (MonadState.get >>= next) s post := by
  simpa [Ensures] using h

theorem setThen {next : PUnit → Effect σ α} {after : σ} (h : Ensures (next ⟨⟩) after post) :
    Ensures (MonadStateOf.set after >>= next) s post := by
  simpa [Ensures] using h

theorem change {post : Except Fault PUnit → σ → Prop} {f : σ → σ}
    (h : post (.ok ⟨⟩) (f s)) : Ensures (modify f : Effect σ PUnit) s post :=
  h

theorem changeThen {next : PUnit → Effect σ α} {f : σ → σ}
    (h : Ensures (next ⟨⟩) (f s) post) : Ensures (modify f >>= next) s post := by
  simpa [Ensures] using h

theorem map {effect : Effect σ α} {f : α → β} {post : Except Fault β → σ → Prop}
    (h : Ensures effect s fun result after => post (result.map f) after) :
    Ensures (f <$> effect) s post := by
  simpa [Ensures] using h

theorem tryCatch {body : Effect σ α} {handle : Fault → Effect σ α}
    {Q : Except Fault α → σ → Prop} (h : Ensures body s Q)
    (ok : ∀ a between, Q (.ok a) between → post (.ok a) between)
    (failed : ∀ e between, Q (.error e) between → Ensures (handle e) between post) :
    Ensures (tryCatch body handle) s post := by
  unfold Ensures at h ⊢
  rw [exec_tryCatch]
  rcases hx : exec body s with ⟨e | a, between⟩
  · rw [hx] at h
    exact failed e between h
  · rw [hx] at h
    exact ok a between h

/-- What every round preserves holds when the loop ends, in whatever way. -/
theorem forM {holds : σ → Prop} {items : List α} {each : α → Effect σ PUnit}
    (step : ∀ a s, holds s → Ensures (each a) s fun _ after => holds after) (start : holds s) :
    Ensures (items.forM each) s fun _ after => holds after := by
  induction items generalizing s with
  | nil => exact .pure start
  | cons item items ih => exact .bind (step item s start) (fun _ _ => ih) fun _ _ known => known

end Ensures

/-! ## What an effect fails with -/

def FailsOnly (due : Fault → Prop) (effect : Effect σ α) : Prop :=
  ∀ s, Ensures effect s fun result _ => ∀ e, result = .error e → due e

namespace FailsOnly

variable {due : Fault → Prop}

theorem mono {wider : Fault → Prop} {effect : Effect σ α} (h : FailsOnly due effect)
    (weaker : ∀ e, due e → wider e) : FailsOnly wider effect :=
  fun s e failed => weaker e (h s e failed)

@[grind ←] theorem pure (a : α) : FailsOnly due (Pure.pure a : Effect σ α) :=
  fun _ => .pure nofun

@[grind ←] theorem throw {e : Fault} (h : due e) : FailsOnly due (throw e : Effect σ α) := by
  rintro s _ ⟨⟩
  exact h

@[grind ←] theorem get : FailsOnly due (MonadState.get : Effect σ σ) :=
  fun _ => nofun

@[grind ←] theorem set (s : σ) : FailsOnly due (MonadStateOf.set s : Effect σ PUnit) :=
  fun _ => nofun

@[grind ←] theorem modify (f : σ → σ) : FailsOnly due (modify f : Effect σ PUnit) :=
  fun _ => nofun

@[grind ←] theorem bind {first : Effect σ α} {next : α → Effect σ β} (h : FailsOnly due first)
    (h' : ∀ a, FailsOnly due (next a)) : FailsOnly due (first >>= next) := by
  intro s
  refine .bind (h s) (fun a between _ => h' a between) ?_
  rintro e between failed _ ⟨⟩
  exact failed e rfl

@[grind ←] theorem tryCatch {body : Effect σ α} {handle : Fault → Effect σ α}
    (h : FailsOnly due body) (handled : ∀ e, due e → FailsOnly due (handle e)) :
    FailsOnly due (tryCatch body handle) :=
  fun s => .tryCatch (h s) (fun _ _ _ => nofun) fun e _ failed => handled e (failed e rfl) _

theorem map {effect : Effect σ α} (f : α → β) (h : FailsOnly due effect) :
    FailsOnly due (f <$> effect) := by
  intro s
  refine .map ((h s).mono ?_)
  rintro (e | a) after failed _ ⟨⟩
  exact failed e rfl

@[grind ←] theorem forM {items : List α} {each : α → Effect σ PUnit}
    (h : ∀ a, FailsOnly due (each a)) : FailsOnly due (items.forM each) := by
  induction items with
  | nil => exact .pure _
  | cons item items ih => exact .bind (h item) fun _ => ih

end FailsOnly

end Effect

/-! ## The kinds of effects -/

open Effect

variable {α : Type}

@[simp] theorem FileAction.exec_ask (question : FileTree → Except Fault α) (tree : FileTree) :
    exec (ask question) tree = (question tree, tree) := by
  simp only [ask, exec_bind, exec_get]
  cases question tree <;> rfl

namespace Action

theorem runOn_eq (action : Action α) (machine : Machine) :
    action.runOn machine = exec action machine :=
  rfl

@[simp] theorem exec_record (event : Event) (machine : Machine) :
    exec (record event) machine = (.ok (), { machine with journal := event :: machine.journal }) :=
  rfl

@[simp] theorem exec_note (level : Level) (source : String) (message : Text) (machine : Machine) :
    exec (note level source message) machine =
      (.ok (), { machine with journal := .noted ⟨level, source, message⟩ :: machine.journal }) :=
  rfl

@[simp] theorem exec_ofExcept (answer : Except Fault α) (machine : Machine) :
    exec (ofExcept answer) machine = (answer, machine) := by
  cases answer <;> rfl

@[simp] theorem exec_ask (question : FileTree → Except Fault α) (machine : Machine) :
    exec (ask question) machine = (question machine.files, machine) := by
  simp [ask]

@[simp] theorem exec_onFiles (change : FileAction α) (machine : Machine) :
    exec (onFiles change) machine = ((exec change machine.files).1,
      { machine with files := (exec change machine.files).2 }) := by
  have runs : Id.run (StateT.run (ExceptT.run change) machine.files) = exec change machine.files :=
    rfl
  simp [onFiles, runs]

/-- The outcome of an action is what the action comes to. -/
@[simp] theorem exec_outcome (action : Action α) (machine : Machine) :
    exec (outcome action) machine = (.ok (exec action machine).1, (exec action machine).2) :=
  rfl

end Action

namespace Editing

theorem runOn_eq (editing : Editing α) (editor : Editor) :
    editing.runOn editor = exec editing editor :=
  rfl

@[simp] theorem exec_store (editor : Editor) : exec store editor = (.ok editor.store, editor) :=
  rfl

@[simp] theorem exec_modifyStore (change : RuleStore → RuleStore) (editor : Editor) :
    exec (modifyStore change) editor = (.ok (), { editor with store := change editor.store }) :=
  rfl

@[simp] theorem exec_act (action : Action α) (editor : Editor) :
    exec (act action) editor = ((exec action editor.machine).1,
      { editor with machine := (exec action editor.machine).2 }) := by
  simp only [act, exec_bind, exec_get, exec_set, Action.runOn_eq]
  cases (exec action editor.machine).1 <;> rfl

@[simp] theorem exec_outcome (editing : Editing α) (editor : Editor) :
    exec (outcome editing) editor = (.ok (exec editing editor).1, (exec editing editor).2) :=
  rfl

end Editing

end SiteFilter
