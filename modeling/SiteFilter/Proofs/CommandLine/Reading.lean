import SiteFilter.Proofs.CommandLine.Tasks

/-!
# Faults of reading

A command that cannot read its settings, the stored rules or its document ends with a fault of its
own kind: it is never told as a propagation that failed.
-/

namespace SiteFilter

/-- A result that is no propagation error. -/
def IsOfReading {α : Type} (result : Except Fault α) : Prop :=
  ∀ listFault channelFault, result ≠ .error (.notPropagated listFault channelFault)

namespace IsOfReading

variable {α β : Type}

theorem ok (a : α) : IsOfReading (.ok a : Except Fault α) :=
  fun _ _ => nofun

theorem bind {first : Except Fault α} {next : α → Except Fault β} (h : IsOfReading first)
    (h' : ∀ a, IsOfReading (next a)) : IsOfReading (first >>= next) := by
  cases first with
  | ok a => exact h' a
  | error e =>
      rintro listFault channelFault same
      cases same
      exact h _ _ rfl

/-- A fault that was met in reading may be passed on. -/
theorem passOn {result : Except Fault α} {e : Fault} (h : IsOfReading result)
    (met : result = .error e) : IsOfReading (.error e : Except Fault β) := by
  rintro listFault channelFault same
  cases same
  exact h _ _ met

theorem home? (env : Environment) (name : Text) : IsOfReading (env.home? name) := by
  unfold Environment.home?
  (repeat' split) <;> exact fun _ _ => nofun

theorem expand (env : Environment) (path : Path) : IsOfReading (env.expand path) := by
  unfold Environment.expand
  split
  · split
    · split
      · rename_i unknown
        exact (home? env _).passOn unknown
      · exact fun _ _ => nofun
      · dsimp only
        split <;> exact fun _ _ => nofun
    · exact ok _
  · exact ok _

theorem ownDirectory (env : Environment) (name : String) (usual : List String) :
    IsOfReading (env.ownDirectory name usual) :=
  (expand env _).bind fun _ => ok _

theorem find (files : FileTree) (path : Path) : IsOfReading (files.find path) := by
  unfold FileTree.find
  dsimp only
  (repeat' split) <;> exact fun _ _ => nofun

theorem stat (files : FileTree) (path : Path) : IsOfReading (files.stat path) := by
  refine (find files path).bind fun route => ?_
  split <;> exact fun _ _ => nofun

theorem look (files : FileTree) (path : Path) : IsOfReading (files.look path) := by
  rintro listFault channelFault same
  obtain ⟨cause, other⟩ := FileTree.look_error same
  cases other

theorem has (files : FileTree) (path : Path) : IsOfReading (files.has path) := by
  unfold FileTree.has
  split
  · exact ok _
  · rename_i refused
    exact (look files path).passOn refused

theorem readText (files : FileTree) (path : Path) : IsOfReading (files.readText path) := by
  have read : IsOfReading (files.read path) := by
    refine (stat files path).bind ?_
    rintro ⟨route, _ | content | _⟩ <;> exact fun _ _ => nofun
  refine read.bind fun content => ?_
  split <;> exact fun _ _ => nofun

theorem ofReadError (e : Json.ReadError) :
    IsOfReading (.error (.ofReadError e) : Except Fault α) := by
  rintro listFault channelFault same
  cases e <;> cases same

theorem ofJson (document : Json) : IsOfReading (Settings.ofJson document) := by
  unfold Settings.ofJson
  split
  · dsimp only
    split <;> exact fun _ _ => nofun
  · exact fun _ _ => nofun

theorem load (limits : Json.Limits) (files : FileTree) (path : Path) :
    IsOfReading (Settings.load limits files path) := by
  refine (has files path).bind fun there => ?_
  split
  · refine (readText files path).bind fun t => ?_
    split
    · exact ofJson _
    · exact ofReadError _
  · exact ok _

/-! ### Places -/

theorem joinValue (path : Path) (value : Json) : IsOfReading (path.joinValue value) := by
  unfold Path.joinValue
  split <;> exact fun _ _ => nofun

theorem resolveDataDirectory (settings : Settings) (env : Environment) :
    IsOfReading (settings.resolveDataDirectory env) := by
  unfold Settings.resolveDataDirectory
  split
  · exact expand env _
  · split
    · split
      · exact expand env _
      · exact fun _ _ => nofun
    · exact ownDirectory env _ _

theorem groupDirectory (settings : Settings) (env : Environment) :
    IsOfReading (settings.groupDirectory env) :=
  (resolveDataDirectory settings env).bind fun _ => joinValue _ _

theorem ofCommand (programs : Programs) (command : Json) :
    IsOfReading (Reloader.ofCommand programs command) := by
  unfold Reloader.ofCommand Reloader.ofWords
  (repeat' split) <;> exact fun _ _ => nofun

theorem ofSettings (settings : Settings) (env : Environment) :
    IsOfReading (RuleStore.ofSettings settings env) := by
  have storage : IsOfReading (settings.ownStorageDirectory env) :=
    (resolveDataDirectory settings env).bind fun _ => ok _
  have list : IsOfReading (settings.filterListPath env) :=
    (groupDirectory settings env).bind fun _ => joinValue _ _
  have channel : IsOfReading (settings.groupStorageDirectory env) :=
    (groupDirectory settings env).bind fun _ => ok _
  have propagator : IsOfReading (Propagator.ofSettings settings env) :=
    list.bind fun _ => channel.bind fun _ => (ofCommand env.programs _).bind fun _ => ok _
  exact storage.bind fun _ => propagator.bind fun _ => ok _

/-! ### Stored rules and documents -/

theorem get? (storage : KeyedStorage) (files : FileTree) (key : Text) :
    IsOfReading (storage.get? files key) := by
  have pathOf : IsOfReading (storage.pathOf key) := by
    unfold KeyedStorage.pathOf
    split <;> exact fun _ _ => nofun
  refine pathOf.bind fun path => (has files path).bind fun there => ?_
  have value : IsOfReading (KeyedStorage.readValue storage.limits files path) := by
    refine (readText files path).bind fun t => ?_
    split
    · exact ok _
    · exact ofReadError _
  split
  · split
    · exact ok _
    · exact fun _ _ => nofun
    · exact fun _ _ => nofun
    · rename_i refused
      exact value.passOn refused
  · exact ok _

theorem read (storage : KeyedStorage) (lowersHosts : Bool) (files : FileTree) :
    IsOfReading (RuleStore.read storage lowersHosts files) := by
  have stored : IsOfReading (RuleStore.stored storage files) := by
    refine (get? storage files _).bind fun hosts => (get? storage files _).bind fun rules => ?_
    (repeat' split) <;> exact fun _ _ => nofun
  exact stored.bind fun _ => ok _

theorem documentIn (env : Environment) (files : FileTree) (name : Text) :
    IsOfReading (RuleStore.documentIn env files name) := by
  refine (expand env _).bind fun path => ?_
  split
  · exact ok _
  · exact fun _ _ => nofun
  · exact fun _ _ => nofun
  · rename_i refused
    exact (readText files path).passOn refused

theorem documentOf (address : Text) (fetched : Fetched) :
    IsOfReading (RuleStore.documentOf address fetched) := by
  unfold RuleStore.documentOf
  (repeat' split) <;> exact fun _ _ => nofun

end IsOfReading

namespace CommandLine

/-- What keeps an invocation from having a task is no propagation error. -/
theorem isOfReading_taskOf (env : Environment) (fetch : Text → Fetched) (files : FileTree)
    (invocation : Invocation) : IsOfReading (taskOf env fetch files invocation) := by
  have path : IsOfReading (settingsPath env invocation.settingsFile) := by
    cases invocation.settingsFile with
    | usual => exact (IsOfReading.ownDirectory env _ _).bind fun _ => .ok _
    | named path => exact .ok path
    | unnamed => exact fun _ _ => nofun
  have settings : IsOfReading (configured env files invocation) :=
    path.bind fun path => (IsOfReading.load env.limits files path).bind fun _ => .ok _
  have store : IsOfReading (opened env files invocation) :=
    settings.bind fun settings => (IsOfReading.ofSettings settings env).bind fun store =>
      (IsOfReading.read store.storage store.lowersHosts files).bind fun _ => .ok _
  have document : IsOfReading (documentFor env fetch files invocation.command) := by
    unfold documentFor
    split
    · split
      · exact .documentOf _ _
      · exact .documentIn env files _
    · exact .ok _
  exact store.bind fun _ => document.bind fun _ => .ok _

end CommandLine

end SiteFilter
