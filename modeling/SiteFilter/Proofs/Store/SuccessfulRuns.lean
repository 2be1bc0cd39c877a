import SiteFilter.Proofs.Store.SuccessfulCalls

/-!
# Runs of calls whose writes succeed

Behind such a run the rules, the answers and the contents of all files are settled by the start and
by which lists were changed: the sinks hold the image of the rules as they are in the end, the file
of a list that was changed holds this list, and nothing else is different.
-/

namespace SiteFilter.RuleStore

open FileTree Effect

/-! ## Contents behind changes -/

/--
The content in the place of a path behind changes of some lists that came to `rules`. What is
written last to a place stays: the payload, the filter list, and before these the file of a list.
-/
def contentBehind (start : Editor) (touched : Part → Bool) (rules : RuleSet) (path : Path) :
    Option Bytes :=
  (if touched .hosts || touched .elementRules then sinksAt start rules path else none).or
    ((if touched .hosts then storedAt start .hosts rules path else none).or
      ((if touched .elementRules then storedAt start .elementRules rules path else none).or
        (start.machine.files.contentOf path)))

section Contents

variable {start : Editor} {part : Part} {rules changed : RuleSet} {path : Path}

theorem storedAt_none (h : storedAt start part rules path = none) (changed : RuleSet) :
    storedAt start part changed path = none :=
  laid_none h _

theorem sinksAt_none (h : sinksAt start rules path = none) (changed : RuleSet) :
    sinksAt start changed path = none := by
  unfold sinksAt at h ⊢
  cases there : start.store.propagator with
  | none => rfl
  | some sinks =>
      rw [there] at h
      obtain ⟨payload, list⟩ := Option.or_eq_none_iff.mp h
      exact Option.or_eq_none_iff.mpr ⟨laid_none payload _, laid_none list _⟩

/-- What is stored for the other list is the same. -/
theorem storedAt_of_spares (spares : part.Spares rules changed) {second : Part}
    (apart : second ≠ part) : storedAt start second changed path =
      storedAt start second rules path := by
  have same : second.value changed = second.value rules := by
    have agrees := spares.agrees apart
    cases second with
    | hosts => exact congrArg hostsValue agrees
    | elementRules => exact congrArg elementRulesValue agrees
  rw [storedAt, Part.octets, Part.encode, same]
  rfl

/-- The files of the two lists are in different places. -/
theorem storedAt_apart {data : Bytes} (h : storedAt start .elementRules rules path = some data) :
    storedAt start .hosts changed path = none := by
  unfold storedAt laid at h ⊢
  split at h
  · rename_i here
    rw [if_neg]
    intro there
    have keys := KeyedStorage.placeOf_injective (there.symm.trans here :
      start.store.storage.placeOf start.machine.files hostsKey =
        start.store.storage.placeOf start.machine.files elementRulesKey)
    exact absurd keys (by decide)
  · cases h

/-- One more change leaves what the rules behind it settle. -/
theorem contentBehind_change (spares : part.Spares rules changed) (touched : Part → Bool) :
    (sinksAt start changed path).or ((storedAt start part changed path).or
        (contentBehind start touched rules path)) =
      contentBehind start (fun second => touched second || decide (second = part)) changed
        path := by
  unfold contentBehind
  -- A place of a sink has the image of the new rules. Any other place has what was stored there
  -- last, and the two lists are never stored in one place.
  cases sinks : sinksAt start changed path with
  | some data => cases part <;> simp
  | none =>
      rw [sinksAt_none sinks rules]
      cases stored : storedAt start part changed path with
      | some data =>
          cases part with
          | hosts => simp [stored]
          | elementRules => simp [stored, storedAt_apart stored]
      | none =>
          have before := storedAt_none stored rules
          cases part with
          | hosts =>
              have other : storedAt start .elementRules changed path = _ :=
                storedAt_of_spares spares (by decide)
              simp [stored, before, other]
          | elementRules =>
              have other : storedAt start .hosts changed path = _ :=
                storedAt_of_spares spares (by decide)
              simp [stored, before, other]

end Contents

/-! ## Runs -/

namespace Call

def log (editor : Editor) : List Call → List (Call × Except Fault Answer)
  | [] => []
  | call :: calls => (call, (call.perform editor).1) :: log (call.perform editor).2 calls

def canWriteAll (editor : Editor) : List Call → Bool
  | [] => true
  | call :: calls => call.canWrite editor && canWriteAll (call.perform editor).2 calls

theorem log_calls (editor : Editor) (calls : List Call) :
    (log editor calls).map (·.1) = calls := by
  induction calls generalizing editor with
  | nil => rfl
  | cons call calls ih => rw [log, List.map_cons, ih]

/-- Entries that a run makes are entries of its calls. -/
theorem calls_of_log {editor : Editor} {calls : List Call} {entries : List Entry}
    (logged : log editor calls = entries.map fun entry => (entry.call, .ok entry.answer)) :
    entries.map (·.call) = calls := by
  rw [← log_calls editor calls, logged, List.map_map]
  rfl

end Call

/-- What is known of a process by what became of the calls since `start`. -/
structure Stands (start editor : Editor) (entries : List Entry) : Prop where
  derives : Derives start editor
  traces : Traces start.store.lowersHosts start.store.snapshot entries editor.store.snapshot
  contents : ∀ path, ReloadsSpare start path → editor.machine.files.contentOf path =
    contentBehind start (touches entries) editor.store.snapshot path

theorem Traces.append {lowersHosts : Bool} {rules middle final : RuleSet}
    {entries more : List Entry} (h : Traces lowersHosts rules entries middle)
    (h' : Traces lowersHosts middle more final) :
    Traces lowersHosts rules (entries ++ more) final := by
  induction h with
  | nil rules => exact h'
  | cons asked rest ih => exact .cons asked (ih h')

theorem touches_concat (entries : List Entry) (entry : Entry) (part : Part) :
    touches (entries ++ [entry]) part =
      (touches entries part || (entry.changes && entry.call.isFor part)) := by
  unfold touches entriesOf
  rw [List.filter_append, List.any_append]
  cases isFor : entry.call.isFor part with
  | true => simp [isFor]
  | false => simp [isFor]

section Runs

variable {start before after : Editor} {entries : List Entry}

theorem Stands.refl (calm : start.store.IsCalm) : Stands start start [] := by
  refine ⟨.refl calm, .nil _, fun path _ => ?_⟩
  simp [contentBehind, touches, entriesOf]

theorem Stands.perform {call : Call} {plan : Call.Plan} (h : Stands start before entries)
    (planned : call.plan? before.store.lowersHosts before.store.snapshot = some plan)
    (written : call.canWrite before = true) :
    (call.perform before).1 = .ok plan.answer ∧
      Stands start (call.perform before).2
        (entries ++ [⟨call, plan.answer, plan.change.isSome⟩]) := by
  obtain ⟨own, found⟩ : ∃ part, call.part? = some part := by
    apply call.exists_part
    rintro rfl
    cases planned
  have traces {after : RuleSet} (behind : OrderedSets.planned before.store.snapshot plan = after) :
      Traces start.store.lowersHosts start.store.snapshot
        (entries ++ [⟨call, plan.answer, plan.change.isSome⟩]) after := by
    rw [h.derives.lowersHosts] at planned
    have last := Traces.cons planned (.nil _)
    rw [behind] at last
    exact h.traces.append last
  rcases change : plan.change with _ | ⟨part, rules⟩
  · obtain ⟨answered, noted⟩ := perform_idle planned change
    have same : touches (entries ++ [⟨call, plan.answer, plan.change.isSome⟩]) =
        touches entries := by
      funext part
      simp [touches_concat, change]
    rw [← change]
    refine ⟨answered, h.derives.trans (.of_noted noted h.derives.calm), traces ?_, ?_⟩
    · rw [OrderedSets.planned, change, noted.store]
    · intro path spare
      rw [noted.alike.files, h.contents path spare, same, noted.store]
  · obtain ⟨rfl, spares⟩ := plan_spares found planned change
    obtain ⟨answered, lands⟩ := perform_lands planned h.derives.calm written change
    have more : touches (entries ++ [⟨call, plan.answer, plan.change.isSome⟩]) =
        fun second => touches entries second || decide (second = part) := by
      funext second
      simp [touches_concat, change, Call.isFor, found, eq_comm]
    rw [← change]
    refine ⟨answered, h.derives.trans lands.derives, traces ?_, fun path spare => ?_⟩
    · rw [OrderedSets.planned, change, lands.snapshot]
    · rw [lands.contents path (h.derives.reloadsSpare spare), h.contents path spare,
        h.derives.sinksAt, h.derives.storedAt, contentBehind_change spares, more, lands.snapshot]

/-- What is known behind a run more. -/
theorem Stands.run {calls : List Call} (h : Stands start before entries)
    (mutating : ∀ call ∈ calls, call ≠ .republish)
    (written : Call.canWriteAll before calls = true) :
    ∃ more : List Entry,
      Call.log before calls = more.map (fun entry => (entry.call, .ok entry.answer)) ∧
        Stands start (Call.run before calls) (entries ++ more) := by
  induction calls generalizing before entries with
  | nil => exact ⟨[], rfl, by rwa [List.append_nil]⟩
  | cons call calls ih =>
      rw [Call.canWriteAll, Bool.and_eq_true] at written
      obtain ⟨plan, planned⟩ := call.exists_plan before.store.lowersHosts before.store.snapshot
        (mutating call List.mem_cons_self)
      obtain ⟨answered, stands⟩ := h.perform planned written.1
      obtain ⟨more, logged, ends⟩ := ih stands
        (fun other inside => mutating other (List.mem_cons_of_mem _ inside)) written.2
      refine ⟨⟨call, plan.answer, plan.change.isSome⟩ :: more, ?_, ?_⟩
      · rw [Call.log, answered, logged, List.map_cons]
      · rwa [List.append_assoc] at ends

/-- Every call of a run gives an answer, and the entries that this makes settle the end. -/
theorem Call.run_stands {calls : List Call} (calm : start.store.IsCalm)
    (mutating : ∀ call ∈ calls, call ≠ .republish)
    (written : Call.canWriteAll start calls = true) :
    ∃ entries : List Entry,
      Call.log start calls = entries.map (fun entry => (entry.call, .ok entry.answer)) ∧
        Stands start (Call.run start calls) entries :=
  (Stands.refl calm).run mutating written

end Runs

/-! ## A reload command that changes what is stored -/

/-- A program that puts a line end behind a file. -/
def lengthening (path : Path) : Programs := fun _ files _ =>
  match files.stat path with
  | .ok (route, .file content) => .ended 0 [] [] (files.put route (.file (content ++ [0x0A])))
  | _ => .ended 1 [] [] files

def lengtheningSinks : Propagator where
  filterListPath := sharedSinks.filterListPath
  channel := sharedSinks.channel
  engine := .text (Text.ofString "engine")
  reloader := .command (lengthening (ownStorage.fileOf hostsKey))
    [.text (Text.ofString "lengthen")] Reloader.defaultTimeout

def pageRule : ElementRule :=
  ⟨Text.ofString "b.org", Text.ofString ".teaser", by decide, by decide, by decide⟩

def pageHost : Text :=
  Text.ofString "a.com"

def hostMachine : Machine :=
  Machine.start
    ((bareMachine.files.put [Text.ofString "data"] .directory).put
      (ownStorage.placeOf bareMachine.files hostsKey)
      (.file ((KeyedStorage.encodeValue .usual (.array [.text pageHost])).toOption.getD [])))

def loadedEditor (machine : Machine) (propagator : Option Propagator) : Editor :=
  (load.runOn ⟨machine, fresh ownStorage propagator true⟩).2

def subscribed (editor : Editor) (reaction : Reaction) : Editor :=
  { editor with store := editor.store.subscribe ⟨Text.ofString "s", reaction⟩ }

/-- A process with a host, whose reload command changes the stored hosts. -/
def hostEditor : Editor :=
  loadedEditor hostMachine (some lengtheningSinks)

end SiteFilter.RuleStore
