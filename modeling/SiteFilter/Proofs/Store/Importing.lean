import SiteFilter.Proofs.Store.SuccessfulRuns

/-!
# Importing

A document is imported at once, but that comes to the same as adding its rules one after another:
the same rules in the same order, the same files in the end, and as many new rules as there are
calls that say so. Only what is written on the way differs.
-/

namespace SiteFilter.RuleStore

open FileTree

/-! ## What becomes of the rules -/

def adding (document : Text) : List Call :=
  (RuleDocument.parse document).map .addElementRule

def withDocument (rules : RuleSet) (document : Text) : RuleSet :=
  ⟨rules.hosts, (RuleDocument.parse document).foldl addNew rules.elementRules⟩

variable {rules final : RuleSet} {lowersHosts : Bool} {entries : List Entry}

/-- Calls that add rules say of each whether it was new, and as many rules come as are new. -/
theorem Traces.adding {items : List ElementRule} (h : Traces lowersHosts rules entries final)
    (calls : entries.map (·.call) = items.map .addElementRule) :
    final = ⟨rules.hosts, items.foldl addNew rules.elementRules⟩ ∧
      final.elementRules.length = rules.elementRules.length + entries.countP (·.changes) ∧
      ∀ entry ∈ entries, entry.answer = .added entry.changes := by
  -- Rule by rule: what was added so far is part of the rules that the rest of the trace starts from.
  induction h generalizing items with
  | nil rules =>
      obtain rfl := List.map_eq_nil_iff.mp calls.symm
      exact ⟨rfl, rfl, nofun⟩
  | @cons rules final call plan entries asked rest ih =>
      cases items with
      | nil => cases calls
      | cons item items =>
          obtain ⟨rfl, later⟩ := List.cons.inj calls
          obtain ⟨ends, count, answers⟩ := ih later
          cases asked
          rw [List.foldl_cons, List.countP_cons, List.forall_mem_cons]
          by_cases there : item ∈ rules.elementRules
          · have idle : Call.planAddElementRule rules item = .idle (.added false) :=
              if_pos there
            rw [idle] at ends count ⊢
            rw [addNew, if_pos there]
            exact ⟨ends, count, rfl, answers⟩
          · have change : Call.planAddElementRule rules item =
                ⟨some (.elementRules, ⟨rules.hosts, rules.elementRules ++ [item]⟩), .added true⟩ :=
              if_neg there
            rw [change] at ends count ⊢
            rw [addNew, if_neg there]
            refine ⟨ends, ?_, rfl, answers⟩
            rw [count]
            simp [OrderedSets.planned]
            omega

/-- An import asks for the rules that are not there yet, and says how many they are. -/
theorem planned_planImport (rules : RuleSet) (document : Text) :
    OrderedSets.planned rules (Call.planImport rules document) = withDocument rules document ∧
      ∃ count, (Call.planImport rules document).answer = .counted count ∧
        (withDocument rules document).elementRules.length = rules.elementRules.length + count ∧
        (Call.planImport rules document).change.isSome = decide (0 < count) := by
  unfold Call.planImport withDocument
  rw [← Call.append_distinct]
  generalize distinct ((RuleDocument.parse document).filter (· ∉ rules.elementRules)) = added
  cases added with
  | nil =>
      rw [List.append_nil]
      exact ⟨rfl, 0, rfl, rfl, rfl⟩
  | cons rule others => exact ⟨rfl, _, rfl, List.length_append, rfl⟩

/-- An import asks for nothing when all rules of the document are there. -/
theorem planImport_idle {document : Text}
    (there : ∀ rule ∈ RuleDocument.parse document, rule ∈ rules.elementRules) :
    Call.planImport rules document = .idle (.counted 0) := by
  have nothing : (RuleDocument.parse document).filter (· ∉ rules.elementRules) = [] := by
    rw [List.filter_eq_nil_iff]
    intro rule inside
    simpa using there rule inside
  unfold Call.planImport
  rw [nothing]
  rfl

theorem mem_withDocument {rule : ElementRule} {document : Text}
    (inside : rule ∈ RuleDocument.parse document) :
    rule ∈ (withDocument rules document).elementRules :=
  mem_foldl_addNew.mpr (.inr inside)

/-! ## Imports and additions -/

def saysNew : Except Fault Answer → Bool
  | .ok (.added isNew) => isNew
  | _ => false

/-- To import a document whose rules are there gives none and makes nothing but notes. -/
theorem import_again {editor : Editor} {before : RuleSet} {document : Text}
    (done : editor.store.snapshot = withDocument before document) :
    ((Call.importRules document).perform editor).1 = .ok (.counted 0) ∧
      Noted editor ((Call.importRules document).perform editor).2 := by
  have idle : Call.planImport editor.store.snapshot document = .idle (.counted 0) := by
    apply planImport_idle
    intro rule inside
    rw [done]
    exact mem_withDocument inside
  have planned : (Call.importRules document).plan? editor.store.lowersHosts
      editor.store.snapshot = some (.idle (.counted 0)) := congrArg some idle
  exact perform_idle planned rfl

section Importing

variable {start : Editor} (calm : start.store.IsCalm) {document : Text}

include calm

/-- What an import comes to. -/
theorem import_stands (written : (Call.importRules document).canWrite start = true) :
    ∃ count, ((Call.importRules document).perform start).1 = .ok (.counted count) ∧
      ((Call.importRules document).perform start).2.store.snapshot =
        withDocument start.store.snapshot document ∧
      (withDocument start.store.snapshot document).elementRules.length =
        start.store.elementRules.length + count ∧
      Stands start ((Call.importRules document).perform start).2
        [⟨.importRules document, .counted count, decide (0 < count)⟩] := by
  obtain ⟨planned, count, answer, length, changes⟩ :=
    planned_planImport start.store.snapshot document
  have asked : (Call.importRules document).plan? start.store.lowersHosts start.store.snapshot =
      some (Call.planImport start.store.snapshot document) := rfl
  obtain ⟨answered, stands⟩ := (Stands.refl calm).perform asked written
  have ends := (stands.traces.unique (.cons rfl (.nil _)) rfl).2
  rw [answer] at answered
  rw [List.nil_append, answer, changes] at stands
  exact ⟨count, answered, ends.trans planned, length, stands⟩

/-- What it comes to that the rules of a document are added one after another. -/
theorem adding_stands (written : Call.canWriteAll start (adding document) = true) :
    ∃ entries : List Entry,
      Call.log start (adding document) =
        entries.map (fun entry => (entry.call, .ok (.added entry.changes))) ∧
      (Call.run start (adding document)).store.snapshot =
        withDocument start.store.snapshot document ∧
      (withDocument start.store.snapshot document).elementRules.length =
        start.store.elementRules.length + entries.countP (·.changes) ∧
      (∀ entry ∈ entries, entry.call.isFor .elementRules = true) ∧
      Stands start (Call.run start (adding document)) entries := by
  have each : ∀ call ∈ adding document, call.isFor .elementRules = true := by
    intro call inside
    obtain ⟨rule, -, rfl⟩ := List.mem_map.mp inside
    rfl
  obtain ⟨entries, logged, stands⟩ := Call.run_stands calm
    (fun call inside => by rintro rfl; exact absurd (each _ inside) (by decide)) written
  have calls := Call.calls_of_log logged
  obtain ⟨ends, count, answers⟩ := stands.traces.adding calls
  rw [ends] at count
  refine ⟨entries, ?_, ends, count, ?_, stands⟩
  · rw [logged]
    refine List.map_congr_left fun entry inside => ?_
    rw [answers entry inside]
  · intro entry inside
    apply each
    rw [← calls]
    exact List.mem_map_of_mem inside

end Importing

/--
When all writes succeed, to import a document and to add its rules one after another come to the
same rules and to the same content of every file that requests to reload leave alone. The import
gives the number of the calls that say that their rule is new. To import the document again then
gives none and writes nothing.
-/
theorem import_eq_adding {start : Editor} (calm : start.store.IsCalm) (document : Text)
    (written : (Call.importRules document).canWrite start = true)
    (written' : Call.canWriteAll start (adding document) = true) :
    let imported := ((Call.importRules document).perform start).2
    let added := Call.run start (adding document)
    ((Call.importRules document).perform start).1 =
        .ok (.counted ((Call.log start (adding document)).countP fun given =>
          saysNew given.2)) ∧
      (∀ given ∈ Call.log start (adding document), ∃ isNew, given.2 = .ok (.added isNew)) ∧
      imported.store.snapshot = added.store.snapshot ∧
      (∀ path, ReloadsSpare start path →
        imported.machine.files.contentOf path = added.machine.files.contentOf path) ∧
      ∀ editor ∈ [imported, added],
        ((Call.importRules document).perform editor).1 = .ok (.counted 0) ∧
          Noted editor ((Call.importRules document).perform editor).2 := by
  intro imported added
  obtain ⟨count, answered, rules, length, stands⟩ := import_stands calm written
  obtain ⟨entries, logged, rules', length', own, stands'⟩ := adding_stands calm written'
  have same : count = entries.countP (·.changes) := by omega
  have some : decide (0 < count) = entries.any (·.changes) := by
    rw [Bool.eq_iff_iff, decide_eq_true_iff, same, List.countP_pos_iff, List.any_eq_true]
  have single : ∀ entry ∈ [(⟨.importRules document, .counted count, decide (0 < count)⟩ : Entry)],
      entry.call.isFor .elementRules = true := by
    simp [Call.isFor, Call.part?]
  have touched : touches [⟨.importRules document, .counted count, decide (0 < count)⟩] =
      touches entries := by
    funext part
    rw [touches_eq own, ← some, touches_eq single, List.any_cons, List.any_nil, Bool.or_false]
  refine ⟨?_, ?_, rules.trans rules'.symm, fun path spare => ?_, ?_⟩
  · rw [answered, logged, List.countP_map, same]
    rfl
  · intro given inside
    rw [logged] at inside
    obtain ⟨entry, -, rfl⟩ := List.mem_map.mp inside
    exact ⟨entry.changes, rfl⟩
  · rw [stands.contents path spare, stands'.contents path spare, touched, rules, rules']
  · intro editor inside
    rcases List.mem_pair.mp inside with rfl | rfl
    · exact import_again rules
    · exact import_again rules'

def twoRules : Text :=
  Text.ofString "a.com##.x\nb.com##.y\na.com ## .x"

/-- A document with a rule twice, imported into a new installation. -/
theorem import_eq_adding_new :
    ((Call.importRules twoRules).perform (newEditor true)).1 = .ok (.counted 2) ∧
      (Call.log (newEditor true) (adding twoRules)).map (fun given => saysNew given.2) =
        [true, true, false] ∧
      ((Call.importRules twoRules).perform (newEditor true)).2.store.snapshot =
        (Call.run (newEditor true) (adding twoRules)).store.snapshot ∧
      (∀ path,
        ((Call.importRules twoRules).perform (newEditor true)).2.machine.files.contentOf path =
          (Call.run (newEditor true) (adding twoRules)).machine.files.contentOf path) ∧
      ((Call.importRules twoRules).perform
        ((Call.importRules twoRules).perform (newEditor true)).2).1 = .ok (.counted 0) := by
  have calm : (newEditor true).store.IsCalm := by decide +kernel
  obtain ⟨count, -, rules, files, again⟩ :=
    import_eq_adding calm twoRules (by decide +kernel) (by decide +kernel)
  have news : (Call.log (newEditor true) (adding twoRules)).map (fun given => saysNew given.2) =
      [true, true, false] := by decide +kernel
  have two : ((Call.log (newEditor true) (adding twoRules)).countP fun given =>
      saysNew given.2) = 2 := by decide +kernel
  refine ⟨two ▸ count, news, rules, fun path => ?_, (again _ (by simp)).1⟩
  exact files path (reloadsSpare_of_none (opens_newEditor true).propagator_eq rfl path)

def failingEditor : Editor :=
  subscribed (loadedEditor bareMachine none) (.fail (Text.ofString "no"))

/--
A reload command may tell one propagation from two, and a subscriber that fails keeps an import
from giving its answer.
-/
theorem import_ne_adding :
    (hostEditor.store.IsCalm ∧ (Call.importRules twoRules).canWrite hostEditor = true ∧
      Call.canWriteAll hostEditor (adding twoRules) = true ∧
      ((Call.importRules twoRules).perform hostEditor).2.machine.files.contentOf
          (ownStorage.fileOf hostsKey) ≠
        (Call.run hostEditor (adding twoRules)).machine.files.contentOf
          (ownStorage.fileOf hostsKey)) ∧
      (Call.importRules twoRules).canWrite failingEditor = true ∧
      Call.canWriteAll failingEditor (adding twoRules) = true ∧
      ((Call.importRules twoRules).perform failingEditor).1.isOk = false := by
  refine ⟨⟨by decide +kernel, by decide +kernel, by decide +kernel, by decide +kernel⟩, ?_⟩
  exact ⟨by decide +kernel, by decide +kernel, by decide +kernel⟩

end SiteFilter.RuleStore
