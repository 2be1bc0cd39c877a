import SiteFilter.Proofs.Store.Runs

/-!
# Changes in the presence of subscribers

A subscriber that is told the rules can add hosts, and a fault of its own can end the call. It takes
no rule away and leaves the element rules alone, so that a change of these is always the one that
was asked for, unless the storage refused it.
-/

namespace SiteFilter.RuleStore

open Effect Editing

/-- The same rules but for hosts that were added. -/
structure Grows (rules after : RuleSet) : Prop where
  elementRules : after.elementRules = rules.elementRules
  hosts : rules.hosts <+: after.hosts

theorem Grows.refl (rules : RuleSet) : Grows rules rules :=
  ⟨rfl, List.prefix_refl _⟩

theorem Grows.trans {rules middle after : RuleSet} (first : Grows rules middle)
    (second : Grows middle after) : Grows rules after :=
  ⟨second.elementRules.trans first.elementRules, first.hosts.trans second.hosts⟩

/--
A change to `rules`, unless storing them ended in a fault of the storage. Then this is how the call
ends, and everything is as it was.
-/
def Turns {α : Type} (before rules : RuleSet) (stored : Except Fault Unit)
    (result : Except Fault α) (after : RuleSet) : Prop :=
  (∃ e, stored = .error e ∧ result = .error e ∧ e.isOfStorage = true ∧ after = before) ∨
    Grows rules after

section Turns

variable {α β : Type} {before rules after : RuleSet} {stored : Except Fault Unit}
  {result : Except Fault α}

theorem Turns.grows (h : Turns before rules stored result after) (more : Grows before rules) :
    Grows before after := by
  rcases h with ⟨_, _, _, _, same⟩ | grows
  · rw [same]
    exact .refl before
  · exact more.trans grows

theorem Turns.map (h : Turns before rules stored result after) (f : α → β) :
    Turns before rules stored (result.map f) after := by
  rcases h with ⟨e, refused, failed, storage, same⟩ | grows
  · exact .inl ⟨e, refused, congrArg (Except.map f) failed, storage, same⟩
  · exact .inr grows

/-- Without a fault of the storage the change was made. -/
theorem Turns.made (h : Turns before rules stored result after)
    (lands : ∀ e, result = .error e → e.isOfStorage = false) : Grows rules after := by
  rcases h with ⟨e, _, failed, storage, _⟩ | grows
  · rw [lands e failed] at storage
    cases storage
  · exact grows

end Turns

/-! ## Telling the rules -/

/-- The rules are told, and only hosts are added. -/
def Tells (announce : RuleSet → Editing Unit) : Prop :=
  ∀ rules editor, Ensures (announce rules) editor fun _ after =>
    Grows editor.store.snapshot after.store.snapshot

theorem act_keeps {α : Type} (action : Action α) (editor : Editor) :
    Ensures (act action) editor fun _ after => after.store = editor.store := by
  have any : Ensures action editor.machine fun _ _ => True := trivial
  exact (act_spec any).mono fun _ _ known => known.1

def storing (editor : Editor) (part : Part) (rules : RuleSet) : Except Fault Unit :=
  ((persist part).runOn { editor with store := editor.store.withRules rules }).1

theorem persist_storing (part : Part) (rules : RuleSet) (editor : Editor) :
    Ensures (persist part) { editor with store := editor.store.withRules rules }
      fun result after =>
        result = storing editor part rules ∧ after.store = editor.store.withRules rules :=
  ⟨rfl, (persist_spec part { editor with store := editor.store.withRules rules }).1⟩

theorem commitWith_turns {announce : RuleSet → Editing Unit} (tells : Tells announce) (part : Part)
    (rules : RuleSet) (editor : Editor) :
    Ensures (commitWith announce part rules) editor fun result after =>
      Turns editor.store.snapshot rules (storing editor part rules) result
        after.store.snapshot := by
  refine commitWith_rule (persist_storing part rules editor) ?_ ?_
  · intro e after known
    cases kind : e.isOfStorage with
    | true =>
        rw [if_pos rfl]
        exact .inl ⟨e, known.1.symm, rfl, kind, rfl⟩
    | false =>
        rw [if_neg Bool.false_ne_true]
        refine .inr ?_
        rw [known.2]
        exact .refl rules
  · intro middle known
    refine (propagate_spec rules middle).mono ?_
    rintro propagated between ⟨core, -⟩
    have there : between.store.snapshot = rules :=
      (snapshot_of_core core).trans (congrArg snapshot known.2)
    refine (tells rules between).mono ?_
    intro told after grows
    rw [there] at grows
    exact .inr grows

theorem addHostWith_grows {announce : RuleSet → Editing Unit} (tells : Tells announce)
    (name : Text) (editor : Editor) :
    Ensures (addHostWith announce name) editor fun _ after =>
      Grows editor.store.snapshot after.store.snapshot := by
  apply Editing.storeThen
  cases HostRule.make (normalizeHost editor.store.lowersHosts name) with
  | error e => exact .pure (.refl _)
  | ok rule =>
      dsimp only
      split
      · exact .pure (.refl _)
      · have more : Grows editor.store.snapshot
            ⟨editor.store.hosts ++ [rule], editor.store.elementRules⟩ :=
          ⟨rfl, List.prefix_append _ _⟩
        refine .bind (commitWith_turns tells .hosts _ editor) ?_ ?_
        · exact fun _ after turns => .pure (turns.grows more)
        · exact fun e after turns => turns.grows more

theorem announce_tells (fuel : Nat) : Tells (announce fuel) := by
  induction fuel with
  | zero => exact fun rules editor => .pure (.refl _)
  | succ fuel ih =>
      intro rules editor
      apply Editing.storeThen
      refine Ensures.forM (fun subscriber middle grown => ?_) (.refl editor.store.snapshot)
      refine .bind (act_keeps _ middle) ?_ ?_
      · intro _ told same
        rw [← same] at grown
        cases subscriber.reaction with
        | silent => exact .pure grown
        | fail reason => exact .throw grown
        | addHost name =>
            refine .bind (addHostWith_grows ih name told) ?_ ?_
            · exact fun _ after more => .pure (grown.trans more)
            · exact fun e after more => grown.trans more
        | unsubscribe name => exact .change grown
      · intro e told same
        rw [same]
        exact grown

theorem commit_turns (part : Part) (rules : RuleSet) (editor : Editor) :
    Ensures (commit part rules) editor fun result after =>
      Turns editor.store.snapshot rules (storing editor part rules) result
        after.store.snapshot := by
  refine commitWith_turns (fun rules editor => ?_) part rules editor
  apply Editing.storeThen
  exact announce_tells _ rules editor

/-! ## Changes of the element rules -/

def without (rules : RuleSet) (rule : ElementRule) : RuleSet :=
  ⟨rules.hosts, rules.elementRules.filter (· ≠ rule)⟩

def including (rules : RuleSet) (document : Text) : RuleSet :=
  ⟨rules.hosts, (RuleDocument.parse document).foldl addNew rules.elementRules⟩

theorem removeElementRule_turns (rule : ElementRule) (editor : Editor) :
    Ensures (removeElementRule rule) editor fun result after =>
      Turns editor.store.snapshot (without editor.store.snapshot rule)
          (storing editor .elementRules (without editor.store.snapshot rule)) result
          after.store.snapshot ∧
        ∀ count, result = .ok count → count = editor.store.elementRules.count rule := by
  apply Editing.storeThen
  dsimp only
  split
  · rename_i absent
    refine .pure ⟨.inr ⟨?_, List.prefix_refl _⟩, ?_⟩
    · symm
      rw [List.count_eq_zero] at absent
      refine List.filter_eq_self.mpr fun other listed => ?_
      simp only [ne_eq, decide_not, Bool.not_eq_true', decide_eq_false_iff_not]
      rintro rfl
      exact absent listed
    · intro count same
      cases same
      exact absent.symm
  · refine .bind (commit_turns .elementRules _ editor) ?_ ?_
    · intro _ after turns
      refine .pure ⟨turns.map fun _ => _, fun count same => ?_⟩
      cases same
      rfl
    · intro e after turns
      exact ⟨turns.map fun _ => 0, nofun⟩

/-- Importing begins with a note; the rules are stored behind it. -/
theorem importRules_turns (document : Text) (editor : Editor) :
    Ensures (importRules document) editor fun result after =>
      ∃ noted : Editor, noted.store = editor.store ∧ editor.machine.Alike noted.machine ∧
        Turns editor.store.snapshot (including editor.store.snapshot document)
          (storing noted .elementRules (including editor.store.snapshot document)) result
          after.store.snapshot := by
  refine .bindOk (Editing.actOk_spec (Action.note_spec _ _ _ editor.machine)) ?_
  rintro noted ⟨store, alike⟩
  refine Ensures.mono ?_ fun _ _ turns => ⟨noted, store, alike, turns⟩
  apply Editing.storeThen
  rw [store]
  have all : including editor.store.snapshot document =
      ⟨editor.store.hosts, editor.store.elementRules ++
        distinct ((RuleDocument.parse document).filter (· ∉ editor.store.elementRules))⟩ :=
    congrArg (RuleSet.mk _) (Call.append_distinct _ _).symm
  rw [all]
  generalize distinct ((RuleDocument.parse document).filter
    (· ∉ editor.store.elementRules)) = added
  generalize changed : RuleSet.mk editor.store.hosts (editor.store.elementRules ++ added) = rules
  have behind (middle : Editor) (grows : Grows rules middle.store.snapshot) : Ensures (do
      act (Action.note .info source (Text.ofString "Imported " ++ Text.ofNat added.length
        ++ Text.ofString " new element rules"))
      return added.length) middle fun result after =>
        Turns editor.store.snapshot rules (storing noted .elementRules rules) result
          after.store.snapshot := by
    refine .bind (act_keeps _ middle) ?_ ?_
    · intro _ after same
      rw [← same] at grows
      exact .pure (.inr grows)
    · intro e after same
      rw [← same] at grows
      exact .inr grows
  by_cases empty : added = []
  · subst empty
    simp only [List.isEmpty_nil, Bool.not_true, Bool.false_eq_true, if_false]
    refine behind noted ?_
    rw [store, ← changed, List.append_nil]
    exact .refl _
  · have filled : added.isEmpty = false := List.isEmpty_eq_false_iff.mpr empty
    simp only [filled, Bool.not_false, if_true]
    rw [changed]
    have commits := commit_turns .elementRules rules noted
    rw [store] at commits
    refine .bind commits ?_ ?_
    · exact fun _ middle turns => behind middle (turns.made nofun)
    · exact fun e after turns => turns.map fun _ => 0

end SiteFilter.RuleStore
