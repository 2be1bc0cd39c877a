import SiteFilter.Proofs.Store.SuccessfulRuns

/-!
# Interleavings

Calls for hosts and calls for element rules do not depend on each other. However two sequences of
them are interleaved, each call gives the same answer, and the rules and the files are the same in
the end, though what the sinks hold in between differs.
-/

namespace SiteFilter

open FileTree

/-! ## Lists that are interleaved -/

/-- A list is made of two others, each of them in its own order. -/
inductive Interleaves {α : Type} : List α → List α → List α → Prop
  | nil : Interleaves [] [] []
  | left {items others mixed : List α} (item : α) (rest : Interleaves items others mixed) :
      Interleaves (item :: items) others (item :: mixed)
  | right {items others mixed : List α} (item : α) (rest : Interleaves items others mixed) :
      Interleaves items (item :: others) (item :: mixed)

namespace Interleaves

variable {α : Type} {items others mixed : List α}

theorem symm (h : Interleaves items others mixed) : Interleaves others items mixed := by
  induction h with
  | nil => exact .nil
  | left item rest ih => exact .right item ih
  | right item rest ih => exact .left item ih

theorem mem_or_mem (h : Interleaves items others mixed) {item : α} (inside : item ∈ mixed) :
    item ∈ items ∨ item ∈ others := by
  induction h with
  | nil => cases inside
  | left other rest ih =>
      rcases List.mem_cons.mp inside with rfl | later
      · exact .inl List.mem_cons_self
      · exact (ih later).imp_left (List.mem_cons_of_mem _)
  | right other rest ih =>
      rcases List.mem_cons.mp inside with rfl | later
      · exact .inr List.mem_cons_self
      · exact (ih later).imp_right (List.mem_cons_of_mem _)

/-- A list that is told from the other one is found in it. -/
theorem filter_eq_left (h : Interleaves items others mixed) {p : α → Bool}
    (own : ∀ item ∈ items, p item = true) (foreign : ∀ item ∈ others, p item = false) :
    mixed.filter p = items := by
  induction h with
  | nil => rfl
  | left item rest ih =>
      rw [List.filter_cons_of_pos (own item List.mem_cons_self),
        ih (fun other inside => own other (List.mem_cons_of_mem _ inside)) foreign]
  | right item rest ih =>
      rw [List.filter_cons_of_neg (by rw [foreign item List.mem_cons_self]; decide),
        ih own fun other inside => foreign other (List.mem_cons_of_mem _ inside)]

end Interleaves

namespace RuleStore

/-! ## Calls of two runs -/

section Calls

variable {hostCalls ruleCalls calls : List Call}
  (ofHosts : ∀ call ∈ hostCalls, call.isFor .hosts = true)
  (ofRules : ∀ call ∈ ruleCalls, call.isFor .elementRules = true)
  (mixed : Interleaves hostCalls ruleCalls calls)

include ofHosts ofRules mixed

theorem mutating_of_interleaves : ∀ call ∈ calls, call ≠ .republish := by
  rintro call inside rfl
  rcases mixed.mem_or_mem inside with host | rule
  · exact absurd (ofHosts _ host) (by decide)
  · exact absurd (ofRules _ rule) (by decide)

/-- The calls for a list are those of its own sequence. -/
theorem filter_isFor (part : Part) : calls.filter (Call.isFor part) =
    match part with
    | .hosts => hostCalls
    | .elementRules => ruleCalls := by
  cases part with
  | hosts =>
      exact mixed.filter_eq_left ofHosts fun call inside =>
        Call.isFor_apart (ofRules call inside) (by decide)
  | elementRules =>
      exact mixed.symm.filter_eq_left ofRules fun call inside =>
        Call.isFor_apart (ofHosts call inside) (by decide)

end Calls

/-- What calls for a list give, as entries tell it. -/
theorem filter_log {editor : Editor} {calls : List Call} {entries : List Entry}
    (logged : Call.log editor calls = entries.map fun entry => (entry.call, .ok entry.answer))
    (part : Part) :
    (Call.log editor calls).filter (fun given => given.1.isFor part) =
        (entriesOf part entries).map (fun entry => (entry.call, .ok entry.answer)) ∧
      (entriesOf part entries).map (·.call) = calls.filter (Call.isFor part) := by
  constructor
  · rw [logged, List.filter_map]
    rfl
  · rw [← Call.calls_of_log logged, List.filter_map]
    rfl

/--
However calls for hosts and calls for element rules are interleaved: when all writes succeed every
call gives an answer, which is the same in each interleaving, and so are the rules in the end and
the content of every file that requests to reload leave alone.
-/
theorem interleavings_agree {start : Editor} (calm : start.store.IsCalm)
    {hostCalls ruleCalls calls others : List Call}
    (ofHosts : ∀ call ∈ hostCalls, call.isFor .hosts = true)
    (ofRules : ∀ call ∈ ruleCalls, call.isFor .elementRules = true)
    (mixed : Interleaves hostCalls ruleCalls calls)
    (mixed' : Interleaves hostCalls ruleCalls others)
    (written : Call.canWriteAll start calls = true)
    (written' : Call.canWriteAll start others = true) :
    (∀ given ∈ Call.log start calls, ∃ answer, given.2 = .ok answer) ∧
      (∀ part : Part, (Call.log start calls).filter (fun given => given.1.isFor part) =
        (Call.log start others).filter fun given => given.1.isFor part) ∧
      (Call.run start calls).store.snapshot = (Call.run start others).store.snapshot ∧
      ∀ path, ReloadsSpare start path →
        (Call.run start calls).machine.files.contentOf path =
          (Call.run start others).machine.files.contentOf path := by
  obtain ⟨entries, logged, stands⟩ :=
    Call.run_stands calm (mutating_of_interleaves ofHosts ofRules mixed) written
  obtain ⟨entries', logged', stands'⟩ :=
    Call.run_stands calm (mutating_of_interleaves ofHosts ofRules mixed') written'
  have both (part : Part) : entriesOf part entries = entriesOf part entries' ∧
      part.Agrees (Call.run start calls).store.snapshot (Call.run start others).store.snapshot := by
    apply stands.traces.entriesOf_eq stands'.traces
    rw [(filter_log logged part).2, (filter_log logged' part).2,
      filter_isFor ofHosts ofRules mixed, filter_isFor ofHosts ofRules mixed']
  have snapshot := eq_of_agrees fun part => (both part).2
  refine ⟨fun given inside => ?_, fun part => ?_, snapshot, fun path spare => ?_⟩
  · rw [logged] at inside
    obtain ⟨entry, -, rfl⟩ := List.mem_map.mp inside
    exact ⟨entry.answer, rfl⟩
  · rw [(filter_log logged part).1, (filter_log logged' part).1, (both part).1]
  · have touched : touches entries = touches entries' := by
      funext part
      rw [touches, (both part).1, touches]
    rw [stands.contents path spare, stands'.contents path spare, touched, snapshot]

def visits : List Call :=
  [.addHost (Text.ofString " A.com "), .removeHost (Text.ofString "b.com"),
    .removeHost (Text.ofString "a.com")]

def edits : List Call :=
  [.addElementRule pageRule, .importRules (Text.ofString "b.org##.teaser\nb.com##.y"),
    .removeElementRuleByKey pageRule.key]

/-- The calls for hosts first, and the calls for rules first. -/
theorem interleavings_agree_new :
    Interleaves visits edits (visits ++ edits) ∧ Interleaves visits edits (edits ++ visits) ∧
      (∀ part : Part,
        (Call.log (newEditor true) (visits ++ edits)).filter (fun given => given.1.isFor part) =
          (Call.log (newEditor true) (edits ++ visits)).filter fun given =>
            given.1.isFor part) ∧
      (Call.run (newEditor true) (visits ++ edits)).store.snapshot =
        (Call.run (newEditor true) (edits ++ visits)).store.snapshot ∧
      ∀ path, (Call.run (newEditor true) (visits ++ edits)).machine.files.contentOf path =
        (Call.run (newEditor true) (edits ++ visits)).machine.files.contentOf path := by
  have first : Interleaves visits edits (visits ++ edits) :=
    .left _ (.left _ (.left _ (.right _ (.right _ (.right _ .nil)))))
  have second : Interleaves visits edits (edits ++ visits) :=
    .right _ (.right _ (.right _ (.left _ (.left _ (.left _ .nil)))))
  have calm : (newEditor true).store.IsCalm := by decide +kernel
  obtain ⟨-, answers, rules, files⟩ := interleavings_agree calm (by decide) (by decide) first second
    (by decide +kernel) (by decide +kernel)
  exact ⟨first, second, answers, rules, fun path =>
    files path (reloadsSpare_of_none (opens_newEditor true).propagator_eq rfl path)⟩

def callingEditor : Editor :=
  subscribed (loadedEditor bareMachine none) (.addHost pageHost)

def otherHost : Text :=
  Text.ofString "b.org"

def removedBy : Except Fault Answer → Option Nat
  | .ok (.counted count) => some count
  | _ => none

/--
A reload command may make the content of a file depend on the order, and so may a subscriber that
calls back the answer of a call.
-/
theorem interleavings_differ :
    (hostEditor.store.IsCalm ∧
      Call.canWriteAll hostEditor [.addHost otherHost, .addElementRule pageRule] = true ∧
      Call.canWriteAll hostEditor [.addElementRule pageRule, .addHost otherHost] = true ∧
      (Call.run hostEditor
          [.addHost otherHost, .addElementRule pageRule]).machine.files.contentOf
          (ownStorage.fileOf hostsKey) ≠
        (Call.run hostEditor
          [.addElementRule pageRule, .addHost otherHost]).machine.files.contentOf
          (ownStorage.fileOf hostsKey)) ∧
      Call.canWriteAll callingEditor [.removeHost pageHost, .addElementRule pageRule] = true ∧
      Call.canWriteAll callingEditor [.addElementRule pageRule, .removeHost pageHost] = true ∧
      (Call.log callingEditor [.removeHost pageHost, .addElementRule pageRule]).filter
          (fun given => given.1.isFor .hosts) ≠
        (Call.log callingEditor [.addElementRule pageRule, .removeHost pageHost]).filter
          fun given => given.1.isFor .hosts := by
  refine ⟨⟨by decide +kernel, by decide +kernel, by decide +kernel, by decide +kernel⟩,
    by decide +kernel, by decide +kernel, fun same => ?_⟩
  have counts := congrArg (List.map fun given => removedBy given.2) same
  exact absurd counts (by decide +kernel)

end RuleStore

end SiteFilter
