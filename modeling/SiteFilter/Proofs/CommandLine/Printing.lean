import SiteFilter.CommandLine.Run
import SiteFilter.Proofs.Store.Runs

/-!
# Sessions

What sessions at a terminal come to. An outlet can refuse what is printed to it, which is a fault
like others; but a text that was just stored has octets, so an outlet that takes all texts with
octets takes what is said of it.
-/

namespace SiteFilter

open Effect

/-- An outlet does not take a text: a text with octets as output, or any text as an error. -/
def Outlets.Refuse (outlets : Outlets) : Prop :=
  (∃ printed next failure, Utf8.Encodable next ∧ outlets.output printed next = some failure) ∨
    ∃ printed next failure, outlets.errors printed next = some failure

/-! ## Stored texts can be printed -/

namespace RuleStore

theorem Part.isSurrogate_of_occurs {part : Part} {rules : RuleSet} {data : Bytes}
    (h : part.encode rules = .ok data) {c : CodePoint} (occurs : Json.Occurs c (part.value rules)) :
    c.isSurrogate = false := by
  obtain ⟨encodable, -⟩ := (Utf8.encode_eq_ok_iff _ _).mp h
  exact (Json.encodable_write_iff rfl).mp encodable c occurs

theorem encodable_hostname {rules : RuleSet} {data : Bytes} (h : Part.hosts.encode rules = .ok data)
    {rule : HostRule} (listed : rule ∈ rules.hosts) : Utf8.Encodable rule.hostname := by
  intro c inside
  have member : Json.text rule.hostname ∈ rules.hosts.map fun rule => Json.text rule.hostname :=
    List.mem_map.mpr ⟨rule, listed, rfl⟩
  exact Part.isSurrogate_of_occurs h (.item member (.text inside))

theorem encodable_key {rules : RuleSet} {data : Bytes}
    (h : Part.elementRules.encode rules = .ok data) {rule : ElementRule}
    (listed : rule ∈ rules.elementRules) : Utf8.Encodable rule.key := by
  have occurs {c : CodePoint} {member : Text × Json} (inside : Json.Occurs c member.2)
      (there : member ∈ [(ElementRule.domainName, Json.text rule.domain),
        (ElementRule.selectorName, .text rule.selector)]) : c.isSurrogate = false :=
    Part.isSurrogate_of_occurs h (.item (List.mem_map.mpr ⟨rule, listed, rfl⟩) (.value there inside))
  have domain : Utf8.Encodable rule.domain :=
    fun c inside => occurs (.text inside) List.mem_cons_self
  have selector : Utf8.Encodable rule.selector :=
    fun c inside => occurs (.text inside) (List.mem_cons_of_mem _ List.mem_cons_self)
  have front := Utf8.encodable_append.mpr ⟨domain, Utf8.encodable_ofString "##"⟩
  exact Utf8.encodable_append.mpr ⟨front, selector⟩

/-- What was committed was stored, and so it has octets. -/
theorem commit_encodes {editor : Editor} (nobody : editor.store.subscribers = []) (part : Part)
    (rules : RuleSet) :
    Ensures (commit part rules) editor fun ended after => ended = .ok () →
      after.store.snapshot = rules ∧ ∃ data, part.encode rules = .ok data := by
  refine (commit_spec nobody part rules).mono ?_
  intro ended after commits done
  cases commits with
  | refused => cases done
  | unnameable => cases done
  | stored store encoded => exact ⟨snapshot_of_core store, _, encoded⟩

section Added

variable {editor : Editor} (nobody : editor.store.subscribers = [])

include nobody

/-- A host that was added stands among hosts whose names have octets. -/
theorem addHost_encodes (name : Text) :
    Ensures (addHost name) editor fun result after => result = .ok true →
      ∀ rule ∈ after.store.hosts, Utf8.Encodable rule.hostname := by
  apply Editing.storeThen
  split
  · exact .pure nofun
  · split
    · exact .pure nofun
    · refine .bind (commit_encodes nobody .hosts _) ?_ fun _ _ _ => nofun
      intro _ after stored
      refine .pure fun _ other listed => ?_
      obtain ⟨rules, data, encoded⟩ := stored rfl
      rw [← rules] at encoded
      exact encodable_hostname encoded listed

theorem addElementRule_encodes (rule : ElementRule) :
    Ensures (addElementRule rule) editor fun result _ => result = .ok true →
      Utf8.Encodable rule.key := by
  apply Editing.storeThen
  split
  · exact .pure nofun
  · refine .bind (commit_encodes nobody .elementRules _) ?_ fun _ _ _ => nofun
    intro _ after stored
    refine .pure fun _ => ?_
    obtain ⟨-, data, encoded⟩ := stored rfl
    exact encodable_key encoded (List.mem_append_right _ List.mem_cons_self)

end Added

end RuleStore

namespace CommandLine

/-! ## Sessions -/

namespace Session

variable {α β : Type} {terminal : Terminal}

@[simp] theorem exec_act (action : Action α) (terminal : Terminal) :
    exec (act action) terminal = ((exec action terminal.machine).1,
      { terminal with machine := (exec action terminal.machine).2 }) := by
  simp only [act, exec_bind, exec_get, exec_set, Action.runOn_eq]
  cases (exec action terminal.machine).1 <;> rfl

@[simp] theorem exec_edit (store : RuleStore) (editing : Editing α) (terminal : Terminal) :
    exec (edit store editing) terminal =
      ((exec editing ⟨terminal.machine, store⟩).1.map
          (·, (exec editing ⟨terminal.machine, store⟩).2.store),
        { terminal with machine := (exec editing ⟨terminal.machine, store⟩).2.machine }) := by
  simp only [edit, exec_bind, exec_get, exec_set, Editing.runOn_eq]
  cases (exec editing ⟨terminal.machine, store⟩).1 <;> rfl

theorem act_spec {action : Action α} {Q : Except Fault α → Machine → Prop}
    (h : Ensures action terminal.machine Q) :
    Ensures (act action) terminal fun result after =>
      Q result after.machine ∧ after.outlets = terminal.outlets := by
  simpa [Ensures] using h

theorem demand_spec (answer : Except Fault α) (terminal : Terminal) :
    Ensures (demand answer) terminal fun result after =>
      (result = answer ∧ after.machine = terminal.machine) ∧ after.outlets = terminal.outlets := by
  simp [Ensures, demand]

/-- An edit ends as it does in a process with this machine and this store. -/
theorem edit_spec {store : RuleStore} {editing : Editing α}
    {known : Except Fault α → Editor → Prop} (h : Ensures editing ⟨terminal.machine, store⟩ known) :
    Ensures (edit store editing) terminal fun result after =>
      (∃ ended editor, known ended editor ∧ after.machine = editor.machine ∧
        result = ended.map (·, editor.store)) ∧ after.outlets = terminal.outlets := by
  simp only [Ensures, exec_edit, and_true]
  exact ⟨_, _, h, rfl, rfl⟩

/-- A result of a session that an outlet brought to its end. -/
def IsUnprinted (outlets : Outlets) (result : Except Fault α) : Prop :=
  outlets.Refuse ∧ ∃ failure, result = .error (.unprinted failure)

/--
A session does nothing to the machine: at most it prints. It gives a value, unless an outlet refuses
what it prints.
-/
def Prints (session : Session α) (value : α) : Prop :=
  ∀ terminal, Ensures session terminal fun result after =>
    (result = .ok value ∨ IsUnprinted terminal.outlets result) ∧
      after.machine = terminal.machine ∧ after.outlets = terminal.outlets

namespace Prints

theorem andThen {first : Session α} {a : α} {next : α → Session β} {b : β} (h : Prints first a)
    (h' : Prints (next a) b) : Prints (first >>= next) b := by
  intro terminal
  refine .bind (h terminal) ?_ ?_
  · rintro _ middle ⟨⟨⟨⟩⟩ | ⟨-, failure, ⟨⟩⟩, machine, outlets⟩
    refine (h' middle).mono ?_
    rintro result after ⟨told, machine', outlets'⟩
    rw [outlets] at told
    exact ⟨told, machine'.trans machine, outlets'.trans outlets⟩
  · rintro e middle ⟨⟨⟨⟩⟩ | ⟨refuse, failure, ⟨⟩⟩, same⟩
    exact ⟨.inr ⟨refuse, failure, rfl⟩, same⟩

theorem pure (value : α) : Prints (Pure.pure value) value :=
  fun _ => .pure ⟨.inl rfl, rfl, rfl⟩

theorem print {t : Text} (encodable : Utf8.Encodable t) : Prints (Session.print t) () := by
  intro terminal
  apply Ensures.getThen
  split
  · rename_i failure refused
    exact .throw ⟨.inr ⟨.inl ⟨_, _, _, encodable, refused⟩, failure, rfl⟩, rfl, rfl⟩
  · exact .change ⟨.inl rfl, rfl, rfl⟩

theorem printLine {t : Text} (encodable : Utf8.Encodable t) : Prints (Session.printLine t) () :=
  (print encodable).andThen (print (Utf8.encodable_ofString "\n"))

theorem printError (t : Text) : Prints (Session.printError t) () := by
  intro terminal
  apply Ensures.getThen
  dsimp only
  split
  · rename_i failure refused
    exact .throw ⟨.inr ⟨.inr ⟨_, _, _, refused⟩, failure, rfl⟩, rfl, rfl⟩
  · exact .change ⟨.inl rfl, rfl, rfl⟩

theorem reportReload (store : RuleStore) : Prints (CommandLine.reportReload store) () := by
  unfold CommandLine.reportReload
  split
  · exact printError _
  · exact .pure ()

theorem count (before : String) (n : Nat) (after : String) :
    Prints (Session.printLine (counted before n after)) () := by
  have number : Utf8.Encodable (Text.ofNat n) := (Json.IsAscii.ofNat n).encodable
  have front := Utf8.encodable_append.mpr ⟨Utf8.encodable_ofString before, number⟩
  exact printLine (Utf8.encodable_append.mpr ⟨front, Utf8.encodable_ofString after⟩)

end Prints

end Session

end CommandLine

end SiteFilter
