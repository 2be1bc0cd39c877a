import SiteFilter.Proofs.Likeness
import SiteFilter.Proofs.Store.Sources
import SiteFilter.Proofs.Store.SuccessfulRuns
import SiteFilter.Proofs.Text.Encoding
import SiteFilter.Proofs.Text.Lines

/-!
# Files and addresses as sources

It makes no difference to an import whether octets come from a file or from an address. In a file
the ends of lines become line feeds before the document is parsed, which parsing cannot tell from
the ends that were there. So either import does what is done with the text itself, but for notes,
and octets that are no text are refused from either source with everything left as it was.
-/

namespace SiteFilter

open FileTree Effect

/-- Whether processes differ in the journals of their machines only. -/
structure Editor.Twins (editor other : Editor) : Prop where
  store : other.store = editor.store
  machine : editor.machine.Alike other.machine

namespace Editor.Twins

variable {editor middle other : Editor}

theorem symm (h : editor.Twins other) : other.Twins editor :=
  ⟨h.store.symm, h.machine.symm⟩

theorem trans (h : editor.Twins middle) (h' : middle.Twins other) : editor.Twins other :=
  ⟨h'.store.trans h.store, h.machine.trans h'.machine⟩

end Editor.Twins

namespace RuleStore

theorem Noted.twins {before after : Editor} (noted : Noted before after) : before.Twins after :=
  ⟨noted.store, noted.alike⟩

theorem modifyStore_twins (change : RuleStore → RuleStore) :
    Respects Editor.Twins (Editing.modifyStore change) :=
  fun _ _ twins => ⟨rfl, congrArg change twins.store, twins.machine⟩

theorem propagate_twins (rules : RuleSet) : Respects Editor.Twins (propagate rules) := by
  intro editor other twins
  apply Editing.storeThen_agree
  rw [twins.store]
  cases editor.store.propagator with
  | none => exact ⟨rfl, twins⟩
  | some propagator =>
      apply Agree.bind
      · have machines := propagator.propagate_respects rules _ _ twins.machine
        exact Editing.act_agree machines fun _ _ alike => ⟨twins.store, alike⟩
      · intro report between between' twins
        apply Agree.bind (modifyStore_twins _ _ _ twins)
        intro _ after after' twins
        split
        · exact ⟨rfl, twins⟩
        · exact ⟨rfl, twins⟩

end RuleStore

theorem Editor.Twins.likeness : Editor.Likeness Editor.Twins where
  store twins := ⟨_, _, twins.store⟩
  act respects _ _ twins :=
    Editing.act_agree (respects Machine.Alike.likeness _ _ twins.machine)
      fun _ _ alike => ⟨twins.store, alike⟩
  modifyStore _ := RuleStore.modifyStore_twins _
  propagate rules := .map _ (RuleStore.propagate_twins rules)

namespace RuleStore

/-! ## What the kind of a source changes -/

/-- Documents with the same lines are imported in the same way. -/
theorem importRules_of_lines {document document' : Text} (h : document.lines = document'.lines) :
    importRules document = importRules document' := by
  unfold importRules RuleDocument.parse RuleDocument.malformedLines
  rw [h]

variable {env : Environment} {fetch : Text → Fetched} {files : FileTree} {name : Text}
  {octets : Bytes} {path : Path}

theorem sourceDocument_of_file (isFile : isAddress name = false)
    (located : env.expand (Path.ofText name) = .ok path) (readable : files.read path = .ok octets) :
    sourceDocument env fetch files name =
      match Utf8.decode octets with
      | .ok content => .ok content.unifyLineEnds
      | .error e => .error (.unreadableFile path (.decoding e)) := by
  have text : files.readText path =
      match Utf8.decode octets with
      | .ok content => .ok content.unifyLineEnds
      | .error e => .error (.decoding e) := by
    unfold readText
    rw [readable]
    rfl
  unfold sourceDocument documentIn
  rw [located]
  simp only [isFile, bind, Except.bind, text]
  cases Utf8.decode octets with
  | ok content => rfl
  | error e => rfl

theorem sourceDocument_of_address (address : isAddress name = true)
    (answered : fetch name = .body octets) :
    sourceDocument env fetch files name =
      match Utf8.decode octets with
      | .ok content => .ok content
      | .error e => .error (.unreadableUrl name e.message) := by
  unfold sourceDocument
  rw [if_pos address, answered]
  rfl

/-! ## Imports -/

/-- An import does what is done with the document that it reads, but for notes. -/
theorem importFrom_agree {editor : Editor} {document : Text}
    (found : sourceDocument env fetch editor.machine.files name = .ok document) :
    Agree Editor.Twins (importFrom env fetch name) editor (importRules document) editor := by
  have receives := importFrom_receives env fetch name editor
  rw [found] at receives
  obtain ⟨start, noted, ran⟩ := receives
  have agree := importRules_respects Editor.Twins.likeness document start editor noted.twins.symm
  unfold Agree at agree ⊢
  rw [← Editing.runOn_eq, ran] at agree
  exact agree

theorem importFrom_refused {editor : Editor} {e : Fault}
    (found : sourceDocument env fetch editor.machine.files name = .error e) :
    ((importFrom env fetch name).runOn editor).1 = .error e ∧
      Noted editor ((importFrom env fetch name).runOn editor).2 := by
  have receives := importFrom_receives env fetch name editor
  rw [found] at receives
  exact receives

/--
An import from a file and one from an address that gives the octets of the file come to the same. If
the octets are those of a text, both give what importing the text gives, also if that is a fault, and
leave the same store, with the same rules in the same order, and the same machine but for its
journal. Otherwise both fail for their source, and the store is as before with everything on the
machine but notes.
-/
theorem importFrom_file_address {editor : Editor} {file address : Text}
    (isFile : isAddress file = false) (located : env.expand (Path.ofText file) = .ok path)
    (readable : editor.machine.files.read path = .ok octets)
    (remote : isAddress address = true) (answered : fetch address = .body octets) :
    let fromFile := (importFrom env fetch file).runOn editor
    let fromAddress := (importFrom env fetch address).runOn editor
    (∀ content, Utf8.encode content = .ok octets →
      fromFile.1 = fromAddress.1 ∧ fromFile.2.Twins fromAddress.2 ∧
        fromFile.1 = ((importRules content).runOn editor).1 ∧
        fromFile.2.Twins ((importRules content).runOn editor).2) ∧
    ((∀ content, Utf8.encode content ≠ .ok octets) →
      ∀ ended ∈ [fromFile, fromAddress],
        ∃ e, ended.1 = .error e ∧ e.isOfSource = true ∧ Noted editor ended.2) := by
  have there : sourceDocument env fetch editor.machine.files file = _ :=
    sourceDocument_of_file isFile located readable
  have far : sourceDocument env fetch editor.machine.files address = _ :=
    sourceDocument_of_address remote answered
  intro fromFile fromAddress
  constructor
  · intro content written
    rw [← Utf8.decode_eq_ok_iff] at written
    rw [written] at there far
    have local' := importFrom_agree there
    rw [importRules_of_lines content.lines_unifyLineEnds] at local'
    have remote' := importFrom_agree far
    unfold Agree at local' remote'
    rw [← Editing.runOn_eq, ← Editing.runOn_eq] at local' remote'
    obtain ⟨result, state⟩ := local'
    obtain ⟨result', state'⟩ := remote'
    exact ⟨result.trans result'.symm, state.trans state'.symm, result, state⟩
  · intro noText ended inside
    cases decoded : Utf8.decode octets with
    | ok content => exact absurd (Utf8.decode_eq_ok_iff.mp decoded) (noText content)
    | error e =>
        rw [decoded] at there far
        rcases List.mem_pair.mp inside with rfl | rfl
        · obtain ⟨told, noted⟩ := importFrom_refused there
          exact ⟨_, told, rfl, noted⟩
        · obtain ⟨told, noted⟩ := importFrom_refused far
          exact ⟨_, told, rfl, noted⟩

def rulesName : Text :=
  Text.ofString "/rules.txt"

def rulesAddress : Text :=
  Text.ofString "https://a.com/rules.txt"

def besideFile (octets : Bytes) : Editor :=
  loadedEditor (Machine.start
    (bareMachine.files.put [Text.ofString "rules.txt"] (.file octets))) none

def serving (octets : Bytes) : Text → Fetched :=
  fun _ => .body octets

/-- An import from an address that gives the octets, or from the file in which they are. -/
def importBeside (octets : Bytes) (name : Text) : Except Fault Nat × Editor :=
  (importFrom bareEnvironment (serving octets) name).runOn (besideFile octets)

def mixedRules : Text :=
  Text.ofString "a.com##.x\r\nb.com##.y\ra.com##.x\u2028"

def strayOctet : Bytes :=
  [0xFF]

theorem importFrom_file_address_mixed :
    ((importBeside (Utf8.encodeAny mixedRules) rulesName).1 =
        (importBeside (Utf8.encodeAny mixedRules) rulesAddress).1 ∧
      (importBeside (Utf8.encodeAny mixedRules) rulesAddress).1.toOption = some 2 ∧
      (importBeside (Utf8.encodeAny mixedRules) rulesName).2.Twins
        (importBeside (Utf8.encodeAny mixedRules) rulesAddress).2) ∧
    ∀ name ∈ [rulesName, rulesAddress],
      ∃ e, (importBeside strayOctet name).1 = .error e ∧ e.isOfSource = true ∧
        Noted (besideFile strayOctet) (importBeside strayOctet name).2 := by
  have isFile : isAddress rulesName = false := by decide +kernel
  have remote : isAddress rulesAddress = true := by decide +kernel
  have located : bareEnvironment.expand (Path.ofText rulesName) =
      .ok ⟨1, [Text.ofString "rules.txt"]⟩ := by
    have path : Path.ofText rulesName = ⟨1, [Text.ofString "rules.txt"]⟩ := by decide +kernel
    rw [path]
    rfl
  have readable (octets : Bytes) : (besideFile octets).machine.files.read
      ⟨1, [Text.ofString "rules.txt"]⟩ = .ok octets := by
    have files : (besideFile octets).machine.files =
        bareMachine.files.put [Text.ofString "rules.txt"] (.file octets) := (load_spec _).1.files
    rw [files]
    rfl
  have answered (octets : Bytes) : serving octets rulesAddress = .body octets := rfl
  constructor
  · have written : Utf8.encode mixedRules = .ok (Utf8.encodeAny mixedRules) := by decide +kernel
    obtain ⟨same, twins, -⟩ := (importFrom_file_address isFile located (readable _) remote
      (answered _)).1 mixedRules written
    exact ⟨same, by decide +kernel, twins⟩
  · have noText : ∀ content, Utf8.encode content ≠ .ok strayOctet := by
      intro content written
      rw [← Utf8.decode_eq_ok_iff] at written
      cases written
    have refused := (importFrom_file_address isFile located (readable _) remote
      (answered _)).2 noText
    intro name inside
    rcases List.mem_pair.mp inside with rfl | rfl
    · exact refused _ List.mem_cons_self
    · exact refused _ (List.mem_cons_of_mem _ List.mem_cons_self)

end RuleStore

end SiteFilter
