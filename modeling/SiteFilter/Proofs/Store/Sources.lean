import SiteFilter.Proofs.FileTree.Looking
import SiteFilter.Proofs.Store.Runs
import SiteFilter.Store.Source

/-!
# Sources of rule documents

An import reads its source first and does nothing else if there is no document in it: nothing but
notes is made, whatever the reason. Most reasons are told as a fault of the source. Those are not
that come before a file is looked for, when the name gives no path or none that can be looked up,
and that of a connection that breaks.
-/

namespace SiteFilter

open FileTree Effect

def Fault.isOfSource : Fault → Bool
  | .unreadableUrl _ _ | .unreadableFile _ _ => true
  | _ => false

/-! ## Files -/

namespace FileTree

variable {tree : FileTree} {path : Path}

theorem readText_of_odd (tree : FileTree) (odd : path.IsOdd) :
    (∃ e, tree.readText path = .error (.encoding e)) ∨
      tree.readText path = .error .nulInPath := by
  unfold readText read stat
  rcases find_of_odd tree odd with ⟨e, refused⟩ | refused
  · rw [refused]
    exact .inl ⟨e, rfl⟩
  · rw [refused]
    exact .inr rfl

/-- Where a path can be one, the file system refuses to read, or the octets are no text. -/
theorem readText_error {e : Fault} (plain : ¬ path.IsOdd) (h : tree.readText path = .error e) :
    (∃ refusal, e = .os refusal) ∨ ∃ cause, e = .decoding cause := by
  unfold readText read stat at h
  cases found : tree.find path with
  | error e' =>
      rw [found] at h
      cases h
      obtain ⟨cause, same⟩ := find_error_of_plain plain found
      exact .inl ⟨_, same⟩
  | ok route =>
      rw [found] at h
      simp only [bind, Except.bind] at h
      split at h
      · rename_i refused
        cases h
        refine .inl ?_
        cases there : tree.node? route with
        | none =>
            rw [there] at refused
            cases refused
            exact ⟨_, rfl⟩
        | some node =>
            rw [there] at refused
            cases node with
            | file content => cases refused
            | directory =>
                cases refused
                exact ⟨_, rfl⟩
            | socket =>
                cases refused
                exact ⟨_, rfl⟩
      · split at h
        · cases h
        · cases h
          exact .inr ⟨_, rfl⟩

end FileTree

theorem Environment.isOfSource_of_home {env : Environment} {name : Text} {e : Fault}
    (h : env.home? name = .error e) : e.isOfSource = false := by
  unfold home? at h
  split at h
  · cases h
  · split at h
    · cases h
      rfl
    · split at h <;> cases h
      rfl

/-- A home that is not known is no fault of a source. -/
theorem Environment.isOfSource_of_expand {env : Environment} {path : Path} {e : Fault}
    (h : env.expand path = .error e) : e.isOfSource = false := by
  unfold expand at h
  split at h
  · split at h
    · split at h
      · rename_i unknown
        cases h
        exact isOfSource_of_home unknown
      · cases h
        rfl
      · dsimp only at h
        split at h <;> cases h
        rfl
    · cases h
  · cases h

namespace RuleStore

/-! ## What is read -/

def sourceDocument (env : Environment) (fetch : Text → Fetched) (files : FileTree)
    (name : Text) : Except Fault Text :=
  if isAddress name then documentOf name (fetch name) else documentIn env files name

/--
Whether a source holds a document: the octets that come from its address, or that are in its file,
are a text. In a file every line ends in a line feed.
-/
def SourceHolds (env : Environment) (fetch : Text → Fetched) (files : FileTree)
    (name document : Text) : Prop :=
  if isAddress name then
    ∃ octets, fetch name = .body octets ∧ Utf8.decode octets = .ok document
  else
    ∃ path, env.expand (Path.ofText name) = .ok path ∧
      ∃ octets content, files.read path = .ok octets ∧ Utf8.decode octets = .ok content ∧
        document = content.unifyLineEnds

/--
Failures of a fetch that are no matter of the source: the operating system reports another fault than
that the time is over, what is asked or answered is no HTTP, or the address cannot be asked for.
-/
inductive IsAside : FetchFailure → Prop
  | system (name : String) (reason : Text) : IsAside (.system name reason)
  | protocol (name : String) (reason : Text) : IsAside (.protocol name reason)
  | value (name : String) (reason : Text) : IsAside (.value name reason)

/--
Whether a source breaks off: fetching its address fails for a reason aside, or its name leads to no
path that a file can have, for want of a home or because of what stands in it.
-/
def BreaksOff (env : Environment) (fetch : Text → Fetched) (name : Text) : Prop :=
  if isAddress name then ∃ failure, fetch name = .failed failure ∧ IsAside failure
  else ∀ path, env.expand (Path.ofText name) = .ok path → path.IsOdd

variable {env : Environment} {fetch : Text → Fetched} {files : FileTree} {name : Text}

theorem documentOf_eq_ok_iff {fetched : Fetched} {document : Text} :
    documentOf name fetched = .ok document ↔
      ∃ octets, fetched = .body octets ∧ Utf8.decode octets = .ok document := by
  unfold documentOf
  cases fetched with
  | body octets =>
      cases decoded : Utf8.decode octets with
      | ok content => simp [decoded]
      | error e => simp [decoded]
  | failed failure =>
      dsimp only
      split <;> simp

theorem documentIn_eq_ok_iff {document : Text} :
    documentIn env files name = .ok document ↔
      ∃ path, env.expand (Path.ofText name) = .ok path ∧
        files.readText path = .ok document := by
  unfold documentIn
  cases env.expand (Path.ofText name) with
  | error e => exact ⟨nofun, nofun⟩
  | ok path =>
      simp only [bind, Except.bind, Except.ok.injEq, exists_eq_left']
      split <;> rename_i found <;> rw [found]
      · rfl
      all_goals exact iff_of_false nofun nofun

theorem sourceDocument_eq_ok_iff {document : Text} :
    sourceDocument env fetch files name = .ok document ↔
      SourceHolds env fetch files name document := by
  unfold sourceDocument SourceHolds
  split
  · exact documentOf_eq_ok_iff
  · simp only [documentIn_eq_ok_iff, readText_eq_ok_iff]

theorem isOfSource_eq_false_iff {failure : FetchFailure} :
    failure.isOfSource = false ↔ IsAside failure := by
  constructor
  · intro aside
    cases failure with
    | system name reason => exact .system name reason
    | protocol name reason => exact .protocol name reason
    | value name reason => exact .value name reason
    | _ => cases aside
  · rintro (_ | _ | _) <;> rfl

/-- Only a failure aside is told as it comes. -/
theorem isOfSource_of_documentOf {fetched : Fetched} {e : Fault}
    (h : documentOf name fetched = .error e) :
    e.isOfSource = true ↔ ¬ ∃ failure, fetched = .failed failure ∧ IsAside failure := by
  unfold documentOf at h
  cases fetched with
  | body octets =>
      dsimp only at h
      split at h <;> cases h
      simp [Fault.isOfSource]
  | failed failure =>
      simp only [Fetched.failed.injEq, exists_eq_left', ← isOfSource_eq_false_iff]
      dsimp only at h
      split at h <;> rename_i kind <;> cases h <;> simp [Fault.isOfSource, kind]

theorem documentIn_of_expand {e : Fault} (h : env.expand (Path.ofText name) = .error e) :
    documentIn env files name = .error e := by
  unfold documentIn
  rw [h]
  rfl

/-- What comes before a file is looked for is told as it comes. -/
theorem isOfSource_of_documentIn {e : Fault} (h : documentIn env files name = .error e) :
    e.isOfSource = true ↔
      ¬ ∀ path, env.expand (Path.ofText name) = .ok path → path.IsOdd := by
  cases expanded : env.expand (Path.ofText name) with
  | error e' =>
      rw [documentIn_of_expand expanded] at h
      cases h
      simp [Environment.isOfSource_of_expand expanded]
  | ok path =>
      unfold documentIn at h
      rw [expanded] at h
      simp only [bind, Except.bind] at h
      simp only [Except.ok.injEq, forall_eq']
      by_cases odd : path.IsOdd
      · rcases readText_of_odd files odd with ⟨e', refused⟩ | refused
        all_goals
          rw [refused] at h
          cases h
          simp [Fault.isOfSource, odd]
      · cases found : files.readText path with
        | ok document =>
            rw [found] at h
            cases h
        | error e' =>
            rw [found] at h
            rcases readText_error odd found with ⟨refusal, rfl⟩ | ⟨cause, rfl⟩
            all_goals
              cases h
              simp [Fault.isOfSource, odd]

/-- What keeps a source from being read is told as a fault of the source unless it breaks off. -/
theorem isOfSource_iff {e : Fault} (h : sourceDocument env fetch files name = .error e) :
    e.isOfSource = true ↔ ¬ BreaksOff env fetch name := by
  unfold sourceDocument at h
  unfold BreaksOff
  split at h
  · rename_i address
    rw [if_pos address]
    exact isOfSource_of_documentOf h
  · rename_i file
    rw [if_neg file]
    exact isOfSource_of_documentIn h

/-! ## Imports -/

/-- How an import ends for what reading its source gives. -/
def Receives (found : Except Fault Text) (editor : Editor) (result : Except Fault Nat)
    (after : Editor) : Prop :=
  match found with
  | .error e => result = .error e ∧ Noted editor after
  | .ok document => ∃ start, Noted editor start ∧
      (importRules document).runOn start = (result, after)

theorem receives_of_reads {reading : Editing Text} {found : Except Fault Text}
    {editor start : Editor}
    (reads : Ensures reading start fun result after => result = found ∧ Noted editor after) :
    Ensures (reading >>= importRules) start (Receives found editor) := by
  refine .bind reads ?_ ?_
  · rintro document start ⟨rfl, noted⟩
    exact ⟨start, noted, rfl⟩
  · rintro e after ⟨rfl, noted⟩
    exact ⟨rfl, noted⟩

/-- A question to the machine changes nothing. -/
theorem noted_of_same {answer : Except Fault Text} {action : Action Text} {editor : Editor}
    (h : Ensures action editor.machine fun result after =>
      result = answer ∧ after = editor.machine) :
    Ensures (Editing.act action) editor fun result after =>
      result = answer ∧ Noted editor after := by
  refine (Editing.act_spec h).mono ?_
  rintro result ⟨machine, store⟩ ⟨rfl, told, rfl⟩
  exact ⟨told, .refl editor⟩

/-- An import goes on with the document that it reads, or ends with the fault that is met. -/
theorem importFrom_receives (env : Environment) (fetch : Text → Fetched) (name : Text)
    (editor : Editor) :
    Ensures (importFrom env fetch name) editor
      (Receives (sourceDocument env fetch editor.machine.files name) editor) := by
  unfold importFrom sourceDocument
  by_cases address : isAddress name = true
  · rw [if_pos address, if_pos address]
    refine .bindOk (note_noted _ _ _ editor) ?_
    intro start noted
    have given : Ensures (Action.ofExcept (documentOf name (fetch name))) start.machine
        fun result after => result = documentOf name (fetch name) ∧ after = start.machine :=
      Action.ofExcept_spec ⟨rfl, rfl⟩
    apply receives_of_reads
    refine (noted_of_same given).mono ?_
    rintro result after ⟨rfl, noted'⟩
    exact ⟨rfl, noted.trans noted'⟩
  · rw [if_neg address, if_neg address]
    exact receives_of_reads (noted_of_same (Action.ask_spec _ editor.machine))

/--
An import from a source that holds no document fails and makes nothing but notes: the store with its
rules, its last report and its subscribers, and everything on the machine but the journal, are as
before, and nobody was told anything. The fault is one of the source unless this breaks off.
-/
theorem importFrom_unreadable {env : Environment} {fetch : Text → Fetched} {name : Text}
    {editor : Editor}
    (unreadable : ∀ document, ¬ SourceHolds env fetch editor.machine.files name document) :
    ∃ e, ((importFrom env fetch name).runOn editor).1 = .error e ∧
      (e.isOfSource = true ↔ ¬ BreaksOff env fetch name) ∧
      Noted editor ((importFrom env fetch name).runOn editor).2 := by
  have receives := importFrom_receives env fetch name editor
  cases found : sourceDocument env fetch editor.machine.files name with
  | ok document => exact absurd (sourceDocument_eq_ok_iff.mp found) (unreadable document)
  | error e =>
      rw [found] at receives
      exact ⟨e, receives.1, isOfSource_iff found, receives.2⟩

def offline : Text → Fetched :=
  fun _ => .failed (.unreachable [])

def newImport (fetch : Text → Fetched) (name : Text) : Except Fault Nat × Editor :=
  (importFrom bareEnvironment fetch name).runOn (newEditor true)

def missingName : Text :=
  Text.ofString "/missing.txt"

/-- Where a file is missing, the import says so. -/
theorem importFrom_unreadable_missing :
    (∀ document, ¬ SourceHolds bareEnvironment offline (newEditor true).machine.files missingName
      document) ∧
    ¬ BreaksOff bareEnvironment offline missingName ∧
    ∃ e, (newImport offline missingName).1 = .error e ∧ e.isOfSource = true ∧
      Noted (newEditor true) (newImport offline missingName).2 := by
  have unreadable : ∀ document, ¬ SourceHolds bareEnvironment offline
      (newEditor true).machine.files missingName document := by
    intro document held
    have refused : (sourceDocument bareEnvironment offline
        (newEditor true).machine.files missingName).isOk = false := by decide +kernel
    rw [sourceDocument_eq_ok_iff.mpr held] at refused
    cases refused
  have goesOn : ¬ BreaksOff bareEnvironment offline missingName := by
    intro breaks
    have path : Path.ofText missingName = ⟨1, [Text.ofString "missing.txt"]⟩ := by decide +kernel
    rcases breaks ⟨1, [Text.ofString "missing.txt"]⟩ (by rw [path]; rfl) with fault | nul
    · exact fault (by decide)
    · exact absurd nul (by decide)
  obtain ⟨e, told, kind, noted⟩ := importFrom_unreadable unreadable
  exact ⟨unreadable, goesOn, e, told, kind.mpr goesOn, noted⟩

def nobodysName : Text :=
  Text.ofString "~nobody"

/-- What comes of a connection that is lost while the body is read. -/
def incomplete : FetchFailure :=
  .protocol "IncompleteRead" (Text.ofString "IncompleteRead(3 bytes read, 4 more expected)")

/-- A home that nobody has and a body that ends early are told as they come. -/
theorem importFrom_breaksOff :
    (newImport offline nobodysName).1 = .error .homeUnknown ∧
    (newImport (fun _ => .failed incomplete) (Text.ofString "http://a.com/")).1 =
      .error (.unfetched incomplete) ∧
    Fault.homeUnknown.isOfSource = false ∧ (Fault.unfetched incomplete).isOfSource = false := by
  have path : Path.ofText nobodysName = ⟨0, [nobodysName]⟩ := by decide +kernel
  have unknown : bareEnvironment.expand (Path.ofText nobodysName) =
      .error .homeUnknown := by
    rw [path]
    rfl
  have receives := importFrom_receives bareEnvironment offline nobodysName (newEditor true)
  have found : sourceDocument bareEnvironment offline
      (newEditor true).machine.files nobodysName = .error .homeUnknown :=
    documentIn_of_expand unknown
  rw [found] at receives
  exact ⟨receives.1, rfl, rfl, rfl⟩

end RuleStore

end SiteFilter
