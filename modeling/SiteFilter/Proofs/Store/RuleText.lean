import SiteFilter.Proofs.Rule.Document
import SiteFilter.Proofs.Store.Subscribers

/-!
# Element rules by key and by document

A rule of a store can be named by its key, and the rules can be carried to another store in a
document. Both go through the delimiter, and both fail for the rules whose domain ends in half a
delimiter, and only for these.
-/

namespace SiteFilter.RuleStore

open Effect

/-! ## Removal by key -/

theorem removeElementRuleByKey_of_ofKey {key : Text} {rule : ElementRule}
    (found : ElementRule.ofKey key = .ok rule) :
    removeElementRuleByKey key = removeElementRule rule := by
  rw [removeElementRuleByKey, found]

/-- A rule with half a delimiter left over is not reached by its key. -/
theorem mem_of_removeElementRuleByKey {rule : ElementRule} (half : rule.EndsInHalf)
    {editor : Editor} (listed : rule ∈ editor.store.elementRules) :
    Ensures (removeElementRuleByKey rule.key) editor fun _ after =>
      rule ∈ after.store.elementRules := by
  cases found : ElementRule.ofKey rule.key with
  | error e =>
      rw [removeElementRuleByKey, found]
      exact .pure listed
  | ok other =>
      have apart : rule ≠ other := by
        intro same
        rw [← same] at found
        exact ElementRule.ofKey_key_iff.mp found half
      rw [removeElementRuleByKey_of_ofKey found]
      refine (removeElementRule_turns other editor).mono fun result after known => ?_
      rcases known.1 with ⟨_, _, _, _, same⟩ | grows
      · have kept : after.store.elementRules = editor.store.elementRules :=
          congrArg RuleSet.elementRules same
        rwa [kept]
      · have kept : after.store.elementRules = _ := grows.elementRules
        rw [kept]
        exact List.mem_filter.mpr ⟨listed, by simpa using apart⟩

/--
A key stands for one rule as long as the domain does not end in half a delimiter. Then the rule is
read back from it, and removed by it without any other; with such a half left over it is neither.
-/
theorem key_identifies_iff (rule : ElementRule) :
    (∀ other : ElementRule,
      rule.key = other.key ∧ (rule.EndsInHalf ↔ other.EndsInHalf) ↔ rule = other) ∧
    (ElementRule.ofKey rule.key = .ok rule ↔ ¬ rule.EndsInHalf) ∧
    ∀ editor : Editor,
      (¬ rule.EndsInHalf →
        Ensures (removeElementRuleByKey rule.key) editor fun result after =>
          Turns editor.store.snapshot (without editor.store.snapshot rule)
              (storing editor .elementRules (without editor.store.snapshot rule)) result
              after.store.snapshot ∧
            ∀ count, result = .ok count → count = editor.store.elementRules.count rule) ∧
      (rule.EndsInHalf → rule ∈ editor.store.elementRules →
        Ensures (removeElementRuleByKey rule.key) editor fun _ after =>
          rule ∈ after.store.elementRules) := by
  refine ⟨fun other => ElementRule.key_eq_iff, ElementRule.ofKey_key_iff, fun editor => ⟨?_, ?_⟩⟩
  · intro whole
    rw [removeElementRuleByKey_of_ofKey (ElementRule.ofKey_key_iff.mpr whole)]
    exact removeElementRule_turns rule editor
  · intro half listed
    exact mem_of_removeElementRuleByKey half listed

def bannerRule : ElementRule :=
  ⟨Text.ofString "d.example", Text.ofString "##banner", by decide, by decide, by decide⟩

def halfBefore : ElementRule :=
  ⟨Text.ofString "a#", Text.ofString "b", by decide, by decide, by decide⟩

def halfBehind : ElementRule :=
  ⟨Text.ofString "a", Text.ofString "#b", by decide, by decide, by decide⟩

def editorOfTwo : Editor :=
  Call.run (newEditor true) [.addElementRule bannerRule, .addElementRule halfBefore]

theorem halfBefore_mem : halfBefore ∈ editorOfTwo.store.elementRules := by
  decide +kernel

theorem key_identifies_two :
    (¬ bannerRule.EndsInHalf ∧ ElementRule.ofKey bannerRule.key = .ok bannerRule ∧
      Ensures (removeElementRuleByKey bannerRule.key) editorOfTwo fun result after =>
        Turns editorOfTwo.store.snapshot (without editorOfTwo.store.snapshot bannerRule)
            (storing editorOfTwo .elementRules (without editorOfTwo.store.snapshot bannerRule))
            result after.store.snapshot ∧
          ∀ count, result = .ok count → count = editorOfTwo.store.elementRules.count bannerRule) ∧
    ((removeElementRuleByKey bannerRule.key).runOn editorOfTwo).2.store.elementRules =
      [halfBefore] ∧
    (halfBefore.EndsInHalf ∧ halfBefore ∈ editorOfTwo.store.elementRules ∧
      Ensures (removeElementRuleByKey halfBefore.key) editorOfTwo fun _ after =>
        halfBefore ∈ after.store.elementRules) := by
  obtain ⟨_, readBack, removes⟩ := key_identifies_iff bannerRule
  obtain ⟨_, _, keeps⟩ := key_identifies_iff halfBefore
  have whole : ¬ bannerRule.EndsInHalf := by decide
  have half : halfBefore.EndsInHalf := by decide
  exact ⟨⟨whole, readBack.mpr whole, (removes editorOfTwo).1 whole⟩, by decide +kernel,
    ⟨half, halfBefore_mem, (keeps editorOfTwo).2 half halfBefore_mem⟩⟩

theorem key_of_halves :
    halfBefore ≠ halfBehind ∧ halfBefore.key = halfBehind.key ∧
      (ElementRule.ofKey halfBefore.key).toOption = some halfBehind ∧
      halfBefore ∈ editorOfTwo.store.elementRules ∧
      ((removeElementRuleByKey halfBefore.key).runOn editorOfTwo).1.toOption = some 0 ∧
      halfBefore ∈
        ((removeElementRuleByKey halfBefore.key).runOn editorOfTwo).2.store.elementRules := by
  refine ⟨by decide, by decide, by decide, halfBefore_mem, ?_, ?_⟩
  · decide +kernel
  · exact mem_of_removeElementRuleByKey (by decide) halfBefore_mem

/-! ## Documents -/

/-- Documents that are imported one after another, without a fault of the storage. -/
inductive Imports : Editor → List Text → Editor → Prop
  | nothing (editor : Editor) : Imports editor [] editor
  | next {editor after : Editor} {document : Text} {documents : List Text}
      (stored : ∀ e, ((importRules document).runOn editor).1 = .error e → e.isOfStorage = false)
      (rest : Imports ((importRules document).runOn editor).2 documents after) :
      Imports editor (document :: documents) after

theorem Imports.elementRules {editor after : Editor} {documents : List Text}
    (h : Imports editor documents after) :
    after.store.elementRules =
      (documents.flatMap RuleDocument.parse).foldl addNew editor.store.elementRules := by
  induction h with
  | nothing editor => rfl
  | @next editor after document documents stored rest ih =>
      obtain ⟨_, _, _, turns⟩ := importRules_turns document editor
      have now : ((importRules document).runOn editor).2.store.elementRules = _ :=
        (turns.made stored).elementRules
      rw [ih, now, List.flatMap_cons, List.foldl_append]
      rfl

/-- A store that was empty has the rules of the documents, each of them once. -/
theorem Imports.distinct_eq {editor after : Editor} {documents : List Text}
    (h : Imports editor documents after) (empty : editor.store.elementRules = []) :
    after.store.elementRules = distinct (documents.flatMap RuleDocument.parse) := by
  rw [h.elementRules, empty, SiteFilter.distinct_eq]

/--
What was taken from documents comes back from the document of the rules, at once or by way of two
stores that were empty, just when no domain among the rules ends in half a delimiter.
-/
theorem export_import_iff (document : Text) :
    (RuleDocument.parse (RuleDocument.format (RuleDocument.parse document) []) =
        RuleDocument.parse document ↔
      ∀ rule ∈ RuleDocument.parse document, ¬ rule.EndsInHalf) ∧
    ∀ (empty built other restored : Editor) (documents : List Text),
      empty.store.elementRules = [] → Imports empty documents built →
      other.store.elementRules = [] → Imports other [exportRules built.store] restored →
      (restored.store.elementRules = built.store.elementRules ↔
        ∀ rule ∈ built.store.elementRules, ¬ rule.EndsInHalf) := by
  constructor
  · exact RuleDocument.parse_format_eq_iff fun rule => RuleDocument.mem_parse
  · intro empty built other restored documents clear imported clear' back
    have rules := imported.distinct_eq clear
    have given : ∀ rule ∈ built.store.elementRules, rule.IsTidy ∧ rule.key.IsUnbroken := by
      intro rule listed
      rw [rules, mem_distinct] at listed
      obtain ⟨document, _, inside⟩ := List.mem_flatMap.mp listed
      exact RuleDocument.mem_parse inside
    have nodup : built.store.elementRules.Nodup := by
      rw [rules]
      exact nodup_distinct _
    have again := back.distinct_eq clear'
    rw [List.flatMap_cons, List.flatMap_nil, List.append_nil, exportRules] at again
    have lines := RuleDocument.parse_format fun rule listed => (given rule listed).2
    rw [again, lines, distinct_filterMap_eq_iff nodup, ← lines]
    exact RuleDocument.parse_format_eq_iff given

def importing (editor : Editor) (document : Text) : Editor :=
  ((importRules document).runOn editor).2

theorem Imports.single {editor : Editor} {document : Text}
    (done : ((importRules document).runOn editor).1.isOk = true) :
    Imports editor [document] (importing editor document) := by
  refine .next (fun e failed => ?_) (.nothing _)
  rw [failed] at done
  cases done

theorem newEditor_elementRules : (newEditor true).store.elementRules = [] := by
  decide +kernel

def blogRules : Text :=
  Text.ofString "! blogs\n a.com ## .x > p \r\na.com##.x > p\u2028b.com##span#y\nbroken"

theorem export_import_blogs :
    RuleDocument.parse (RuleDocument.format (RuleDocument.parse blogRules) []) =
        RuleDocument.parse blogRules ∧
      ∃ built restored, Imports (newEditor true) [blogRules] built ∧
        Imports (newEditor true) [exportRules built.store] restored ∧
        restored.store.elementRules = built.store.elementRules ∧
        built.store.elementRules.map ElementRule.key =
          [Text.ofString "a.com##.x > p", Text.ofString "b.com##span#y"] := by
  have imported : Imports (newEditor true) [blogRules] (importing (newEditor true) blogRules) :=
    .single (by decide +kernel)
  have back : Imports (newEditor true)
      [exportRules (importing (newEditor true) blogRules).store] _ := .single (by decide +kernel)
  have rules := imported.distinct_eq newEditor_elementRules
  have whole : ∀ rule ∈ distinct ([blogRules].flatMap RuleDocument.parse), ¬ rule.EndsInHalf := by
    decide +kernel
  obtain ⟨text, stores⟩ := export_import_iff blogRules
  have same := stores _ _ _ _ _ newEditor_elementRules imported newEditor_elementRules back
  refine ⟨text.mpr (by decide +kernel), _, _, imported, back, same.mpr (rules ▸ whole), ?_⟩
  rw [rules]
  decide +kernel

def halfDocument : Text :=
  Text.ofString "a# ## b"

theorem export_import_half :
    RuleDocument.parse (RuleDocument.format (RuleDocument.parse halfDocument) []) ≠
        RuleDocument.parse halfDocument ∧
      ∃ built restored, Imports (newEditor true) [halfDocument] built ∧
        Imports (newEditor true) [exportRules built.store] restored ∧
        built.store.elementRules = [halfBefore] ∧
        restored.store.elementRules = [halfBehind] := by
  have imported : Imports (newEditor true) [halfDocument]
      (importing (newEditor true) halfDocument) := .single (by decide +kernel)
  have back : Imports (newEditor true)
      [exportRules (importing (newEditor true) halfDocument).store] _ :=
    .single (by decide +kernel)
  have rules := imported.distinct_eq newEditor_elementRules
  have exported : exportRules (importing (newEditor true) halfDocument).store =
      Text.ofString "a###b\n" := by
    rw [exportRules, rules]
    decide +kernel
  refine ⟨by decide +kernel, _, _, imported, back, ?_, ?_⟩
  · rw [rules]
    decide +kernel
  · rw [back.distinct_eq newEditor_elementRules, exported]
    decide +kernel

end SiteFilter.RuleStore
