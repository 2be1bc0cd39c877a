import SiteFilter.Proofs.FileTree.Overwriting
import SiteFilter.Proofs.Json.Floats
import SiteFilter.Proofs.Machine
import SiteFilter.Settings.Document

/-!
# Settings that are kept

Settings of the kinds that they are meant to be of are found again in the file that they were saved
to, whatever was there before. The document is all ASCII, so that nothing but its escapes tells what
the texts in it are.
-/

namespace SiteFilter

open FileTree Effect

/-- What the user can set, with each value of its own kind. -/
structure Choices where
  groupId : Text
  filterListName : Text
  dataDirectory : Option Text
  engineId : Text
  reloadCommand : Option (List Text)
  channelTimeout : Float
  lowersHosts : Bool

namespace Choices

def settings (choices : Choices) : Settings where
  groupId := .text choices.groupId
  filterListName := .text choices.filterListName
  dataDirectory := choices.dataDirectory.elim .null .text
  engineId := .text choices.engineId
  reloadCommand := choices.reloadCommand.elim .null fun words => .array (words.map .text)
  channelTimeout := .float choices.channelTimeout
  lowersHosts := .bool choices.lowersHosts

def texts (choices : Choices) : List Text :=
  [choices.groupId, choices.filterListName, choices.engineId] ++ choices.dataDirectory.toList
    ++ choices.reloadCommand.getD []

end Choices

namespace Settings

/-! ## The document -/

/-- Every member is looked up under the name that it was written with. -/
theorem ofJson_toJson {settings : Settings} {x : Float}
    (timeout : settings.channelTimeout = .float x) : ofJson settings.toJson = .ok settings := by
  obtain ⟨groupId, filterListName, dataDirectory, engineId, reloadCommand, _, lowersHosts⟩ := settings
  obtain rfl := timeout
  rfl

section Written

variable {choices : Choices} {style : Json.Style} {room : Nat} {limits : Json.Limits}
  (encodable : ∀ t ∈ choices.texts, Utf8.Encodable t)

include encodable

theorem readable_dataDirectory : Json.Readable style room choices.settings.dataDirectory := by
  unfold Choices.settings
  cases directory : choices.dataDirectory with
  | none => exact .null
  | some t => exact .text fun _ => encodable t (by simp [Choices.texts, directory])

theorem readable_reloadCommand :
    Json.Readable style (room + 1) choices.settings.reloadCommand := by
  unfold Choices.settings
  cases command : choices.reloadCommand with
  | none => exact .null
  | some words =>
      refine .array (List.forall_mem_map.mpr fun word inside => ?_)
      exact .text fun _ => encodable word (by simp [Choices.texts, command, inside])

/-- The document of settings is read back when their time limit is. -/
theorem readsBack_toJson
    (timeout : Json.read limits (Json.write style (.float choices.channelTimeout)) =
      .ok (.float choices.channelTimeout)) :
    Json.ReadsBack style (room + 2) choices.settings.toJson := by
  have distinct : [groupIdName, filterListNameName, dataDirectoryName, engineIdName,
      reloadCommandName, channelTimeoutName, lowersHostsName].Nodup := by decide
  have name (s : String) : style.Holds (Text.ofString s) := fun _ => Utf8.encodable_ofString s
  have text {t : Text} (inside : t ∈ [choices.groupId, choices.filterListName, choices.engineId]) :
      Json.ReadsBack style (room + 1) (.text t) := by
    refine Json.value_writeAt (.text fun _ => encodable t ?_)
    exact List.mem_append_left _ (List.mem_append_left _ inside)
  refine Json.readsBack_object distinct ?_
  simp only [List.forall_mem_cons, List.not_mem_nil, false_implies, implies_true, and_true]
  exact ⟨⟨name _, text (by simp)⟩, ⟨name _, text (by simp)⟩,
    ⟨name _, Json.value_writeAt (readable_dataDirectory encodable)⟩, ⟨name _, text (by simp)⟩,
    ⟨name _, Json.value_writeAt (readable_reloadCommand encodable)⟩,
    ⟨name _, Json.readsBack_float timeout⟩, ⟨name _, Json.value_writeAt (.bool _)⟩⟩

end Written

/-! ## The file -/

theorem load_of_look {limits : Json.Limits} {files : FileTree} {path : Path} {settings : Settings}
    (there : files.look path = .ok (some (.file (Utf8.encodeAny settings.text))))
    (same : Json.read limits settings.text = .ok settings.toJson) :
    load limits files path = ofJson settings.toJson := by
  have has : files.has path = .ok true := by
    rw [FileTree.has, there]
    rfl
  -- In ASCII, with no carriage return, the octets of the file stand for the text as it is.
  have ascii : Utf8.Encodable settings.text := Json.encodable_write_ascii rfl settings.toJson
  have text : files.readText path = .ok settings.text :=
    readText_eq_ok_iff.mpr ⟨_, _, read_of_look there, Utf8.decode_encodeAny ascii,
      (Json.unifyLineEnds_write .settings settings.toJson).symm⟩
  unfold load
  simp only [has, text, same, bind, Except.bind]
  rfl

/-- A file of settings is written just when its path takes a file, and holds their text then. -/
theorem save_spec {machine : Machine} (wellFormed : machine.files.WellFormed) (settings : Settings)
    (path : Path) :
    Ensures (save settings path) machine fun result after =>
      (result = .ok () ↔ machine.files.Takes path) ∧
        (result = .ok () →
          after.files.look path = .ok (some (.file (Utf8.encodeAny settings.text)))) := by
  refine .bind (Action.onFiles_spec ((FileAction.makeDirectories_isOk wellFormed path.parent).and
    (FileAction.makeDirectories_spec path.parent machine.files))) ?_ ?_
  · rintro _ middle ⟨⟨-, there⟩, furnished, -⟩
    rw [← FileAction.takes_iff wellFormed furnished (there rfl)]
    exact Action.onFiles_spec (FileAction.write_spec path _ middle.files)
  · rintro e middle ⟨⟨passed, -⟩, -⟩
    exact ⟨⟨nofun, fun takes => nomatch passed.mpr takes.passable⟩, nofun⟩

/--
Saving succeeds for every path that takes a file, also where directories above it are missing or a
file is there already, and loading gives back the settings that were saved.
-/
theorem load_save {limits : Json.Limits} {machine : Machine}
    (wellFormed : machine.files.WellFormed) {choices : Choices}
    (encodable : ∀ t ∈ choices.texts, Utf8.Encodable t)
    (timeout : Json.read limits (Json.write .settings (.float choices.channelTimeout)) =
      .ok (.float choices.channelTimeout)) (path : Path) :
    Ensures (save choices.settings path) machine fun result after =>
      (result = .ok () ↔ machine.files.Takes path) ∧
        (result = .ok () → load limits after.files path = .ok choices.settings) := by
  refine (save_spec wellFormed choices.settings path).mono ?_
  rintro result after ⟨saved, holds⟩
  refine ⟨saved, fun done => ?_⟩
  have same : Json.read limits choices.settings.text = .ok choices.settings.toJson := by
    obtain ⟨room, roomy⟩ := Nat.exists_eq_add_of_le' (Nat.le_trans (by decide : 2 ≤ 4) limits.reads)
    exact Json.read_of_readsBack (roomy ▸ readsBack_toJson encodable timeout)
  rw [load_of_look (holds done) same]
  exact ofJson_toJson rfl

def oddChoices : Choices where
  groupId := [0x1F600, 0x22, 0x5C, 0x01].map CodePoint.ofNat
  filterListName := Text.ofString "blockerList.json"
  dataDirectory := none
  engineId := []
  reloadCommand := some [Text.ofString "reload", [CodePoint.ofNat 0xD7FF]]
  channelTimeout := 2.0
  lowersHosts := false

def deepPath : Path :=
  ⟨0, [parentName, Text.ofString "new", Text.ofString "config.json"]⟩

theorem load_save_odd :
    Ensures (save oddChoices.settings deepPath) bareMachine fun result after =>
      result = .ok () ∧ load .usual after.files deepPath = .ok oddChoices.settings := by
  have text : Json.write .settings (.float 2.0) = Text.ofString "2.0" := by decide +kernel
  have timeout : Json.read .usual (Json.write .settings (.float oddChoices.channelTimeout)) =
      .ok (.float oddChoices.channelTimeout) := by
    change Json.read .usual (Json.write .settings (.float 2.0)) = .ok (.float 2.0)
    rw [text]
    rfl
  have encodable : ∀ t ∈ oddChoices.texts, Utf8.Encodable t := by
    unfold Utf8.Encodable
    decide
  have wellFormed : bareMachine.files.WellFormed :=
    wellFormed_of_nodes (by decide) rfl nofun
  have takes : bareMachine.files.Takes deepPath :=
    ⟨⟨⟨by decide, by decide, by decide⟩, by decide, by decide, by decide, by decide⟩, by decide⟩
  refine (load_save wellFormed encodable timeout deepPath).mono ?_
  rintro result after ⟨saved, loaded⟩
  exact ⟨saved.mpr takes, loaded (saved.mpr takes)⟩

end Settings

end SiteFilter
