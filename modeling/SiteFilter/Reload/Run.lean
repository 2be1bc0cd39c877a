import SiteFilter.Machine
import SiteFilter.Number.Layout

/-!
# Reload requests

How a request to reload ends. Whatever goes wrong is part of its result.
-/

namespace SiteFilter.Reloader

def source : String :=
  "exactblock.blocker.reload"

def enginePlace : Text :=
  Text.ofString "\x7bengine_id\x7d"

/-- A word of a command, with the engine in its place. Both have to be texts. -/
def wordFor (engine : Json) : Json → Except Fault Text
  | .text word =>
      match engine with
      | .text name => .ok (Text.replaceAll enginePlace name word)
      | v => .error (.mismatch (.notAReplacement v.argumentKind))
  | v => .error (.mismatch (.noMember v.kind "replace"))

def wordFault? (word : Text) : Option Fault :=
  match word.octetFault? with
  | some e => some (.encoding e)
  | .none => if word.any (·.val = 0) then some .nulInPath else .none

def printed (bytes : Bytes) : Text :=
  (Utf8.decodeLenient bytes).strip

/-- What the output and the errors of a program say together. -/
def combined (output errors : Bytes) : Text :=
  let output := printed output
  let errors := printed errors
  if errors.isEmpty then output
  else if output.isEmpty then errors
  else output ++ CodePoint.ofChar '\n' :: errors

def resultOf (status : Int) (words : Text) : ReloadResult :=
  if status = 0 then ⟨true, words⟩
  else if words.isEmpty then ⟨false, Text.ofString "exited with status " ++ Text.ofInt status⟩
  else ⟨false, words⟩

/-- Runs one of the programs. Where relative paths start from stays, whatever it does to the files. -/
def launch (programs : Programs) (timeout : Float) (words : List Text) : Action ReloadResult := do
  if let some e := words.findSome? wordFault? then throw e
  let machine ← get
  let keep (files : FileTree) : Action Unit :=
    set { machine with files := { files with current := machine.files.current } }
  match programs timeout machine.files words with
  | .refused cause =>
      let name := words.headD []
      return ⟨false, Text.ofString "cannot run " ++ name ++ Text.ofString ": "
        ++ (OsError.mk cause name .none).message⟩
  | .ended status output errors files =>
      keep files
      return resultOf status (combined output errors)
  | .stopped files =>
      keep files
      return ⟨false, Text.ofString "reload timed out after " ++ durationText timeout
        ++ Text.ofString "s"⟩

def attempt (reloader : Reloader) (engine : Json) : Action ReloadResult := do
  match reloader with
  | .none => return ⟨false, Text.ofString "no reload command configured"⟩
  | .custom answer => Action.ofExcept (answer engine)
  | .command programs words timeout =>
      let words ← Action.ofExcept (words.mapM (wordFor engine))
      Action.note .debug source
        (Text.ofString "Reloading blocking engine " ++ engine.plainText ++ Text.ofString ": "
          ++ Json.display (.array (words.map Json.text)))
      launch programs timeout words

/-- Asks the engine and reports a failure as a result. -/
def ask (reloader : Reloader) (engine : Json) : Action ReloadResult := do
  Action.record (.asking engine)
  tryCatch (attempt reloader engine) fun e =>
    return ⟨false, Text.ofString "reload raised " ++ Text.ofString e.label ++ Text.ofString ": "
      ++ e.message⟩

end SiteFilter.Reloader
