import SiteFilter.CommandLine.Grammar
import SiteFilter.FileTree.Path

/-!
# Invocations

The commands that the program has, and what arguments make of them.
-/

namespace SiteFilter.CommandLine

/-- What an option says about the file that it is for. -/
inductive FileChoice
  /-- The option is not given. -/
  | usual
  | named (path : Path)
  /-- The option is given without a name. -/
  | unnamed
deriving DecidableEq

inductive Command
  | addHost (name : Text)
  | removeHost (name : Text)
  | addRule (line : Text)
  | removeRule (line : Text)
  | importFrom (source : Text)
  | exportTo (target : FileChoice)
  | clearRules
  | list
  | reload
  | filterList
  | serve
deriving DecidableEq

structure Invocation where
  /-- The file with the settings. -/
  settingsFile : FileChoice
  /-- A data directory in the place of the one in the settings. -/
  dataDirectory : Option Text
  /-- Everything is noted. -/
  verbose : Bool
  command : Command

def helpOption : Opt :=
  ⟨.help, ["-h", "--help"].map Text.ofString⟩

def settingsOption : Opt :=
  ⟨.value, ["--config"].map Text.ofString⟩

def dataOption : Opt :=
  ⟨.value, ["--data-dir"].map Text.ofString⟩

def verboseOption : Opt :=
  ⟨.flag, ["-v", "--verbose"].map Text.ofString⟩

def outputOption : Opt :=
  ⟨.value, ["--output", "-o"].map Text.ofString⟩

def commandNames : List Text :=
  ["add-host", "remove-host", "add-rule", "remove-rule", "import", "export", "clear-rules", "list",
    "reload", "filter-list", "serve"].map Text.ofString

def programName : Text :=
  Text.ofString "exactblock"

def mainGrammar : Grammar where
  program := programName
  options := [helpOption, settingsOption, dataOption, verboseOption]
  operand := .command (Text.ofString "command") commandNames

def operandOf (command : Text) : Operand :=
  let names : List (String × String) :=
    [("add-host", "hostname"), ("remove-host", "hostname"), ("add-rule", "rule"),
     ("remove-rule", "rule"), ("import", "source")]
  match names.find? fun entry => Text.ofString entry.1 = command with
  | some (_, name) => .word (Text.ofString name)
  | none => .nothing

def commandGrammar (command : Text) : Grammar where
  program := programName ++ CodePoint.ofChar ' ' :: command
  options := helpOption :: (if command = Text.ofString "export" then [outputOption] else [])
  operand := operandOf command

/-- What was given for an option, where the last time counts: its value, if it has one. -/
def Parsed.given? (parsed : Parsed) (option : Opt) : Option (Option Text) :=
  (parsed.given.reverse.find? (·.1 = option)).map (·.2)

def Parsed.file (parsed : Parsed) (option : Opt) : FileChoice :=
  match parsed.given? option with
  | none => .usual
  | some none => .unnamed
  | some (some name) => .named (Path.ofText name)

/-- The word that was given as operand. The double dash before or behind it is dropped. -/
def Parsed.word (parsed : Parsed) : Text :=
  ((parsed.operand.getD []).erase doubleDash).headD []

def commandOf (name : Text) (parsed : Parsed) : Command :=
  if name = Text.ofString "add-host" then .addHost parsed.word
  else if name = Text.ofString "remove-host" then .removeHost parsed.word
  else if name = Text.ofString "add-rule" then .addRule parsed.word
  else if name = Text.ofString "remove-rule" then .removeRule parsed.word
  else if name = Text.ofString "import" then .importFrom parsed.word
  else if name = Text.ofString "export" then
    .exportTo (parsed.file outputOption)
  else if name = Text.ofString "clear-rules" then .clearRules
  else if name = Text.ofString "list" then .list
  else if name = Text.ofString "reload" then .reload
  else if name = Text.ofString "filter-list" then .filterList
  else .serve

def Grammar.readWhole (grammar : Grammar) (arguments : List Text) : Except Refusal Parsed := do
  let parsed ← grammar.read arguments
  match grammar.missing? parsed with
  | some refusal => throw refusal
  | none => return parsed

def Invocation.read (arguments : List Text) : Except Refusal Invocation := do
  let parsed ← mainGrammar.readWhole arguments
  let words := parsed.operand.getD []
  let name := words.headD []
  if !commandNames.contains name then
    throw (.misuse programName (.unknownCommand (Text.ofString "command") name commandNames))
  let inner ← (commandGrammar name).readWhole (words.drop 1)
  let extra := parsed.extra ++ inner.extra
  if !extra.isEmpty then throw (.misuse programName (.unrecognized extra))
  return {
    settingsFile := parsed.file settingsOption
    dataDirectory := (parsed.given? dataOption).join
    verbose := (parsed.given? verboseOption).isSome
    command := commandOf name inner }

end SiteFilter.CommandLine
