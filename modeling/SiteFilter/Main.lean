import SiteFilter.CommandLine.Outlook

/-!
# The program

Shows a run the files that it looks at, and carries out on the disk what the run did to them.
-/

open SiteFilter

namespace SiteFilter.Program

def stringOf (t : Text) : String :=
  String.ofList (t.map fun c => Char.ofNat c.val)

def nameOf (route : Route) : String :=
  "/" ++ stringOf (Text.join (Text.ofString "/") route)

def octetsOf (name : String) : IO Bytes := do
  return (← IO.FS.readBinFile name).toList

/-- A tree that shows what is at a place, and what is in it when it is a directory. -/
def showAt (withEntries : Bool) (files : FileTree) (route : Route) : IO FileTree := do
  let name := (← IO.currentDir) / nameOf route
  if ← name.isDir then
    let files := files.put route .directory
    if withEntries then
      (← name.readDir).foldlM (fun files entry => do
        let place := route ++ [Text.ofString entry.fileName]
        if ← entry.path.isDir then return files.put place .directory
        else return files.put place (.file (← octetsOf (nameOf place)))) files
    else return files
  else if ← name.pathExists then return files.put route (.file (← octetsOf (nameOf route)))
  else return files

/-- A tree that shows the directories above a place. -/
def showAbove (files : FileTree) (route : Route) : IO FileTree :=
  (List.range route.length).foldlM (fun files n => do
    let above := route.take n
    if ← ((← IO.currentDir) / nameOf above).isDir then return files.put above .directory
    else return files) files

def showAll (files : FileTree) (looks : List CommandLine.Look) : IO FileTree :=
  looks.foldlM (fun files look => do
    let path := look.path
    let parts := if path.isAbsolute then path.parts else files.current ++ path.parts
    let route := Path.collapse parts
    showAt look.withEntries (← showAbove files route) route) files

/-- Carries out on the disk what makes the difference between two trees. -/
def carryOut (before after : FileTree) : IO Unit := do
  before.nodes.forM fun (route, node) =>
    match node with
    | .file _ => if (after.node? route).isNone then IO.FS.removeFile (nameOf route) else return ()
    | _ => return ()
  after.nodes.reverse.forM fun (route, node) =>
    match node with
    | .directory => IO.FS.createDirAll (nameOf route)
    | .file content => do
        if before.node? route ≠ some node then
          IO.FS.createDirAll (nameOf route.dropLast)
          IO.FS.writeBinFile (nameOf route) content.toByteArray
    | .socket => return ()

def environment : IO Environment := do
  let bindings ← Environment.variableNames.filterMapM fun name => do
    return (← IO.getEnv name).map fun value => (Text.ofString name, Text.ofString value)
  let users ← try octetsOf "/etc/passwd" catch _ => pure []
  let users := Utf8.decodeLenient users
  let userId := ((← IO.getEnv "UID").bind String.toNat?).getD 0
  return {
    bindings := bindings
    platform := .other
    userId := userId
    ownHome := Environment.homeOf users userId
    homes := Environment.homesOf users
    programs := .none
    limits := .usual
    outlets := .open }

partial def inputLines (input : IO.FS.Stream) : IO (List Bytes) := do
  let line ← input.getLine
  if line.isEmpty then return []
  let rest ← inputLines input
  return Utf8.encodeAny (Text.dropEndWhile (·.val = 0x0A) (Text.ofString line)) :: rest

def serves (arguments : List Text) : Bool :=
  match CommandLine.Invocation.read arguments with
  | .ok invocation => invocation.command = .serve
  | .error _ => false

def exitCode : CommandLine.Ending → UInt32
  | .exit code => UInt32.ofNat code
  | .broken _ => 1
  | .refused .help => 0
  | .refused _ => 2

def run (arguments : List String) : IO UInt32 := do
  let arguments := arguments.map Text.ofString
  let env ← environment
  let current ← IO.currentDir
  let start : FileTree := ⟨[], (Path.ofText (Text.ofString current.toString)).parts⟩
  let first ← showAll start (CommandLine.looks env start arguments)
  let files ← showAll first (CommandLine.looks env first arguments)
  let requests ← if serves arguments then inputLines (← IO.getStdin) else pure []
  let unreachable := fun _ =>
    Fetched.failed (.unreachable (Text.ofString "no connection to the network"))
  let ran := CommandLine.run env files unreachable requests arguments
  carryOut files ran.files
  IO.print (stringOf ran.output)
  ran.replies.forM fun reply => IO.println (stringOf (Utf8.decodeLenient reply))
  IO.eprint (stringOf ran.errors)
  match ran.ending with
  | .broken e => IO.eprintln (e.label ++ ": " ++ stringOf e.message)
  | _ => pure ()
  return exitCode ran.ending

end SiteFilter.Program

def main (arguments : List String) : IO UInt32 :=
  SiteFilter.Program.run arguments
