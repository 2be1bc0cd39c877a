import SiteFilter.FileTree.Action

/-!
# Replacing a file in one step

A file is replaced by writing a new one beside it and moving that into its place, so that the old
content or the new one is there at any time. When a step fails, the new file is taken away.
-/

namespace SiteFilter

/-- The steps of replacing a file, after the directories above it are there. -/
inductive WriteStep
  | create
  | append (chunk : Bytes)
  | sync
  | replace
deriving DecidableEq

namespace AtomicWrite

/-- The name of a temporary file: its mark and eight digits. -/
def temporaryName (n : Nat) : Text :=
  let digits := Text.ofNat n
  Text.ofString ".tmp-" ++ List.replicate (8 - digits.length) (CodePoint.ofChar '0') ++ digits

def freshName (tree : FileTree) (directory : Route) : Text :=
  let free (n : Nat) : Bool := (tree.node? (directory ++ [temporaryName n])).isNone
  temporaryName (((List.range (tree.nodes.length + 1)).find? free).getD 0)

/-- The directory of a temporary file: absolute, and without steps back. -/
def settle (current : Route) (directory : Path) : Path :=
  if directory.isAbsolute then ⟨directory.slashes, Path.collapse directory.parts⟩
  else ⟨1, Path.collapse (current ++ directory.parts)⟩

def perform (temporary target : Path) : WriteStep → FileAction Unit
  | .create => do
      let route ← FileAction.place temporary
      modify (·.put route (.file []))
  | .append chunk => do
      match ← FileAction.ask (·.stat temporary) with
      | (route, .file content) => modify (·.put route (.file (content ++ chunk)))
      | _ => FileAction.refuse .isDirectory temporary
  | .sync => return ()
  | .replace => FileAction.rename temporary target

def steps (data : Bytes) : List WriteStep :=
  [.append data, .sync, .replace]

def discard (temporary : Path) : FileAction Unit :=
  FileAction.unlinkIfThere temporary

/--
Replaces the file at `target` by `data`. A refusal that is given is met when the data is written,
as on a disk that is full.
-/
def run (refusal : Option OsCause) (target : Path) (data : Bytes) : FileAction Unit := do
  FileAction.makeDirectories target.parent
  let tree ← get
  let directory := settle tree.current target.parent
  let route ← FileAction.ask (·.find directory)
  let temporary : Path := ⟨directory.slashes, directory.parts ++ [freshName tree route]⟩
  perform temporary target .create
  let write : FileAction Unit :=
    match refusal with
    | some cause => FileAction.refuse cause temporary
    | none => (steps data).forM (perform temporary target)
  tryCatch write fun e => do
    discard temporary
    throw e

end AtomicWrite

end SiteFilter
