import SiteFilter.FileTree.Basic

/-!
# Changes to a file tree

Actions that change a tree and may be refused. A refused action can have changed the tree before,
as far as its description says so.
-/

namespace SiteFilter

abbrev FileAction := ExceptT Fault (StateM FileTree)

namespace FileAction

def ask {α : Type} (question : FileTree → Except Fault α) : FileAction α := do
  match question (← get) with
  | .ok answer => return answer
  | .error e => throw e

def refuse {α : Type} (cause : OsCause) (path : Path) : FileAction α :=
  throw (.os ⟨cause, path.text, none⟩)

/-- The place of a path that can take a new node: its directory has to be there. -/
def place (path : Path) : FileAction Route := do
  let route ← ask (·.find path)
  match (← get).node? route.dropLast with
  | some .directory => return route
  | some _ => refuse .notDirectory path
  | none => refuse .noEntry path

def makeDirectory (path : Path) : FileAction Unit := do
  let route ← place path
  match (← get).node? route with
  | some _ => refuse .exists path
  | none => modify (·.put route .directory)

/-- Takes a refusal back when a directory is at the path. -/
def unlessDirectory (path : Path) (e : Fault) : FileAction Unit := do
  match e with
  | .os _ => if ← ask (·.hasDirectory path) then return () else throw e
  | _ => throw e

def ensureDirectory (path : Path) : FileAction Unit :=
  tryCatch (makeDirectory path) (unlessDirectory path)

/-- Makes a directory and the directories above it; `fuel` bounds their number. -/
def makeDirectoriesFrom : (fuel : Nat) → Path → FileAction Unit
  | 0, path => ensureDirectory path
  | fuel + 1, path =>
      tryCatch (makeDirectory path) fun e => do
        match e with
        | .os ⟨.noEntry, _, _⟩ =>
            if path.parent = path then throw e
            else
              makeDirectoriesFrom fuel path.parent
              ensureDirectory path
        | _ => unlessDirectory path e

def makeDirectories (path : Path) : FileAction Unit :=
  makeDirectoriesFrom path.parts.length path

/-- Makes the file at a path empty, or makes an empty file. -/
def openForWriting (path : Path) : FileAction Route := do
  let route ← place path
  match (← get).node? route with
  | some .directory => refuse .isDirectory path
  | some .socket => refuse .noDevice path
  | _ => modify (·.put route (.file []))
  return route

def write (path : Path) (content : Bytes) : FileAction Unit := do
  let route ← openForWriting path
  modify (·.put route (.file content))

def unlink (path : Path) : FileAction Unit := do
  let (route, node) ← ask (·.stat path)
  match node with
  | .directory => refuse .isDirectory path
  | _ => modify (·.erase route)

def unlinkIfThere (path : Path) : FileAction Unit :=
  tryCatch (unlink path) fun e =>
    match e with
    | .os ⟨.noEntry, _, _⟩ => return ()
    | _ => throw e

/-- Moves a file to another path, in the place of the file that is there. -/
def rename (source target : Path) : FileAction Unit := do
  let both (e : Fault) : Fault :=
    match e with
    | .os ⟨cause, _, _⟩ => .os ⟨cause, source.text, some target.text⟩
    | e => e
  let (old, node) ← tryCatch (ask (·.stat source)) fun e => throw (both e)
  let new ← tryCatch (place target) fun e => throw (both e)
  match (← get).node? new with
  | some .directory =>
      let cause : OsCause :=
        if target.parts.getLast? = some FileTree.parentName then .busy else .isDirectory
      throw (.os ⟨cause, source.text, some target.text⟩)
  | _ => modify fun tree => (tree.erase old).put new node

end FileAction

end SiteFilter
