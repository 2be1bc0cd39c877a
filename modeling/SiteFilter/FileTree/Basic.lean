import SiteFilter.Fault
import SiteFilter.Text.Lines
import SiteFilter.Text.Octets

/-!
# File trees

A tree of directories, files and sockets as a finite map from routes to nodes. A route is the list
of names from the root on; the root itself is always a directory. The elementary operations act on
one route each. Nodes belong to nobody: no operation here is refused for want of permission, as for
somebody who may do everything.
-/

namespace SiteFilter

/-- The names that lead from the root to a place. -/
abbrev Route := List Text

inductive Node
  | directory
  | file (content : Bytes)
  | socket
deriving DecidableEq

/-- A file tree, with the place that relative paths start from. -/
structure FileTree where
  nodes : List (Route × Node)
  current : Route
deriving DecidableEq

namespace FileTree

def node? (tree : FileTree) (route : Route) : Option Node :=
  if route = [] then some .directory
  else (tree.nodes.find? fun entry => entry.1 = route).map (·.2)

def erase (tree : FileTree) (route : Route) : FileTree :=
  { tree with nodes := tree.nodes.filter fun entry => entry.1 ≠ route }

def put (tree : FileTree) (route : Route) (node : Node) : FileTree :=
  { tree with nodes := (route, node) :: (tree.erase route).nodes }

def nameLimit : Nat := 255

/-- A path of this many octets is too long. -/
def pathLimit : Nat := 4096

def parentName : Text :=
  Text.ofString ".."

/-- The place that names lead to from `route`. All but the last have to be directories. -/
def follow (tree : FileTree) (route : Route) : List Text → Except OsCause Route
  | [] => .ok route
  | name :: names =>
      match tree.node? route with
      | none => .error .noEntry
      | some .directory =>
          if name = parentName then tree.follow route.dropLast names
          else if nameLimit < name.octetCount then .error .nameTooLong
          else tree.follow (route ++ [name]) names
      | some _ => .error .notDirectory

def find (tree : FileTree) (path : Path) : Except Fault Route :=
  let t := path.text
  match t.octetFault? with
  | some e => .error (.encoding e)
  | none =>
      if t.any (·.val = 0) then .error .nulInPath
      else if pathLimit ≤ t.octetCount then .error (.os ⟨.nameTooLong, t, none⟩)
      else
        match tree.follow (if path.isAbsolute then [] else tree.current) path.parts with
        | .ok route => .ok route
        | .error cause => .error (.os ⟨cause, t, none⟩)

def stat (tree : FileTree) (path : Path) : Except Fault (Route × Node) := do
  let route ← tree.find path
  match tree.node? route with
  | some node => return (route, node)
  | none => throw (.os ⟨.noEntry, path.text, none⟩)

/--
The node that a path leads to, if it leads anywhere. A path that cannot be one leads nowhere; a
name that is too long is an error.
-/
def look (tree : FileTree) (path : Path) : Except Fault (Option Node) :=
  match tree.stat path with
  | .ok (_, node) => .ok (some node)
  | .error (.os e) =>
      if e.cause = .noEntry || e.cause = .notDirectory then .ok none else .error (.os e)
  | .error (.encoding _) => .ok none
  | .error .nulInPath => .ok none
  | .error e => .error e

def has (tree : FileTree) (path : Path) : Except Fault Bool :=
  match tree.look path with
  | .ok node => .ok node.isSome
  | .error e => .error e

def hasDirectory (tree : FileTree) (path : Path) : Except Fault Bool :=
  match tree.look path with
  | .ok node => .ok (node == some .directory)
  | .error e => .error e

def read (tree : FileTree) (path : Path) : Except Fault Bytes := do
  match ← tree.stat path with
  | (_, .file content) => return content
  | (_, .directory) => throw (.os ⟨.isDirectory, path.text, none⟩)
  | (_, .socket) => throw (.os ⟨.noDevice, path.text, none⟩)

def readText (tree : FileTree) (path : Path) : Except Fault Text := do
  match Utf8.decode (← tree.read path) with
  | .ok t => return t.unifyLineEnds
  | .error e => throw (.decoding e)

end FileTree

end SiteFilter
