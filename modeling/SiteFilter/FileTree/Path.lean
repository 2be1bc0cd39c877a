import SiteFilter.Text.Basic

/-!
# Paths

A path is what precedes its first part (nothing, one slash or two) and its parts. Repeated slashes
and parts that are a single point are dropped when a path is read; parts that are two points stay.
-/

namespace SiteFilter

/-- A path. `slashes` counts the slashes in front: none in a relative path. -/
structure Path where
  slashes : Nat
  parts : List Text
deriving DecidableEq, Inhabited

namespace Path

def partsOf (t : Text) : List Text :=
  (Text.splitOn (Text.ofString "/") t).filter fun part =>
    !part.isEmpty && part ≠ Text.ofString "."

/-- The path that a text stands for. Three slashes in front, or more, count as one. -/
def ofText (t : Text) : Path :=
  let leading := (t.takeWhile (·.val = 0x2F)).length
  ⟨if leading = 2 then 2 else min leading 1, partsOf t⟩

def isAbsolute (p : Path) : Bool :=
  0 < p.slashes

/-- The text of a path. The empty path is a single point. -/
def text (p : Path) : Text :=
  if p.slashes = 0 && p.parts.isEmpty then Text.ofString "."
  else List.replicate p.slashes (CodePoint.ofChar '/') ++ Text.join (Text.ofString "/") p.parts

/-- `t` seen from `p`: an absolute `t` stands for itself. -/
def join (p : Path) (t : Text) : Path :=
  let tail := ofText t
  if tail.isAbsolute then tail else ⟨p.slashes, p.parts ++ tail.parts⟩

def parent (p : Path) : Path :=
  ⟨p.slashes, p.parts.dropLast⟩

/-- Two points taken as a step back along the parts before them. -/
def collapse (parts : List Text) : List Text :=
  parts.foldl
    (fun done part => if part = Text.ofString ".." then done.dropLast else done ++ [part]) []

end Path

end SiteFilter
