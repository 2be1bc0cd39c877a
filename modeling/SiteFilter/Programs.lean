import SiteFilter.FileTree.Basic

/-!
# Other programs

What the programs do that can be run is not part of this program. It is given as a function of the
files, the words of a command and the time that is left.
-/

namespace SiteFilter

inductive Launched
  /-- It is not started. -/
  | refused (cause : OsCause)
  /-- It ends in time. A negative status tells the signal that ended it. -/
  | ended (status : Int) (output errors : Bytes) (files : FileTree)
  /-- It is stopped when the time is over. -/
  | stopped (files : FileTree)

/-- What programs do, for a time limit in seconds, by the words of a command. -/
abbrev Programs := (limit : Float) → (files : FileTree) → (words : List Text) → Launched

def Programs.none : Programs :=
  fun _ _ _ => .refused .noEntry

end SiteFilter
