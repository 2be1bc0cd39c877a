import SiteFilter.Text.Quoted

/-!
# Refusals of the file system
-/

namespace SiteFilter

inductive OsCause
  | noEntry
  | noDevice
  | tooManyArguments
  | permission
  | busy
  | exists
  | notDirectory
  | isDirectory
  | noSpace
  | nameTooLong
deriving DecidableEq

/-- A refusal with the path it is about, and the second path where there are two. -/
structure OsError where
  cause : OsCause
  path : Text
  second : Option Text
deriving DecidableEq

namespace OsCause

def number : OsCause → Nat
  | .noEntry => 2
  | .noDevice => 6
  | .tooManyArguments => 7
  | .permission => 13
  | .busy => 16
  | .exists => 17
  | .notDirectory => 20
  | .isDirectory => 21
  | .noSpace => 28
  | .nameTooLong => 36

def words : OsCause → String
  | .noEntry => "No such file or directory"
  | .noDevice => "No such device or address"
  | .tooManyArguments => "Argument list too long"
  | .permission => "Permission denied"
  | .busy => "Device or resource busy"
  | .exists => "File exists"
  | .notDirectory => "Not a directory"
  | .isDirectory => "Is a directory"
  | .noSpace => "No space left on device"
  | .nameTooLong => "File name too long"

end OsCause

def OsError.message (e : OsError) : Text :=
  Text.ofString "[Errno " ++ Text.ofNat e.cause.number ++ Text.ofString "] "
    ++ Text.ofString e.cause.words ++ Text.ofString ": " ++ e.path.quoted
    ++ (match e.second with
        | some second => Text.ofString " -> " ++ second.quoted
        | none => [])

end SiteFilter
