import SiteFilter.Text.Basic

/-!
# Failures from outside

What goes wrong beyond the program, in the network and where the program prints. The kinds are those
that the program tells apart; a failure brings its own words, and its name where its kind leaves it
open.
-/

namespace SiteFilter

/-- Why an address is not fetched. -/
inductive FetchFailure
  /-- The address cannot be reached. -/
  | unreachable (reason : Text)
  /-- The server answers, and refuses. -/
  | status (code : Nat) (reason : Text)
  | timedOut (reason : Text)
  /-- The operating system reports a fault, such as a connection that breaks. -/
  | system (name : String) (reason : Text)
  /-- What is asked or answered is no HTTP, such as a body that ends early. -/
  | protocol (name : String) (reason : Text)
  /-- The address has no octets, or no host that can be looked up. -/
  | value (name : String) (reason : Text)

namespace FetchFailure

def message : FetchFailure → Text
  | unreachable reason => Text.ofString "<urlopen error " ++ reason ++ Text.ofString ">"
  | status code reason =>
      Text.ofString "HTTP Error " ++ Text.ofNat code ++ Text.ofString ": " ++ reason
  | timedOut reason | system _ reason | protocol _ reason | value _ reason => reason

def label : FetchFailure → String
  | unreachable _ => "URLError"
  | status _ _ => "HTTPError"
  | timedOut _ => "TimeoutError"
  | system name _ | protocol name _ | value name _ => name

end FetchFailure

/-- Why a text is not printed. -/
inductive PrintFailure
  /-- Its code points are not all in the encoding of what is printed to. -/
  | encoding (reason : Text)
  /-- The operating system reports a fault, such as a reader that went away. -/
  | system (name : String) (reason : Text)

namespace PrintFailure

def message : PrintFailure → Text
  | encoding reason | system _ reason => reason

def label : PrintFailure → String
  | encoding _ => "UnicodeEncodeError"
  | system name _ => name

end PrintFailure

end SiteFilter
