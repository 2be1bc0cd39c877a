import SiteFilter.Json.Printer

/-!
# What a rule is refused for
-/

namespace SiteFilter

/-- The marker between the domain and the selector of an element rule. -/
def ruleDelimiter : Text :=
  Text.ofString "##"

inductive RuleError
  | hostMissing
  | partMissing
  | delimiterInDomain
  | notAKey (key : Text)
  | malformed (data : Json)

def RuleError.message : RuleError → Text
  | hostMissing => Text.ofString "Host rule requires a hostname"
  | partMissing => Text.ofString "Element rule requires both a domain and a selector"
  | delimiterInDomain =>
      Text.ofString "Element rule domain may not contain " ++ ruleDelimiter.quoted
  | notAKey key => Text.ofString "Not an element rule key: " ++ key.quoted
  | malformed data => Text.ofString "Malformed element rule mapping: " ++ data.display

end SiteFilter
