import SiteFilter.Rule.Basic

/-!
# Where rules apply

A rule for a domain applies on the pages of that domain and of everything below it, whether or not
`www.` stands in front.
-/

namespace SiteFilter

def wwwLead : Text :=
  Text.ofString "www."

/-- A domain without one `www.` in front. -/
def stripWww (domain : Text) : Text :=
  if domain.startsWith wwwLead then domain.drop wwwLead.length else domain

/-- Whether a rule for `ruleDomain` applies on the pages of `hostname`. -/
def domainMatches (ruleDomain hostname : Text) : Bool :=
  let domain := stripWww ruleDomain
  let host := stripWww hostname
  !domain.isEmpty && !host.isEmpty
    && (host == domain || host.endsWith (CodePoint.ofChar '.' :: domain))

/-- The rules among the elements of a published payload; what is no rule is left out. -/
def coerceRules (payload : Json) : Except Json.Mismatch (List ElementRule) := do
  let elements ← payload.elements
  return elements.filterMap fun element => (ElementRule.ofJson element).toOption

def selectRules (rules : List ElementRule) (hostname : Text) : List ElementRule :=
  rules.filter fun rule => domainMatches rule.domain hostname

def selectApplicable (payload : Json) (hostname : Text) :
    Except Json.Mismatch (List ElementRule) := do
  return selectRules (← coerceRules payload) hostname

def hideStyle (selector : Text) : Text :=
  selector ++ Text.ofString " \x7b display: none !important; \x7d"

def stylesheet (selectors : List Text) : Text :=
  Text.join (Text.ofString "\n") (selectors.map hideStyle)

end SiteFilter
