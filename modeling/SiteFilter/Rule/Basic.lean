import SiteFilter.Fault

/-!
# Rules

A host rule blocks the pages of one host; an element rule hides the elements that a selector finds
on the pages of a domain. An element rule is known by its key, the domain and the selector with the
delimiter between them. The domain itself does not hold the delimiter.
-/

namespace SiteFilter

/-- Blocks the pages of one host. -/
structure HostRule where
  hostname : Text
  hostname_ne : hostname ≠ []
deriving DecidableEq

/-- Hides what `selector` finds on the pages of `domain`. -/
structure ElementRule where
  domain : Text
  selector : Text
  domain_ne : domain ≠ []
  selector_ne : selector ≠ []
  no_delimiter : Text.hasInfix ruleDelimiter domain = false
deriving DecidableEq

namespace HostRule

def make (hostname : Text) : Except RuleError HostRule :=
  if h : hostname = [] then .error .hostMissing else .ok ⟨hostname, h⟩

end HostRule

namespace ElementRule

/-- The rule with a domain and a selector, neither of which may be empty. -/
def make (domain selector : Text) : Except RuleError ElementRule :=
  if hd : domain = [] then .error .partMissing
  else if hs : selector = [] then .error .partMissing
  else if hn : Text.hasInfix ruleDelimiter domain = false then .ok ⟨domain, selector, hd, hs, hn⟩
  else .error .delimiterInDomain

def key (rule : ElementRule) : Text :=
  rule.domain ++ ruleDelimiter ++ rule.selector

def ofKey (key : Text) : Except RuleError ElementRule :=
  match Text.cut? ruleDelimiter key with
  | none => .error (.notAKey key)
  | some (domain, selector) => make domain selector

def domainName : Text := Text.ofString "domain"

def selectorName : Text := Text.ofString "selector"

def toJson (rule : ElementRule) : Json :=
  .object [(domainName, .text rule.domain), (selectorName, .text rule.selector)]

def ofMembers (members : List (Text × Json)) : Except RuleError ElementRule :=
  match Json.lookup domainName members, Json.lookup selectorName members with
  | some (.text domain), some (.text selector) => make domain selector
  | _, _ => .error (.malformed (.object members))

def ofJson : Json → Except Fault ElementRule
  | .object members =>
      match ofMembers members with
      | .ok rule => .ok rule
      | .error e => .error (.rule e)
  | v => .error (.mismatch (.noMember v.kind "get"))

end ElementRule

/-- All the rules of a store, each kind in the order in which its rules came. -/
structure RuleSet where
  hosts : List HostRule
  elementRules : List ElementRule
deriving DecidableEq

namespace RuleSet

def empty : RuleSet := ⟨[], []⟩

def size (rules : RuleSet) : Nat :=
  rules.hosts.length + rules.elementRules.length

end RuleSet

end SiteFilter
