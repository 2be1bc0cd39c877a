import SiteFilter.Json.Printer
import SiteFilter.Rule.Matching

/-!
# Filter lists

The declarative list that the blocking engine reads. Host rules become entries that block the root
document of a host, element rules become entries that hide elements on the pages of a domain. The
entries that block come first; within each kind the order of the rules is kept.
-/

namespace SiteFilter

inductive FilterEntry
  | block (hostname : Text)
  | hide (domainPattern selector : Text)
deriving DecidableEq

namespace FilterEntry

/-- The code points with a meaning of their own in a URL filter. -/
def special : Text :=
  Text.ofString "\\^$.|?*+()[]\x7b\x7d/"

/-- The URL filter that matches just `t`. -/
def escapeUrlFilter (t : Text) : Text :=
  t.flatMap fun c => if special.contains c then [CodePoint.ofChar '\\', c] else [c]

/-- The URL filter of a host: its root, by either scheme, with or without `www.` in front. -/
def urlFilter (hostname : Text) : Text :=
  Text.ofString "^https?://(www\\.)?" ++ escapeUrlFilter hostname ++ Text.ofString "/?$"

def member (name : String) (value : Json) : Text × Json :=
  (Text.ofString name, value)

def word (t : String) : Json :=
  .text (Text.ofString t)

def toJson : FilterEntry → Json
  | .block hostname =>
      .object
        [member "trigger" (.object
          [member "url-filter" (.text (urlFilter hostname)),
           member "resource-type" (.array [word "document"])]),
         member "action" (.object [member "type" (word "block")])]
  | .hide domainPattern selector =>
      .object
        [member "trigger" (.object
          [member "url-filter" (word ".*"), member "if-domain" (.array [.text domainPattern])]),
         member "action" (.object
          [member "type" (word "css-display-none"), member "selector" (.text selector)])]

end FilterEntry

namespace FilterList

/-- The pattern for the pages of a domain and everything below it. -/
def domainPattern (domain : Text) : Text :=
  CodePoint.ofChar '*' :: stripWww domain

def compile (rules : RuleSet) : List FilterEntry :=
  rules.hosts.map (fun rule => .block rule.hostname)
    ++ rules.elementRules.map fun rule => .hide (domainPattern rule.domain) rule.selector

def text (entries : List FilterEntry) : Text :=
  Json.write .stored (.array (entries.map FilterEntry.toJson))

def serialize (entries : List FilterEntry) : Except Fault Bytes :=
  match Utf8.encode (text entries) with
  | .ok bytes => .ok bytes
  | .error e => .error (.unencodableList e)

end FilterList

end SiteFilter
