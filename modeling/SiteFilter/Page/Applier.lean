import SiteFilter.Json.Number
import SiteFilter.Page.Hostname
import SiteFilter.Rule.Matching

/-!
# Hiding elements on pages

For each page the published rules are looked through for those that apply, and a script on the page
is told what to hide. The counts of pages and hidden elements are kept.
-/

namespace SiteFilter.Page

/-- What has been done so far. The script may report anything, so the second count is an integer. -/
structure Statistics where
  pagesProcessed : Nat
  elementsHidden : Int
deriving DecidableEq

structure ScriptArguments where
  selectors : List Text
deriving DecidableEq

def ScriptArguments.css (arguments : ScriptArguments) : Text :=
  stylesheet arguments.selectors

def styleId : Text := Text.ofString "exactblock-dynamic-styles"

def hiddenMarker : Text := Text.ofString "data-exactblock-hidden"

/-- How long the script waits for more changes before it looks again, in milliseconds. -/
def debounceMilliseconds : Nat := 100

inductive Evaluation
  | value (result : Json)
  /-- The page cannot run it. -/
  | failed

/-- What the script reports as the number of hidden elements. What counts as no counts as none. -/
def hiddenCount (result : Json) : Except Fault Int :=
  if result.truthy then
    match result.asInt with
    | .ok n => .ok n
    | .error e => .error (.mismatch e)
  else .ok 0

/-- What an application does: the number of hidden elements or a fault, what the script was told if
it was run, and the counts afterwards. -/
structure Application where
  hidden : Except Fault Int
  told : Option ScriptArguments
  statistics : Statistics

def apply (statistics : Statistics) (payload : Json) (hostname : Text) (evaluation : Evaluation) :
    Application :=
  match selectApplicable payload hostname with
  | .error e => ⟨.error (.mismatch e), none, statistics⟩
  | .ok rules =>
      let counted := { statistics with pagesProcessed := statistics.pagesProcessed + 1 }
      if rules.isEmpty then ⟨.ok 0, none, counted⟩
      else
        let arguments : ScriptArguments := ⟨rules.map (·.selector)⟩
        match evaluation with
        | .failed => ⟨.ok 0, some arguments, counted⟩
        | .value result =>
            match hiddenCount result with
            | .error e => ⟨.error e, some arguments, counted⟩
            | .ok n =>
                ⟨.ok n, some arguments,
                  { counted with elementsHidden := counted.elementsHidden + n }⟩

/-- The host name of the page that a frame shows now, unless there is nothing to do for it. -/
def navigated (isMainFrame : Bool) (url : Text) : Except Fault (Option Text) :=
  if isMainFrame then PageAddress.hostname url else .ok none

end SiteFilter.Page
