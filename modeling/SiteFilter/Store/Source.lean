import SiteFilter.Store.Edit

/-!
# Sources of rule documents

A document can come from a file or from an address. What the network does is given as a function,
so that everything else is the same wherever the octets come from.
-/

namespace SiteFilter

inductive Fetched
  | body (octets : Bytes)
  | failed (failure : FetchFailure)

/-- Whether a failure is one that is told as a fault of the source. -/
def FetchFailure.isOfSource : FetchFailure → Bool
  | unreachable _ | status _ _ | timedOut _ => true
  | system _ _ | protocol _ _ | value _ _ => false

namespace RuleStore

def isAddress (source : Text) : Bool :=
  source.startsWith (Text.ofString "http://") || source.startsWith (Text.ofString "https://")

def documentOf (address : Text) : Fetched → Except Fault Text
  | .body octets =>
      match Utf8.decode octets with
      | .ok document => .ok document
      | .error e => .error (.unreadableUrl address e.message)
  | .failed failure =>
      if failure.isOfSource then .error (.unreadableUrl address failure.message)
      else .error (.unfetched failure)

def documentIn (env : Environment) (files : FileTree) (name : Text) : Except Fault Text := do
  let path ← env.expand (Path.ofText name)
  match files.readText path with
  | .ok document => return document
  | .error (.os e) => throw (.unreadableFile path (.os e))
  | .error (.decoding e) => throw (.unreadableFile path (.decoding e))
  | .error e => throw e

def importFrom (env : Environment) (fetch : Text → Fetched) (name : Text) : Editing Nat := do
  let document ←
    if isAddress name then do
      Editing.act (Action.note .debug source
        (Text.ofString "Fetching rule document from " ++ name))
      Editing.act (Action.ofExcept (documentOf name (fetch name)))
    else Editing.act (Action.ask fun files => documentIn env files name)
  importRules document

end RuleStore

end SiteFilter
