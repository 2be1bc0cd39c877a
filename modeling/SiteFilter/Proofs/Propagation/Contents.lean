import SiteFilter.Proofs.Sinks

/-!
# Contents behind a propagation

The content in each place of the tree, when rules were propagated and both sinks took them: that of
the payload where the payload stands, else that of the filter list, else what was there before. No
use is made of the two being apart.
-/

namespace SiteFilter

open FileTree Effect

/-! ## One write -/

namespace FileTree

/-- What a write of `data` to `target` puts in the place of `path`, if the two have one place. -/
def laid (tree : FileTree) (target : Path) (data : Bytes) (path : Path) : Option Bytes :=
  if tree.placeOf path = tree.placeOf target then some data else none

theorem laid_of_current {tree after : FileTree} (current : after.current = tree.current)
    (target : Path) (data : Bytes) (path : Path) :
    after.laid target data path = tree.laid target data path := by
  rw [laid, placeOf_eq current, placeOf_eq current, laid]

/-- Whether a write goes to a place does not depend on what is written. -/
theorem laid_none {tree : FileTree} {target path : Path} {data : Bytes}
    (h : tree.laid target data path = none) (other : Bytes) :
    tree.laid target other path = none := by
  unfold laid at h ⊢
  split at h
  · cases h
  · rename_i apart
    rw [if_neg apart]

theorem Replaced.contentOf {tree after : FileTree} {target : Path} {data : Bytes}
    (h : Replaced tree after target data) (path : Path) :
    after.contentOf path = (tree.laid target data path).or (tree.contentOf path) := by
  by_cases here : tree.placeOf path = tree.placeOf target
  · rw [laid, if_pos here, FileTree.contentOf, placeOf_eq h.current, here, h.written]
    rfl
  · rw [laid, if_neg here, (h.retains here).contentOf]
    rfl

end FileTree

/-! ## Both sinks -/

namespace Propagator

def listOctets (rules : RuleSet) : Bytes :=
  (FilterList.serialize (FilterList.compile rules)).toOption.getD []

def payloadOctets (rules : RuleSet) : Bytes :=
  (Utf8.encode ((channelPayload rules).write .stored)).toOption.getD []

variable {propagator : Propagator} {rules : RuleSet} {files after : FileTree}

def sinksAt (propagator : Propagator) (files : FileTree) (rules : RuleSet) (path : Path) :
    Option Bytes :=
  (files.laid propagator.payloadPath (payloadOctets rules) path).or
    (files.laid propagator.filterListPath (listOctets rules) path)

theorem Reloaded.contentOf (h : propagator.Reloaded files after) {path : Path}
    (alone : propagator.reloader.LeavesAlone propagator.engine (files.placeOf path)) :
    after.contentOf path = files.contentOf path := by
  have same : after.node? (files.placeOf path) = files.node? (files.placeOf path) := by
    rcases h with rfl | ⟨machine, rfl, rfl⟩
    · rfl
    · exact alone machine
  unfold FileTree.contentOf
  rw [placeOf_eq (current_of_reloaded h), same]

theorem Propagated.contentOf (h : propagator.Propagated rules files none none after) {path : Path}
    (alone : propagator.reloader.LeavesAlone propagator.engine (files.placeOf path)) :
    after.contentOf path =
      (propagator.sinksAt files rules path).or (files.contentOf path) := by
  obtain ⟨listed, published, ⟨list, isList, written⟩, ⟨payload, isPayload, written'⟩, reloaded⟩ := h
  have list_eq : list = listOctets rules := by
    rw [listOctets, isList]
    rfl
  have payload_eq : payload = payloadOctets rules := by
    rw [payloadOctets, isPayload]
    rfl
  have current : published.current = files.current := written'.current.trans written.current
  rw [← placeOf_eq current] at alone
  rw [reloaded.contentOf alone, written'.contentOf, written.contentOf,
    laid_of_current written.current, list_eq, payload_eq, sinksAt, Option.or_assoc]

end Propagator

end SiteFilter
