import SiteFilter.Proofs.FileTree.Retaining
import SiteFilter.Proofs.Propagation

/-!
# What sinks hold

A file holds what was written to it last, for as long as nobody else writes to its place. A write
that fails, and a write to another place, leave it as it was.
-/

namespace SiteFilter

open FileTree Effect

/-- The value of a key is the one in its file. -/
theorem KeyedStorage.get?_of_read {storage : KeyedStorage} {files : FileTree} {key : Text}
    {data : Bytes} {value : Json} (valid : isKey key = true)
    (there : files.read (storage.fileOf key) = .ok data)
    (reads : valueIn storage.limits data = .ok value) :
    storage.get? files key = .ok (some value) := by
  obtain ⟨fits, shows⟩ := read_eq_ok_iff.mp there
  exact get?_of_shows valid ⟨fits, _, .file reads, shows⟩

/-! ## Sinks -/

/-- A sink is brought to a content, or it meets a fault and keeps what it has. -/
def Brings (files : FileTree) (target : Path) (content : Bytes → Prop) (fault : Option Fault)
    (after : FileTree) : Prop :=
  match fault with
  | none => ∃ data, content data ∧ after.read target = .ok data
  | some _ => Retains files after target

section Brings

variable {start files middle after : FileTree} {target : Path} {content : Bytes → Prop}
  {fault : Option Fault}

theorem Delivers.brings (h : Delivers files target content fault after) :
    Brings files target content fault after := by
  cases fault with
  | none =>
      obtain ⟨data, right, replaced⟩ := h
      exact ⟨data, right, replaced.read⟩
  | some e => exact Furnished.retains h target

theorem Delivers.retains (h : Delivers files target content fault after) {path : Path}
    (apart : files.placeOf path ≠ files.placeOf target) : Retains files after path := by
  cases fault with
  | none =>
      obtain ⟨data, -, replaced⟩ := h
      exact replaced.retains apart
  | some e => exact Furnished.retains h path

theorem Brings.thenRetains (h : Brings files target content fault middle)
    (kept : Retains middle after target) : Brings files target content fault after := by
  cases fault with
  | none =>
      obtain ⟨data, right, there⟩ := h
      exact ⟨data, right, kept.read there⟩
  | some e => exact Retains.trans h kept

theorem FileTree.Retains.thenBrings (kept : Retains start files target)
    (h : Brings files target content fault after) : Brings start target content fault after := by
  cases fault with
  | none => exact h
  | some e => exact kept.trans h

end Brings

namespace Propagator

/--
Whether the two sinks are in different places, and requests to reload touch neither them nor what
is on the way to them.
-/
structure IsApart (propagator : Propagator) (files : FileTree) : Prop where
  places : files.placeOf propagator.filterListPath ≠ files.placeOf propagator.payloadPath
  reloads : ∀ target ∈ [propagator.filterListPath, propagator.payloadPath],
    ∀ r ∈ files.wayOf target, propagator.reloader.LeavesAlone propagator.engine r

variable {propagator : Propagator} {files published after : FileTree}

theorem Reloaded.retains (apart : propagator.IsApart files)
    (current : published.current = files.current) (h : propagator.Reloaded published after)
    {target : Path} (sink : target ∈ [propagator.filterListPath, propagator.payloadPath]) :
    Retains published after target := by
  have alone := apart.reloads target sink
  rcases h with same | ⟨machine, rfl, rfl⟩
  · exact .of_eq same
  · rw [← wayOf_eq current] at alone
    exact ⟨(Reloader.ask_spec propagator.reloader propagator.engine machine).2,
      fun r inside => .of_eq (alone r inside machine),
      .inl (alone _ (placeOf_mem_wayOf _ _) machine)⟩

/-- Each sink has its new content after a propagation, or keeps the old one if it met a fault. -/
theorem Propagated.brings {rules : RuleSet} {listFault channelFault : Option Fault}
    (apart : propagator.IsApart files)
    (h : propagator.Propagated rules files listFault channelFault after) :
    Brings files propagator.filterListPath (IsList rules) listFault after ∧
      Brings files propagator.payloadPath (IsPayload rules) channelFault after := by
  obtain ⟨listed, published, list, channel, reloaded⟩ := h
  have current : published.current = files.current := channel.current.trans list.current
  constructor
  · have spared : Retains listed published propagator.filterListPath := by
      apply channel.retains
      rw [placeOf_eq list.current, placeOf_eq list.current]
      exact apart.places
    exact list.brings.thenRetains (spared.trans (reloaded.retains apart current (by simp)))
  · have spared : Retains files listed propagator.payloadPath := list.retains apart.places.symm
    exact spared.thenBrings (channel.brings.thenRetains (reloaded.retains apart current (by simp)))

end Propagator

end SiteFilter
