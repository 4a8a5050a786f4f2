import Cpe.Main.Updates
import Cpe.Main.Runs

/-! # Deleting the routes that were added

`add_route_for_nodes` and `del_route_for_nodes` make a call for the same
entries. Neither keeps a record of what it did: an add that fails because the
route is there already is still followed by its delete, so undoing the adds also
takes the routes that were there before and that some node lists. -/
namespace Cpe.Proofs.RouteUndo
open Cpe.Lib.ByteOrder Cpe.Lib.CString Cpe.Lib.BitPrefix Cpe.Pro Cpe.Main

/-- A route that an entry of a node other than the local one denotes. -/
def Listed (s : Server) (r : Route) : Prop :=
  ∃ node ∈ s.cpes, s.localId ≠ node.nodeID ∧ ∃ p ∈ prefixesOf node.nodeSubnet, toRoute p = r

/-- The routes are added and then deleted, with the same table. -/
def addThenDelete (s : Server) : Server := s.addRouteForNodes.delRouteForNodes

/-- What `addThenDelete` leaves of a state `s`. -/
structure Undone (s t : Server) : Prop where
  added_iff : ∀ r, r ∈ s.addRouteForNodes.routes ↔ r ∈ s.routes ∨ Listed s r
  installed_gone : ∀ r ∈ s.addRouteForNodes.routes, r ∉ s.routes → r ∉ t.routes
  listed_gone : ∀ r, Listed s r → r ∉ t.routes
  others_kept : ∀ r ∈ s.routes, ¬ Listed s r → r ∈ t.routes
  none_new : t.routes ⊆ s.routes
  restored_iff : t.routes = s.routes ↔ ∀ r ∈ s.routes, ¬ Listed s r
  rest_kept : { t with routes := s.routes } = s

theorem listed_iff (s : Server) (r : Route) : Listed s r ↔ r ∈ routesOf s.localId s.cpes :=
  mem_routesOf.symm

theorem addThenDelete_eq (s : Server) :
    addThenDelete s = { s with routes := s.routes \ routesOf s.localId s.cpes } := by
  rw [addThenDelete, delRouteForNodes_eq, addRouteForNodes_eq]
  exact congrArg (fun routes => { s with routes := routes }) (Finset.union_sdiff_right _ _)

theorem mem_addThenDelete {s : Server} {r : Route} :
    r ∈ (addThenDelete s).routes ↔ r ∈ s.routes ∧ ¬ Listed s r := by
  rw [addThenDelete_eq, listed_iff]
  exact Finset.mem_sdiff

theorem mem_added {s : Server} {r : Route} :
    r ∈ s.addRouteForNodes.routes ↔ r ∈ s.routes ∨ Listed s r := by
  rw [addRouteForNodes_eq, listed_iff]
  exact Finset.mem_union

/-- **Deleting after adding** takes every route the add installed, keeps every
route no other node lists, and restores the set exactly if nothing in it was
listed. -/
theorem undone (s : Server) : Undone s (addThenDelete s) where
  added_iff := fun _ => mem_added
  installed_gone := by
    intro r _ hnew hr
    exact hnew (mem_addThenDelete.mp hr).1
  listed_gone := by
    intro r hlisted hr
    exact (mem_addThenDelete.mp hr).2 hlisted
  others_kept := by
    intro r hr hother
    exact mem_addThenDelete.mpr ⟨hr, hother⟩
  none_new := by
    intro r hr
    exact (mem_addThenDelete.mp hr).1
  restored_iff := by
    constructor
    · intro heq r hr
      rw [← heq] at hr
      exact (mem_addThenDelete.mp hr).2
    · intro hother
      ext r
      rw [mem_addThenDelete]
      exact ⟨fun h => h.1, fun h => ⟨h, hother r h⟩⟩
  rest_kept := by
    rw [addThenDelete_eq]

/-! ## The connected route -/

/-- The route of the address 10.0.0.5/24 that the device is set up with. -/
def connected : Route := ⟨0x0a000000, 0xffffff00, by decide⟩

/-- The device has its connected route, and a peer lists the same network. -/
def overlapping : Server :=
  { started ⟨wire, id⟩ 3 1 {} 9 with
    cpes := [⟨2, 0x0a000002, 0x0a000000, 0x0a0000ff, str "10.0.0.0/24", []⟩]
    routes := {connected} }

/-- The connected route is gone. -/
theorem connected_route_lost :
    connected ∈ overlapping.routes ∧ connected ∉ (addThenDelete overlapping).routes ∧
      (addThenDelete overlapping).routes ≠ overlapping.routes := by
  decide +kernel

end Cpe.Proofs.RouteUndo
