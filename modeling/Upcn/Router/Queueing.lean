import Mathlib.Algebra.BigOperators.Group.List.Basic
import Mathlib.Logic.Function.Basic
import Mathlib.Logic.Relation
import Upcn.Lib.Outcome
import Upcn.Router.Table

/-!
# Bundles queued on contacts

The lists of routed bundles behind the contacts, and how `routing_table.c` and `router.c`
empty them: `reschedule_bundles` with `router_remove_bundle_from_route`, and
`routing_table_contact_passed`.

* `RoutingState` has what these functions touch of a contact, the memory of the
  `struct routed_bundle`s, and the bundles signalled so far.
* The tables are in `Upcn.Router.Table`.  Which contacts a replaced or deleted node has is
  an argument here.
-/

namespace Upcn.Queueing

/-- A pointer to a `struct routed_bundle`. -/
abbrev RbPtr := Nat

/-- `enum bundle_routing_priority`. -/
inductive Priority where
  | low
  | normal
  | high
  deriving DecidableEq

/-- The value of the enumerator. -/
def Priority.rank : Priority → Nat
  | low => 0
  | normal => 1
  | high => 2

/-- `struct routed_bundle`, as far as it takes part.  `contact_count` is the length of
`contacts`. -/
structure RoutedBundle where
  id : Nat
  prio : Priority
  size : Nat
  contacts : List ContactPtr
  deriving DecidableEq

/-- What a pointer to a `struct routed_bundle` points to. -/
inductive RbCell where
  | unused
  | live (rb : RoutedBundle)
  | freed
  deriving DecidableEq

/-- `struct contact`, as far as it takes part.  `remaining` has the three fields
`remaining_capacity_p0` to `remaining_capacity_p2`. -/
structure Contact where
  /-- `node != NULL`. -/
  hasNode : Bool
  contactBundles : List RbPtr
  bundleCount : UInt8
  remaining : Priority → Int

/-- The queue that `bundle_processor_inform` pushes to. -/
inductive QueueIdentifier where
  | bundleProcessor
  | router
  deriving DecidableEq

/-- Why a function does not return. -/
inductive Fault where
  | useAfterFree
  | assertion
  /-- The loop goes on. -/
  | endless
  deriving DecidableEq

/-- The queues of the contacts, and the bundles for which
`BP_SIGNAL_RESCHEDULE_BUNDLE` was pushed.  `handed` are the bundles in the lists that
transmit tasks have. -/
structure RoutingState where
  contacts : ContactPtr → Contact
  routed : RbPtr → RbCell
  handed : List RbPtr
  informed : List (QueueIdentifier × Nat)

/-- `ROUTER_MAX_CONTACTS`. -/
def routerMaxContacts : Nat := 4

/-- What a routed bundle takes of the capacity at a level. -/
def RoutedBundle.load (rb : RoutedBundle) (level : Priority) : Int :=
  if level.rank ≤ rb.prio.rank then rb.size else 0

namespace Contact

/-- The bundle is in the list no more. -/
def withdraw (k : Contact) (r : RbPtr) (rb : RoutedBundle) : Contact :=
  { k with
    contactBundles := k.contactBundles.erase r
    bundleCount := k.bundleCount - 1
    remaining := fun level => k.remaining level + rb.load level }

/-- The bundle is at the end of the list. -/
def append (k : Contact) (r : RbPtr) (rb : RoutedBundle) : Contact :=
  { k with
    contactBundles := k.contactBundles ++ [r]
    bundleCount := k.bundleCount + 1
    remaining := fun level => k.remaining level - rb.load level }

end Contact

namespace RoutingState

variable (s : RoutingState)

/-- A `struct routed_bundle` is read. -/
def load (r : RbPtr) : Except Fault RoutedBundle :=
  match s.routed r with
  | .live rb => .ok rb
  | _ => .error .useAfterFree

/-- A `struct routed_bundle` is freed. -/
def free (r : RbPtr) : Except Fault RoutingState := do
  let _ ← s.load r
  return { s with routed := Function.update s.routed r .freed }

def setContact (c : ContactPtr) (k : Contact) : RoutingState :=
  { s with contacts := Function.update s.contacts c k }

/-- `bundle_processor_inform` with `BP_SIGNAL_RESCHEDULE_BUNDLE`. -/
def bundleProcessorInform (queue : QueueIdentifier) (id : Nat) : RoutingState :=
  { s with informed := s.informed ++ [(queue, id)] }

/-! ## Routes -/

/-- `router_add_bundle_to_contact`. -/
def routerAddBundleToContact (c : ContactPtr) (r : RbPtr) (rb : RoutedBundle) :
    Except Fault RoutingState :=
  if 0 < (s.contacts c).remaining .low then
    .ok (s.setContact c ((s.contacts c).append r rb))
  else .error .assertion

/-- The first entry with the id in `router_remove_bundle_from_contact`. -/
def findBundle (id : Nat) : List RbPtr → Except Fault (Option (RbPtr × RoutedBundle))
  | [] => .ok none
  | r :: rest => do
    let rb ← s.load r
    if rb.id = id then return some (r, rb) else findBundle id rest

/-- `router_remove_bundle_from_contact`. -/
def routerRemoveBundleFromContact (c : ContactPtr) (id : Nat) :
    Except Fault (Option RbPtr × RoutingState) := do
  match ← s.findBundle id (s.contacts c).contactBundles with
  | none => return (none, s)
  | some (r, rb) => return (some r, s.setContact c ((s.contacts c).withdraw r rb))

/-- The loop of `router_remove_bundle_from_route`: the bundle that was found last. -/
def removeFromContacts (id : Nat) :
    RoutingState → Option RbPtr → List ContactPtr → Except Fault (Option RbPtr × RoutingState)
  | s, found, [] => .ok (found, s)
  | s, found, c :: rest => do
    let (tmp, s) ← s.routerRemoveBundleFromContact c id
    removeFromContacts id s (tmp.or found) rest

/-- `router_remove_bundle_from_route`. -/
def routerRemoveBundleFromRoute (contacts : List ContactPtr) (id : Nat) (freeRb : Bool) :
    Except Fault RoutingState := do
  let (found, s) ← removeFromContacts id s none contacts
  match found with
  | some r => if freeRb then s.free r else return s
  | none => return s

/-- The loop of `router_update_routed_bundle`. -/
def addToContacts (r : RbPtr) (rb : RoutedBundle) :
    RoutingState → List ContactPtr → Except Fault RoutingState
  | s, [] => .ok s
  | s, c :: rest => do
    let s ← s.routerAddBundleToContact c r rb
    addToContacts r rb s rest

/-- `router_update_routed_bundle`; `rb` names the contacts for which the entry of the list
could be allocated. -/
def routerUpdateRoutedBundle (r : RbPtr) (rb : RoutedBundle) : Except Fault RoutingState :=
  addToContacts r rb { s with routed := Function.update s.routed r (.live rb) } rb.contacts

/-- `hand_over_contact_bundles`. -/
def handOverContactBundles (c : ContactPtr) : RoutingState :=
  { s.setContact c { s.contacts c with contactBundles := [] } with
    handed := s.handed ++ (s.contacts c).contactBundles }

/-- The record is freed when the transmit tasks have reported the bundle. -/
def finish (r : RbPtr) : RoutingState :=
  { s with
    routed := Function.update s.routed r .freed
    handed := s.handed.filter (· ≠ r) }

/-! ## Removal of contacts -/

/-- `reschedule_bundles`, for at most so many turns. -/
def rescheduleBundles (queue : QueueIdentifier) (c : ContactPtr) :
    Nat → RoutingState → Except Fault RoutingState
  | 0, _ => .error .endless
  | turns + 1, s =>
    match (s.contacts c).contactBundles with
    | [] => .ok s
    | r :: _ => do
      let rb ← s.load r
      if routerMaxContacts < rb.contacts.length then throw .assertion
      let s ← s.routerRemoveBundleFromRoute rb.contacts rb.id true
      rescheduleBundles queue c turns (s.bundleProcessorInform queue rb.id)

/-- `reschedule_bundles`, with one turn for each bundle and the last test. -/
def reschedule (queue : QueueIdentifier) (c : ContactPtr) : Except Fault RoutingState :=
  rescheduleBundles queue c ((s.contacts c).contactBundles.length + 1) s

/-- `reschedule_bundles` for each of the contacts, as in `routing_table_delete_node` for
those that are modified and those that are deleted. -/
def rescheduleAll (queue : QueueIdentifier) :
    RoutingState → List ContactPtr → Except Fault RoutingState
  | s, [] => .ok s
  | s, c :: rest => do
    let s ← s.reschedule queue c
    rescheduleAll queue s rest

/-- What `remove_node_from_tables` does with the contacts it drops; an active one is
un-associated. -/
def dropContacts (queue : QueueIdentifier) :
    RoutingState → List (ContactPtr × Bool) → Except Fault RoutingState
  | s, [] => .ok s
  | s, (c, active) :: rest => do
    let s ← s.reschedule queue c
    let s := if active then s.setContact c { s.contacts c with hasNode := false } else s
    dropContacts queue s rest

/-- The loop of `routing_table_contact_passed`: the bundles are freed where they are. -/
def passBundles : RoutingState → List RbPtr → Except Fault RoutingState
  | s, [] => .ok s
  | s, r :: rest => do
    let rb ← s.load r
    let s ← (s.bundleProcessorInform .bundleProcessor rb.id).free r
    passBundles s rest

/-- `routing_table_contact_passed`, with the `ASSERT` of `routing_table_delete_contact`. -/
def routingTableContactPassed (c : ContactPtr) : Except Fault RoutingState := do
  if (s.contacts c).hasNode then
    let s ← passBundles s (s.contacts c).contactBundles
    return s.setContact c { s.contacts c with contactBundles := [] }
  else if (s.contacts c).contactBundles = [] then return s
  else throw .assertion

end RoutingState

/-- The ways in which contacts are removed.  The flag of a contact says that it is active. -/
inductive Removal where
  /-- `ROUTER_SIGNAL_CONTACT_OVER`. -/
  | passed (c : ContactPtr)
  /-- `routing_table_replace_node`, with the contacts of the node that is replaced. -/
  | replaced (contacts : List (ContactPtr × Bool))
  /-- `routing_table_delete_node` for a whole node. -/
  | deleted (contacts : List (ContactPtr × Bool))
  /-- `ROUTER_SIGNAL_WITHDRAW_NODE`. -/
  | withdrawn (contacts : List (ContactPtr × Bool))
  /-- `routing_table_delete_node` for parts of a node. -/
  | changed (modifiedContacts deletedContacts : List ContactPtr)

/-- The contacts that are removed or modified. -/
def Removal.affected : Removal → List ContactPtr
  | passed c => [c]
  | replaced contacts | deleted contacts | withdrawn contacts => contacts.map Prod.fst
  | changed modifiedContacts deletedContacts => modifiedContacts ++ deletedContacts

/-- What is done to the queues.  The signal `ROUTER_SIGNAL_WITHDRAW_NODE` is handled with the
queue of the router task itself. -/
def Removal.perform (s : RoutingState) : Removal → Except Fault RoutingState
  | passed c => s.routingTableContactPassed c
  | replaced contacts | deleted contacts => s.dropContacts .bundleProcessor contacts
  | withdrawn contacts => s.dropContacts .router contacts
  | changed modifiedContacts deletedContacts =>
    s.rescheduleAll .bundleProcessor (modifiedContacts ++ deletedContacts)

end Upcn.Queueing
