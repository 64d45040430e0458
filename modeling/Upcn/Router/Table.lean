import Mathlib.Data.List.Basic
import Upcn.Bundle

/-!
# The routing table

`routing_table.c` and the functions of `node.c` that it uses: nodes with
their endpoints and contacts, the global contact list, and the hash table
from EIDs to contacts.

* Nodes and contacts are referred to by their addresses, as in the code.  An
  address whose object was freed, or never allocated, holds `none`.
* A function returns `none` when it follows such an address, or when an
  `ASSERT` fails.
* `Memory` says which allocations of an operation succeed.
* The hash table is a finite map.  A list of endpoints is kept in the order
  of insertion, while the code sorts it by addresses; no result depends on
  that order.

Left out is what these functions do not decide by: the addresses of CLAs,
bitrates, capacities and the bundles that are queued on a contact.
-/

namespace Upcn

/-- The value of a pointer to a `struct node`. -/
abbrev NodePtr := Nat

/-- The value of a pointer to a `struct contact`. -/
abbrev ContactPtr := Nat

/-- `struct contact`. -/
structure Contact where
  node : Option NodePtr
  fromTime : Nat
  toTime : Nat
  contactEndpoints : List Eid
  active : Bool
  deriving DecidableEq

/-- `struct node`. -/
structure Node where
  eid : Eid
  endpoints : List Eid
  contacts : List ContactPtr
  deriving DecidableEq

/-- `struct node_table_entry`. -/
structure NodeTableEntry where
  refCount : UInt16
  contacts : List ContactPtr
  deriving DecidableEq

/-- The static variables of `routing_table.c`, and the memory they point
to. -/
structure RoutingTable where
  nodes : NodePtr → Option Node
  contacts : ContactPtr → Option Contact
  nodeList : List NodePtr
  contactList : List ContactPtr
  eidTable : Eid → Option NodeTableEntry

/-- `routing_table_init`. -/
def RoutingTable.init : RoutingTable where
  nodes _ := none
  contacts _ := none
  nodeList := []
  contactList := []
  eidTable _ := none

/-- Which allocations of an operation succeed. -/
structure Memory where
  nodeEntry : Bool
  endpoint : Eid → Bool
  contactEntry : ContactPtr → Bool
  tableEntry : Eid → ContactPtr → Bool
  assocEntry : Eid → ContactPtr → Bool

/-- All of them do. -/
def Memory.sufficient : Memory where
  nodeEntry := true
  endpoint _ := true
  contactEntry _ := true
  tableEntry _ _ := true
  assocEntry _ _ := true

/-! ## Endpoint lists -/

/-- `endpoint_list_union`. -/
def endpointListUnion (mem : Memory) (a b : List Eid) : List Eid :=
  b.foldl (fun a eid => if eid ∈ a then a else if mem.endpoint eid then a ++ [eid]
    else a) a

/-- `endpoint_list_difference`. -/
def endpointListDifference (a b : List Eid) : List Eid :=
  b.foldl (fun a eid => a.erase eid) a

namespace RoutingTable

/-! ## Access -/

/-- A write to the fields of a contact. -/
def modifyContact (t : RoutingTable) (c : ContactPtr) (f : Contact → Contact) :
    Option RoutingTable := do
  let k ← t.contacts c
  return { t with contacts := Function.update t.contacts c (some (f k)) }

/-- A write to the fields of a node. -/
def modifyNode (t : RoutingTable) (n : NodePtr) (f : Node → Node) :
    Option RoutingTable := do
  let node ← t.nodes n
  return { t with nodes := Function.update t.nodes n (some (f node)) }

/-- `free_contact_internal`. -/
def freeContact (t : RoutingTable) (c : ContactPtr) : Option RoutingTable := do
  let k ← t.contacts c
  if k.active then none
  else return { t with contacts := Function.update t.contacts c none }

/-- `free_node`. -/
def freeNode (t : RoutingTable) (n : NodePtr) : Option RoutingTable := do
  let node ← t.nodes n
  let t ← node.contacts.foldlM (fun t c => t.freeContact c) t
  return { t with nodes := Function.update t.nodes n none }

/-! ## Ordered lists of contacts -/

/-- `add_contact_to_ordered_list` and `add_contact_to_ordered_assoc_list`
before the allocation: the list with the contact in its place, or `none` when
it is there already.  `key` is the time that the list is ordered by. -/
def findPlace (t : RoutingTable) (key : Contact → Nat) (c : ContactPtr) :
    List ContactPtr → Option (Option (List ContactPtr))
  | [] => some (some [c])
  | d :: rest =>
    if d = c then some none
    else do
      let e ← t.contacts d
      let k ← t.contacts c
      if key k < key e then return some (c :: d :: rest)
      else
        let place ← t.findPlace key c rest
        return place.map (d :: ·)

/-- `add_contact_to_ordered_list`, ordered by `from`, for the global
list. -/
def addContactToOrderedList (t : RoutingTable) (mem : Memory) (c : ContactPtr) :
    Option RoutingTable := do
  match ← t.findPlace (·.fromTime) c t.contactList with
  | none => return t
  | some list =>
    if mem.contactEntry c then return { t with contactList := list } else return t

/-! ## The hash table -/

/-- `add_contact_to_node_in_htab`. -/
def addContactToNodeInHtab (t : RoutingTable) (mem : Memory) (eid : Eid)
    (c : ContactPtr) : Option RoutingTable :=
  let entry := match t.eidTable eid with
    | some entry => some entry
    | none => if mem.tableEntry eid c then some ⟨0, []⟩ else none
  match entry with
  | none => some t
  | some entry => do
    let contacts ← t.findPlace (·.toTime) c entry.contacts
    let entry := match contacts with
      | none => entry
      | some contacts =>
        if mem.assocEntry eid c then ⟨entry.refCount + 1, contacts⟩ else entry
    return { t with eidTable := Function.update t.eidTable eid (some entry) }

/-- `remove_contact_from_node_in_htab`. -/
def removeContactFromNodeInHtab (t : RoutingTable) (c : ContactPtr) (eid : Eid) :
    RoutingTable :=
  match t.eidTable eid with
  | none => t
  | some entry =>
    if c ∈ entry.contacts then
      let entry : NodeTableEntry := ⟨entry.refCount - 1, entry.contacts.erase c⟩
      if entry.refCount ≤ 0 then
        { t with eidTable := Function.update t.eidTable eid none }
      else { t with eidTable := Function.update t.eidTable eid (some entry) }
    else t

/-- The EIDs under which a contact of a node is listed, in the order of the
loops of `add_node_to_tables` and `remove_node_from_tables`. -/
def reachableEids (node : Node) (k : Contact) : List Eid :=
  node.eid :: node.endpoints ++ k.contactEndpoints

/-! ## Overlaps -/

/-- The second loop of `check_for_invalid_overlaps`.  `overlaps` is an
`uint8_t`. -/
def countOverlaps (t : RoutingTable) (maxConcurrentContacts : Nat) (k : Contact) :
    List ContactPtr → UInt8 → Option Bool
  | [], overlaps => some (decide (maxConcurrentContacts ≤ overlaps.toNat))
  | cur :: rest, overlaps => do
    let e ← t.contacts cur
    if e.fromTime < k.toTime then
      if k.fromTime < e.toTime then
        if e.node = k.node then return true
        else t.countOverlaps maxConcurrentContacts k rest (overlaps + 1)
      else t.countOverlaps maxConcurrentContacts k rest overlaps
    else return decide (maxConcurrentContacts ≤ overlaps.toNat)

/-- The first loop of `check_for_invalid_overlaps`. -/
def skipPassed (t : RoutingTable) (k : Contact) :
    List ContactPtr → Option (List ContactPtr)
  | [] => some []
  | cur :: rest => do
    let e ← t.contacts cur
    if e.toTime < k.fromTime then t.skipPassed k rest else return cur :: rest

/-- `check_for_invalid_overlaps`. -/
def checkForInvalidOverlaps (t : RoutingTable) (maxConcurrentContacts : Nat)
    (k : Contact) : Option Bool := do
  match ← t.skipPassed k t.contactList with
  | [] => return false
  | cur :: rest =>
    let e ← t.contacts cur
    if k.toTime ≤ e.fromTime then return false
    else t.countOverlaps maxConcurrentContacts k (cur :: rest) 0

/-! ## The tables -/

/-- The body of the loop of `add_node_to_tables`. -/
def addContactToTables (t : RoutingTable) (maxConcurrentContacts : Nat)
    (mem : Memory) (node : Node) (c : ContactPtr) : Option RoutingTable := do
  let k ← t.contacts c
  if ← t.checkForInvalidOverlaps maxConcurrentContacts k then return t
  else
    let t ← (reachableEids node k).foldlM
      (fun t eid => t.addContactToNodeInHtab mem eid c) t
    t.addContactToOrderedList mem c

/-- `add_node_to_tables`. -/
def addNodeToTables (t : RoutingTable) (maxConcurrentContacts : Nat)
    (mem : Memory) (n : NodePtr) : Option RoutingTable := do
  let node ← t.nodes n
  node.contacts.foldlM
    (fun t c => t.addContactToTables maxConcurrentContacts mem node c) t

/-- The body of the loop of `remove_node_from_tables`, without the end for
`drop_contacts`. -/
def removeContactFromTables (t : RoutingTable) (node : Node) (c : ContactPtr) :
    Option RoutingTable := do
  let k ← t.contacts c
  let t := (reachableEids node k).foldl
    (fun t eid => t.removeContactFromNodeInHtab c eid) t
  return { t with contactList := t.contactList.erase c }

/-- The end of the loop of `remove_node_from_tables` for `drop_contacts`: an
active contact is taken from its node. -/
def dropContact (t : RoutingTable) (n : NodePtr) (c : ContactPtr) :
    Option RoutingTable := do
  let k ← t.contacts c
  if k.active then
    let t ← t.modifyContact c fun k => { k with node := none }
    t.modifyNode n fun node => { node with contacts := node.contacts.erase c }
  else return t

/-- `remove_node_from_tables`. -/
def removeNodeFromTables (t : RoutingTable) (n : NodePtr) (dropContacts : Bool) :
    Option RoutingTable := do
  let node ← t.nodes n
  node.contacts.foldlM (fun t c => do
    let t ← t.removeContactFromTables node c
    if dropContacts then t.dropContact n c else return t) t

/-! ## Union and difference of contact lists -/

/-- `contact_list_sorted` by `from`. -/
def contactListSorted (t : RoutingTable) (list : List ContactPtr) : Bool :=
  list.Pairwise fun c d => ∀ k ∈ t.contacts c, ∀ e ∈ t.contacts d,
    k.fromTime ≤ e.fromTime

/-- `merge_contacts` for the contact `x`, under the `if` around its call: the
contacts end at the same time. -/
def mergeContacts (t : RoutingTable) (mem : Memory) (x : ContactPtr)
    (kx ky : Contact) : Option RoutingTable :=
  if ky.toTime = kx.toTime then
    t.modifyContact x fun kx => { kx with
      contactEndpoints :=
        endpointListUnion mem kx.contactEndpoints ky.contactEndpoints }
  else some t

/-- The inner loop of `contact_list_union` for the contact `x` of the first
list: the contacts inserted before it, and what is left of the second
list. -/
def unionBefore (mem : Memory) (x : ContactPtr) : RoutingTable → List ContactPtr →
    Option (RoutingTable × List ContactPtr × List ContactPtr)
  | t, [] => some (t, [], [])
  | t, y :: b => do
    let kx ← t.contacts x
    let ky ← t.contacts y
    if ky.fromTime ≤ kx.fromTime then
      if ky.fromTime < kx.fromTime then
        let (t, inserted, left) ← unionBefore mem x t b
        return (t, y :: inserted, left)
      else
        let t ← t.mergeContacts mem x kx ky
        let t ← t.freeContact y
        unionBefore mem x t b
    else return (t, [], y :: b)

/-- `contact_list_union` after the assertions. -/
def unionContacts (mem : Memory) : RoutingTable → List ContactPtr →
    List ContactPtr → Option (RoutingTable × List ContactPtr)
  | t, [], b => some (t, b)
  | t, x :: a, b => do
    let (t, inserted, b) ← unionBefore mem x t b
    let (t, rest) ← unionContacts mem t a b
    return (t, inserted ++ x :: rest)

/-- `contact_list_union`. -/
def contactListUnion (mem : Memory) (t : RoutingTable) (a b : List ContactPtr) :
    Option (RoutingTable × List ContactPtr) :=
  if t.contactListSorted a && t.contactListSorted b then unionContacts mem t a b
  else none

/-- `contact_list_difference` after the assertions: the contacts that are
left, and the deleted ones. -/
def differenceContacts : RoutingTable → List ContactPtr → List ContactPtr →
    Option (RoutingTable × List ContactPtr × List ContactPtr)
  | t, [], _ => some (t, [], [])
  | t, a, [] => some (t, a, [])
  | t, x :: a, y :: b => do
    let kx ← t.contacts x
    let ky ← t.contacts y
    if ky.fromTime ≤ kx.fromTime then
      if ky.fromTime = kx.fromTime ∧ ky.toTime = kx.toTime then
        if ky.contactEndpoints = [] then
          let t ← t.freeContact y
          let (t, left, deleted) ← differenceContacts t a b
          return (t, left, x :: deleted)
        else
          let t ← t.modifyContact x fun kx => { kx with
            contactEndpoints :=
              endpointListDifference kx.contactEndpoints ky.contactEndpoints }
          let t ← t.freeContact y
          let (t, left, deleted) ← differenceContacts t a b
          return (t, x :: left, deleted)
      else
        let t ← t.freeContact y
        differenceContacts t (x :: a) b
    else
      let (t, left, deleted) ← differenceContacts t a (y :: b)
      return (t, x :: left, deleted)
  termination_by _ a b => a.length + b.length

/-- `contact_list_difference`. -/
def contactListDifference (t : RoutingTable) (a b : List ContactPtr) :
    Option (RoutingTable × List ContactPtr × List ContactPtr) :=
  if t.contactListSorted a && t.contactListSorted b then differenceContacts t a b
  else none

/-! ## The operations -/

/-- `get_node_entry_by_eid`. -/
def getNodeEntryByEid (t : RoutingTable) (eid : Eid) :
    List NodePtr → Option (Option NodePtr)
  | [] => some none
  | n :: rest => do
    let node ← t.nodes n
    if node.eid = eid then return some n else t.getNodeEntryByEid eid rest

variable (maxConcurrentContacts : Nat) (mem : Memory)

/-- `add_new_node`. -/
def addNewNode (t : RoutingTable) (new : NodePtr) : Option RoutingTable :=
  if mem.nodeEntry then
    let t := { t with nodeList := new :: t.nodeList }
    t.addNodeToTables maxConcurrentContacts mem new
  else t.freeNode new

/-- `routing_table_add_node` up to `add_node_to_tables`, for a node with an
EID that is in the list: the endpoints and contacts of `new` go to `cur`. -/
def mergeNode (t : RoutingTable) (cur new : NodePtr) : Option RoutingTable := do
  let node ← t.nodes cur
  let newNode ← t.nodes new
  let endpoints := endpointListUnion mem node.endpoints newNode.endpoints
  let (t, contacts) ← contactListUnion mem t node.contacts newNode.contacts
  let t ← t.modifyNode cur fun node =>
    { node with endpoints := endpoints, contacts := contacts }
  contacts.foldlM (fun t c => t.modifyContact c fun k => { k with node := some cur })
    t

/-- `free(new_node)`. -/
def freeNodeCell (t : RoutingTable) (n : NodePtr) : RoutingTable :=
  { t with nodes := Function.update t.nodes n none }

/-- `routing_table_add_node`. -/
def routingTableAddNode (t : RoutingTable) (new : NodePtr) :
    Option RoutingTable := do
  let newNode ← t.nodes new
  match ← t.getNodeEntryByEid newNode.eid t.nodeList with
  | none => t.addNewNode maxConcurrentContacts mem new
  | some cur =>
    let t ← t.mergeNode mem cur new
    let t ← t.addNodeToTables maxConcurrentContacts mem cur
    return t.freeNodeCell new

/-- `routing_table_replace_node`. -/
def routingTableReplaceNode (t : RoutingTable) (new : NodePtr) :
    Option RoutingTable := do
  let newNode ← t.nodes new
  match ← t.getNodeEntryByEid newNode.eid t.nodeList with
  | none => t.addNewNode maxConcurrentContacts mem new
  | some cur =>
    let t ← t.removeNodeFromTables cur true
    let t ← t.freeNode cur
    let t := { t with
      nodeList := t.nodeList.map fun n => if n = cur then new else n }
    t.addNodeToTables maxConcurrentContacts mem new

/-- The deletion of a whole node. -/
def deleteWholeNode (t : RoutingTable) (cur : NodePtr) :
    Option RoutingTable := do
  let t := { t with nodeList := t.nodeList.erase cur }
  let t ← t.removeNodeFromTables cur true
  t.freeNode cur

/-- `routing_table_delete_node_by_eid`. -/
def routingTableDeleteNodeByEid (t : RoutingTable) (eid : Eid) :
    Option RoutingTable := do
  match ← t.getNodeEntryByEid eid t.nodeList with
  | none => return t
  | some cur => t.deleteWholeNode cur

/-- `routing_table_delete_node` up to `add_node_to_tables`, for a command
that names endpoints or contacts. -/
def deleteParts (t : RoutingTable) (cur new : NodePtr) : Option RoutingTable := do
  let newNode ← t.nodes new
  let t ← t.removeNodeFromTables cur false
  let node ← t.nodes cur
  let endpoints := endpointListDifference node.endpoints newNode.endpoints
  let (t, contacts, deleted) ←
    t.contactListDifference node.contacts newNode.contacts
  let t ← t.modifyNode cur fun node =>
    { node with endpoints := endpoints, contacts := contacts }
  deleted.foldlM (fun t c => do
    let k ← t.contacts c
    if k.active then return t else t.freeContact c) t

/-- `routing_table_delete_node`. -/
def routingTableDeleteNode (t : RoutingTable) (new : NodePtr) :
    Option RoutingTable := do
  let newNode ← t.nodes new
  match ← t.getNodeEntryByEid newNode.eid t.nodeList with
  | none => t.freeNode new
  | some cur =>
    if newNode.endpoints = [] ∧ newNode.contacts = [] then
      let t ← t.deleteWholeNode cur
      t.freeNode new
    else
      let t ← t.deleteParts cur new
      let t ← t.addNodeToTables maxConcurrentContacts mem cur
      return t.freeNodeCell new

/-- `routing_table_delete_contact` for the node of the contact. -/
def unlinkFromNode (t : RoutingTable) (c : ContactPtr) (k : Contact) :
    Option RoutingTable :=
  match k.node with
  | none => some t
  | some n => do
    let node ← t.nodes n
    let t := (node.eid :: node.endpoints).foldl
      (fun t eid => t.removeContactFromNodeInHtab c eid) t
    t.modifyNode n fun node => { node with contacts := node.contacts.erase c }

/-- `routing_table_delete_contact`. -/
def routingTableDeleteContact (t : RoutingTable) (c : ContactPtr) :
    Option RoutingTable := do
  let k ← t.contacts c
  let t ← t.unlinkFromNode c k
  let t := k.contactEndpoints.foldl
    (fun t eid => t.removeContactFromNodeInHtab c eid) t
  let t := { t with contactList := t.contactList.erase c }
  t.freeContact c

end RoutingTable

end Upcn
