import Mathlib.Data.List.Basic
import Upcn.Bundle

/-!
# Lists of endpoints and of contacts

The functions of `node.c` on `struct endpoint_list` and `struct contact_list`.

* An EID is referred to by its address, as in the code, which orders a list of
  endpoints by it.  `str` is the string at the address.
* An element of a contact list stands for itself and for the contact it holds; `ptr` is
  the address of the contact.
* `contact_list_union` returns `none` when an `ASSERT` fails, `contact_list_difference` an
  error when one fails or a slot without an element is dereferenced.
* `Memory` says which allocations succeed.
-/

namespace Upcn.NodeLists

/-- The value of a `char *` that names an endpoint. -/
abbrev EidPtr := Nat

/-- The value of a pointer to a `struct contact`. -/
abbrev ContactPtr := Nat

/-- `struct contact`, without its node and the bundles that are queued on it. -/
structure Contact where
  fromTime : Nat
  toTime : Nat
  bitrate : Nat
  totalCapacity : Nat
  remainingCapacityP0 : Int
  remainingCapacityP1 : Int
  remainingCapacityP2 : Int
  contactEndpoints : List EidPtr
  active : Bool
  deriving DecidableEq

/-- An element of a contact list. -/
structure Entry where
  ptr : ContactPtr
  data : Contact
  deriving DecidableEq

/-- Which allocations succeed: the element for an EID that is added to a list, and the
one for a contact that is modified. -/
structure Memory where
  endpoint : EidPtr → Bool
  modified : ContactPtr → Bool

/-- All of them do. -/
def Memory.sufficient : Memory where
  endpoint _ := true
  modified _ := true

variable (str : EidPtr → Eid) (mem : Memory)

/-! ## Endpoint lists -/

/-- `endpoint_list_add`.  The list is ordered by addresses. -/
def endpointListAdd (list : List EidPtr) (eid : EidPtr) : List EidPtr :=
  if list.any fun cur => cur = eid || str cur = str eid then list
  else if mem.endpoint eid then
    list.takeWhile (· ≤ eid) ++ eid :: list.dropWhile (· ≤ eid)
  else list

/-- `endpoint_list_remove`. -/
def endpointListRemove : List EidPtr → EidPtr → List EidPtr
  | [], _ => []
  | cur :: rest, eid =>
    if str cur = str eid then rest else cur :: endpointListRemove rest eid

/-- `endpoint_list_union`. -/
def endpointListUnion (a b : List EidPtr) : List EidPtr := b.foldl (endpointListAdd str mem) a

/-- `endpoint_list_difference`. -/
def endpointListDifference (a b : List EidPtr) : List EidPtr :=
  b.foldl (endpointListRemove str) a

/-! ## Contacts -/

/-- `recalculate_contact_capacity`. -/
def recalculateContactCapacity (contact : Contact) : Contact :=
  let duration := min ((contact.toTime + 2 ^ 64 - contact.fromTime) % 2 ^ 64) (2 ^ 32 - 1)
  let newCapacity := min (duration * contact.bitrate) (2 ^ 31 - 1)
  let capacityDifference := (newCapacity - (contact.totalCapacity : Int)).bmod (2 ^ 32)
  { contact with
    totalCapacity := newCapacity
    remainingCapacityP0 := (contact.remainingCapacityP0 + capacityDifference).bmod (2 ^ 32)
    remainingCapacityP1 := (contact.remainingCapacityP1 + capacityDifference).bmod (2 ^ 32)
    remainingCapacityP2 := (contact.remainingCapacityP2 + capacityDifference).bmod (2 ^ 32) }

/-- `merge_contacts`: whether the capacity changed, and the old contact. -/
def mergeContacts (old new : Contact) : Bool × Contact :=
  let old := { old with
    contactEndpoints := endpointListUnion str mem old.contactEndpoints new.contactEndpoints }
  if old.bitrate ≠ new.bitrate then
    (true, recalculateContactCapacity { old with bitrate := new.bitrate })
  else (false, old)

/-- `add_to_modified_list`.  There is no list for `NULL`. -/
def addToModifiedList (c : ContactPtr) (modified : Option (List ContactPtr)) :
    Option (List ContactPtr) :=
  modified.map fun list => if mem.modified c then c :: list else list

/-- The loop of `contact_list_sorted` by start time. -/
def sortedFrom : Nat → List Entry → Bool
  | _, [] => true
  | last, e :: rest => if e.data.fromTime < last then false else sortedFrom e.data.fromTime rest

/-- `contact_list_sorted` by start time. -/
def contactListSorted (cl : List Entry) : Bool := sortedFrom 0 cl

/-! ## Union -/

/-- What the inner loop of `contact_list_union` leaves: the elements inserted before the
slot, the slot, the rest of the second list, the list of modified contacts and the
contacts that were freed. -/
structure Insertion where
  inserted : List Entry
  slot : Entry
  left : List Entry
  modf : Option (List ContactPtr)
  freed : List ContactPtr
  deriving DecidableEq

/-- The contacts of the two elements begin at the same time. -/
def mergeInto (slot can : Entry) (modf : Option (List ContactPtr)) :
    Entry × Option (List ContactPtr) :=
  if can.data.toTime = slot.data.toTime then
    let (modified, data) := mergeContacts str mem slot.data can.data
    ({ slot with data := data }, if modified then addToModifiedList mem slot.ptr modf else modf)
  else (slot, modf)

/-- The inner loop of `contact_list_union`. -/
def unionBefore : List Entry → Entry → Option (List ContactPtr) → Option Insertion
  | [], slot, modf => some ⟨[], slot, [], modf, []⟩
  | can :: rest, slot, modf =>
    if can.data.fromTime ≤ slot.data.fromTime then
      if can.data.fromTime < slot.data.fromTime then
        (unionBefore rest slot modf).map fun r => { r with inserted := can :: r.inserted }
      else
        let (slot, modf) := mergeInto str mem slot can modf
        if can.data.active then none
        else (unionBefore rest slot modf).map fun r => { r with freed := can.ptr :: r.freed }
    else some ⟨[], slot, can :: rest, modf, []⟩

/-- What `contact_list_union` leaves. -/
structure Union where
  list : List Entry
  modf : Option (List ContactPtr)
  freed : List ContactPtr
  deriving DecidableEq

/-- The outer loop of `contact_list_union`. -/
def unionContacts : List Entry → List Entry → Option (List ContactPtr) → Option Union
  | [], b, modf => some ⟨b, modf, []⟩
  | slot :: a, b, modf => do
    let r ← unionBefore str mem b slot modf
    let s ← unionContacts a r.left r.modf
    return ⟨r.inserted ++ r.slot :: s.list, s.modf, r.freed ++ s.freed⟩

/-- `contact_list_union`. -/
def contactListUnion (a b : List Entry) (modf : Option (List ContactPtr)) : Option Union :=
  if contactListSorted a && contactListSorted b then
    if a = [] then some ⟨b, modf, []⟩
    else if b = [] then some ⟨a, modf, []⟩
    else unionContacts str mem a b modf
  else none

/-! ## Difference -/

/-- What `contact_list_difference` leaves.  `deleted` is `none` for `NULL`. -/
structure Difference where
  list : List Entry
  modf : Option (List ContactPtr)
  deleted : Option (List Entry)
  deriving DecidableEq

/-- The two contacts are at the same time. -/
def Entry.SameTime (x y : Entry) : Prop :=
  y.data.fromTime = x.data.fromTime ∧ y.data.toTime = x.data.toTime

instance (x y : Entry) : Decidable (x.SameTime y) := inferInstanceAs (Decidable (_ ∧ _))

/-- What stops `contact_list_difference`. -/
inductive Fault where
  | assertion
  | nullSlot
  deriving DecidableEq

/-- `*cur_slot`, where it is dereferenced. -/
def readSlot : List Entry → Except Fault Entry
  | [] => .error .nullSlot
  | slot :: _ => .ok slot

/-- `(*cur_slot)->next`. -/
def nextSlot : List Entry → Except Fault (List Entry)
  | [] => .error .nullSlot
  | _ :: rest => .ok rest

/-- What the inner loop of `contact_list_difference` leaves: the elements that the slot has
passed, those from the slot on, the rest of the second list, and the lists of modified and
of deleted contacts. -/
structure Subtraction where
  passed : List Entry
  slots : List Entry
  left : List Entry
  modf : Option (List ContactPtr)
  deleted : Option (List Entry)
  deriving DecidableEq

/-- `contact_list_free_internal` on an element of the second list, or no more than a step. -/
def freeCan (freeB : Bool) (can : Entry) : Except Fault Unit :=
  if freeB && can.data.active then .error .assertion else .ok ()

/-- `slot` with the endpoints that it does not share with `can`. -/
def Entry.difference (slot can : Entry) : Entry :=
  { slot with data := { slot.data with
    contactEndpoints :=
      endpointListDifference str slot.data.contactEndpoints can.data.contactEndpoints } }

/-- The inner loop of `contact_list_difference`.  A contact that is deleted without a list
is freed, or left to itself if it is active. -/
def differenceBefore (freeB : Bool) : List Entry → List Entry → Option (List ContactPtr) →
    Option (List Entry) → Except Fault Subtraction
  | [], slots, modf, deleted => .ok ⟨[], slots, [], modf, deleted⟩
  | can :: b, slots, modf, deleted =>
    if slots = [] then .ok ⟨[], slots, can :: b, modf, deleted⟩
    else do
      let slot ← readSlot slots
      if can.data.fromTime ≤ slot.data.fromTime then
        if slot.SameTime can then
          let next ← nextSlot slots
          freeCan freeB can
          if can.data.contactEndpoints = [] then
            differenceBefore freeB b next modf (deleted.map fun list => slot :: list)
          else
            let r ← differenceBefore freeB b next (addToModifiedList mem slot.ptr modf) deleted
            return { r with passed := slot.difference str can :: r.passed }
        else
          freeCan freeB can
          differenceBefore freeB b slots modf deleted
      else return ⟨[], slots, can :: b, modf, deleted⟩

/-- The outer loop of `contact_list_difference`, with at most `fuel` rounds. -/
def differenceContacts (freeB : Bool) : Nat → List Entry → List Entry →
    Option (List ContactPtr) → Option (List Entry) → Except Fault Difference
  | 0, slots, _, modf, deleted => .ok ⟨slots, modf, deleted⟩
  | fuel + 1, slots, b, modf, deleted =>
    if slots = [] then .ok ⟨[], modf, deleted⟩
    else do
      let r ← differenceBefore str mem freeB b slots modf deleted
      if r.slots = [] then return ⟨r.passed, r.modf, r.deleted⟩
      else
        let slot ← readSlot r.slots
        let next ← nextSlot r.slots
        let s ← differenceContacts freeB fuel next r.left r.modf r.deleted
        return { s with list := r.passed ++ slot :: s.list }

/-- `contact_list_difference`.  Each round passes an element of the first list or ends. -/
def contactListDifference (a b : List Entry) (freeB : Bool) (modf : Option (List ContactPtr))
    (deleted : Option (List Entry)) : Except Fault Difference :=
  if contactListSorted a && contactListSorted b then
    if a = [] ∨ b = [] then .ok ⟨a, modf, deleted⟩
    else differenceContacts str mem freeB (a.length + 1) a b modf deleted
  else .error .assertion

/-! ## Verification -/

/-- `LLSORT`, a stable sort. -/
def llsort {α : Type} (key : α → Nat) (list : List α) : List α :=
  list.mergeSort fun x y => key x ≤ key y

/-- The inner loop of `endpoint_list_strip_and_sort`: the elements that do not have the EID
of `cur`. -/
def endpointListOther (cur : EidPtr) (rest : List EidPtr) : List EidPtr :=
  rest.filter fun i => str i ≠ str cur

/-- The outer loop of `endpoint_list_strip_and_sort`: each element removes those behind it
that have the same EID. -/
def endpointListStrip : List EidPtr → List EidPtr
  | [] => []
  | cur :: rest => cur :: endpointListStrip (endpointListOther str cur rest)
  termination_by list => list.length
  decreasing_by exact Nat.lt_succ_of_le (List.length_filter_le _ _)

/-- `endpoint_list_strip_and_sort`. -/
def endpointListStripAndSort (el : List EidPtr) : List EidPtr :=
  llsort id (endpointListStrip str el)

/-- `contacts_overlap`. -/
def contactsOverlap (a b : Contact) : Bool :=
  (b.fromTime ≤ a.fromTime && a.fromTime ≤ b.toTime) ||
    (b.fromTime ≤ a.toTime && a.toTime ≤ b.toTime)

/-- `struct node`, as far as it is verified. -/
structure Node where
  endpoints : List EidPtr
  contacts : List Contact
  deriving DecidableEq

/-- A write to the endpoints of a contact. -/
def Contact.stripAndSort (c : Contact) : Contact :=
  { c with contactEndpoints := endpointListStripAndSort str c.contactEndpoints }

/-- The loop of `node_prepare_and_verify`: the result, and the contacts. -/
def verifyContacts : List Contact → Bool × List Contact
  | [] => (true, [])
  | c :: rest =>
    if rest.any (contactsOverlap (c.stripAndSort str)) then (false, c.stripAndSort str :: rest)
    else
      let (verified, rest) := verifyContacts rest
      (verified, c.stripAndSort str :: rest)

/-- `node_prepare_and_verify`: the result, and the node. -/
def nodePrepareAndVerify (node : Node) : Bool × Node :=
  let (verified, contacts) := verifyContacts str (llsort (·.fromTime) node.contacts)
  (verified, ⟨endpointListStripAndSort str node.endpoints, contacts⟩)

end Upcn.NodeLists
