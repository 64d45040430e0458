import Upcn.Lib.Outcome
import Upcn.Router.Table

/-!
# The contact manager

`contact_manager.c`: the contacts that are in progress, which are started and
ended by the clock.

* `ContactManager` is the array `current_contacts` with its length, and the
  routing table, whose contacts carry the flag `active`.  `signals` and `started`
  collect the calls of `inform_router` and `cla_start_scheduled_contact`.
* `Surroundings` is what one invocation finds: the clock, and for each attempt
  to start a contact whether its CLA and the memory are there.
* An access outside of an array, or through a pointer to nothing, is a fault.

Left out are the bundles of a contact: `hand_over_contact_bundles` shows as a
number in `handedOver`.  `MAX_CONCURRENT_CONTACTS` is the length of the array: 10,
and 1 in the build for unit tests.
-/

namespace Upcn

open Outcome

/-- `struct contact_info`. -/
structure ContactInfo where
  contact : ContactPtr
  claConf : Nat
  eid : Option Eid
  claAddr : Option Eid
  deriving DecidableEq

/-- Why an invocation does not return. -/
inductive ManagerFault where
  /-- An array is accessed outside of its bounds. -/
  | outOfBounds
  /-- A contact or a node that is not there is accessed. -/
  | wildPointer
  | assertion
  deriving DecidableEq

/-- What an attempt to start a contact finds. -/
structure Attempt where
  /-- `cla_config_get`. -/
  claConf : Option Nat
  /-- The EID can be copied. -/
  eid : Bool
  /-- The address can be copied. -/
  claAddr : Bool
  deriving DecidableEq

/-- What one invocation finds. -/
structure Surroundings where
  /-- `hal_time_get_timestamp_s`. -/
  now : Nat
  /-- `node->cla_addr`. -/
  claAddr : NodePtr → Option Eid
  /-- The first attempt to start a contact, the second, and so on. -/
  attempt : Nat → Attempt

/-- `enum contact_manager_signal`. -/
structure ManagerSignal where
  updateContactList : Bool
  processCurrentBundles : Bool
  deriving DecidableEq

/-- The static variables, the routing table, and what was done with them. -/
structure ContactManager where
  table : RoutingTable
  /-- A slot that was never written is `none`. -/
  currentContacts : List (Option ContactInfo)
  currentContactCount : Nat
  nextContactTime : Nat
  /-- The contacts of the signals `ROUTER_SIGNAL_CONTACT_OVER`. -/
  signals : List ContactPtr
  /-- The contacts of the calls of `cla_start_scheduled_contact`. -/
  started : List ContactPtr
  /-- The contacts of the calls of `hand_over_contact_bundles`. -/
  handedOver : List ContactPtr

namespace ContactManager

/-- Before the first invocation. -/
def initial (maxConcurrentContacts : Nat) (table : RoutingTable) : ContactManager where
  table := table
  currentContacts := List.replicate maxConcurrentContacts none
  currentContactCount := 0
  nextContactTime := 2 ^ 64 - 1
  signals := []
  started := []
  handedOver := []

/-! ## Access -/

/-- `current_contacts[i]`, of an entry in use. -/
def entry (m : ContactManager) (i : Nat) : Except ManagerFault ContactInfo :=
  match m.currentContacts[i]? with
  | none => .error .outOfBounds
  | some none => .error .wildPointer
  | some (some info) => .ok info

/-- An access to a contact. -/
def load (m : ContactManager) (c : ContactPtr) : Except ManagerFault Contact :=
  match m.table.contacts c with
  | none => .error .wildPointer
  | some k => .ok k

/-- `c->active = ...`. -/
def setActive (m : ContactManager) (c : ContactPtr) (active : Bool) :
    Except ManagerFault ContactManager := do
  let k ← m.load c
  let contacts := Function.update m.table.contacts c (some { k with active := active })
  return { m with table := { m.table with contacts := contacts } }

/-- `list[list_length] = info`, in an array as long as `current_contacts`. -/
def push (m : ContactManager) (list : List ContactInfo) (info : ContactInfo) :
    Except ManagerFault (List ContactInfo) :=
  if list.length < m.currentContacts.length then .ok (list ++ [info])
  else .error .outOfBounds

/-- `contact_active`. -/
def contactActive (m : ContactManager) (c : ContactPtr) : Bool :=
  (m.currentContacts.take m.currentContactCount).any fun slot =>
    slot.any fun info => info.contact = c

/-! ## The end of contacts -/

/-- `current_contacts[c] = current_contacts[c+1]`, so many times from `c` on. -/
def shiftDown : Nat → Nat → List (Option ContactInfo) →
    Except ManagerFault (List (Option ContactInfo))
  | 0, _, slots => .ok slots
  | n + 1, c, slots =>
    match slots[c + 1]? with
    | none => .error .outOfBounds
    | some slot => shiftDown n (c + 1) (slots.set c slot)

/-- The entry at `i` is taken out of the array. -/
def removeEntry (m : ContactManager) (i : Nat) : Except ManagerFault ContactManager := do
  let slots ← if i = m.currentContactCount - 1 then .ok m.currentContacts
    else shiftDown (m.currentContactCount - i) i m.currentContacts
  return { m with
    currentContacts := slots
    currentContactCount := m.currentContactCount - 1 }

/-- The body of the loop of `remove_expired_contacts`, for the entry at `i`. -/
def removeIfExpired (m : ContactManager) (now i : Nat) (list : List ContactInfo) :
    Except ManagerFault (ContactManager × List ContactInfo) := do
  let info ← m.entry i
  let k ← m.load info.contact
  if k.toTime ≤ now then
    let m ← m.setActive info.contact false
    let list ← m.push list info
    let m ← m.removeEntry i
    return (m, list)
  else return (m, list)

/-- The loop of `remove_expired_contacts`, over the entries below `i`, from the
last one to the first. -/
def removeExpiredFrom (now : Nat) : Nat → ContactManager → List ContactInfo →
    Except ManagerFault (ContactManager × List ContactInfo)
  | 0, m, list => .ok (m, list)
  | i + 1, m, list => do
    let (m, list) ← m.removeIfExpired now i list
    removeExpiredFrom now i m list

/-- `remove_expired_contacts`. -/
def removeExpiredContacts (m : ContactManager) (now : Nat) :
    Except ManagerFault (ContactManager × List ContactInfo) :=
  removeExpiredFrom now m.currentContactCount m []

/-! ## The start of contacts -/

/-- What `check_upcoming` writes to the first slot that is not in use.  The slot
of a start that fails is read by nobody. -/
def setSlot (m : ContactManager) (info : ContactInfo) :
    Except ManagerFault ContactManager :=
  if m.currentContactCount < m.currentContacts.length then
    .ok { m with currentContacts :=
      m.currentContacts.set m.currentContactCount (some info) }
  else .error .outOfBounds

/-- `check_upcoming` from the call of `cla_config_get` on. -/
def startContact (m : ContactManager) (a : Attempt) (c : ContactPtr) (node : Node)
    (claAddr : Eid) (list : List ContactInfo) :
    Except ManagerFault (ContactManager × List ContactInfo) :=
  match a.claConf with
  | none => .ok (m, list)
  | some claConf => do
    let info : ContactInfo := ⟨c, claConf, if a.eid then some node.eid else none,
      if a.eid && a.claAddr then some claAddr else none⟩
    let m ← m.setSlot info
    if !(a.eid && a.claAddr) then return (m, list)
    let list ← m.push list info
    return ({ m with currentContactCount := m.currentContactCount + 1 }, list)

/-- The node of a contact, as `c->node` is followed. -/
def nodeOf (m : ContactManager) (c : ContactPtr) :
    Except ManagerFault (NodePtr × Node) := do
  let k ← m.load c
  match k.node with
  | none => .error .wildPointer
  | some n =>
    match m.table.nodes n with
    | none => .error .wildPointer
    | some node => .ok (n, node)

/-- `check_upcoming` of a contact that is not in progress, when there is room. -/
def tryContact (m : ContactManager) (o : Surroundings) (a : Attempt) (c : ContactPtr)
    (list : List ContactInfo) :
    Except ManagerFault (ContactManager × List ContactInfo) := do
  let m ← m.setActive c true
  let (n, node) ← m.nodeOf c
  match o.claAddr n with
  | none => .error .assertion
  | some claAddr => m.startContact a c node claAddr list

/-- `check_upcoming` makes an attempt to start the contact. -/
def Tries (m : ContactManager) (c : ContactPtr) : Prop :=
  m.contactActive c = false ∧ m.currentContactCount < m.currentContacts.length

instance (m : ContactManager) (c : ContactPtr) : Decidable (m.Tries c) :=
  inferInstanceAs (Decidable (_ ∧ _))

/-- The loop of `process_upcoming_list`.  `tried` is the number of attempts so
far. -/
def processUpcoming (o : Surroundings) : List ContactPtr → Nat → ContactManager →
    List ContactInfo → Except ManagerFault (ContactManager × List ContactInfo)
  | [], _, m, list => .ok (m, list)
  | c :: rest, tried, m, list => do
    let k ← m.load c
    if k.fromTime ≤ o.now then
      if o.now < k.toTime then
        if m.Tries c then
          let (m, list) ← m.tryContact o (o.attempt tried) c list
          let m := { m with nextContactTime := min m.nextContactTime k.toTime }
          processUpcoming o rest (tried + 1) m list
        else
          let m := { m with nextContactTime := min m.nextContactTime k.toTime }
          processUpcoming o rest tried m list
      else processUpcoming o rest tried m list
    else return ({ m with nextContactTime := min m.nextContactTime k.fromTime }, list)

/-- `process_upcoming_list`. -/
def processUpcomingList (m : ContactManager) (o : Surroundings) :
    Except ManagerFault (ContactManager × List ContactInfo) :=
  processUpcoming o m.table.contactList 0 { m with nextContactTime := 2 ^ 64 - 1 } []

/-! ## Invocations -/

/-- `process_current_contacts`, over so many entries from the first one on. -/
def processCurrent : Nat → ContactManager → Except ManagerFault ContactManager
  | 0, m => .ok m
  | n + 1, m => do
    let m ← processCurrent n m
    let info ← m.entry n
    return { m with handedOver := m.handedOver ++ [info.contact] }

/-- `process_current_contacts`. -/
def processCurrentContacts (m : ContactManager) : Except ManagerFault ContactManager :=
  processCurrent m.currentContactCount m

/-- `check_for_contacts`, and the contacts that have ended. -/
def checkForContacts (m : ContactManager) (o : Surroundings) :
    Except ManagerFault (ContactManager × List ContactInfo) := do
  let (m, removed) ← m.removeExpiredContacts o.now
  let (m, added) ← m.processUpcomingList o
  let contacts := added.map ContactInfo.contact
  return ({ m with
    started := m.started ++ contacts
    handedOver := m.handedOver ++ contacts }, removed)

/-- The part of `manage_contacts` after the hand-over of bundles. -/
def checkAndInform (m : ContactManager) (o : Surroundings) :
    Except ManagerFault ContactManager := do
  let (m, removed) ← m.checkForContacts o
  return { m with signals := m.signals ++ removed.map ContactInfo.contact }

/-- `if (HAS_FLAG(signal, CM_SIGNAL_PROCESS_CURRENT_BUNDLES))`. -/
def handOverCurrent (m : ContactManager) (signal : ManagerSignal) :
    Except ManagerFault ContactManager :=
  if signal.processCurrentBundles then m.processCurrentContacts else .ok m

/-- `manage_contacts`. -/
def manageContacts (m : ContactManager) (signal : ManagerSignal) (o : Surroundings) :
    Except ManagerFault ContactManager := do
  let m ← m.handOverCurrent signal
  if signal = ⟨false, true⟩ then return m
  m.checkAndInform o

end ContactManager

end Upcn
