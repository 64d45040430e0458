import Upcn.Bundle
import Upcn.Lib.Outcome
import Upcn.Store.Manager

/-!
# The state of the bundle processor

The static variables of `bundle_processor.c` and `custody_manager.c`, the
bundles they point to, and what a handler takes from its surroundings.

* `BundleProcessor` is the state.  `cells` is the memory of the bundles: a
  cell is `unused`, `live` or `freed`, and no cell is handed out twice, so
  that an access to a freed bundle is never hidden by a new one.
* `Fault` says why a handler does not return.
* `Env` is fixed for a run.  `Inputs` is what one signal finds: the readings
  of the clock and the outcomes of `malloc`, one field for each call site.
-/

namespace Upcn

open Store

/-- What an address points to. -/
inductive Cell where
  | unused
  | live (b : Bundle)
  | freed
  deriving DecidableEq

/-- Why a handler does not return. -/
inductive Fault where
  /-- A freed bundle is read, written or freed. -/
  | useAfterFree
  /-- A pointer that no allocation returned is followed. -/
  | wildPointer
  | nullDeref
  /-- A byte outside a buffer is read or written. -/
  | outOfBounds
  /-- `ASSERT(bundle->ret_constraints == BUNDLE_RET_CONSTRAINT_NONE)`. -/
  | dropAssert
  /-- Another `ASSERT`. -/
  | assertion
  /-- The buffer of an administrative record is freed twice. -/
  | recordFreedTwice
  /-- A fault in the store: an `ASSERT`, or the search for a free id does
  not end. -/
  | store (e : StoreFault)
  /-- The inputs name a cell in use as the result of `malloc`.  The
  allocator does not do that. -/
  | notFresh
  /-- The recursion of `send_status_report` through `bundle_forward` is
  deeper than it can get. -/
  | tooDeep
  deriving DecidableEq

/-- `struct known_bundle_list`. -/
structure KnownBundle where
  id : BundleUniqueIdentifier
  deadline : UInt64
  deriving DecidableEq

/-- One call of `bundle_deliver_adu`: its argument, and the creation
timestamp and sequence number of the bundle it comes from, which
`struct bundle_adu` does not keep. -/
structure Delivery where
  adu : BundleAdu
  creationTimestamp : UInt64
  sequenceNumber : UInt64
  deriving DecidableEq

/-- `CUSTODY_MAX_BUNDLE_COUNT`. -/
def custodyMaxBundleCount : Nat := 16

/-- `CUSTODY_MAX_BUNDLE_SIZE`. -/
def custodyMaxBundleSize : Nat := 1024

/-- The static variables, and the memory they point to. -/
structure BundleProcessor where
  cells : Addr → Cell
  store : BundleStore Addr
  reassemblyList : List (List Addr)
  knownBundleList : List KnownBundle
  /-- The 16 slots of `accepted_bundles`. -/
  acceptedBundles : List Addr
  acceptedBundleCount : Nat
  /-- The ids of the `ROUTE_BUNDLE` signals pushed to `out_queue`. -/
  outQueue : List Nat
  /-- The calls of `bundle_deliver_adu` so far. -/
  delivered : List Delivery
  /-- The number of reports the current handler has tried to generate. -/
  reports : Nat

/-- The state when the task starts. -/
def BundleProcessor.initial : BundleProcessor where
  cells _ := .unused
  store := .initial
  reassemblyList := []
  knownBundleList := []
  acceptedBundles := List.replicate custodyMaxBundleCount 0
  acceptedBundleCount := 0
  outQueue := []
  delivered := []
  reports := 0

/-! ## The surroundings -/

/-- What does not change during a run.  The functions stand for code whose
results no property here depends on: the sizes of the serialized bundle, the
hop count block and the administrative records. -/
structure Env where
  localEid : Eid
  statusReporting : Bool
  /-- `bundle_get_serialized_size`. -/
  serializedSize : Bundle → Nat
  /-- `bundle7_hop_count_parse`. -/
  hopCountParse : List UInt8 → Option HopCount
  /-- `bundle7_hop_count_serialize`. -/
  hopCountSerialize : HopCount → List UInt8
  /-- The payload of a status report at the given time in milliseconds, if
  it can be encoded. -/
  statusReportRecord :
    Bundle → StatusReportStatus → StatusReportReason → UInt64 → Option Payload
  /-- The payload of a custody signal at the given time. -/
  custodySignalRecord : Bundle → CustodySignal → UInt64 → Payload
  /-- `parse_administrative_record`. -/
  parseRecord : UInt8 → List (Option UInt8) → Option AdministrativeRecord

/-- What the generation of one report or custody signal finds. -/
structure ReportInput where
  /-- The buffer of the record can be allocated. -/
  bufferMem : Bool
  /-- The bundle around the record, if everything it consists of can be
  allocated. -/
  bundleMem : Option Addr
  /-- The entry of the list of custody signals can be allocated. -/
  listMem : Bool
  /-- The node of the store can be allocated. -/
  nodeMem : Bool
  /-- The clock in `bundle_get_expiration_time`. -/
  expirationTime : UInt64
  /-- The clock when the lifetime is computed. -/
  now : UInt64
  /-- The clock when the bundle is created. -/
  createTime : UInt64
  /-- The clock in milliseconds, for the record. -/
  milliTime : UInt64

/-- What the handling of one signal finds. -/
structure Inputs where
  /-- The clock in the lifetime check of `bundle_receive`. -/
  receiveTime : UInt64
  /-- `cur_time` of `bundle_record_add_and_check_known`. -/
  recordTime : UInt64
  /-- The clock in `bundle_get_expiration_time`, called by
  `bundle_record_add_and_check_known`. -/
  deadlineTime : UInt64
  /-- The same, called by `bundle_reassembled_is_known`. -/
  reassembledTime : UInt64
  /-- The same, called by `bundle_add_reassembled_as_known`. -/
  addReassembledTime : UInt64
  /-- The entry of `known_bundle_list` can be allocated. -/
  recordMem : Bool
  /-- The entry that `bundle_add_reassembled_as_known` adds can. -/
  addReassembledMem : Bool
  /-- The entry of `reassembly_bundle_list` can be allocated. -/
  entryMem : Bool
  /-- The entry of `reassembly_list` can be allocated. -/
  listMem : Bool
  /-- The buffer of the reassembled ADU can be allocated. -/
  aduMem : Bool
  /-- The buffer of the new hop count block can be allocated. -/
  hopCountMem : Bool
  /-- The push with a timeout to `out_queue` succeeds. -/
  pushSucceeds : Bool
  /-- One entry for each report, in the order of their generation. -/
  reports : Nat → ReportInput

namespace BundleProcessor

/-- `if (condition) f(...);`. -/
def onlyIf (p : BundleProcessor) (condition : Bool)
    (f : BundleProcessor → Except Fault BundleProcessor) :
    Except Fault BundleProcessor :=
  if condition then f p else .ok p

/-! ## The memory of the bundles -/

/-- A read access to a bundle. -/
def load (p : BundleProcessor) (a : Addr) : Except Fault Bundle :=
  match p.cells a with
  | .live b => .ok b
  | .freed => .error .useAfterFree
  | .unused => .error .wildPointer

/-- The cell at `a` gets a new content. -/
def setCell (p : BundleProcessor) (a : Addr) (c : Cell) : BundleProcessor :=
  { p with cells := Function.update p.cells a c }

/-- A write access to fields of a bundle. -/
def modify (p : BundleProcessor) (a : Addr) (f : Bundle → Bundle) :
    Except Fault BundleProcessor := do
  let b ← p.load a
  return p.setCell a (.live (f b))

/-- `malloc` returns `a` for a bundle, which is then filled with `b`. -/
def allocate (p : BundleProcessor) (a : Addr) (b : Bundle) :
    Except Fault BundleProcessor :=
  match p.cells a with
  | .unused => .ok (p.setCell a (.live b))
  | _ => .error .notFresh

/-- `bundle_free`. -/
def bundleFree (p : BundleProcessor) (a : Addr) :
    Except Fault BundleProcessor := do
  let _ ← p.load a
  return p.setCell a .freed

/-- `bundle_drop`. -/
def bundleDrop (p : BundleProcessor) (a : Addr) :
    Except Fault BundleProcessor := do
  let b ← p.load a
  if b.retConstraints ≠ .none then throw .dropAssert
  p.bundleFree a

/-! ## Retention constraints -/

/-- `bundle_add_rc`. -/
def bundleAddRc (p : BundleProcessor) (a : Addr)
    (set : RetConstraints → RetConstraints) : Except Fault BundleProcessor :=
  p.modify a fun b => { b with retConstraints := set b.retConstraints }

/-! ## The store -/

/-- `bundle_storage_add`. -/
def bundleStorageAdd (p : BundleProcessor) (a : Addr) (nodeMem : Bool) :
    Except Fault (Nat × BundleProcessor) := do
  let b ← p.load a
  let (id, store) ← Except.mapError .store
    (p.store.bundleStorageAdd nodeMem a b.id (some b.payload.val.length))
  let p := { p with store := store }
  let stored := { b with id := id }
  if nodeMem then return (id, p.setCell a (.live stored)) else return (id, p)

/-- `bundle_storage_get`. -/
def bundleStorageGet (p : BundleProcessor) (id : Nat) : Option Addr :=
  p.store.bundleStorageGet id

/-- `bundle_storage_delete`.  It reads the payload length through the
pointer in the store. -/
def bundleStorageDelete (p : BundleProcessor) (id : Nat) :
    Except Fault BundleProcessor :=
  match p.store.bundleStorageGet id with
  | none => .ok p
  | some a => do
    let b ← p.load a
    let (_, store) ← Except.mapError .store
      (p.store.bundleStorageDelete (fun _ => some b.payload.val.length) id)
    return { p with store := store }

/-- `bundle_discard`. -/
def bundleDiscard (p : BundleProcessor) (a : Addr) :
    Except Fault BundleProcessor := do
  let b ← p.load a
  let p ← p.bundleStorageDelete b.id
  p.bundleDrop a

/-- `bundle_rem_rc`. -/
def bundleRemRc (p : BundleProcessor) (a : Addr)
    (clear : RetConstraints → RetConstraints) (discard : Bool) :
    Except Fault BundleProcessor := do
  let p ← p.modify a fun b =>
    { b with retConstraints := clear b.retConstraints }
  let b ← p.load a
  if discard && b.retConstraints == .none then p.bundleDiscard a
  else return p

end BundleProcessor

/-! ## Bits of the retention constraints -/

namespace RetConstraints

def addDispatchPending (r : RetConstraints) : RetConstraints :=
  { r with dispatchPending := true }

def remDispatchPending (r : RetConstraints) : RetConstraints :=
  { r with dispatchPending := false }

def addForwardPending (r : RetConstraints) : RetConstraints :=
  { r with forwardPending := true }

def remForwardPending (r : RetConstraints) : RetConstraints :=
  { r with forwardPending := false }

def addCustodyAccepted (r : RetConstraints) : RetConstraints :=
  { r with custodyAccepted := true }

def remCustodyAccepted (r : RetConstraints) : RetConstraints :=
  { r with custodyAccepted := false }

def addReassemblyPending (r : RetConstraints) : RetConstraints :=
  { r with reassemblyPending := true }

def remReassemblyPending (r : RetConstraints) : RetConstraints :=
  { r with reassemblyPending := false }

def remFlagOwn (r : RetConstraints) : RetConstraints :=
  { r with flagOwn := false }

end RetConstraints

end Upcn
