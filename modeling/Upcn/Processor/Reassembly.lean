import Upcn.Processor.Forward

/-!
# Known bundles and reassembly

The list of known bundles and the reassembly lists of `bundle_processor.c`,
and the delivery of ADUs.

`reassembly_list` is a list of lists of addresses.  The C code keeps a
pointer to the slot of the list it works on; here that is the index of the
list.
-/

namespace Upcn

/-! ## The local endpoint -/

/-- The comparison in `bundle_endpoint_is_local`. -/
def Env.endpointIsLocal (env : Env) (destEid : Eid) : Bool :=
  env.localEid.isPrefixOf destEid

/-- `get_agent_id`. -/
def Env.getAgentId (env : Env) (destEid : Eid) : Option Eid :=
  let localLen := env.localEid.length
  if env.localEid.getLast? = some '/' then
    if destEid.length ≤ localLen ∨ destEid[localLen - 1]? ≠ some '/' then none
    else some (destEid.drop localLen)
  else if destEid.length ≤ localLen + 1 ∨ destEid[localLen]? ≠ some '/' then
    none
  else some (destEid.drop (localLen + 1))

/-! ## Known bundles -/

/-- The loop of `bundle_record_add_and_check_known`: `none` when it finds an
entry that `isEqual` accepts, else the list up to the current slot, without
the entries that were cleaned up, and the list from there on. -/
def recordSearch (isEqual : BundleUniqueIdentifier → Bool)
    (curTime bundleDeadline : UInt64) :
    List KnownBundle → Option (List KnownBundle × List KnownBundle)
  | [] => some ([], [])
  | e :: rest =>
    if isEqual e.id then none
    else if e.deadline < curTime then
      recordSearch isEqual curTime bundleDeadline rest
    else if bundleDeadline < e.deadline then some ([], e :: rest)
    else (recordSearch isEqual curTime bundleDeadline rest).map
      fun (before, slot) => (e :: before, slot)

/-- The list that the loop leaves when it returns early: the entries before
the one found are cleaned up all the same. -/
def recordCleanup (isEqual : BundleUniqueIdentifier → Bool)
    (curTime bundleDeadline : UInt64) : List KnownBundle → List KnownBundle
  | [] => []
  | e :: rest =>
    if isEqual e.id then e :: rest
    else if e.deadline < curTime then
      recordCleanup isEqual curTime bundleDeadline rest
    else if bundleDeadline < e.deadline then e :: rest
    else e :: recordCleanup isEqual curTime bundleDeadline rest

/-- The test in the loop of `bundle_reassembled_is_known`. -/
def Bundle.isReassembledAs (b : Bundle) (id : BundleUniqueIdentifier) : Bool :=
  b.bundleIsEqualParent id && id.fragmentOffset == 0 &&
    id.payloadLength == b.totalAduLength

/-- The loop of `bundle_reassembled_is_known`. -/
def reassembledSearch (isEqual : BundleUniqueIdentifier → Bool)
    (bundleDeadline : UInt64) : List KnownBundle → Bool
  | [] => false
  | e :: rest =>
    if isEqual e.id then true
    else if bundleDeadline < e.deadline then false
    else reassembledSearch isEqual bundleDeadline rest

/-- The insertion of `bundle_add_reassembled_as_known`. -/
def insertByDeadline (new : KnownBundle) : List KnownBundle → List KnownBundle
  | [] => [new]
  | e :: rest =>
    if new.deadline < e.deadline then new :: e :: rest
    else e :: insertByDeadline new rest

/-- `bundle_record_add_and_check_known`: its result and the list it leaves. -/
def bundleRecordAddAndCheckKnown (o : Inputs) (b : Bundle)
    (list : List KnownBundle) : Bool × List KnownBundle :=
  let bundleDeadline := b.bundleGetExpirationTime o.deadlineTime
  if bundleDeadline < o.recordTime then (true, list)
  else match recordSearch b.bundleIsEqual o.recordTime bundleDeadline list with
    | none =>
      (true, recordCleanup b.bundleIsEqual o.recordTime bundleDeadline list)
    | some (before, slot) =>
      if o.recordMem then
        (false, before ++ ⟨b.bundleGetUniqueIdentifier, bundleDeadline⟩ :: slot)
      else (false, before ++ slot)

namespace BundleProcessor

variable (env : Env) (o : Inputs)

/-- `bundle_reassembled_is_known`. -/
def bundleReassembledIsKnown (p : BundleProcessor) (b : Bundle) : Bool :=
  reassembledSearch b.isReassembledAs
    (b.bundleGetExpirationTime o.reassembledTime) p.knownBundleList

/-- `bundle_add_reassembled_as_known`. -/
def bundleAddReassembledAsKnown (p : BundleProcessor) (b : Bundle) :
    BundleProcessor :=
  if o.addReassembledMem then
    let id := { b.bundleGetUniqueIdentifier with
      fragmentOffset := 0
      payloadLength := b.totalAduLength }
    let entry := ⟨id, b.bundleGetExpirationTime o.addReassembledTime⟩
    { p with knownBundleList := insertByDeadline entry p.knownBundleList }
  else p

/-! ## Delivery of an ADU -/

/-- `bundle_custody_success` and `bundle_custody_failure`, which both release
the bundle. -/
def bundleHandleCustodySignal (p : BundleProcessor)
    (record : AdministrativeRecord) : Except Fault BundleProcessor := do
  match ← p.custodyManagerGetByRecord record with
  | none => return p
  | some a => p.custodyManagerRelease a

/-- `bundle_deliver_adu`.  `b` is the bundle whose creation timestamp and
sequence number stand in the log. -/
def bundleDeliverAdu (p : BundleProcessor) (b : Bundle) (adu : BundleAdu) :
    Except Fault BundleProcessor :=
  let delivery := ⟨adu, b.creationTimestamp, b.sequenceNumber⟩
  let p := { p with delivered := p.delivered ++ [delivery] }
  if hasFlag adu.procFlags ProcFlag.administrativeRecord then
    match env.parseRecord adu.protocolVersion adu.payload with
    | some record =>
      if record.custodySignal.isSome then p.bundleHandleCustodySignal record
      else .ok p
    | none => .ok p
  else if (env.getAgentId adu.destination).isSome then .ok p
  else .error .assertion

/-! ## Reassembly -/

end BundleProcessor

/-- `may_reassemble`. -/
def Bundle.mayReassemble (b1 b2 : Bundle) : Bool :=
  b1.creationTimestamp == b2.creationTimestamp &&
    b1.sequenceNumber == b2.sequenceNumber && b1.source == b2.source

/-- `memcpy(&payload[pos], &data[offset], num)`. -/
def copyBytes (payload : List (Option UInt8)) (pos : Nat) (data : List UInt8)
    (offset num : Nat) : Except Fault (List (Option UInt8)) :=
  if payload.length < pos + num ∨ data.length < offset + num then
    .error .outOfBounds
  else
    .ok (payload.take pos ++ ((data.drop offset).take num).map some ++
      payload.drop (pos + num))

/-- `a - b` on `size_t`. -/
def subSize (a b : Nat) : Nat := (a + 2 ^ 64 - b) % 2 ^ 64

namespace BundleProcessor

variable (env : Env) (o : Inputs)

/-- The search for the slot in `add_to_reassembly_bundle_list`: the list
with the bundle in its place. -/
def insertFragment (p : BundleProcessor) (a : Addr) :
    List Addr → Except Fault (List Addr)
  | [] => .ok [a]
  | c :: rest => do
    let e ← p.load c
    let b ← p.load a
    if b.fragmentOffset < e.fragmentOffset then return a :: c :: rest
    else
      let rest ← insertFragment p a rest
      return c :: rest

/-- `add_to_reassembly_bundle_list`, for the list that is `entries` now: the
list afterwards. -/
def addToReassemblyBundleList (p : BundleProcessor) (entries : List Addr)
    (a : Addr) : Except Fault (List Addr × BundleProcessor) := do
  let inserted ← p.insertFragment a entries
  if o.entryMem then return (inserted, p)
  else
    let p ← p.bundleDelete env o a .depletedStorage
    return (entries, p)

/-- The first loop of `try_reassemble`: whether the fragments cover the ADU.
The sum of offset and length is a `uint32_t`. -/
def coversAdu (p : BundleProcessor) : List Addr → Nat → Except Fault Bool
  | [], _ => .ok false
  | a :: rest, posInBundle => do
    let b ← p.load a
    if posInBundle < b.fragmentOffset.toNat then return false
    let posInBundle := (b.fragmentOffset + b.payloadLength).toNat
    if b.totalAduLength.toNat ≤ posInBundle then return true
    coversAdu p rest posInBundle

/-- What one fragment adds to the ADU: the buffer and the position after
it. -/
def copyFragment (aduLength : Nat) (b : Bundle)
    (payload : List (Option UInt8)) (posInBundle : Nat) :
    Except Fault (List (Option UInt8) × Nat) :=
  let offsetInBundle := subSize posInBundle b.fragmentOffset.toNat
  let bytesCopied := min
    (subSize b.payloadLength.toNat offsetInBundle)
    (subSize aduLength posInBundle)
  if offsetInBundle < b.payloadLength.toNat then do
    let payload ← copyBytes payload posInBundle b.payload.val offsetInBundle
      bytesCopied
    return (payload, posInBundle + bytesCopied)
  else .ok (payload, posInBundle)

/-- The second loop of `try_reassemble`. -/
def copyFragments (aduLength : Nat) :
    BundleProcessor → List Addr → Bool → List (Option UInt8) → Nat →
    Except Fault (List (Option UInt8) × BundleProcessor)
  | p, [], _, payload, _ => .ok (payload, p)
  | p, a :: rest, addedAsKnown, payload, posInBundle => do
    let b ← p.load a
    let p := if addedAsKnown then p else p.bundleAddReassembledAsKnown o b
    let (payload, posInBundle) ← copyFragment aduLength b payload posInBundle
    let p ← p.bundleRemRc a .remReassemblyPending false
    let p ← p.bundleDiscard a
    copyFragments aduLength p rest true payload posInBundle

/-- `try_reassemble` for the list at `index`. -/
def tryReassemble (p : BundleProcessor) (index : Nat) :
    Except Fault BundleProcessor := do
  let entries := p.reassemblyList.getD index []
  if !(← p.coversAdu entries 0) then return p
  match entries with
  | [] => return p
  | first :: _ =>
    let b ← p.load first
    let aduLength := b.totalAduLength.toNat
    if !o.aduMem then return p
    let (payload, p) ← copyFragments o aduLength p entries false
      (List.replicate aduLength none) 0
    let p := { p with reassemblyList := p.reassemblyList.eraseIdx index }
    p.bundleDeliverAdu env b { b.bundleAduInit with payload := payload }

/-- The loop of `bundle_attempt_reassembly`: the index of the first list
that the bundle may join. -/
def findReassemblyList (p : BundleProcessor) (a : Addr) :
    List (List Addr) → Nat → Except Fault (Option Nat)
  | [], _ => .ok none
  | [] :: _, _ => .error .nullDeref
  | (c :: _) :: rest, index => do
    let first ← p.load c
    let b ← p.load a
    if first.mayReassemble b then return some index
    else findReassemblyList p a rest (index + 1)

/-- `bundle_attempt_reassembly` after the check for known originals. -/
def joinReassembly (p : BundleProcessor) (a : Addr) :
    Except Fault BundleProcessor := do
  match ← p.findReassemblyList a p.reassemblyList 0 with
  | some index =>
    let (entries, p) ← p.addToReassemblyBundleList env o
      (p.reassemblyList.getD index []) a
    let p := { p with reassemblyList := p.reassemblyList.set index entries }
    p.tryReassemble env o index
  | none =>
    if !o.listMem then p.bundleDelete env o a .depletedStorage
    else
      let index := p.reassemblyList.length
      let (entries, p) ← p.addToReassemblyBundleList env o [] a
      let p := { p with reassemblyList := p.reassemblyList ++ [entries] }
      p.tryReassemble env o index

/-- What `bundle_attempt_reassembly` does with a fragment of an original that
is known. -/
def discardFragment (p : BundleProcessor) (a : Addr) :
    Except Fault BundleProcessor := do
  let p ← p.bundleRemRc a .remReassemblyPending false
  p.bundleDiscard a

/-- `bundle_attempt_reassembly`.  The code goes on after it has discarded a
fragment of a known original. -/
def bundleAttemptReassembly (p : BundleProcessor) (a : Addr) :
    Except Fault BundleProcessor := do
  let b ← p.load a
  let p ← p.onlyIf (p.bundleReassembledIsKnown o b) (·.discardFragment a)
  p.joinReassembly env o a

end BundleProcessor

end Upcn
