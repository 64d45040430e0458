import Upcn.Processor.State

/-!
# The custody manager

The functions of `custody_manager.c`.  `custody_manager_release` moves the
entries behind the released one with a `memmove` whose length is their
number, in bytes.  The array is therefore also seen as bytes here, with
pointers of eight bytes in little-endian order.
-/

namespace Upcn

/-! ## The array of pointers as bytes -/

/-- `sizeof(struct bundle *)`. -/
def pointerSize : Nat := 8

/-- The bytes of a pointer, the lowest first. -/
def addrBytes (a : Addr) : List UInt8 :=
  (List.range pointerSize).map fun i => UInt8.ofNat (a.toNat / 256 ^ i)

/-- The pointer that the bytes make up. -/
def addrOfBytes : List UInt8 → Addr
  | [] => 0
  | byte :: bytes => UInt64.ofNat (byte.toNat + 256 * (addrOfBytes bytes).toNat)

/-- The bytes as an array of `count` pointers. -/
def addrsOfBytes : Nat → List UInt8 → List Addr
  | 0, _ => []
  | count + 1, bytes =>
    addrOfBytes (bytes.take pointerSize) ::
      addrsOfBytes count (bytes.drop pointerSize)

/-- `memmove` within an array of pointers: offsets and length in bytes. -/
def memmoveBytes (slots : List Addr) (dest src num : Nat) : List Addr :=
  let bytes := slots.flatMap addrBytes
  addrsOfBytes slots.length
    (bytes.take dest ++ (bytes.drop src).take num ++ bytes.drop (dest + num))

/-! ## The functions -/

/-- The test of `find` for one accepted bundle.  The sequence number that is
looked for has lost its upper bits: the parameter is a `uint16_t`. -/
def Bundle.matchesRecord (b : Bundle) (creationTimestamp sequenceNumber : UInt64)
    (sourceEid : Eid) (fragmentOffset fragmentLength : UInt32) : Bool :=
  b.creationTimestamp == creationTimestamp &&
    b.sequenceNumber == sequenceNumber.toUInt16.toUInt64 &&
    b.source == sourceEid &&
    (!b.bundleIsFragmented ||
      (b.fragmentOffset == fragmentOffset && b.payloadLength == fragmentLength))

namespace BundleProcessor

variable (env : Env)

/-- The entries in use. -/
def accepted (p : BundleProcessor) : List Addr :=
  p.acceptedBundles.take p.acceptedBundleCount

/-- `get_index`. -/
def getIndex (p : BundleProcessor) (a : Addr) : Option Nat :=
  p.accepted.idxOf? a

/-- The loop of `find`: the first entry whose bundle passes the test. -/
def findEntry (p : BundleProcessor) (test : Bundle → Bool) :
    List Addr → Except Fault (Option Addr)
  | [] => .ok none
  | a :: rest => do
    let b ← p.load a
    if test b then return some a else findEntry p test rest

/-- `find`, with the entry in place of its index. -/
def find (p : BundleProcessor) (creationTimestamp sequenceNumber : UInt64)
    (sourceEid : Eid) (fragmentOffset fragmentLength : UInt32) :
    Except Fault (Option Addr) :=
  p.findEntry (fun b => b.matchesRecord creationTimestamp sequenceNumber
    sourceEid fragmentOffset fragmentLength) p.accepted

/-- `custody_manager_has_redundant_bundle`. -/
def custodyManagerHasRedundantBundle (p : BundleProcessor) (a : Addr) :
    Except Fault Bool := do
  let b ← p.load a
  let entry ← p.find b.creationTimestamp b.sequenceNumber b.source
    b.fragmentOffset b.payloadLength
  return entry.isSome

/-- `custody_manager_storage_is_acceptable`. -/
def custodyManagerStorageIsAcceptable (p : BundleProcessor) (a : Addr) :
    Except Fault Bool := do
  let b ← p.load a
  let bpv6SeCheck := b.protocolVersion == 6 &&
    !b.hasProcFlag ProcFlag.singletonEndpoint
  return !(decide (custodyMaxBundleCount ≤ p.acceptedBundleCount) ||
    (p.getIndex a).isSome ||
    decide (custodyMaxBundleSize < env.serializedSize b) || bpv6SeCheck)

/-- `custody_manager_get_by_record`. -/
def custodyManagerGetByRecord (p : BundleProcessor)
    (record : AdministrativeRecord) : Except Fault (Option Addr) :=
  p.find record.bundleCreationTimestamp record.bundleSequenceNumber
    record.bundleSourceEid record.fragmentOffset record.fragmentLength

/-- `custody_manager_accept`, and whether it returns `UPCN_OK`. -/
def custodyManagerAccept (p : BundleProcessor) (a : Addr) :
    Except Fault (Bool × BundleProcessor) := do
  if ← p.custodyManagerHasRedundantBundle a then throw .assertion
  if !(← p.custodyManagerStorageIsAcceptable env a) then throw .assertion
  let p := { p with
    acceptedBundles := p.acceptedBundles.set p.acceptedBundleCount a
    acceptedBundleCount := p.acceptedBundleCount + 1 }
  let p ← p.bundleAddRc a .addCustodyAccepted
  let b ← p.load a
  if b.protocolVersion == 6 then
    let p ← p.modify a fun b => { b with currentCustodian := env.localEid }
    return (true, p)
  else return (false, p)

/-- The array after the entry at `index` is taken out. -/
def removeSlot (p : BundleProcessor) (index : Nat) : List Addr :=
  if index ≠ p.acceptedBundleCount - 1 then
    memmoveBytes p.acceptedBundles (pointerSize * index)
      (pointerSize * (index + 1)) (p.acceptedBundleCount - index - 1)
  else p.acceptedBundles

/-- `custody_manager_release`. -/
def custodyManagerRelease (p : BundleProcessor) (a : Addr) :
    Except Fault BundleProcessor :=
  match p.getIndex a with
  | none => .ok p
  | some index => do
    let p := { p with
      acceptedBundles := p.removeSlot index
      acceptedBundleCount := p.acceptedBundleCount - 1 }
    let p ← p.modify a fun b =>
      { b with retConstraints := b.retConstraints.remCustodyAccepted }
    let b ← p.load a
    if b.retConstraints = .none then
      let p ← p.bundleStorageDelete b.id
      p.bundleDrop a
    else return p

end BundleProcessor

end Upcn
