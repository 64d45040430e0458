import Mathlib.Algebra.GroupWithZero.Nat
import Mathlib.Algebra.Ring.Int.Defs
import Mathlib.Data.List.Basic
import Mathlib.Tactic.Common

/-!
# Bundles

`struct bundle` and its relatives of `bundle.h`, and the functions of
`bundle.c` that only read a bundle or make one.

A bundle here owns what the C structure points to: its EIDs are lists of
characters and its blocks are a list.  `payload_block` points into `blocks`;
here the payload stands beside the list, which keeps its place with
`BlockEntry.payload`.  What no modelled function reads is left out: the CRC
fields, the block numbers, the EID references of blocks and
`primary_block_length`.
-/

namespace Upcn

/-- A `char *` that names an endpoint. -/
abbrev Eid := List Char

/-- `"dtn:none"`. -/
def dtnNone : Eid := "dtn:none".toList

/-- The value of a pointer to a `struct bundle`. -/
abbrev Addr := UInt64

/-- `BUNDLE_INVALID_ID`. -/
def bundleInvalidId : Nat := 0

/-- `HAS_FLAG`. -/
def hasFlag (value flag : UInt32) : Bool := (value &&& flag) != 0

/-! ## `enum bundle_proc_flags` -/

namespace ProcFlag

def isFragment : UInt32 := 0x000001
def administrativeRecord : UInt32 := 0x000002
def mustNotBeFragmented : UInt32 := 0x000004
def custodyTransferRequested : UInt32 := 0x000008
def singletonEndpoint : UInt32 := 0x000010
def reportReception : UInt32 := 0x004000
def reportCustodyAcceptance : UInt32 := 0x008000
def reportForwarding : UInt32 := 0x010000
def reportDelivery : UInt32 := 0x020000
def reportDeletion : UInt32 := 0x040000

end ProcFlag

/-! ## `enum bundle_block_flags` and `enum bundle_block_type` -/

namespace BlockFlag

def mustBeReplicated : UInt32 := 0x01
def reportIfUnproc : UInt32 := 0x02
def deleteBundleIfUnproc : UInt32 := 0x04
def lastBlock : UInt32 := 0x08
def discardIfUnproc : UInt32 := 0x10
def fwdUnproc : UInt32 := 0x20

end BlockFlag

namespace BlockType

def payload : Nat := 1
def hopCount : Nat := 10

end BlockType

/-- A `struct bundle_block` other than the payload block. -/
structure Block where
  type : Nat
  flags : UInt32
  data : List UInt8
  deriving DecidableEq

/-- An entry of `blocks`: the block that `payload_block` points to, or
another one. -/
inductive BlockEntry where
  | payload
  | extension (block : Block)
  deriving DecidableEq

/-- The data of a payload block, whose `length` is a `uint32_t`. -/
abbrev Payload := { data : List UInt8 // data.length < 2 ^ 32 }

/-- The payload of length zero. -/
def Payload.empty : Payload := ⟨[], by decide⟩

/-- `enum bundle_retention_constraints`, one field a bit. -/
structure RetConstraints where
  dispatchPending : Bool
  forwardPending : Bool
  custodyAccepted : Bool
  reassemblyPending : Bool
  flagOwn : Bool
  deriving DecidableEq

/-- `BUNDLE_RET_CONSTRAINT_NONE`. -/
def RetConstraints.none : RetConstraints := ⟨false, false, false, false, false⟩

/-- `struct bundle`. -/
structure Bundle where
  id : Nat
  protocolVersion : UInt8
  procFlags : UInt32
  retConstraints : RetConstraints
  destination : Eid
  source : Eid
  reportTo : Eid
  currentCustodian : Eid
  creationTimestamp : UInt64
  sequenceNumber : UInt64
  lifetime : UInt64
  fragmentOffset : UInt32
  totalAduLength : UInt32
  blocks : List BlockEntry
  payload : Payload
  deriving DecidableEq

namespace Bundle

/-- `payload_block->length`. -/
def payloadLength (b : Bundle) : UInt32 := UInt32.ofNat b.payload.val.length

theorem toNat_payloadLength (b : Bundle) :
    b.payloadLength.toNat = b.payload.val.length := by
  rw [payloadLength, UInt32.toNat_ofNat']
  exact Nat.mod_eq_of_lt b.payload.property

/-- `HAS_FLAG(bundle->proc_flags, flag)`. -/
def hasProcFlag (b : Bundle) (flag : UInt32) : Bool := hasFlag b.procFlags flag

/-- `bundle_is_fragmented`. -/
def bundleIsFragmented (b : Bundle) : Bool := b.hasProcFlag ProcFlag.isFragment

/-- The `if` around the custody code of `bundle_receive`. -/
def requestsCustody (b : Bundle) : Bool :=
  b.hasProcFlag ProcFlag.custodyTransferRequested && b.protocolVersion == 6

/-- `bundle_get_expiration_time`.  `now` is the reading of the clock, taken
only when the bundle does not state its creation time.  The sum is written with
the constant first, which keeps it from being unfolded. -/
def bundleGetExpirationTime (b : Bundle) (now : UInt64) : UInt64 :=
  (if b.creationTimestamp ≠ 0 then b.creationTimestamp else now) +
    (500000 + b.lifetime) / 1000000

end Bundle

/-! ## Unique identifiers -/

/-- `struct bundle_unique_identifier`. -/
structure BundleUniqueIdentifier where
  protocolVersion : UInt8
  source : Eid
  creationTimestamp : UInt64
  sequenceNumber : UInt64
  fragmentOffset : UInt32
  payloadLength : UInt32
  deriving DecidableEq

namespace Bundle

/-- `bundle_get_unique_identifier`. -/
def bundleGetUniqueIdentifier (b : Bundle) : BundleUniqueIdentifier where
  protocolVersion := b.protocolVersion
  source := b.source
  creationTimestamp := b.creationTimestamp
  sequenceNumber := b.sequenceNumber
  fragmentOffset := b.fragmentOffset
  payloadLength := b.payloadLength

/-- `bundle_is_equal_parent`. -/
def bundleIsEqualParent (b : Bundle) (id : BundleUniqueIdentifier) : Bool :=
  b.protocolVersion == id.protocolVersion && b.source == id.source &&
    b.creationTimestamp == id.creationTimestamp &&
    b.sequenceNumber == id.sequenceNumber

/-- `bundle_is_equal`. -/
def bundleIsEqual (b : Bundle) (id : BundleUniqueIdentifier) : Bool :=
  b.bundleIsEqualParent id && b.fragmentOffset == id.fragmentOffset &&
    b.payloadLength == id.payloadLength

end Bundle

/-! ## ADUs -/

/-- `struct bundle_adu`.  A byte of `payload` is `none` as long as nothing
was written to it. -/
structure BundleAdu where
  protocolVersion : UInt8
  procFlags : UInt32
  source : Eid
  destination : Eid
  payload : List (Option UInt8)
  deriving DecidableEq

namespace Bundle

/-- `bundle_adu_init`. -/
def bundleAduInit (b : Bundle) : BundleAdu where
  protocolVersion := b.protocolVersion
  procFlags := b.procFlags &&& ~~~ProcFlag.isFragment
  source := b.source
  destination := b.destination
  payload := []

/-- `bundle_to_adu`: the ADU and what is left of the bundle. -/
def bundleToAdu (b : Bundle) : BundleAdu × Bundle :=
  let adu := { b.bundleAduInit with payload := b.payload.val.map some }
  let rest := { b with payload := Payload.empty }
  (adu, rest)

end Bundle

/-! ## Administrative records -/

/-- `enum bundle_status_report_reason`. -/
inductive StatusReportReason where
  | noInfo
  | lifetimeExpired
  | forwardedUnidirectional
  | transmissionCanceled
  | depletedStorage
  | destEidUnintelligible
  | noKnownRoute
  | noTimelyContact
  | blockUnintelligible
  | hopLimitExceeded
  | trafficPared
  deriving DecidableEq, Repr

/-- The value of the enumerator. -/
def StatusReportReason.code : StatusReportReason → Nat
  | .noInfo => 0
  | .lifetimeExpired => 1
  | .forwardedUnidirectional => 2
  | .transmissionCanceled => 3
  | .depletedStorage => 4
  | .destEidUnintelligible => 5
  | .noKnownRoute => 6
  | .noTimelyContact => 7
  | .blockUnintelligible => 8
  | .hopLimitExceeded => 9
  | .trafficPared => 10

/-- `enum bundle_status_report_status_flags`. -/
inductive StatusReportStatus where
  | bundleReceived
  | custodyTransfer
  | bundleForwarded
  | bundleDelivered
  | bundleDeleted
  deriving DecidableEq, Repr

/-- `enum bundle_custody_signal_type`. -/
inductive CustodySignalType where
  | acceptance
  | refusal
  deriving DecidableEq, Repr

/-- `struct bundle_custody_signal`.  The reason is the value of the
enumerator: the bundle processor casts the reasons of status reports to it. -/
structure CustodySignal where
  type : CustodySignalType
  reason : Nat
  deriving DecidableEq

/-- `struct bundle_administrative_record`, as far as the bundle processor
reads it.  `custodySignal` is there when the record's type says so. -/
structure AdministrativeRecord where
  custodySignal : Option CustodySignal
  fragmentOffset : UInt32
  fragmentLength : UInt32
  bundleCreationTimestamp : UInt64
  bundleSequenceNumber : UInt64
  bundleSourceEid : Eid
  deriving DecidableEq

/-- `struct bundle_hop_count`. -/
structure HopCount where
  limit : UInt16
  count : UInt16
  deriving DecidableEq

end Upcn
