import Upcn.Bundle6.Sdnv

/-!
# The BPv6 serializer

`bundle6/serializer.c`, with the dictionary and the header length of
`bundle6/bundle6.c`.

`malloc` succeeds here: the serializer gives up only when the dictionary cannot be
allocated.  A `char *` that names an endpoint is not `NULL`.
-/

namespace Upcn.Bundle6

/-! ## The dictionary -/

/-- `struct bundle6_eid_info`, without `ssp_ptr`, which is not read. -/
structure EidInfo where
  str : List UInt8
  dictSchemeOffset : Nat
  dictSspOffset : Nat
  deriving DecidableEq

/-- The part of an EID before the first colon. -/
def eidScheme (eid : List UInt8) : List UInt8 := eid.takeWhile (· ≠ 58)

/-- The part behind it. -/
def eidSsp (eid : List UInt8) : List UInt8 := (eid.dropWhile (· ≠ 58)).drop 1

/-- `write_scheme`. -/
def writeScheme (eid : List UInt8) : List UInt8 :=
  if 58 ∈ eid then eidScheme eid ++ [0] else [100, 116, 110, 0]

/-- `write_ssp`. -/
def writeSsp (eid : List UInt8) : List UInt8 :=
  if 58 ∈ eid then eidSsp eid ++ [0] else [110, 111, 110, 101, 0]

/-- `write_eid`. -/
def writeEid (info : EidInfo) : List UInt8 := writeScheme info.str ++ writeSsp info.str

/-- `analyze_eid`: the lengths of the scheme and of the SSP. -/
def analyzeEid (eid : List UInt8) : Nat × Nat :=
  if 58 ∈ eid then ((eidScheme eid).length, (eidSsp eid).length) else (3, 4)

/-- `calculate_eid_info`: the offsets, and the length of the dictionary with this
EID. -/
def calculateEidInfo (eid : List UInt8) (dictLength : Nat) : EidInfo × Nat :=
  let (schemeLen, sspLen) := analyzeEid eid
  (⟨eid, dictLength % 2 ^ 16, (dictLength + schemeLen + 1) % 2 ^ 16⟩,
    dictLength + schemeLen + sspLen + 2)

/-- `calculate_eid_info` for one EID after the other. -/
def calculateEidInfos : List (List UInt8) → Nat → List EidInfo × Nat
  | [], dictLength => ([], dictLength)
  | eid :: eids, dictLength =>
    let (info, dictLength) := calculateEidInfo eid dictLength
    let (infos, dictLength) := calculateEidInfos eids dictLength
    (info :: infos, dictLength)

/-- `BUNDLE_V6_BLOCK_FLAG_HAS_EID_REF_FIELD`. -/
def Block.hasEidRefField (block : Block) : Bool := block.flags.testBit 6

/-- `struct bundle6_dict_descriptor`. -/
structure DictDescriptor where
  dictLengthBytes : Nat
  eidReferenceCount : Nat
  destinationEidInfo : EidInfo
  sourceEidInfo : EidInfo
  reportToEidInfo : EidInfo
  custodianEidInfo : EidInfo
  eidReferences : List EidInfo
  deriving DecidableEq

namespace Bundle

/-- The EID references of all blocks. -/
def eidRefs (b : Bundle) : List (List UInt8) := b.blocks.flatMap (·.eidRefs)

/-- `bundle6_calculate_dict`.  The references are counted in the blocks that have
the flag, and laid out for all blocks. -/
def bundle6CalculateDict (b : Bundle) : DictDescriptor :=
  let (destination, length) := calculateEidInfo b.destination 0
  let (source, length) := calculateEidInfo b.source length
  let (reportTo, length) := calculateEidInfo b.reportTo length
  let (custodian, length) := calculateEidInfo b.currentCustodian length
  let (references, length) := calculateEidInfos b.eidRefs length
  { dictLengthBytes := length
    eidReferenceCount := ((b.blocks.filter (·.hasEidRefField)).flatMap (·.eidRefs)).length
    destinationEidInfo := destination
    sourceEidInfo := source
    reportToEidInfo := reportTo
    custodianEidInfo := custodian
    eidReferences := references }

end Bundle

/-- `bundle6_serialize_dictionary`. -/
def bundle6SerializeDictionary (desc : DictDescriptor) : List UInt8 :=
  writeEid desc.destinationEidInfo ++ writeEid desc.sourceEidInfo ++
    writeEid desc.reportToEidInfo ++ writeEid desc.custodianEidInfo ++
    (desc.eidReferences.take desc.eidReferenceCount).flatMap writeEid

/-! ## The header length -/

namespace Bundle

/-- The sum of `bundle6_recalculate_header_length_internal`. -/
def headerLength (b : Bundle) : Nat :=
  let ddesc := b.bundle6CalculateDict
  1
    + sdnvGetSizeU32 b.procFlags
    + sdnvGetSizeU32 b.primaryBlockLength
    + sdnvGetSizeU32 ddesc.destinationEidInfo.dictSchemeOffset
    + sdnvGetSizeU32 ddesc.destinationEidInfo.dictSspOffset
    + sdnvGetSizeU32 ddesc.sourceEidInfo.dictSchemeOffset
    + sdnvGetSizeU32 ddesc.sourceEidInfo.dictSspOffset
    + sdnvGetSizeU32 ddesc.reportToEidInfo.dictSchemeOffset
    + sdnvGetSizeU32 ddesc.reportToEidInfo.dictSspOffset
    + sdnvGetSizeU32 ddesc.custodianEidInfo.dictSchemeOffset
    + sdnvGetSizeU32 ddesc.custodianEidInfo.dictSspOffset
    + sdnvGetSizeU64 b.creationTimestamp
    + sdnvGetSizeU64 b.sequenceNumber
    + sdnvGetSizeU64 (b.lifetime / 1000000)
    + sdnvGetSizeU32 (ddesc.dictLengthBytes % 2 ^ 32)
    + ddesc.dictLengthBytes
    + (if b.isFragmented then
        sdnvGetSizeU32 b.fragmentOffset + sdnvGetSizeU32 b.totalAduLength
      else 0)

/-- `bundle6_recalculate_header_length`.  The field has 16 bits. -/
def bundle6RecalculateHeaderLength (b : Bundle) : Bundle :=
  { b with primaryBlockLength := b.headerLength % 2 ^ 16 }

end Bundle

/-! ## Serializing -/

/-- The flags that `bundle6_serialize` keeps. -/
def rfc5050Flags : Nat :=
  0x000001 ||| 0x000002 ||| 0x000004 ||| 0x000008 ||| 0x000010 ||| 0x000020 |||
    0x000080 ||| 0x000100 ||| 0x004000 ||| 0x008000 ||| 0x010000 ||| 0x020000 |||
    0x040000

/-- `serialize_u16` for the two offsets of an EID. -/
def serializeOffsets (info : EidInfo) : List UInt8 :=
  sdnvWriteU16 info.dictSchemeOffset ++ sdnvWriteU16 info.dictSspOffset

/-- A block, as the loop of `bundle6_serialize` writes it: `c` counts the references
of the block, and indexes the references of the bundle. -/
def serializeBlock (desc : DictDescriptor) (block : Block) : List UInt8 :=
  [block.type] ++ sdnvWriteU32 block.flags ++
    (if block.hasEidRefField then
      sdnvWriteU16 (block.eidRefs.length % 2 ^ 16) ++
        (desc.eidReferences.take block.eidRefs.length).flatMap serializeOffsets
    else []) ++
    sdnvWriteU32 block.length ++ block.data

/-- `bundle6_serialize`: the bytes that it writes. -/
def bundle6Serialize (b : Bundle) : List UInt8 :=
  let desc := b.bundle6CalculateDict
  [b.protocolVersion] ++ sdnvWriteU32 (b.procFlags &&& rfc5050Flags) ++
    sdnvWriteU32 b.primaryBlockLength ++
    serializeOffsets desc.destinationEidInfo ++ serializeOffsets desc.sourceEidInfo ++
    serializeOffsets desc.reportToEidInfo ++ serializeOffsets desc.custodianEidInfo ++
    sdnvWriteU64 b.creationTimestamp ++ sdnvWriteU64 b.sequenceNumber ++
    sdnvWriteU64 (b.lifetime / 1000000) ++
    sdnvWriteU16 (desc.dictLengthBytes % 2 ^ 16) ++ bundle6SerializeDictionary desc ++
    (if b.isFragmented then
      sdnvWriteU32 b.fragmentOffset ++ sdnvWriteU32 b.totalAduLength
    else []) ++
    b.blocks.flatMap (serializeBlock desc)

/-! ## Well-formed bundles -/

/-- A string with a scheme and an SSP. -/
def IsEid (eid : List UInt8) : Prop := 58 ∈ eid ∧ 0 ∉ eid

/-- The bit of `BUNDLE_V6_BLOCK_FLAG_LAST_BLOCK`. -/
def Block.isLast (block : Block) : Bool := block.flags.testBit 3

/-- A block of a well-formed bundle. -/
structure Block.WellFormed (block : Block) : Prop where
  flags : block.flags < 2 ^ 7
  eidRefs : ∀ eid ∈ block.eidRefs, IsEid eid
  unflagged : block.hasEidRefField = false → block.eidRefs = []
  length : block.data.length = block.length
  length_lt : block.length < 2 ^ 32

/-- A well-formed BPv6 bundle. -/
structure Bundle.WellFormed (b : Bundle) : Prop where
  version : b.protocolVersion = 6
  procFlags : b.procFlags &&& rfc5050Flags = b.procFlags
  primaryBlockLength : b.primaryBlockLength < 2 ^ 16
  eids : ∀ eid ∈ [b.destination, b.source, b.reportTo, b.currentCustodian], IsEid eid
  creationTimestamp : b.creationTimestamp < 2 ^ 64
  sequenceNumber : b.sequenceNumber < 2 ^ 64
  lifetime : b.lifetime < 2 ^ 64
  wholeSeconds : 1000000 ∣ b.lifetime
  fragmentOffset : b.fragmentOffset < 2 ^ 32
  totalAduLength : b.totalAduLength < 2 ^ 32
  unfragmented : b.isFragmented = false → b.fragmentOffset = 0 ∧ b.totalAduLength = 0
  /-- Every offset in the dictionary is below 65536. -/
  dictionary : b.bundle6CalculateDict.dictLengthBytes ≤ 2 ^ 16
  blocks : ∀ block ∈ b.blocks, block.WellFormed
  /-- The last block is flagged, and no other one. -/
  lastBlock : ∃ front last, b.blocks = front ++ [last] ∧ last.isLast = true ∧
    ∀ block ∈ front, block.isLast = false
  /-- There is one payload block. -/
  payload : ∃ i, b.payloadBlock = some i ∧ i < b.blocks.length ∧
    ∀ j block, b.blocks[j]? = some block → (block.type = 1 ↔ j = i)

end Upcn.Bundle6
