import Upcn.Lib.Cbor

/-!
# The BPv7 serializer

`bundle7/serializer.c` and the serializer of `bundle7/eid.c`.

`malloc` succeeds here, and a `char *` that names an endpoint is not `NULL`.  The
encoder is the one of the CBOR library, and `Checksums` stands for the two CRCs over the
bytes of a block.
-/

namespace Upcn.Bundle7

/-! ## Bundles -/

/-- `struct bundle_block`, as far as BPv7 uses it. -/
structure Block where
  type : Nat
  number : Nat
  flags : Nat
  crcType : Nat
  length : Nat
  data : List UInt8
  deriving DecidableEq

/-- `struct bundle`, as far as BPv7 uses it. -/
structure Bundle where
  protocolVersion : Nat
  procFlags : Nat
  crcType : Nat
  destination : List UInt8
  source : List UInt8
  reportTo : List UInt8
  creationTimestamp : Nat
  sequenceNumber : Nat
  lifetime : Nat
  fragmentOffset : Nat
  totalAduLength : Nat
  primaryBlockLength : Nat
  blocks : List Block
  deriving DecidableEq

/-- `BUNDLE_CRC_TYPE_NONE`. -/
def crcTypeNone : Nat := 0

/-- `BUNDLE_CRC_TYPE_16`. -/
def crcType16 : Nat := 1

/-- `BUNDLE_CRC_TYPE_32`. -/
def crcType32 : Nat := 2

/-- The two CRCs, CRC-16/X.25 and CRC-32C. -/
structure Checksums where
  crc16 : List UInt8 → Nat
  crc32 : List UInt8 → Nat

/-- `bundle_is_fragmented`. -/
def Bundle.isFragmented (b : Bundle) : Bool := b.procFlags.testBit 0

/-! ## Endpoints -/

/-- `"dtn:none"`. -/
def dtnNone : List UInt8 := [100, 116, 110, 58, 110, 111, 110, 101]

/-- `"dtn:"`. -/
def dtnPrefix : List UInt8 := [100, 116, 110, 58]

/-- `"ipn:"`. -/
def ipnPrefix : List UInt8 := [105, 112, 110, 58]

/-- What `strtoul` makes of the digits, for a `uint32_t`. -/
def unsignedOfDigits (negative : Bool) (digits : List UInt8) : Nat :=
  let value := digits.foldl (fun value digit => value * 10 + (digit.toNat - 48)) 0
  let value :=
    if 2 ^ 64 ≤ value then 2 ^ 64 - 1
    else if negative then (2 ^ 64 - value) % 2 ^ 64
    else value
  value % 2 ^ 32

/-- The conversion `%u` of `sscanf`: the number, and what is left. -/
def scanUnsigned (s : List UInt8) : Option (Nat × List UInt8) :=
  let s := s.dropWhile fun c => c = 32 ∨ (9 ≤ c ∧ c ≤ 13)
  let negative := s.head? = some 45
  let s := if s.head? = some 45 ∨ s.head? = some 43 then s.tail else s
  let digits := s.takeWhile fun c => 48 ≤ c ∧ c ≤ 57
  if digits = [] then none
  else some (unsignedOfDigits negative digits, s.drop digits.length)

/-- `sscanf(eid, "ipn:%u.%u", ...)`, if it finds both numbers. -/
def scanIpn (eid : List UInt8) : Option (Nat × Nat) :=
  if ipnPrefix <+: eid then
    match scanUnsigned (eid.drop 4) with
    | some (node, 46 :: rest) => (scanUnsigned rest).map fun service => (node, service.1)
    | _ => none
  else none

/-- `serialize_dtn_none`. -/
def serializeDtnNone : List UInt8 := Cbor.array 2 ++ Cbor.uint 1 ++ Cbor.uint 0

/-- `serialize_dtn`. -/
def serializeDtn (eid : List UInt8) : List UInt8 :=
  Cbor.array 2 ++ Cbor.uint 1 ++ Cbor.textString (eid.drop 4)

/-- `serialize_ipn`. -/
def serializeIpn (eid : List UInt8) : Option (List UInt8) :=
  (scanIpn eid).map fun (node, service) =>
    Cbor.array 2 ++ Cbor.uint 2 ++ (Cbor.array 2 ++ Cbor.uint node ++ Cbor.uint service)

/-- `bundle7_eid_serialize_cbor`. -/
def eidSerializeCbor (eid : List UInt8) : Option (List UInt8) :=
  if eid = dtnNone then some serializeDtnNone
  else if dtnPrefix <+: eid then some (serializeDtn eid)
  else if 4 < eid.length ∧ ipnPrefix <+: eid then serializeIpn eid
  else none

/-- `BUFFER_SIZE`. -/
def bufferSize : Nat := 128

/-- `bundle7_eid_serialize` with the buffer of the serializer: `none` if the EID cannot
be encoded, or is too long for it. -/
def eidSerialize (eid : List UInt8) : Option (List UInt8) :=
  match eidSerializeCbor eid with
  | none => none
  | some bytes => if bytes.length ≤ bufferSize then some bytes else none

/-! ## Blocks -/

/-- `BP_V7_FLAGS`. -/
def bpV7Flags : Nat :=
  0x000001 ||| 0x000002 ||| 0x000004 ||| 0x000020 ||| 0x000040 ||| 0x004000 |||
    0x010000 ||| 0x020000 ||| 0x040000

/-- `bundle7_filter_protocol_proc_flags`. -/
def filterProtocolProcFlags (b : Bundle) : Nat := b.procFlags &&& bpV7Flags

/-- `bundle7_convert_to_protocol_block_flags`. -/
def convertToProtocolBlockFlags (block : Block) : Nat :=
  block.flags &&& (0x01 ||| 0x10 ||| 0x02 ||| 0x04)

/-- `primary_block_get_item_count`. -/
def primaryBlockGetItemCount (b : Bundle) : Nat :=
  8 + (if b.crcType ≠ crcTypeNone then 1 else 0) + (if b.isFragmented then 2 else 0)

/-- `block_get_item_count`. -/
def blockGetItemCount (block : Block) : Nat :=
  5 + (if block.crcType ≠ crcTypeNone then 1 else 0)

variable (crc : Checksums)

/-- `write_crc` over the bytes that were fed: every type but CRC-32 is written as
CRC-16. -/
def writeCrc (crcType : Nat) (fed : List UInt8) : List UInt8 :=
  if crcType = crcType32 then
    Cbor.byteString (Cbor.bigEndian 4 (crc.crc32 (fed ++ [0x44, 0, 0, 0, 0])))
  else Cbor.byteString (Cbor.bigEndian 2 (crc.crc16 (fed ++ [0x42, 0, 0])))

/-- The CRC of a block, if it has one. -/
def crcField (crcType : Nat) (fed : List UInt8) : List UInt8 :=
  if crcType ≠ crcTypeNone then writeCrc crc crcType fed else []

/-- `buffer[...] |= 0x40`: the number becomes the length of a byte string. -/
def asByteString : List UInt8 → List UInt8
  | [] => []
  | byte :: bytes => (byte ||| 0x40) :: bytes

/-- A block, as the loop of `bundle7_serialize` writes it.  `init_crc` does nothing for a type that
is neither CRC-16 nor CRC-32: the CRC then goes on from the block before, and is undefined if no
CRC was initialised.  Only the length of its field is that of the source. -/
def serializeBlock (block : Block) : List UInt8 :=
  let header := [UInt8.ofNat (0x80 + blockGetItemCount block)] ++ Cbor.uint block.type ++
    Cbor.uint block.number ++ Cbor.uint (convertToProtocolBlockFlags block) ++
    Cbor.uint block.crcType ++ asByteString (Cbor.uint block.length)
  header ++ block.data ++ crcField crc block.crcType (header ++ block.data)

/-- The primary block, from its EIDs on. -/
def serializePrimary (b : Bundle) (destination source reportTo : List UInt8) : List UInt8 :=
  let fields := [UInt8.ofNat (0x80 + primaryBlockGetItemCount b)] ++
    Cbor.uint b.protocolVersion ++ Cbor.uint (filterProtocolProcFlags b) ++
    Cbor.uint b.crcType ++ destination ++ source ++ reportTo ++ [0x82] ++
    Cbor.uint b.creationTimestamp ++ Cbor.uint b.sequenceNumber ++ Cbor.uint b.lifetime ++
    (if b.isFragmented then Cbor.uint b.fragmentOffset ++ Cbor.uint b.totalAduLength else [])
  fields ++ crcField crc b.crcType fields

/-- `bundle7_serialize`: the bytes that it writes, if it returns `UPCN_OK`. -/
def bundle7Serialize (b : Bundle) : Option (List UInt8) := do
  if b.protocolVersion ≠ 7 then failure
  let destination ← eidSerialize b.destination
  let source ← eidSerialize b.source
  let reportTo ← eidSerialize b.reportTo
  return [0x9f] ++ serializePrimary crc b destination source reportTo ++
    b.blocks.flatMap (serializeBlock crc) ++ [0xff]

end Upcn.Bundle7
