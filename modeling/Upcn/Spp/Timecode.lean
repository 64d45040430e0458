import Mathlib.Tactic.Common
import Upcn.Lib.Outcome

/-!
# The timecode of a space packet

`spp_timecodes.c`: the octets of a CCSDS timestamp, written and parsed.

* `TcParser` is `struct spp_tc_parser_t`.  The two members of the union `state` are next to each
  other here; `spp_tc_parser_start_from_config` is where one takes the place of the other.
* A write behind the end of `fractional_buf` is a fault.
* Of the formats other than the unsegmented ones the code knows only that they are errors.
-/

namespace Upcn.Spp

/-- `enum spp_tc_type`, with the values of three bits that have no name. -/
inductive TcType where
  | unsegmentedCcsdsEpoch
  | unsegmentedCustomEpoch
  | daySegmented
  | calendarSegmented
  | custom
  | reserved
  | unknown
  deriving DecidableEq

/-- The type in the first octet of a preamble, `(byte & 0x70) >> 4`. -/
def TcType.detect (byte : UInt8) : TcType :=
  match ((byte &&& 0x70) >>> 4).toNat with
  | 1 => unsegmentedCcsdsEpoch
  | 2 => unsegmentedCustomEpoch
  | 4 => daySegmented
  | 5 => calendarSegmented
  | 6 => custom
  | _ => reserved

/-- The value of the enumerator, of the types with a preamble. -/
def TcType.value : TcType → UInt8
  | unsegmentedCcsdsEpoch => 0x1
  | unsegmentedCustomEpoch => 0x2
  | daySegmented => 0x4
  | calendarSegmented => 0x5
  | custom => 0x6
  | reserved => 0
  | unknown => 0xff

/-- `case SPP_TC_UNSEGMENTED_CCSDS_EPOCH: case SPP_TC_UNSEGMENTED_CUSTOM_EPOCH:`. -/
def TcType.isUnsegmented : TcType → Bool
  | unsegmentedCcsdsEpoch => true
  | unsegmentedCustomEpoch => true
  | _ => false

/-- `struct spp_tc_config_t`. -/
structure TcConfig where
  type : TcType
  baseUnitOctets : UInt8
  fractionalOctets : UInt8
  deriving DecidableEq

/-- `struct spp_tc_context_t`. -/
structure TcContext where
  withPField : Bool
  defaults : TcConfig
  deriving DecidableEq

/-- `enum spp_tc_parser_status`. -/
inductive TcStatus where
  | good
  | error
  | done
  deriving DecidableEq

/-- Why the parser does not return. -/
inductive TcFault where
  /-- `fractional_buf` is written behind its end. -/
  | outOfBounds
  deriving DecidableEq

/-- `struct spp_tc_parser_t`. -/
structure TcParser where
  status : TcStatus
  format : TcConfig
  hasSecondOctet : Bool
  detectedType : TcType
  readBaseUnit : Bool
  baseUnitRemaining : UInt8
  fractionalRemaining : UInt8
  baseUnitCount : UInt64
  fractionalPtr : UInt8
  fractionalBuf : List UInt8

/-- `SPP_TC_UNSEGMENTED_FRACTIONAL_MAX_OCTETS`. -/
def fractionalMaxOctets : Nat := 6

/-- `CCSDS_EPOCH_TO_DTN_EPOCH`. -/
def ccsdsEpochToDtnEpoch : UInt64 := 1325376000

namespace TcParser

variable (parser : TcParser)

/-- `spp_tc_parser_start_from_config`.  `read_base_unit` is where `has_second_octet` was. -/
def startFromConfig : TcParser :=
  { parser with
    hasSecondOctet := false
    readBaseUnit := false
    baseUnitCount := 0
    baseUnitRemaining := parser.format.baseUnitOctets
    fractionalRemaining := parser.format.fractionalOctets
    fractionalPtr := 0 }

/-- `spp_tc_parser_init`. -/
def init (ctx : TcContext) : TcParser :=
  if ctx.withPField then
    { parser with
      format := { parser.format with type := .unknown }
      hasSecondOctet := false
      status := .good }
  else { { parser with format := ctx.defaults }.startFromConfig with status := .good }

/-! ## The preamble -/

/-- `spp_tc_pfield_parse_first`. -/
def pfieldParseFirst (byte : UInt8) : TcStatus × TcParser :=
  let parser := { parser with
    hasSecondOctet := (byte &&& 0x80) != 0
    detectedType := .detect byte }
  if parser.detectedType.isUnsegmented then
    (.good, { parser with format := { parser.format with
      baseUnitOctets := ((byte &&& 0x0c) >>> 2) + 1
      fractionalOctets := byte &&& 0x03 } })
  else (.error, parser)

/-- `spp_tc_pfield_parse_second`. -/
def pfieldParseSecond (byte : UInt8) : TcStatus × TcParser :=
  let parser := { parser with hasSecondOctet := (byte &&& 0x80) != 0 }
  if parser.detectedType.isUnsegmented then
    (.good, { parser with format := { parser.format with
      baseUnitOctets := parser.format.baseUnitOctets + ((byte &&& 0x60) >>> 5)
      fractionalOctets := parser.format.fractionalOctets + ((byte &&& 0x1c) >>> 2) } })
  else (.error, parser)

/-- `spp_tc_pfield_feed`. -/
def pfieldFeed (byte : UInt8) : TcStatus × TcParser :=
  let (result, parser) := if !parser.hasSecondOctet then parser.pfieldParseFirst byte
    else parser.pfieldParseSecond byte
  if result ≠ .good then (result, parser)
  else if !parser.hasSecondOctet then
    (result, { parser with format :=
      { parser.format with type := parser.detectedType } }.startFromConfig)
  else (result, parser)

/-! ## The octets -/

/-- `spp_tc_unsegmented_advance`. -/
def unsegmentedAdvance : TcStatus × TcParser :=
  let parser := if !parser.readBaseUnit && parser.baseUnitRemaining == 0 then
    { parser with readBaseUnit := true } else parser
  if parser.readBaseUnit && parser.fractionalRemaining == 0 then (.done, parser)
  else (.good, parser)

/-- `_spp_tc_parser_feed`. -/
def feedType (byte : UInt8) : Except TcFault (TcStatus × TcParser) :=
  match parser.format.type with
  | .unknown => .ok (parser.pfieldFeed byte)
  | .unsegmentedCcsdsEpoch =>
    if !parser.readBaseUnit then
      .ok { parser with
        baseUnitRemaining := parser.baseUnitRemaining - 1
        baseUnitCount := (parser.baseUnitCount <<< 8) ||| byte.toUInt64 }.unsegmentedAdvance
    else
      let index := parser.fractionalPtr.toNat
      if index < fractionalMaxOctets then
        .ok { parser with
          fractionalPtr := parser.fractionalPtr + 1
          fractionalBuf := parser.fractionalBuf.set index byte
          fractionalRemaining := parser.fractionalRemaining - 1 }.unsegmentedAdvance
      else .error .outOfBounds
  | _ => .ok (.error, parser)

/-- `spp_tc_parser_feed`. -/
def feed (byte : UInt8) : Except TcFault (TcStatus × TcParser) := do
  let (result, parser) ← parser.feedType byte
  return (result, { parser with status := result })

/-- `spp_tc_get_dtn_timestamp`. -/
def dtnTimestamp : UInt64 :=
  if parser.status ≠ .done then 0xffffffffffffffff
  else match parser.format.type with
    | .unsegmentedCcsdsEpoch =>
      if parser.baseUnitCount < ccsdsEpochToDtnEpoch then 0xffffffffffffffff
      else parser.baseUnitCount - ccsdsEpochToDtnEpoch
    | _ => 0xffffffffffffffff

end TcParser

/-! ## The serializer -/

/-- `UNSEGMENTED_BASE_UNIT_LONGP_THRESHOLD`. -/
def baseUnitLongpThreshold : UInt8 := 4

/-- `UNSEGMENTED_FRACTIONAL_LONGP_THRESHOLD`. -/
def fractionalLongpThreshold : UInt8 := 3

namespace TcConfig

variable (format : TcConfig)

/-- `base_unit_wide`. -/
def baseUnitWide : Bool := format.baseUnitOctets > baseUnitLongpThreshold

/-- `fractional_wide`. -/
def fractionalWide : Bool := format.fractionalOctets > fractionalLongpThreshold

/-- `need_second_byte`. -/
def needSecondByte : Bool := format.baseUnitWide || format.fractionalWide

/-- `spp_tc_serialize_preamble`. -/
def serializePreamble : Option (List UInt8) :=
  if format.type.isUnsegmented then
    let byte := format.type.value <<< 4
    let byte := if format.needSecondByte then byte ||| 0x80 else byte
    let byte := if format.baseUnitWide then byte ||| 0x0c
      else byte ||| ((format.baseUnitOctets - 1) <<< 2)
    let byte := if format.fractionalWide then byte ||| 0x03 else byte ||| format.fractionalOctets
    if !format.needSecondByte then some [byte]
    else
      let second : UInt8 := 0
      let second := if format.baseUnitWide then
        second ||| ((format.baseUnitOctets - baseUnitLongpThreshold) <<< 5) else second
      let second := if format.fractionalWide then
        second ||| ((format.fractionalOctets - fractionalLongpThreshold) <<< 2) else second
      some [byte, second]
  else none

end TcConfig

/-- A loop of `serialize_unsegmented`: so many octets of the value, the first one `shift` bits
from the right. -/
def serializeOctets (value : UInt64) : Nat → Nat → List UInt8
  | 0, _ => []
  | n + 1, shift =>
    ((value >>> UInt64.ofNat shift) &&& 0xff).toUInt8 :: serializeOctets value n (shift - 8)

/-- `serialize_unsegmented`. -/
def serializeUnsegmented (config : TcConfig) (seconds fractional : UInt64) : List UInt8 :=
  serializeOctets seconds config.baseUnitOctets.toNat ((config.baseUnitOctets.toNat - 1) * 8) ++
    serializeOctets fractional config.fractionalOctets.toNat (64 - 8)

namespace TcContext

variable (ctx : TcContext)

/-- `spp_tc_get_size`. -/
def size : Nat :=
  if ctx.defaults.type.isUnsegmented then
    ctx.defaults.baseUnitOctets.toNat + ctx.defaults.fractionalOctets.toNat +
      if ctx.withPField then if ctx.defaults.needSecondByte then 2 else 1 else 0
  else 0

/-- `spp_tc_serialize`: the bytes written, or `none` where the code returns -1. -/
def serialize (dtnTimestamp : UInt64) (dtnCounter : UInt32) : Option (List UInt8) := do
  let preamble ← if ctx.withPField then ctx.defaults.serializePreamble else some []
  match ctx.defaults.type with
  | .unsegmentedCcsdsEpoch =>
    let seconds := dtnTimestamp + ccsdsEpochToDtnEpoch
    let fractional := dtnCounter.toUInt64 <<< 32
    return preamble ++ serializeUnsegmented ctx.defaults seconds fractional
  | _ => none

end TcContext

end Upcn.Spp
