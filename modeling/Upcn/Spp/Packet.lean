import Upcn.Bundle6.Parser
import Upcn.Spp.Timecode

/-!
# Space packets

The header of a space packet, as `spp.c` writes it and `spp_parser.c` reads it.

* `SppParser.parseByte` is `spp_parse_byte`.  An `ASSERT` that fails is a fault, as is a fault of
  the timecode parser.
* `serializeHeader` is `spp_serialize_header`, which returns the bytes it writes.
-/

namespace Upcn.Spp

open Upcn.Bundle6 (ParserStatus)

/-- `enum spp_segment_status_t`. -/
inductive SegmentStatus where
  | continuation
  | first
  | last
  | unsegmented
  deriving DecidableEq

namespace SegmentStatus

/-- The value of the enumerator. -/
def value : SegmentStatus → UInt16
  | continuation => 0
  | first => 1
  | last => 2
  | unsegmented => 3

/-- The enumerator with this value, of two bits. -/
def ofValue (value : UInt16) : SegmentStatus :=
  if value = 0 then continuation else if value = 1 then first
  else if value = 2 then last else unsegmented

end SegmentStatus

/-- `struct spp_meta_t`. -/
structure SppMeta where
  isRequest : Bool
  apid : UInt16
  segmentStatus : SegmentStatus
  segmentNumber : UInt16
  dtnTimestamp : UInt64
  dtnCounter : UInt32
  deriving DecidableEq

/-- `struct spp_primary_header_t`. -/
structure SppPrimaryHeader where
  isRequest : Bool
  hasSecondaryHeader : Bool
  apid : UInt16
  segmentStatus : SegmentStatus
  segmentNumber : UInt16
  dataLength : UInt64
  deriving DecidableEq

/-- `struct spp_context_t`. -/
structure SppContext where
  timecode : Option TcContext
  ancillaryDataLen : UInt64

/-- `SPP_MAX_APID`. -/
def sppMaxApid : UInt16 := 0x7ff

/-- `SPP_MAX_SEGMENT_NUMBER`. -/
def sppMaxSegmentNumber : UInt16 := 0x3fff

/-- `SPP_MAX_DATA_LENGTH`. -/
def sppMaxDataLength : UInt64 := 65536

/-- `SPP_PRIMARY_HEADER_SIZE`. -/
def sppPrimaryHeaderSize : UInt64 := 6

/-! ## The serializer -/

/-- `write_uint16`. -/
def writeUint16 (val : UInt16) : List UInt8 := [(val >>> 8).toUInt8, (val &&& 0xff).toUInt8]

/-- `spp_serialize_primary_header`. -/
def serializePrimaryHeader (header : SppPrimaryHeader) : Option (List UInt8) :=
  if header.apid > sppMaxApid then none
  else if header.dataLength > sppMaxDataLength then none
  else if header.segmentNumber > sppMaxSegmentNumber then none
  else
    let part1 : UInt16 := 0
    let part1 := if header.isRequest then part1 ||| 0x1000 else part1
    let part1 := if header.hasSecondaryHeader then part1 ||| 0x0800 else part1
    let part1 := part1 ||| header.apid
    let part2 := (header.segmentStatus.value <<< 14) ||| header.segmentNumber
    let len := (header.dataLength - 1).toUInt16
    some (writeUint16 part1 ++ writeUint16 part2 ++ writeUint16 len)

namespace SppContext

variable (ctx : SppContext)

/-- `ctx->timecode ? spp_tc_get_size(ctx->timecode) : 0`. -/
def timecodeSize : UInt64 := UInt64.ofNat ((ctx.timecode.map TcContext.size).getD 0)

/-- The header that `spp_serialize_header` fills in. -/
def primaryHeader (metadata : SppMeta) (payloadLen : UInt64) : SppPrimaryHeader where
  isRequest := metadata.isRequest
  hasSecondaryHeader := ctx.ancillaryDataLen > 0 || ctx.timecode.isSome
  apid := metadata.apid
  segmentStatus := metadata.segmentStatus
  segmentNumber := metadata.segmentNumber
  dataLength := payloadLen + ctx.ancillaryDataLen + ctx.timecodeSize

/-- `spp_serialize_header`: the bytes written, or `none` where the code returns -1. -/
def serializeHeader (metadata : SppMeta) (payloadLen : UInt64) : Option (List UInt8) := do
  let header ← serializePrimaryHeader (ctx.primaryHeader metadata payloadLen)
  match ctx.timecode with
  | none => return header
  | some timecode =>
    let octets ← timecode.serialize metadata.dtnTimestamp metadata.dtnCounter
    return header ++ octets

/-- `spp_get_size`. -/
def size (payloadLen : UInt64) : UInt64 :=
  if payloadLen = 0 ∧ ctx.ancillaryDataLen = 0 ∧ ctx.timecode = none then 0
  else ctx.ancillaryDataLen + payloadLen + sppPrimaryHeaderSize + ctx.timecodeSize

/-- `spp_get_min_payload_size`. -/
def minPayloadSize : UInt64 :=
  if ctx.timecode.isSome || ctx.ancillaryDataLen > 0 then 0 else 1

/-- `spp_get_max_payload_size`. -/
def maxPayloadSize : UInt64 :=
  let result := sppMaxDataLength - ctx.ancillaryDataLen
  if ctx.timecode.isSome then result - ctx.timecodeSize else result

end SppContext

/-! ## The parser -/

/-- `enum spp_parser_state`. -/
inductive SppState where
  | phP1Msb
  | phP1Lsb
  | phP2Msb
  | phP2Lsb
  | phLenMsb
  | phLenLsb
  | shTimecodeSubparser
  | shAncillarySubparser
  | dataSubparser
  deriving DecidableEq

/-- Why the parser does not return. -/
inductive SppFault where
  | assertion
  | timecode (fault : TcFault)
  deriving DecidableEq

/-- `struct spp_parser`, with the context next to it. -/
structure SppParser where
  status : ParserStatus
  bufw : UInt16
  header : SppPrimaryHeader
  state : SppState
  tcParser : TcParser
  dataLength : UInt64
  dtnTimestamp : UInt64

/-- `spp_check_first_byte`. -/
def checkFirstByte (byte : UInt8) : Bool := (byte &&& 0xe0) == 0

namespace SppParser

variable (ctx : SppContext) (parser : SppParser)

/-- `spp_parser_reset`. -/
def reset : SppParser := { parser with status := .good, state := .phP1Msb }

/-- `spp_parse_ph_p1`. -/
def parsePhP1 (word : UInt16) : SppParser :=
  { parser with header := { parser.header with
    hasSecondaryHeader := (word &&& 0x0800) != 0
    isRequest := (word &&& 0x1000) != 0
    apid := word &&& 0x07ff } }

/-- `spp_parse_ph_p2`. -/
def parsePhP2 (word : UInt16) : SppParser :=
  { parser with header := { parser.header with
    segmentStatus := .ofValue ((word &&& 0xc000) >>> 14)
    segmentNumber := word &&& 0x3fff } }

/-- `spp_parse_ph_len`. -/
def parsePhLen (word : UInt16) : SppParser :=
  { parser with header := { parser.header with dataLength := word.toUInt64 + 1 } }

/-- `case SPP_PARSER_STATE_PH_LEN_LSB:`. -/
def parseLenLsb (byte : UInt8) : Bool × SppParser :=
  let parser := { parser with bufw := parser.bufw ||| byte.toUInt16 }
  let parser := parser.parsePhLen parser.bufw
  let parser := { parser with dataLength := parser.header.dataLength - ctx.ancillaryDataLen }
  if !parser.header.hasSecondaryHeader then (false, { parser with state := .dataSubparser })
  else match ctx.timecode with
    | some timecode => (true, { parser with
        state := .shTimecodeSubparser
        tcParser := parser.tcParser.init timecode })
    | none =>
      if ctx.ancillaryDataLen > 0 then (true, { parser with state := .shAncillarySubparser })
      else (false, { parser with state := .dataSubparser })

/-- `case SPP_PARSER_STATE_SH_TIMECODE_SUBPARSER:`. -/
def parseTimecode (byte : UInt8) : Except SppFault (Bool × SppParser) :=
  let parser := { parser with dataLength := parser.dataLength - 1 }
  match parser.tcParser.feed byte with
  | .error fault => .error (.timecode fault)
  | .ok (.good, tcParser) => .ok (true, { parser with tcParser := tcParser })
  | .ok (.error, tcParser) => .ok (false, { parser with tcParser := tcParser })
  | .ok (.done, tcParser) =>
    let parser := { parser with tcParser := tcParser, dtnTimestamp := tcParser.dtnTimestamp }
    if ctx.ancillaryDataLen > 0 then .ok (true, { parser with state := .shAncillarySubparser })
    else .ok (false, { parser with state := .dataSubparser })

/-- `spp_parse_byte`. -/
def parseByte (byte : UInt8) : Except SppFault (Bool × SppParser) :=
  match parser.state with
  | .phP1Msb =>
    if !checkFirstByte byte then .ok (true, { parser.reset with status := .error })
    else .ok (true, { parser with bufw := byte.toUInt16 <<< 8, state := .phP1Lsb })
  | .phP1Lsb =>
    let parser := { parser with bufw := parser.bufw ||| byte.toUInt16 }
    .ok (true, { parser.parsePhP1 parser.bufw with state := .phP2Msb })
  | .phP2Msb => .ok (true, { parser with bufw := byte.toUInt16 <<< 8, state := .phP2Lsb })
  | .phP2Lsb =>
    let parser := { parser with bufw := parser.bufw ||| byte.toUInt16 }
    .ok (true, { parser.parsePhP2 parser.bufw with state := .phLenMsb })
  | .phLenMsb => .ok (true, { parser with bufw := byte.toUInt16 <<< 8, state := .phLenLsb })
  | .phLenLsb => .ok (parser.parseLenLsb ctx byte)
  | .shTimecodeSubparser => parser.parseTimecode ctx byte
  | .shAncillarySubparser => .error .assertion
  | .dataSubparser => .error .assertion

/-- `spp_parser_read`: the number of bytes read. -/
def read (parser : SppParser) : List UInt8 → Except SppFault (Nat × SppParser)
  | [] => .ok (0, parser)
  | byte :: rest => do
    let (more, parser) ← parser.parseByte ctx byte
    if !more then return (1, parser)
    let (count, parser) ← read parser rest
    return (count + 1, parser)

/-- `spp_parser_get_meta`. -/
def getMeta : Option SppMeta :=
  match parser.state with
  | .shAncillarySubparser | .dataSubparser => some
    { apid := parser.header.apid
      isRequest := parser.header.isRequest
      segmentNumber := parser.header.segmentNumber
      segmentStatus := parser.header.segmentStatus
      dtnTimestamp := parser.dtnTimestamp
      dtnCounter := 0 }
  | _ => none

/-- `spp_parser_get_data_length`. -/
def getDataLength : Option UInt64 :=
  match parser.state with
  | .shAncillarySubparser | .dataSubparser => some parser.dataLength
  | _ => none

end SppParser

end Upcn.Spp
