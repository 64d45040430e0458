import Upcn.Spp.Packet
import Upcn.Tcpclv3.Link

/-!
# The receiving side of a TCPSPP link

The space packet parser of `spp_parser.c`, and the forwarding and the reset of
`cla_tcpspp.c`.

The timecode parser of `spp_timecodes.c` and the two bundle parsers are parameters.  Of what
the space packet parser reads, the link keeps what decides how it goes on: with the timecode parser
of `Upcn.Spp` it is `SppParser.read` (`withParser_sppParserRead`).
-/

namespace Upcn.Tcpspp

open Upcn.Bundle6 (ParserStatus)
open Upcn.Spp (SppState TcStatus)
open Upcn.Tcpclv3 (Version BundleParser ParserResult)

/-- `struct spp_context_t`, with the parser of the timecode: `timecode` is
`spp_tc_parser_init`, if there is a timecode, and `feed` is `spp_tc_parser_feed`. -/
structure SppContext (τ : Type) where
  ancillaryDataLen : UInt64
  timecode : Option (τ → τ)
  feed : τ → UInt8 → τ × TcStatus

/-- `enum cla_tcpspp_payload_type`. -/
inductive PayloadType where
  | data
  | crc16
  deriving DecidableEq

/-- What `cur_parser` points to. -/
inductive CurParser where
  | spp
  | crc
  | bundle (v : Version)
  deriving DecidableEq

/-- The link: the space packet parser, the parser that skips the CRC, and the data of the
task. -/
structure Link (τ σ β : Type) where
  sppStatus : ParserStatus
  sppState : SppState
  bufw : UInt16
  hasSecondaryHeader : Bool
  dataLength : UInt64
  tcParser : τ
  crcStatus : ParserStatus
  crcCtr : Nat
  payloadType : Option Version
  tcpsppPayloadType : PayloadType
  curParser : CurParser
  parsers : Version → σ
  delivered : List β

namespace Link

variable {τ σ β : Type} (ctx : SppContext τ) (P : Version → BundleParser σ β)

/-! ## The space packet parser -/

/-- `spp_parser_reset`. -/
def sppParserReset (l : Link τ σ β) : Link τ σ β :=
  { l with sppStatus := .good, sppState := .phP1Msb }

/-- What follows the timecode, or the length when there is none. -/
def behindTimecode (l : Link τ σ β) : Link τ σ β × Bool :=
  if 0 < ctx.ancillaryDataLen then ({ l with sppState := .shAncillarySubparser }, true)
  else ({ l with sppState := .dataSubparser }, false)

/-- `spp_parse_byte`, and whether it goes on.  The last two states are not to be reached. -/
def sppParseByte (l : Link τ σ β) (byte : UInt8) : Link τ σ β × Bool :=
  match l.sppState with
  | .phP1Msb =>
    if !Spp.checkFirstByte byte then ({ l.sppParserReset with sppStatus := .error }, true)
    else ({ l with bufw := byte.toUInt16 <<< 8, sppState := .phP1Lsb }, true)
  | .phP1Lsb =>
    let bufw := l.bufw ||| byte.toUInt16
    ({ l with bufw := bufw, hasSecondaryHeader := (bufw &&& 0x0800) != 0, sppState := .phP2Msb },
      true)
  | .phP2Msb => ({ l with bufw := byte.toUInt16 <<< 8, sppState := .phP2Lsb }, true)
  | .phP2Lsb => ({ l with bufw := l.bufw ||| byte.toUInt16, sppState := .phLenMsb }, true)
  | .phLenMsb => ({ l with bufw := byte.toUInt16 <<< 8, sppState := .phLenLsb }, true)
  | .phLenLsb =>
    let bufw := l.bufw ||| byte.toUInt16
    let l := { l with
      bufw := bufw
      dataLength := bufw.toUInt64 + 1 - ctx.ancillaryDataLen }
    if !l.hasSecondaryHeader then ({ l with sppState := .dataSubparser }, false)
    else
      match ctx.timecode with
      | some init =>
        ({ l with sppState := .shTimecodeSubparser, tcParser := init l.tcParser }, true)
      | none => l.behindTimecode ctx
  | .shTimecodeSubparser =>
    let (tcParser, status) := ctx.feed l.tcParser byte
    let l := { l with
      dataLength := l.dataLength - 1
      tcParser := tcParser }
    match status with
    | .good => (l, true)
    | .error => (l, false)
    | .done => l.behindTimecode ctx
  | .shAncillarySubparser => (l, true)
  | .dataSubparser => (l, true)

/-- `spp_parser_read`. -/
def sppParserRead (l : Link τ σ β) : List UInt8 → Link τ σ β × Nat
  | [] => (l, 0)
  | byte :: buffer =>
    match l.sppParseByte ctx byte with
    | (l, false) => (l, 1)
    | (l, true) => ((sppParserRead l buffer).1, (sppParserRead l buffer).2 + 1)

/-! ## Forwarding -/

/-- `crc16_parser_init`. -/
def crc16ParserInit (l : Link τ σ β) : Link τ σ β :=
  { l with crcStatus := .good, crcCtr := 0, curParser := .crc }

/-- `crc16_parser_read`, where `remaining` is an `unsigned int`. -/
def crc16ParserRead (l : Link τ σ β) (buffer : List UInt8) : Link τ σ β × Nat :=
  let consumed := min buffer.length ((2 + 2 ^ 32 - l.crcCtr % 2 ^ 32) % 2 ^ 32)
  let crcCtr := l.crcCtr + consumed
  ({ l with crcCtr := crcCtr, crcStatus := if 2 ≤ crcCtr then .done else l.crcStatus }, consumed)

/-- `tcpspp_reset_parsers`, with `rx_task_reset_parsers`. -/
def resetParsers (l : Link τ σ β) : Link τ σ β :=
  { l.sppParserReset with
    payloadType := none
    parsers := fun v => (P v).reset (l.parsers v)
    tcpsppPayloadType := .data
    curParser := .spp }

/-- What a call of a bundle parser leaves in the link. -/
def withResult (l : Link τ σ β) (v : Version) (result : ParserResult σ β) : Link τ σ β :=
  { l with
    curParser := .bundle v
    parsers := Function.update l.parsers v result.parser
    delivered := l.delivered ++ result.delivered }

/-- A call of a bundle parser. -/
def callParser (l : Link τ σ β) (v : Version) (buffer : List UInt8) : Link τ σ β × Nat :=
  let result := (P v).read (l.parsers v) buffer
  (l.withResult v result, result.consumed)

/-- `select_bundle_parser_version`. -/
def selectBundleParserVersion (l : Link τ σ β) : List UInt8 → Link τ σ β × Nat
  | [] => (l, 0)
  | byte :: buffer =>
    match Tcpclv3.Link.versionOf byte with
    | none => (l, 0)
    | some v => callParser P { l with payloadType := some v } v (byte :: buffer)

/-- `cur_parser->status`. -/
def curStatus (l : Link τ σ β) : ParserStatus :=
  match l.curParser with
  | .spp => l.sppStatus
  | .crc => l.crcStatus
  | .bundle v => (P v).status (l.parsers v)

/-- The bulk that `cur_parser` requests. -/
def curBulk (l : Link τ σ β) : Option Nat :=
  match l.curParser with
  | .bundle v => (P v).bulkRead (l.parsers v)
  | _ => none

/-- The CRC is read behind a bundle that is done. -/
def expectCrc (l : Link τ σ β) : Link τ σ β :=
  match l.curParser with
  | .bundle _ =>
    if l.curStatus P = .done then
      { l with tcpsppPayloadType := .crc16, payloadType := none }.crc16ParserInit
    else l
  | _ => l

/-- The payload that is no bundle yet. -/
def forwardUnknown (l : Link τ σ β) (buffer : List UInt8) : Link τ σ β × Nat :=
  match l.tcpsppPayloadType with
  | .data =>
    let (l, result) := l.selectBundleParserVersion P buffer
    (if result = 0 then l.resetParsers P else l, result)
  | .crc16 =>
    let (l, result) := l.crc16ParserRead buffer
    (if l.curStatus P = .done then { l with tcpsppPayloadType := .data } else l, result)

/-- `tcpspp_forward_to_specific_parser` with a buffer. -/
def forwardToSpecificParser (l : Link τ σ β) (buffer : List UInt8) : Link τ σ β × Nat :=
  if l.sppState ≠ .dataSubparser then l.sppParserRead ctx buffer
  else
    let (l, result) :=
      match l.payloadType with
      | none => l.forwardUnknown P buffer
      | some v => l.callParser P v buffer
    (l.expectCrc P, result)

/-- The same with `NULL`, after the bulk was read. -/
def forwardBulk (l : Link τ σ β) (data : List UInt8) : Link τ σ β :=
  if l.sppState ≠ .dataSubparser then l
  else
    match l.payloadType with
    | none => (l.forwardUnknown P []).1.expectCrc P
    | some v => (l.withResult v ((P v).readBulk (l.parsers v) data)).expectCrc P

end Link

end Upcn.Tcpspp
