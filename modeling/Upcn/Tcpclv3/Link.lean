import Upcn.Bundle6.Parser
import Mathlib.Logic.Function.Basic

/-!
# The receiving side of a TCPCLv3 link

The frame parser of `cla_tcpclv3_proto.c`, the forwarding and the reset of
`cla_tcpclv3.c`, and the two kinds of turns of `cla_contact_rx_task.c`.

The link is established, so that its parsers exist.  The two bundle parsers are taken as
they are seen from here: `BundleParser` is their interface, and `deliver` of a call is
what it passes to `send_callback`.
-/

namespace Upcn.Tcpclv3

open Upcn.Bundle6 (ParserStatus SdnvState sdnvReadU32)

/-! ## The bundle parsers -/

/-- What a call of a bundle parser leaves: the parser, the number of bytes that it has
consumed, and the bundles that it has delivered. -/
structure ParserResult (σ β : Type) where
  parser : σ
  consumed : Nat
  delivered : List β

/-- A bundle parser with its `struct parser`. -/
structure BundleParser (σ β : Type) where
  status : σ → ParserStatus
  /-- `next_bytes`, if the flag `BULK_READ` is set. -/
  bulkRead : σ → Option Nat
  reset : σ → σ
  /-- A call with a buffer. -/
  read : σ → List UInt8 → ParserResult σ β
  /-- The flag is cleared, and the parser is called with `NULL`, after these bytes were
  written to `next_buffer`. -/
  readBulk : σ → List UInt8 → ParserResult σ β

/-- The two versions of the protocol. -/
inductive Version where
  | bundle6
  | bundle7
  deriving DecidableEq

/-! ## The link -/

/-- `enum tcpclv3_parser_stage`. -/
inductive Stage where
  | expectTypeFlags
  | getSize
  | forwardBundle
  deriving DecidableEq

/-- `enum tcpclv3_type`. -/
inductive SegmentType where
  | undefined
  | dataSegment
  deriving DecidableEq

/-- The link: the frame parser, the data of the task, and the bundles that were
delivered.  `payloadType` is `none` for `PAYLOAD_UNKNOWN`, and `curParser` is `none` for
the frame parser. -/
structure Link (σ β : Type) where
  status : ParserStatus
  stage : Stage
  type : SegmentType
  sdnvState : SdnvState
  fragmentSize : Nat
  payloadType : Option Version
  curParser : Option Version
  parsers : Version → σ
  buffer : List UInt8
  delivered : List β

/-- `CLA_RX_BUFFER_SIZE`. -/
def claRxBufferSize : Nat := 64

/-- The type byte of a data segment that is a whole bundle. -/
def startsSegment (byte : UInt8) : Bool :=
  byte.toNat / 2 ^ 4 = 1 ∧ byte.toNat.testBit 1 ∧ byte.toNat.testBit 0

namespace Link

variable {σ β : Type} (P : Version → BundleParser σ β)

/-! ## The frame parser -/

/-- `tcpclv3_parser_reset`. -/
def tcpclv3ParserReset (l : Link σ β) : Link σ β :=
  { l with status := .good, stage := .expectTypeFlags, type := .undefined }

/-- `tcpclv3_parser_read_byte`. -/
def tcpclv3ParserReadByte (l : Link σ β) (byte : UInt8) : Link σ β :=
  match l.stage with
  | .expectTypeFlags =>
    if startsSegment byte then { l with type := .dataSegment, stage := .getSize }
    else { l with status := .error }.tcpclv3ParserReset
  | .getSize =>
    let (sdnvState, value) := sdnvReadU32 l.sdnvState l.fragmentSize byte
    let l := { l with sdnvState := sdnvState, fragmentSize := value }
    match sdnvState.status with
    | .inProgress => l
    | .done =>
      let l := if l.type = .dataSegment then { l with stage := .forwardBundle }
        else { l with status := .error }.tcpclv3ParserReset
      { l with sdnvState := .reset }
    | .error => { l with sdnvState := .reset, status := .error }
  | .forwardBundle => { l with status := .error }

/-- `tcpclv3_parser_read`: the link, and the number of bytes that were consumed. -/
def tcpclv3ParserRead (l : Link σ β) : List UInt8 → Link σ β × Nat
  | [] => (l, 0)
  | byte :: buffer =>
    if l.status = .good ∧ l.stage ≠ .forwardBundle then
      let (l, consumed) := tcpclv3ParserRead (l.tcpclv3ParserReadByte byte) buffer
      (l, consumed + 1)
    else (l, 0)

/-! ## Forwarding -/

/-- `tcpclv3_reset_parsers`, with `rx_task_reset_parsers`. -/
def resetParsers (l : Link σ β) : Link σ β :=
  { l.tcpclv3ParserReset with
    payloadType := none
    parsers := fun v => (P v).reset (l.parsers v)
    curParser := none }

/-- What a call of a bundle parser leaves in the link. -/
def withResult (l : Link σ β) (v : Version) (result : ParserResult σ β) : Link σ β :=
  { l with
    curParser := some v
    parsers := Function.update l.parsers v result.parser
    delivered := l.delivered ++ result.delivered }

/-- A call of a bundle parser. -/
def callParser (l : Link σ β) (v : Version) (buffer : List UInt8) : Link σ β × Nat :=
  let result := (P v).read (l.parsers v) buffer
  (l.withResult v result, result.consumed)

/-- The version that the first byte of a bundle says. -/
def versionOf (byte : UInt8) : Option Version :=
  if byte = 6 then some .bundle6
  else if byte = 0x9f then some .bundle7
  else none

/-- `select_bundle_parser_version`. -/
def selectBundleParserVersion (l : Link σ β) : List UInt8 → Link σ β × Nat
  | [] => (l, 0)
  | byte :: buffer =>
    match versionOf byte with
    | none => (l, 0)
    | some v => callParser P { l with payloadType := some v } v (byte :: buffer)

/-- `fragment_size` is counted down, and with the last byte of the segment everything is
reset. -/
def countDown (l : Link σ β) (consumed : Nat) : Link σ β :=
  let l := { l with fragmentSize := l.fragmentSize - consumed }
  if l.fragmentSize = 0 then l.resetParsers P else l

/-- `tcpclv3_forward_to_specific_parser` with a buffer. -/
def forwardToSpecificParser (l : Link σ β) (buffer : List UInt8) : Link σ β × Nat :=
  if l.stage ≠ .forwardBundle then l.tcpclv3ParserRead buffer
  else
    let buffer := buffer.take l.fragmentSize
    match l.payloadType with
    | none =>
      let (l, result) := l.selectBundleParserVersion P buffer
      let l := if result = 0 then l.resetParsers P else l
      (l.countDown P result, result)
    | some v =>
      let (l, result) := l.callParser P v buffer
      (l.countDown P result, result)

/-- The same with `NULL`, after the bulk was read. -/
def forwardBulk (l : Link σ β) (data : List UInt8) : Link σ β :=
  if l.stage ≠ .forwardBundle then l
  else
    match l.payloadType with
    | none => (l.resetParsers P).countDown P 0
    | some v => (l.withResult v ((P v).readBulk (l.parsers v) data)).countDown P 0

/-! ## The turns of the task -/

/-- `cur_parser->status`. -/
def curStatus (l : Link σ β) : ParserStatus :=
  match l.curParser with
  | none => l.status
  | some v => (P v).status (l.parsers v)

/-- The bulk that `cur_parser` requests. -/
def curBulk (l : Link σ β) : Option Nat :=
  match l.curParser with
  | none => none
  | some v => (P v).bulkRead (l.parsers v)

/-- The loop of `chunk_read`, for so many turns: the link, and what is left of the
buffer. -/
def chunkLoop : Nat → Link σ β → List UInt8 → Link σ β × List UInt8
  | 0, l, stream => (l, stream)
  | turns + 1, l, stream =>
    if stream = [] then (l, stream)
    else
      let (l, parsed) := l.forwardToSpecificParser P stream
      let stream := stream.drop parsed
      if l.curStatus P ≠ .good then chunkLoop turns (l.resetParsers P) stream
      else if (l.curBulk P).isSome then (l, stream)
      else if parsed = 0 then (l, stream)
      else chunkLoop turns l stream

/-- What `cla_contact_rx_task` does with the rest of the buffer. -/
def shift (l : Link σ β) (rest : List UInt8) : Link σ β :=
  if rest.length = claRxBufferSize then { l.resetParsers P with buffer := [] }
  else { l with buffer := rest }

/-- A turn with `chunk_read`, which reads `piece`.  A call consumes a byte, or resets the
parsers, or is the last one. -/
def chunkRead (l : Link σ β) (piece : List UInt8) : Link σ β :=
  let stream := l.buffer ++ piece
  let (l, rest) := chunkLoop P (2 * stream.length + 1) l stream
  l.shift P rest

/-- A turn with `bulk_read`, which reads `piece` when the buffer does not have the `n`
bytes that are requested. -/
def bulkRead (l : Link σ β) (n : Nat) (piece : List UInt8) : Link σ β :=
  let rest := l.buffer.drop n
  let l := l.forwardBulk P ((l.buffer ++ piece).take n)
  let l := if l.curStatus P ≠ .good then l.resetParsers P else l
  l.shift P rest

end Link

/-- A turn of the task, and the bytes of the stream that it has not read. -/
inductive Turn {σ β : Type} (P : Version → BundleParser σ β) :
    Link σ β × List UInt8 → Link σ β × List UInt8 → Prop where
  | chunk {l : Link σ β} {piece rest : List UInt8} (hbulk : l.curBulk P = none)
      (hpiece : piece ≠ []) (hroom : piece.length ≤ claRxBufferSize - l.buffer.length) :
      Turn P (l, piece ++ rest) (l.chunkRead P piece, rest)
  | bulk {l : Link σ β} {n : Nat} {piece rest : List UInt8} (hbulk : l.curBulk P = some n)
      (hpiece : piece.length = n - l.buffer.length) :
      Turn P (l, piece ++ rest) (l.bulkRead P n piece, rest)

/-- The link when the task starts. -/
def Link.initial {σ β : Type} (parsers : Version → σ) : Link σ β :=
  ⟨.good, .expectTypeFlags, .undefined, .reset, 0, none, none, parsers, [], []⟩

end Upcn.Tcpclv3
