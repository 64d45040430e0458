import Upcn.Tcpclv3.Link

/-!
# The receiving side of an MTCP link

The header parser of `mtcp_proto.c`, and the forwarding and the reset of `cla_mtcp.c`.

What TinyCBOR makes of the header of a byte string is a parameter, as are the two bundle
parsers.
-/

namespace Upcn.Mtcp

open Upcn.Bundle6 (ParserStatus)
open Upcn.Tcpclv3 (Version BundleParser ParserResult)

/-- What TinyCBOR makes of the beginning of a buffer. -/
inductive Header where
  /-- `CborErrorUnexpectedEOF`. -/
  | incomplete
  /-- Another error, or no byte string. -/
  | invalid
  /-- A byte string of this length, behind so many bytes. -/
  | byteString (length consumed : Nat)
  deriving DecidableEq

/-- The link: the MTCP parser, whose status stays good, and the data of the task.
`dataSubparser` is the flag `PARSER_FLAG_DATA_SUBPARSER`, `payloadType` is `none` for
`PAYLOAD_UNKNOWN`, and `curParser` is `none` for the MTCP parser. -/
structure Link (σ β : Type) where
  dataSubparser : Bool
  nextBytes : Nat
  payloadType : Option Version
  curParser : Option Version
  parsers : Version → σ
  delivered : List β

namespace Link

variable {σ β : Type} (P : Version → BundleParser σ β) (header : List UInt8 → Header)

/-- `mtcp_parser_parse`. -/
def mtcpParserParse (l : Link σ β) (buffer : List UInt8) : Link σ β × Nat :=
  match header buffer with
  | .incomplete => (l, 0)
  | .invalid => (l, 1)
  | .byteString length consumed =>
    ({ l with dataSubparser := true, nextBytes := length }, consumed)

/-- `mtcp_parser_reset`. -/
def mtcpParserReset (l : Link σ β) : Link σ β :=
  { l with nextBytes := 0, dataSubparser := false }

/-- `mtcp_reset_parsers`, with `rx_task_reset_parsers`. -/
def resetParsers (l : Link σ β) : Link σ β :=
  { l.mtcpParserReset with
    payloadType := none
    parsers := fun v => (P v).reset (l.parsers v)
    curParser := none }

/-- What a call of a bundle parser leaves in the link. -/
def withResult (l : Link σ β) (v : Version) (result : ParserResult σ β) : Link σ β :=
  { l with
    curParser := some v
    parsers := Function.update l.parsers v result.parser
    delivered := l.delivered ++ result.delivered }

/-- A call of a bundle parser. -/
def callParser (l : Link σ β) (v : Version) (buffer : List UInt8) : Link σ β × Nat :=
  let result := (P v).read (l.parsers v) buffer
  (l.withResult v result, result.consumed)

/-- `select_bundle_parser_version`. -/
def selectBundleParserVersion (l : Link σ β) : List UInt8 → Link σ β × Nat
  | [] => (l, 0)
  | byte :: buffer =>
    match Tcpclv3.Link.versionOf byte with
    | none => (l, 0)
    | some v => callParser P { l with payloadType := some v } v (byte :: buffer)

/-- `next_bytes` is counted down, and with the last byte of the byte string everything is
reset. -/
def countDown (l : Link σ β) (consumed : Nat) : Link σ β :=
  let l := { l with nextBytes := l.nextBytes - consumed }
  if l.nextBytes = 0 then l.resetParsers P else l

/-- `mtcp_forward_to_specific_parser` with a buffer. -/
def forwardToSpecificParser (l : Link σ β) (buffer : List UInt8) : Link σ β × Nat :=
  if !l.dataSubparser then l.mtcpParserParse header buffer
  else
    let buffer := buffer.take l.nextBytes
    match l.payloadType with
    | none =>
      let (l, result) := l.selectBundleParserVersion P buffer
      let l := if result = 0 then l.resetParsers P else l
      (l.countDown P result, result)
    | some v =>
      let (l, result) := l.callParser P v buffer
      (l.countDown P result, result)

/-- The same with `NULL`, after the bulk was read.  A bulk is requested by a bundle parser,
so that the header is parsed. -/
def forwardBulk (l : Link σ β) (data : List UInt8) : Link σ β :=
  if !l.dataSubparser then l
  else
    match l.payloadType with
    | none => (l.resetParsers P).countDown P 0
    | some v => (l.withResult v ((P v).readBulk (l.parsers v) data)).countDown P 0

/-- `cur_parser->status`. -/
def curStatus (l : Link σ β) : ParserStatus :=
  match l.curParser with
  | none => .good
  | some v => (P v).status (l.parsers v)

/-- The bulk that `cur_parser` requests. -/
def curBulk (l : Link σ β) : Option Nat :=
  match l.curParser with
  | none => none
  | some v => (P v).bulkRead (l.parsers v)

end Link

/-- The link when the task starts. -/
def Link.initial {σ β : Type} (parsers : Version → σ) : Link σ β :=
  ⟨false, 0, none, none, parsers, []⟩

end Upcn.Mtcp
