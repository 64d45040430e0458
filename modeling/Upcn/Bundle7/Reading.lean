import Upcn.Bundle7.EidParser
import Upcn.Bundle7.Parser
import Upcn.Crc
import Upcn.Lib.CborStream

/-!
# What the BPv7 parser reads

`bundle7/parser.c` with the data of the bundle, over a decoder that copies strings.  Allocations
succeed here, and there is a callback; who owns the strings, and what happens when there is no
memory, is in `Bundle7Parser`.

A CRC stream is the list of the bytes that were fed to it, and `checksums` are the two CRCs.
-/

namespace Upcn.Bundle7

open Cbor
open Upcn.Bundle7Parser (Stage Status Loop Round illegalUnless)

/-- `crc16_x25` and `crc32`. -/
def checksums : Checksums where
  crc16 bytes := (Crc.crc16X25 bytes).toNat
  crc32 bytes := (Crc.crc32 bytes).toNat

/-- `struct bundle7_parser`.  `block` is the current block, which is the last one of the list, and
`fed` what both CRC streams were fed. -/
structure Parser where
  status : Status
  bulkRead : Bool
  crcInvalid : Bool
  nextBytes : Nat
  parse : Stage
  next : Option Stage
  crcFeed : Bool
  fed : List UInt8
  bundleSize : Nat
  bundleQuota : Nat
  bundle : Bundle
  block : Block
  delivered : List Bundle

namespace Parser

variable (cbor : DataDecoder)

/-- What a parse function leaves of the parser, and what it returns. -/
abbrev Parsed := Parser × Except CborError cbor.Value

/-! ## Endpoints -/

/-- `eid_parse_dtn`. -/
def eidParseDtn (it : cbor.Value) : Except CborError (List UInt8 × cbor.Value) :=
  if cbor.isUnsignedInteger it then
    if cbor.getUint64 it ≠ 0 then .error .illegalType
    else .ok (dtnNone, (cbor.advanceFixed it).2)
  else if !cbor.isTextString it then .error .illegalType
  else
    match cbor.getStringLength it with
    | .error err => .error err
    | .ok length =>
      if cbor.remaining it < length then .error .unexpectedEOF
      else (cbor.copyTextString it).map fun next =>
        (cString (dtnPrefix ++ cbor.copiedText it), next)

/-- `eid_parse_ipn`. -/
def eidParseIpn (it : cbor.Value) : Except CborError (List UInt8 × cbor.Value) := do
  illegalUnless (cbor.isArray it && cbor.isLengthKnown it)
  let node ← cbor.enterContainer it
  illegalUnless (cbor.isUnsignedInteger node)
  let service ← cbor.advance node
  illegalUnless (cbor.isUnsignedInteger service)
  let ended ← cbor.advance service
  illegalUnless (cbor.atEnd ended)
  let next ← cbor.leaveContainer it ended
  return (ipnText (cbor.getUint64 node).toNat (cbor.getUint64 service).toNat, next)

/-- The parsing function of the scheme. -/
def eidParseSsp (schema : UInt64) (it : cbor.Value) : Except CborError (List UInt8 × cbor.Value) :=
  if schema = 1 then eidParseDtn cbor it
  else if schema = 2 then eidParseIpn cbor it
  else .error .illegalType

/-- `bundle7_eid_parse_cbor`. -/
def bundle7EidParseCbor (it : cbor.Value) : Except CborError (List UInt8 × cbor.Value) := do
  illegalUnless (cbor.isArray it && cbor.isLengthKnown it)
  match cbor.getArrayLength it with
  | .error _ => throw .illegalType
  | .ok length => illegalUnless (length = 2)
  let schema ← cbor.enterContainer it
  illegalUnless (cbor.isUnsignedInteger schema)
  let ssp ← cbor.advance schema
  let (eid, ended) ← eidParseSsp cbor (cbor.getUint64 schema) ssp
  let next ← cbor.leaveContainer it ended
  return (eid, next)

/-- `parse_eid`, with the field of the bundle. -/
def parseEid (set : Bundle → List UInt8 → Bundle) (next : Stage) (p : Parser) (it : cbor.Value) :
    Parsed cbor :=
  match bundle7EidParseCbor cbor it with
  | .error err => (p, .error err)
  | .ok (eid, it) => ({ p with bundle := set p.bundle eid, next := some next }, .ok it)

/-! ## Arrays -/

/-- `bundle_start`. -/
def bundleStart (p : Parser) (it : cbor.Value) : Parsed cbor :=
  if !cbor.isArray it || cbor.isLengthKnown it then (p, .error .illegalType)
  else ({ p with next := some .primaryBlockStart }, cbor.enterContainer it)

/-- `primary_block_start`. -/
def primaryBlockStart (p : Parser) (it : cbor.Value) : Parsed cbor :=
  if !cbor.isArray it || !cbor.isLengthKnown it then (p, .error .illegalType)
  else
    ({ p with crcFeed := true, fed := [], next := some .protocolVersion }, cbor.enterContainer it)

/-- `block_start`. -/
def blockStart (p : Parser) (it : cbor.Value) : Parsed cbor :=
  if !cbor.isArray it then (p, .error .illegalType)
  else ({ p with crcFeed := true, fed := [], next := some .blockType }, cbor.enterContainer it)

/-! ## Numbers -/

/-- The parse functions of a number, with what they make of it and of the number of its bytes. -/
def parseNumber (record : UInt64 → Nat → Parser → Parser × Option CborError) (p : Parser)
    (it : cbor.Value) : Parsed cbor :=
  if !cbor.isUnsignedInteger it then (p, .error .illegalType)
  else
    let count := cbor.nextByte (cbor.advanceFixed it).2 - cbor.nextByte it
    match record (cbor.getUint64 it) count p with
    | (p, some err) => (p, .error err)
    | (p, none) => (p, cbor.advance it)

/-- `protocol_version`. -/
def protocolVersion (version : UInt64) (_ : Nat) (p : Parser) : Parser × Option CborError :=
  ({ p with
    bundle := { p.bundle with protocolVersion := version.toNat % 2 ^ 8 }
    next := some .primaryProcFlags }, none)

/-- `primary_proc_flags`. -/
def primaryProcFlags (flags : UInt64) (_ : Nat) (p : Parser) : Parser × Option CborError :=
  ({ p with
    bundle := { p.bundle with procFlags := flags.toNat % 2 ^ 32 &&& bpV7Flags }
    next := some .crcType }, none)

/-- `crc_type`. -/
def crcType (type : UInt64) (_ : Nat) (p : Parser) : Parser × Option CborError :=
  if 2 < type then (p, some .illegalType)
  else
    ({ p with
      bundle := { p.bundle with crcType := type.toNat }
      crcFeed := p.crcFeed && type ≠ 0
      next := some .destinationEid }, none)

/-- What follows the last number of the primary block, which has so many bytes. -/
def behindNumbers (count : Nat) (p : Parser) : Parser :=
  if p.bundle.crcType ≠ crcTypeNone then { p with next := some .primaryBlockCrc }
  else
    { p with
      bundle := { p.bundle with primaryBlockLength := (p.bundleSize - 1 + count) % 2 ^ 16 }
      next := some .blockStart }

/-- `lifetime`. -/
def lifetime (value : UInt64) (count : Nat) (p : Parser) : Parser × Option CborError :=
  let p := { p with bundle := { p.bundle with lifetime := value.toNat } }
  (if p.bundle.isFragmented then { p with next := some .fragmentOffset } else p.behindNumbers count,
    none)

/-- `fragment_offset`. -/
def fragmentOffset (offset : UInt64) (_ : Nat) (p : Parser) : Parser × Option CborError :=
  ({ p with
    bundle := { p.bundle with fragmentOffset := offset.toNat % 2 ^ 32 }
    next := some .totalAduLength }, none)

/-- `total_adu_length`. -/
def totalAduLength (length : UInt64) (count : Nat) (p : Parser) : Parser × Option CborError :=
  (behindNumbers count
    { p with bundle := { p.bundle with totalAduLength := length.toNat % 2 ^ 32 } }, none)

/-- `bundle_block_create`. -/
def bundleBlockCreate (type : Nat) : Block where
  type := type
  number := if type = 1 then 1 else 0
  flags := 0
  crcType := crcTypeNone
  length := 0
  data := []

/-- `block_type`. -/
def blockType (type : UInt64) (_ : Nat) (p : Parser) : Parser × Option CborError :=
  ({ p with block := bundleBlockCreate (type.toNat % 2 ^ 32), next := some .blockNumber }, none)

/-- `block_number`. -/
def blockNumber (number : UInt64) (_ : Nat) (p : Parser) : Parser × Option CborError :=
  ({ p with
    block := { p.block with number := number.toNat % 2 ^ 8 }
    next := some .blockProcFlags }, none)

/-- `block_proc_flags`. -/
def blockProcFlags (flags : UInt64) (_ : Nat) (p : Parser) : Parser × Option CborError :=
  ({ p with
    block := { p.block with flags := flags.toNat % 2 ^ 8 &&& (0x01 ||| 0x10 ||| 0x02 ||| 0x04) }
    next := some .blockCrcType }, none)

/-- `block_crc_type`. -/
def blockCrcType (type : UInt64) (_ : Nat) (p : Parser) : Parser × Option CborError :=
  ({ p with
    block := { p.block with crcType := type.toNat % 2 ^ 32 }
    crcFeed := p.crcFeed && type ≠ 0
    next := some .blockData }, none)

/-- `bundle7_timestamp_parse`, which sets each number when it is read. -/
def bundle7TimestampParse (b : Bundle) (it : cbor.Value) : Bundle × Except CborError cbor.Value :=
  if !cbor.isArray it then (b, .error .illegalType)
  else
    match cbor.enterContainer it with
    | .error err => (b, .error err)
    | .ok time =>
      if !cbor.isUnsignedInteger time then (b, .error .illegalType)
      else
        let b := { b with creationTimestamp := (cbor.getUint64 time).toNat }
        match cbor.advance time with
        | .error err => (b, .error err)
        | .ok sequence =>
          if !cbor.isUnsignedInteger sequence then (b, .error .illegalType)
          else
            let b := { b with sequenceNumber := (cbor.getUint64 sequence).toNat }
            match cbor.advance sequence with
            | .error err => (b, .error err)
            | .ok ended =>
              if !cbor.atEnd ended then (b, .error .illegalType)
              else (b, cbor.leaveContainer it ended)

/-- `creation_timestamp`. -/
def creationTimestamp (p : Parser) (it : cbor.Value) : Parsed cbor :=
  match bundle7TimestampParse cbor p.bundle it with
  | (b, .error err) => ({ p with bundle := b }, .error err)
  | (b, .ok it) => ({ p with bundle := b, next := some .lifetime }, .ok it)

/-! ## Checksums -/

/-- Whether the checksum is that of the bytes, in a block of this CRC type.  Every type but
CRC-16 is read as CRC-32. -/
def crcVerify (crcType : Nat) (fed checksum : List UInt8) (length : Nat) :
    Except CborError Bool :=
  if crcType = crcType16 then
    if length ≠ 2 then .error .illegalType
    else .ok (checksums.crc16 (fed ++ [0x42, 0, 0]) == ofBigEndian (checksum.take 2))
  else
    if length ≠ 4 then .error .illegalType
    else .ok (checksums.crc32 (fed ++ [0x44, 0, 0, 0, 0]) == ofBigEndian (checksum.take 4))

/-- `primary_block_crc`. -/
def primaryBlockCrc (p : Parser) (it : cbor.Value) : Parsed cbor :=
  if !cbor.isByteString it then (p, .error .illegalType)
  else
    match cbor.copyByteString it 4 with
    | .error err => (p, .error err)
    | .ok (length, next) =>
      let p := { p with crcFeed := false }
      match crcVerify p.bundle.crcType p.fed (cbor.copiedBytes it) length with
      | .error err => (p, .error err)
      | .ok fits =>
        let count := if p.bundle.crcType = crcType16 then 3 else 5
        ({ p with
          crcInvalid := p.crcInvalid || !fits
          bundle := { p.bundle with primaryBlockLength := (p.bundleSize - 1 + count) % 2 ^ 16 }
          next := some .blockStart }, .ok next)

/-- `block_end`. -/
def blockEnd (p : Parser) : Parser :=
  let following := if p.block.type = 1 then .bundleEnd else .blockStart
  { p with
    bundle := { p.bundle with blocks := p.bundle.blocks ++ [p.block] }
    parse := following
    next := some following }

/-- `block_crc`. -/
def blockCrc (p : Parser) (it : cbor.Value) : Parsed cbor :=
  if !cbor.isByteString it then (p, .error .illegalType)
  else
    let p := { p with crcFeed := false }
    match cbor.copyByteString it 4 with
    | .error err => (p, .error err)
    | .ok (length, next) =>
      match crcVerify p.block.crcType (p.fed ++ p.block.data) (cbor.copiedBytes it) length with
      | .error err => (p, .error err)
      | .ok fits => (blockEnd { p with crcInvalid := p.crcInvalid || !fits }, .ok next)

/-! ## Data -/

/-- `block_data`, which does not look at what moving the iterator returns. -/
def blockData (p : Parser) (it : cbor.Value) : Parsed cbor :=
  if !cbor.isByteString it then (p, .error .illegalType)
  else
    match cbor.getStringLength it with
    | .error err => (p, .error err)
    | .ok length =>
      ({ p with
        crcFeed := true
        block := { p.block with length := length % 2 ^ 32, data := [] }
        nextBytes := length
        bulkRead := true
        bundleSize := p.bundleSize + length
        next := some (if p.block.crcType ≠ crcTypeNone then .blockCrc else .blockEnd) },
        .ok (cbor.advanceFixed (cbor.asInteger it)).2)

/-- The data of the block were read, by the parser or its caller. -/
def bulkDone (data : List UInt8) (p : Parser) : Parser :=
  let p := { p with bulkRead := false, block := { p.block with data := data } }
  if p.parse = .blockEnd then p.blockEnd else p

/-- `bundle_end`. -/
def bundleEnd (p : Parser) (it : cbor.Value) : Parsed cbor :=
  if cbor.byteAt it ≠ 0xff then (p, .error .illegalType)
  else
    ({ p with
      status := .done
      delivered := if p.crcInvalid then p.delivered else p.delivered ++ [p.bundle] },
      .ok (cbor.skipByte it))

/-- `state->parse(state, &it)`. -/
def parseStage (p : Parser) (it : cbor.Value) : Parsed cbor :=
  match p.parse with
  | .bundleStart => bundleStart cbor p it
  | .primaryBlockStart => primaryBlockStart cbor p it
  | .protocolVersion => parseNumber cbor protocolVersion p it
  | .primaryProcFlags => parseNumber cbor primaryProcFlags p it
  | .crcType => parseNumber cbor crcType p it
  | .destinationEid => parseEid cbor (fun b eid => { b with destination := eid }) .sourceEid p it
  | .sourceEid => parseEid cbor (fun b eid => { b with source := eid }) .reportToEid p it
  | .reportToEid => parseEid cbor (fun b eid => { b with reportTo := eid }) .creationTimestamp p it
  | .creationTimestamp => creationTimestamp cbor p it
  | .lifetime => parseNumber cbor lifetime p it
  | .fragmentOffset => parseNumber cbor fragmentOffset p it
  | .totalAduLength => parseNumber cbor totalAduLength p it
  | .primaryBlockCrc => primaryBlockCrc cbor p it
  | .blockStart => blockStart cbor p it
  | .blockType => parseNumber cbor blockType p it
  | .blockNumber => parseNumber cbor blockNumber p it
  | .blockProcFlags => parseNumber cbor blockProcFlags p it
  | .blockCrcType => parseNumber cbor blockCrcType p it
  | .blockCrc => blockCrc cbor p it
  | .blockData => blockData cbor p it
  | .blockEnd => (p.blockEnd, .ok it)
  | .bundleEnd => bundleEnd cbor p it

/-! ## The read loop -/

/-- `FAIL`. -/
def fail (p : Parser) : Parser := { p with status := .error }

/-- What an error of the decoder makes of the parser. -/
def failed (p : Parser) (err : CborError) : Parser :=
  if err = .unexpectedEOF then p else p.fail

/-- The transition to the next stage behind these bytes, if the bundle is not too large. -/
def behind (bytes : List UInt8) (p : Parser) : Parser :=
  let p := { p with bundleSize := p.bundleSize + bytes.length }
  if p.bundleQuota < p.bundleSize then p.fail
  else
    { p with
      fed := if p.crcFeed then p.fed ++ bytes else p.fed
      parse := p.next.getD p.parse }

/-- What follows a parse function. -/
def transition (l : Loop cbor.toDecoder) : Parsed cbor → Parser × Round cbor.toDecoder
  | (p, .error err) => (p.failed err, .returned l.parsed)
  | (p, .ok it) =>
    let newParsed := cbor.nextByte it
    let p := p.behind ((l.buffer.drop l.parsed).take (newParsed - l.parsed))
    if p.status = .error then (p, .returned l.parsed)
    else
      (p, .again { l with parsed := newParsed, it := if cbor.atEnd it then none else some it })

/-- A round of the loop of `bundle7_parser_read`. -/
def readRound (p : Parser) (l : Loop cbor.toDecoder) : Parser × Round cbor.toDecoder :=
  if ¬ (l.parsed < l.buffer.length ∧ p.status = .good) then (p, .returned l.parsed)
  else
    match l.iterator with
    | .error err => (p.failed err, .returned l.parsed)
    | .ok it =>
      if p.bulkRead then
        if l.buffer.length < l.parsed + p.nextBytes then (p, .returned l.parsed)
        else
          (p.bulkDone ((l.buffer.drop l.parsed).take p.nextBytes),
            .again { l with parsed := l.parsed + p.nextBytes, it := none })
      else transition cbor l (parseStage cbor p it)

/-- So many rounds of the loop, unless it is left before. -/
def readLoop : Nat → Parser → Loop cbor.toDecoder → Parser × Nat
  | 0, p, l => (p, l.parsed)
  | rounds + 1, p, l =>
    match readRound cbor p l with
    | (p, .again l) => readLoop rounds p l
    | (p, .returned parsed) => (p, parsed)

/-- `bundle7_parser_read` with a buffer: the parser, and how many bytes were parsed. -/
def bundle7ParserRead (p : Parser) (buffer : List UInt8) : Parser × Nat :=
  readLoop cbor (2 * buffer.length + 2) p ⟨buffer, 0, none⟩

/-- `bundle7_parser_init`. -/
def init (bundleQuota : Nat) : Parser where
  status := .good
  bulkRead := false
  crcInvalid := false
  nextBytes := 0
  parse := .bundleStart
  next := none
  crcFeed := false
  fed := []
  bundleSize := 0
  bundleQuota := bundleQuota
  bundle := ⟨6, 0, crcType16, [], [], [], 0, 0, 0, 0, 0, 0, []⟩
  block := bundleBlockCreate 0
  delivered := []

end Parser

end Upcn.Bundle7
