import Upcn.Lib.CborDecoder
import Upcn.Lib.Heap

/-!
# The BPv7 parser

`bundle7/parser.c` and the EID parser of `bundle7/eid.c`, over a CBOR decoder, with the
EID strings of a bundle as objects on the heap.  What the strings say is in `EidParser`.

`granted` says which allocations succeed.  The data of a bundle that no parse function
reads again is left out, and so are the CRCs: `fits` says whether the one that is read is
the one of the bytes.
-/

namespace Upcn.Bundle7Parser

open Cbor

/-! ## The state -/

/-- The parse functions. -/
inductive Stage where
  | bundleStart | primaryBlockStart | protocolVersion | primaryProcFlags | crcType
  | destinationEid | sourceEid | reportToEid | creationTimestamp | lifetime | fragmentOffset
  | totalAduLength | primaryBlockCrc | blockStart | blockType | blockNumber | blockProcFlags
  | blockCrcType | blockCrc | blockData | blockEnd | bundleEnd
  deriving DecidableEq

/-- `enum parser_status`. -/
inductive Status where
  | good | done | error
  deriving DecidableEq

/-- `struct bundle`. -/
structure Bundle where
  procFlags : UInt32
  crcType : UInt64
  destination : Option Nat
  source : Option Nat
  reportTo : Option Nat
  currentCustodian : Option Nat

/-- The EIDs that are parsed. -/
inductive EidField where
  | destination | source | reportTo
  deriving DecidableEq

/-- `bundle_reset_internal`. -/
def Bundle.init : Bundle := ⟨0, 0, none, none, none, none⟩

/-- The pointers to EIDs, in the order in which `bundle_free_dynamic_parts` frees them. -/
def Bundle.eids (b : Bundle) : List (Option Nat) :=
  [b.destination, b.source, b.reportTo, b.currentCustodian]

def Bundle.get (b : Bundle) : EidField → Option Nat
  | .destination => b.destination
  | .source => b.source
  | .reportTo => b.reportTo

def Bundle.set (b : Bundle) (f : EidField) (eid : Option Nat) : Bundle :=
  match f with
  | .destination => { b with destination := eid }
  | .source => { b with source := eid }
  | .reportTo => { b with reportTo := eid }

/-- `bundle_is_fragmented`. -/
def Bundle.isFragmented (b : Bundle) : Bool := b.procFlags &&& 1 ≠ 0

/-- `BP_V7_FLAGS`. -/
def bpV7Flags : UInt32 := 0x74067

/-- `struct bundle7_parser`, with the heap.  `block` is the type of the current block and
its CRC type, and `delivered` are the bundles that the callback was called with. -/
structure Parser where
  status : Status
  bulkRead : Bool
  crcInvalid : Bool
  nextBytes : Nat
  parse : Stage
  next : Option Stage
  bundleSize : Nat
  bundleQuota : Nat
  sendCallback : Bool
  bundle : Option Bundle
  blockType : UInt32
  blockCrcType : UInt32
  heap : Heap
  delivered : List Bundle

variable (cbor : Decoder) (granted : Nat → Bool)

/-- What a parse function leaves of the parser, and what it returns. -/
abbrev Parsed := Parser × Except CborError cbor.Value

/-! ## Endpoints -/

/-- `*eid`, with the heap. -/
structure EidCell where
  heap : Heap
  eid : Option Nat

/-- `*eid = malloc(...)`. -/
def EidCell.malloc (c : EidCell) : EidCell :=
  ⟨(c.heap.malloc granted).2, (c.heap.malloc granted).1⟩

/-- `free(*eid)`. -/
def EidCell.free (c : EidCell) : EidCell := ⟨c.heap.free c.eid, c.eid⟩

/-- `return CborErrorIllegalType`, unless it holds. -/
def illegalUnless (h : Bool) : Except CborError Unit :=
  if h then .ok () else .error .illegalType

/-- `eid_parse_dtn`. -/
def eidParseDtn (it : cbor.Value) (c : EidCell) : EidCell × Except CborError cbor.Value :=
  if cbor.isUnsignedInteger it then
    if cbor.getUint64 it ≠ 0 then (c, .error .illegalType)
    else
      let c := c.malloc granted
      if c.eid = none then (c, .error .outOfMemory) else (c, .ok (cbor.advanceFixed it).2)
  else if !cbor.isTextString it then (c, .error .illegalType)
  else
    match cbor.getStringLength it with
    | .error err => (c, .error err)
    | .ok length =>
      if cbor.remaining it < length then (c, .error .unexpectedEOF)
      else
        let c := c.malloc granted
        if c.eid = none then (c, .error .outOfMemory)
        else
          match cbor.copyTextString it with
          | .error err => (c.free, .error err)
          | .ok it => (c, .ok it)

/-- What `eid_parse_ipn` reads before it allocates the string. -/
def ipnNumbers (it : cbor.Value) : Except CborError cbor.Value := do
  illegalUnless (cbor.isArray it && cbor.isLengthKnown it)
  let recursed ← cbor.enterContainer it
  illegalUnless (cbor.isUnsignedInteger recursed)
  let recursed ← cbor.advance recursed
  illegalUnless (cbor.isUnsignedInteger recursed)
  let recursed ← cbor.advance recursed
  illegalUnless (cbor.atEnd recursed)
  cbor.leaveContainer it recursed

/-- `eid_parse_ipn`. -/
def eidParseIpn (it : cbor.Value) (c : EidCell) : EidCell × Except CborError cbor.Value :=
  match ipnNumbers cbor it with
  | .error err => (c, .error err)
  | .ok it =>
    let c := c.malloc granted
    if c.eid = none then (c, .error .outOfMemory) else (c, .ok it)

/-- The parsing function of the scheme. -/
def eidParseSsp (schema : UInt64) (it : cbor.Value) (c : EidCell) :
    EidCell × Except CborError cbor.Value :=
  if schema = 1 then eidParseDtn cbor granted it c
  else if schema = 2 then eidParseIpn cbor granted it c
  else (c, .error .illegalType)

/-- What `bundle7_eid_parse_cbor` reads before the SSP. -/
def eidSchema (it : cbor.Value) : Except CborError (UInt64 × cbor.Value) := do
  illegalUnless (cbor.isArray it && cbor.isLengthKnown it)
  match cbor.getArrayLength it with
  | .error _ => throw .illegalType
  | .ok length => illegalUnless (length = 2)
  let recursed ← cbor.enterContainer it
  illegalUnless (cbor.isUnsignedInteger recursed)
  let next ← cbor.advance recursed
  return (cbor.getUint64 recursed, next)

/-- `bundle7_eid_parse_cbor`. -/
def bundle7EidParseCbor (it : cbor.Value) (c : EidCell) :
    EidCell × Except CborError cbor.Value :=
  match eidSchema cbor it with
  | .error err => (c, .error err)
  | .ok (schema, recursed) =>
    match eidParseSsp cbor granted schema recursed c with
    | (c, .error err) => (c, .error err)
    | (c, .ok recursed) =>
      match cbor.leaveContainer it recursed with
      | .error err => (c.free, .error err)
      | .ok it => (c, .ok it)

/-- The string is copied with `strdup`, and the first one is freed. -/
def EidCell.dup (c : EidCell) : EidCell :=
  let copy := (c.heap.use c.eid).malloc granted
  ⟨copy.2.free c.eid, copy.1⟩

/-- The field and the heap are those of the cell. -/
def Parser.store (p : Parser) (b : Bundle) (f : EidField) (c : EidCell) : Parser :=
  { p with bundle := some (b.set f c.eid), heap := c.heap }

/-- `parse_eid`.  A parser that is good has a bundle. -/
def parseEid (f : EidField) (next : Stage) (p : Parser) (it : cbor.Value) : Parsed cbor :=
  match p.bundle with
  | none => (p, .error .illegalType)
  | some b =>
    match bundle7EidParseCbor cbor granted it ⟨p.heap, b.get f⟩ with
    | (c, .error err) => (p.store b f c, .error err)
    | (c, .ok it) => ({ p.store b f (c.dup granted) with next := some next }, .ok it)

/-! ## The other parse functions -/

/-- `bundle_start`. -/
def bundleStart (p : Parser) (it : cbor.Value) : Parsed cbor :=
  if !cbor.isArray it || cbor.isLengthKnown it then (p, .error .illegalType)
  else ({ p with next := some .primaryBlockStart }, cbor.enterContainer it)

/-- `primary_block_start`. -/
def primaryBlockStart (p : Parser) (it : cbor.Value) : Parsed cbor :=
  if !cbor.isArray it || !cbor.isLengthKnown it then (p, .error .illegalType)
  else ({ p with next := some .protocolVersion }, cbor.enterContainer it)

/-- `block_start`. -/
def blockStart (p : Parser) (it : cbor.Value) : Parsed cbor :=
  if !cbor.isArray it then (p, .error .illegalType)
  else ({ p with next := some .blockType }, cbor.enterContainer it)

/-- The parse functions of a number, with what they make of it. -/
def parseNumber (record : UInt64 → Parser → Parser × Option CborError) (p : Parser)
    (it : cbor.Value) : Parsed cbor :=
  if !cbor.isUnsignedInteger it then (p, .error .illegalType)
  else
    match record (cbor.getUint64 it) p with
    | (p, some err) => (p, .error err)
    | (p, none) => (p, cbor.advance it)

/-- A field of the bundle that a parse function sets. -/
def Parser.modifyBundle (p : Parser) (g : Bundle → Bundle) : Parser :=
  { p with bundle := p.bundle.map g }

/-- `protocol_version`. -/
def protocolVersion (_ : UInt64) (p : Parser) : Parser × Option CborError :=
  ({ p with next := some .primaryProcFlags }, none)

/-- `primary_proc_flags`. -/
def primaryProcFlags (flags : UInt64) (p : Parser) : Parser × Option CborError :=
  ({ p.modifyBundle fun b => { b with procFlags := flags.toUInt32 &&& bpV7Flags } with
    next := some .crcType }, none)

/-- `crc_type`. -/
def crcType (type : UInt64) (p : Parser) : Parser × Option CborError :=
  if 2 < type then (p, some .illegalType)
  else
    ({ p.modifyBundle fun b => { b with crcType := type } with next := some .destinationEid },
      none)

/-- What follows the last number of the primary block. -/
def Parser.behindNumbers (p : Parser) : Stage :=
  if (p.bundle.map Bundle.crcType).getD 0 ≠ 0 then .primaryBlockCrc else .blockStart

/-- `lifetime`. -/
def lifetime (_ : UInt64) (p : Parser) : Parser × Option CborError :=
  ({ p with
    next := some (if p.bundle.any Bundle.isFragmented then .fragmentOffset else p.behindNumbers) },
    none)

/-- `fragment_offset`. -/
def fragmentOffset (_ : UInt64) (p : Parser) : Parser × Option CborError :=
  ({ p with next := some .totalAduLength }, none)

/-- `total_adu_length`. -/
def totalAduLength (_ : UInt64) (p : Parser) : Parser × Option CborError :=
  ({ p with next := some p.behindNumbers }, none)

/-- An allocation for something else than an EID. -/
def Parser.allocate (p : Parser) : Parser × Bool :=
  ({ p with heap := p.heap.deny }, granted p.heap.next)

/-- `block_type`, with the block and the list entry that it allocates. -/
def blockType (type : UInt64) (p : Parser) : Parser × Option CborError :=
  match p.allocate granted with
  | (p, false) => (p, some .outOfMemory)
  | (p, true) =>
    match p.allocate granted with
    | (p, false) => (p, some .outOfMemory)
    | (p, true) => ({ p with blockType := type.toUInt32, next := some .blockNumber }, none)

/-- `block_number`. -/
def blockNumber (_ : UInt64) (p : Parser) : Parser × Option CborError :=
  ({ p with next := some .blockProcFlags }, none)

/-- `block_proc_flags`. -/
def blockProcFlags (_ : UInt64) (p : Parser) : Parser × Option CborError :=
  ({ p with next := some .blockCrcType }, none)

/-- `block_crc_type`. -/
def blockCrcType (type : UInt64) (p : Parser) : Parser × Option CborError :=
  ({ p with blockCrcType := type.toUInt32, next := some .blockData }, none)

/-- What `bundle7_timestamp_parse` reads. -/
def timestampNumbers (it : cbor.Value) : Except CborError cbor.Value := do
  illegalUnless (cbor.isArray it)
  let recursed ← cbor.enterContainer it
  illegalUnless (cbor.isUnsignedInteger recursed)
  let recursed ← cbor.advance recursed
  illegalUnless (cbor.isUnsignedInteger recursed)
  let recursed ← cbor.advance recursed
  illegalUnless (cbor.atEnd recursed)
  cbor.leaveContainer it recursed

/-- `creation_timestamp`. -/
def creationTimestamp (p : Parser) (it : cbor.Value) : Parsed cbor :=
  match timestampNumbers cbor it with
  | .error err => (p, .error err)
  | .ok it => ({ p with next := some .lifetime }, .ok it)

/-- The CRC of a block that has this CRC type. -/
def parseCrc (sixteen fits : Bool) (p : Parser) (it : cbor.Value) : Parsed cbor :=
  if !cbor.isByteString it then (p, .error .illegalType)
  else
    match cbor.copyByteString it 4 with
    | .error err => (p, .error err)
    | .ok (length, it) =>
      if length ≠ (if sixteen then 2 else 4) then (p, .error .illegalType)
      else ({ p with crcInvalid := p.crcInvalid || !fits }, .ok it)

/-- `primary_block_crc`. -/
def primaryBlockCrc (fits : Bool) (p : Parser) (it : cbor.Value) : Parsed cbor :=
  match parseCrc cbor ((p.bundle.map Bundle.crcType).getD 0 == 1) fits p it with
  | (p, .error err) => (p, .error err)
  | (p, .ok it) => ({ p with next := some .blockStart }, .ok it)

/-- `block_end`. -/
def Parser.blockEnd (p : Parser) : Parser :=
  if p.blockType = 1 then { p with parse := .bundleEnd, next := some .bundleEnd }
  else { p with parse := .blockStart, next := some .blockStart }

/-- `block_crc`. -/
def blockCrc (fits : Bool) (p : Parser) (it : cbor.Value) : Parsed cbor :=
  match parseCrc cbor (p.blockCrcType == 1) fits p it with
  | (p, .error err) => (p, .error err)
  | (p, .ok it) => (p.blockEnd, .ok it)

/-- `block_data`, which does not look at what moving the iterator returns. -/
def blockData (p : Parser) (it : cbor.Value) : Parsed cbor :=
  if !cbor.isByteString it then (p, .error .illegalType)
  else
    match cbor.getStringLength it with
    | .error err => (p, .error err)
    | .ok length =>
      match p.allocate granted with
      | (p, false) => (p, .error .outOfMemory)
      | (p, true) =>
        ({ p with
          nextBytes := length
          bulkRead := true
          bundleSize := p.bundleSize + length
          next := some (if p.blockCrcType ≠ 0 then .blockCrc else .blockEnd) },
          .ok (cbor.advanceFixed (cbor.asInteger it)).2)

/-- `bundle_free`, of the bundle of the parser. -/
def Parser.freeBundle (p : Parser) : Parser :=
  { p with bundle := none, heap := p.heap.freeAll (p.bundle.elim [] Bundle.eids) }

/-- `bundle_end`. -/
def bundleEnd (p : Parser) (it : cbor.Value) : Parsed cbor :=
  if cbor.byteAt it ≠ 0xff then (p, .error .illegalType)
  else
    let p := { p with status := .done }
    (if !p.sendCallback || p.crcInvalid then p.freeBundle
      else { p with bundle := none, delivered := p.bundle.toList ++ p.delivered },
      .ok (cbor.skipByte it))

/-- `state->parse(state, &it)`. -/
def parseStage (fits : Bool) (p : Parser) (it : cbor.Value) : Parsed cbor :=
  match p.parse with
  | .bundleStart => bundleStart cbor p it
  | .primaryBlockStart => primaryBlockStart cbor p it
  | .protocolVersion => parseNumber cbor protocolVersion p it
  | .primaryProcFlags => parseNumber cbor primaryProcFlags p it
  | .crcType => parseNumber cbor crcType p it
  | .destinationEid => parseEid cbor granted .destination .sourceEid p it
  | .sourceEid => parseEid cbor granted .source .reportToEid p it
  | .reportToEid => parseEid cbor granted .reportTo .creationTimestamp p it
  | .creationTimestamp => creationTimestamp cbor p it
  | .lifetime => parseNumber cbor lifetime p it
  | .fragmentOffset => parseNumber cbor fragmentOffset p it
  | .totalAduLength => parseNumber cbor totalAduLength p it
  | .primaryBlockCrc => primaryBlockCrc cbor fits p it
  | .blockStart => blockStart cbor p it
  | .blockType => parseNumber cbor (blockType granted) p it
  | .blockNumber => parseNumber cbor blockNumber p it
  | .blockProcFlags => parseNumber cbor blockProcFlags p it
  | .blockCrcType => parseNumber cbor blockCrcType p it
  | .blockCrc => blockCrc cbor fits p it
  | .blockData => blockData cbor granted p it
  | .blockEnd => (p.blockEnd, .ok it)
  | .bundleEnd => bundleEnd cbor p it

/-! ## The read loop -/

/-- The local variables of `bundle7_parser_read`.  `it` is none where the CBOR parser is to
be initialised. -/
structure Loop where
  buffer : List UInt8
  parsed : Nat
  it : Option cbor.Value

/-- How a round of the loop ends. -/
inductive Round where
  | again (l : Loop cbor)
  | returned (parsed : Nat)

/-- The iterator of a round.  An unexpected break is let through. -/
def Loop.iterator (l : Loop cbor) : Except CborError cbor.Value :=
  match l.it with
  | some it => .ok it
  | none =>
    match cbor.init (l.buffer.drop l.parsed) l.parsed with
    | (none, it) | (some .unexpectedBreak, it) => .ok it
    | (some err, _) => .error err

/-- `FAIL`. -/
def Parser.fail (p : Parser) : Parser := { p with status := .error }

/-- What an error of the decoder makes of the parser. -/
def Parser.failed (p : Parser) (err : CborError) : Parser :=
  if err = .unexpectedEOF then p else p.fail

/-- What `bundle7_parser_read` does behind a bulk read. -/
def Parser.bulkDone (p : Parser) : Parser :=
  if p.parse = .blockEnd then { p.blockEnd with parse := p.blockEnd.next.getD p.blockEnd.parse }
  else p

/-- What follows a parse function. -/
def transition (l : Loop cbor) : Parsed cbor → Parser × Round cbor
  | (p, .error err) => (p.failed err, .returned l.parsed)
  | (p, .ok it) =>
    let newParsed := cbor.nextByte it
    let p := { p with bundleSize := p.bundleSize + (newParsed - l.parsed) }
    if p.bundleQuota < p.bundleSize then (p.fail, .returned l.parsed)
    else
      ({ p with parse := p.next.getD p.parse },
        .again { l with parsed := newParsed, it := if cbor.atEnd it then none else some it })

/-- A round of the loop of `bundle7_parser_read`. -/
def readRound (fits : Bool) (p : Parser) (l : Loop cbor) : Parser × Round cbor :=
  if ¬ (l.parsed < l.buffer.length ∧ p.status = .good) then (p, .returned l.parsed)
  else
    match l.iterator with
    | .error err => (p.failed err, .returned l.parsed)
    | .ok it =>
      if p.bulkRead then
        if l.buffer.length < l.parsed + p.nextBytes then (p, .returned l.parsed)
        else
          ({ p with bulkRead := false }.bulkDone,
            .again { l with parsed := l.parsed + p.nextBytes, it := none })
      else transition cbor l (parseStage cbor granted fits p it)

/-- `bundle7_parser_reset`. -/
def Parser.reset (p : Parser) : Parser :=
  if p.status = .good ∧ p.next = some .bundleStart then p
  else
    { p.freeBundle with
      status := .good
      bulkRead := false
      crcInvalid := false
      parse := .bundleStart
      bundleSize := 0
      bundle := some .init }

/-- `bundle7_parser_init`. -/
def Parser.init (bundleQuota : Nat) (sendCallback : Bool) : Parser :=
  Parser.reset
    { status := .error
      bulkRead := false
      crcInvalid := false
      nextBytes := 0
      parse := .bundleStart
      next := none
      bundleSize := 0
      bundleQuota := bundleQuota
      sendCallback := sendCallback
      bundle := none
      blockType := 0
      blockCrcType := 0
      heap := .empty
      delivered := [] }

/-! ## Runs -/

/-- The parser, within a call of `bundle7_parser_read` or between two calls.  `parsed` is
what the last one returned. -/
structure State where
  parser : Parser
  loop : Option (Loop cbor)
  parsed : Nat
  closed : Bool

/-- What happens next: a call of the parser, or a round of the call that is running. -/
inductive Action where
  | read (buffer : List UInt8)
  | round (fits : Bool)
  /-- `bundle7_parser_read` without a buffer, behind a bulk read of the caller. -/
  | bulkRead
  | reset
  | deinit

/-- After `bundle7_parser_init`. -/
def State.init (bundleQuota : Nat) (sendCallback : Bool) : State cbor :=
  ⟨.init bundleQuota sendCallback, none, 0, false⟩

/-- What the action makes of the parser. -/
def State.act (s : State cbor) (a : Action) : State cbor :=
  if s.closed then s
  else
    match a, s.loop with
    | .read buffer, none => { s with loop := some ⟨buffer, 0, none⟩ }
    | .round fits, some l =>
      match readRound cbor granted fits s.parser l with
      | (p, .again l) => { s with parser := p, loop := some l }
      | (p, .returned parsed) => { s with parser := p, loop := none, parsed := parsed }
    | .bulkRead, none =>
      if s.parser.bulkRead then
        { s with parser := { s.parser with bulkRead := false }.bulkDone, parsed := 0 }
      else s
    | .reset, none => { s with parser := s.parser.reset }
    | .deinit, none => { s with parser := s.parser.freeBundle, closed := true }
    | _, _ => s

/-- What a run makes of the parser. -/
def State.run (s : State cbor) (actions : List Action) : State cbor :=
  actions.foldl (fun s a => s.act cbor granted a) s

end Upcn.Bundle7Parser
