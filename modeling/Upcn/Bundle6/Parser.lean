import Upcn.Lib.Reader

/-!
# The BPv6 parser

`bundle6/sdnv.c` as far as it reads, and `bundle6/parser.c`.

The parser is a state machine over bytes.  `bundle6ParserReadByte` is one byte,
`bundle6ParserNext` the entry into a stage; the payload of a block is not read
byte by byte: `BLOCK_DATA` requests it as a bulk, and a zero byte says that it is
there.

* `allocations` counts the calls of `malloc`; `mem` says which of them succeed.
* `block` is the block that `current_block_entry` points to.  It moves to the
  list when the block ends.
* `delivered` collects the calls of `send_callback`.
* Integers are natural numbers, cut to the width of the field where the code
  writes it.
-/

namespace Upcn.Bundle6

/-! ## SDNVs -/

/-- `enum sdnv_status`. -/
inductive SdnvStatus where
  | inProgress
  | done
  | error
  deriving DecidableEq

/-- `struct sdnv_state`. -/
structure SdnvState where
  status : SdnvStatus
  bytesParsed : Nat
  deriving DecidableEq

/-- `sdnv_reset`. -/
def SdnvState.reset : SdnvState := ⟨.inProgress, 0⟩

/-- `sdnv_read_generic` for a value of `width` bits: with `maxBytes` bytes behind
it, the value may be at most `maxValue`. -/
def sdnvReadGeneric (width maxBytes maxValue : Nat) (state : SdnvState) (value : Nat)
    (byte : UInt8) : SdnvState × Nat :=
  if ¬ (state.bytesParsed < maxBytes ∨
      state.bytesParsed = maxBytes ∧ value ≤ maxValue) then
    ({ state with status := .error }, value)
  else if state.status = .done then ({ state with status := .error }, value)
  else
    let shifted := if state.bytesParsed = 0 then 0 else value * 2 ^ 7 % 2 ^ width
    let value := shifted ||| byte.toNat % 2 ^ 7
    let status := if byte.toNat < 2 ^ 7 then .done else state.status
    (⟨status, state.bytesParsed + 1⟩, value)

/-- `sdnv_read_u8`. -/
def sdnvReadU8 := sdnvReadGeneric 8 1 0x1

/-- `sdnv_read_u16`. -/
def sdnvReadU16 := sdnvReadGeneric 16 2 0x1FF

/-- `sdnv_read_u32`. -/
def sdnvReadU32 := sdnvReadGeneric 32 4 0x1FFFFFF

/-- `sdnv_read_u64`. -/
def sdnvReadU64 := sdnvReadGeneric 64 9 0x1FFFFFFFFFFFFFF

/-! ## The state -/

/-- `enum bundle6_parser_stage`, in its order. -/
inductive Stage where
  | version
  | procFlags
  | blockLength
  | destinationEidScheme
  | destinationEidSsp
  | sourceEidScheme
  | sourceEidSsp
  | reportEidScheme
  | reportEidSsp
  | custodianEidScheme
  | custodianEidSsp
  | timestamp
  | sequenceNum
  | lifetime
  | dictLength
  | dictionary
  | fragmentOffset
  | aduLength
  | blockType
  | blockFlags
  | blockEidRefCnt
  | blockEidRefSch
  | blockEidRefSsp
  | blockDataLength
  | blockData
  | done
  deriving DecidableEq

/-- `enum bundle6_parser_block`. -/
inductive ParserBlock where
  | primary
  | generic
  | payload
  | extension
  deriving DecidableEq

/-- `enum parser_status`. -/
inductive ParserStatus where
  | good
  | done
  | error
  deriving DecidableEq

/-- `enum bundle6_parser_error`. -/
inductive ParserError where
  | none
  | blockLengthExhausted
  | sdnvFailure
  deriving DecidableEq

/-- `struct bundle6_eid_reference`. -/
structure EidReference where
  schemeOffset : Nat
  sspOffset : Nat
  deriving DecidableEq

/-- `struct bundle_block`.  `eidRefs` has the last reference first. -/
structure Block where
  type : UInt8
  flags : Nat
  eidRefs : List (List UInt8)
  length : Nat
  data : List UInt8
  deriving DecidableEq

/-- `bundle_block_create`. -/
def Block.create (type : UInt8) : Block := ⟨type, 0, [], 0, []⟩

/-- `struct bundle`, as the parser fills it.  `payloadBlock` is the position of
the block that `payload_block` points to. -/
structure Bundle where
  protocolVersion : UInt8
  procFlags : Nat
  primaryBlockLength : Nat
  destination : List UInt8
  source : List UInt8
  reportTo : List UInt8
  currentCustodian : List UInt8
  creationTimestamp : Nat
  sequenceNumber : Nat
  lifetime : Nat
  fragmentOffset : Nat
  totalAduLength : Nat
  blocks : List Block
  payloadBlock : Option Nat
  deriving DecidableEq

/-- `bundle_init`. -/
def Bundle.init : Bundle where
  protocolVersion := 6
  procFlags := 0
  primaryBlockLength := 0
  destination := []
  source := []
  reportTo := []
  currentCustodian := []
  creationTimestamp := 0
  sequenceNumber := 0
  lifetime := 0
  fragmentOffset := 0
  totalAduLength := 0
  blocks := []
  payloadBlock := none

/-- `bundle_is_fragmented`. -/
def Bundle.isFragmented (b : Bundle) : Bool := b.procFlags.testBit 0

/-- `struct bundle6_parser`, with `status`, the flag `BULK_READ` and `next_bytes`
of its `struct parser`. -/
structure Parser where
  status : ParserStatus
  bulkRead : Bool
  nextBytes : Nat
  error : ParserError
  currentStage : Stage
  nextStage : Stage
  currentBlock : ParserBlock
  sdnvState : SdnvState
  bundle : Bundle
  primaryBytesRemaining : Nat
  curBytesRemaining : Nat
  currentIndex : Nat
  currentSize : Nat
  destinationEidref : EidReference
  sourceEidref : EidReference
  reportToEidref : EidReference
  custodianEidref : EidReference
  curEidref : EidReference
  dictLength : Nat
  dict : List UInt8
  block : Block
  lastBlock : Bool
  delivered : List Bundle
  allocations : Nat
  deriving DecidableEq

/-- What does not change during a run: which allocations succeed, and the limit
`BUNDLE_QUOTA`. -/
structure ParserEnv where
  mem : Nat → Bool
  bundleQuota : Nat

/-- The parser after `bundle6_parser_init`.  `usage` is
`bundle_storage_get_usage() + sizeof(struct bundle)`. -/
def Parser.init (usage : Nat) : Parser where
  status := .good
  bulkRead := false
  nextBytes := 0
  error := .none
  currentStage := .version
  nextStage := .version
  currentBlock := .primary
  sdnvState := .reset
  bundle := .init
  primaryBytesRemaining := 0
  curBytesRemaining := 0
  currentIndex := 0
  currentSize := usage
  destinationEidref := ⟨0, 0⟩
  sourceEidref := ⟨0, 0⟩
  reportToEidref := ⟨0, 0⟩
  custodianEidref := ⟨0, 0⟩
  curEidref := ⟨0, 0⟩
  dictLength := 0
  dict := []
  block := .create 0
  lastBlock := false
  delivered := []
  allocations := 0

namespace Parser

variable (env : ParserEnv)

/-! ## Entering a stage -/

/-- A call of `malloc`. -/
def alloc (s : Parser) : Bool × Parser :=
  (env.mem s.allocations, { s with allocations := s.allocations + 1 })

/-- `state->basedata->status = PARSER_STATUS_ERROR`. -/
def fail (s : Parser) : Parser := { s with status := .error }

/-- `bundle6_parser_send_bundle`. -/
def sendBundle (s : Parser) : Parser :=
  if s.bundle.payloadBlock.isSome then { s with delivered := s.delivered ++ [s.bundle] }
  else s

/-- `bundle6_parser_next` for `PARSER_STAGE_DICTIONARY`. -/
def enterDictionary (s : Parser) : Parser :=
  let s := { s with currentIndex := 0 }
  if s.dictLength = 0 then s.fail
  else
    let s := { s with
      curBytesRemaining := s.dictLength
      currentSize := (s.currentSize + (s.dictLength + 1)) % 2 ^ 32 }
    if env.bundleQuota < s.currentSize then s.fail
    else
      let (allocated, s) := s.alloc env
      if allocated then { s with dict := [] } else s.fail

/-- `bundle6_parser_next` for `PARSER_STAGE_BLOCK_DATA`. -/
def enterBlockData (s : Parser) : Parser :=
  let s := { s with
    currentIndex := 0
    curBytesRemaining := 0
    nextBytes := s.block.length
    currentSize := (s.currentSize + s.block.length) % 2 ^ 32 }
  if env.bundleQuota < s.currentSize then s.fail
  else
    let (allocated, s) := s.alloc env
    if allocated then { s with bulkRead := true } else s.fail

/-- The `switch` of `bundle6_parser_next`. -/
def enterStage (s : Parser) : Parser :=
  match s.nextStage with
  | .version | .done => s
  | .destinationEidScheme =>
    { s with
      primaryBytesRemaining := s.bundle.primaryBlockLength
      sdnvState := .reset }
  | .dictLength =>
    { s with
      bundle := { s.bundle with lifetime := s.bundle.lifetime * 1000000 % 2 ^ 64 }
      sdnvState := .reset }
  | .dictionary => s.enterDictionary env
  | .blockType => { s with currentBlock := .generic }
  | .blockData => s.enterBlockData env
  | _ => { s with sdnvState := .reset }

/-- `bundle6_parser_next`. -/
def bundle6ParserNext (s : Parser) : Parser :=
  let s := s.enterStage env
  let s := { s with currentStage := s.nextStage }
  if s.currentStage = .done then { s with status := .done }.sendBundle else s

/-! ## One byte -/

/-- `bundle6_parser_wait_for_sdnv`. -/
def waitForSdnv (s : Parser) (nextStage : Stage) : Bool × Parser :=
  match s.sdnvState.status with
  | .inProgress => (false, s)
  | .done => (true, { s with nextStage := nextStage })
  | .error => (false, { s with status := .error, error := .sdnvFailure })

/-- A stage that reads one SDNV: `read` reads it into the field that `get` and
`set` access. -/
def readSdnv (s : Parser) (read : SdnvState → Nat → UInt8 → SdnvState × Nat)
    (get : Parser → Nat) (set : Parser → Nat → Parser) (byte : UInt8)
    (nextStage : Stage) : Bool × Parser :=
  let (sdnvState, value) := read s.sdnvState (get s) byte
  ({ set s value with sdnvState := sdnvState }).waitForSdnv nextStage

/-- `strlen(&dict[offset])` characters from `offset` on.  The dictionary ends
with a zero behind its `dict_length` bytes. -/
def dictString (dict : List UInt8) (offset : Nat) : List UInt8 :=
  (dict.drop offset).takeWhile (· ≠ 0)

/-- `bundle6_read_eid`.  Nothing is allocated for an offset outside of the
dictionary. -/
def readEid (s : Parser) (ref : EidReference) : Option (List UInt8) × Parser :=
  if s.dictLength ≤ ref.schemeOffset ∨ s.dictLength ≤ ref.sspOffset then (none, s)
  else
    let scheme := dictString s.dict ref.schemeOffset
    let ssp := dictString s.dict ref.sspOffset
    let (allocated, s) := s.alloc env
    if !allocated then (none, s)
    else if 58 ∈ scheme then (none, s)
    else (some (scheme ++ 58 :: ssp), s)

/-- The end of the dictionary: the EIDs of the primary block. -/
def readEids (s : Parser) : Parser :=
  let (source, s) := s.readEid env s.sourceEidref
  let (destination, s) := s.readEid env s.destinationEidref
  let (reportTo, s) := s.readEid env s.reportToEidref
  let (custodian, s) := s.readEid env s.custodianEidref
  match source, destination, reportTo, custodian with
  | some source, some destination, some reportTo, some custodian =>
    { s with
      bundle := { s.bundle with
        source := source
        destination := destination
        reportTo := reportTo
        currentCustodian := custodian }
      nextStage := if s.bundle.isFragmented then .fragmentOffset else .blockType }
  | _, _, _, _ => s.fail

/-- `PARSER_STAGE_DICTIONARY`. -/
def readDictionary (s : Parser) (byte : UInt8) : Parser :=
  let s := { s with
    curBytesRemaining := s.curBytesRemaining - 1
    dict := s.dict ++ [byte]
    currentIndex := s.currentIndex + 1 }
  if s.curBytesRemaining = 0 then
    { s with currentIndex := s.currentIndex + 1 }.readEids env
  else s

/-- `bundle6_parser_begin_block`. -/
def beginBlock (s : Parser) (type : UInt8) : Parser :=
  let (allocated, s) := s.alloc env
  if !allocated then s.fail
  else
    let s := if type = 1 then
        { s with
          bundle := { s.bundle with payloadBlock := some s.bundle.blocks.length }
          currentBlock := .payload }
      else { s with currentBlock := .extension }
    let (allocated, s) := s.alloc env
    if !allocated then s.fail else { s with block := .create type }

/-- `PARSER_STAGE_BLOCK_FLAGS`. -/
def readBlockFlags (s : Parser) (byte : UInt8) : Parser :=
  let (read, s) := s.readSdnv sdnvReadU8 (·.block.flags)
    (fun s value => { s with block := { s.block with flags := value } }) byte
    .blockDataLength
  if read then
    let s := { s with lastBlock := s.block.flags.testBit 3 }
    if s.block.flags.testBit 6 then { s with nextStage := .blockEidRefCnt } else s
  else s

/-- `PARSER_STAGE_BLOCK_EID_REF_CNT`. -/
def readEidRefCnt (s : Parser) (byte : UInt8) : Parser :=
  let (read, s) := s.readSdnv sdnvReadU32 (·.currentSize)
    (fun s value => { s with currentSize := value }) byte .blockEidRefSch
  if read then
    let s := { s with currentIndex := 0 }
    if s.currentSize = 0 then { s with nextStage := .blockDataLength } else s
  else s

/-- `PARSER_STAGE_BLOCK_EID_REF_SSP`. -/
def readEidRefSsp (s : Parser) (byte : UInt8) : Parser :=
  let (read, s) := s.readSdnv sdnvReadU16 (·.curEidref.sspOffset)
    (fun s value => { s with curEidref := { s.curEidref with sspOffset := value } }) byte
    .blockEidRefSch
  if read then
    let (allocated, s) := s.alloc env
    if !allocated then s.fail
    else
      let (eid, s) := s.readEid env s.curEidref
      let s := { s with currentIndex := (s.currentIndex + 1) % 2 ^ 32 }
      match eid with
      | none => s.fail
      | some eid =>
        let s := { s with block := { s.block with eidRefs := eid :: s.block.eidRefs } }
        if s.currentIndex = s.currentSize then { s with nextStage := .blockDataLength }
        else s
  else s

/-- `PARSER_STAGE_BLOCK_DATA`, with `bundle6_parser_end_block`. -/
def endBlockData (s : Parser) : Parser :=
  if s.curBytesRemaining ≠ 0 then s.fail
  else
    { s with
      bundle := { s.bundle with blocks := s.bundle.blocks ++ [s.block] }
      nextStage := if s.lastBlock then .done else .blockType }

/-- The `switch` of `bundle6_parser_read_byte`. -/
def readStage (s : Parser) (byte : UInt8) : Parser :=
  match s.currentStage with
  | .version =>
    { s with
      bundle := { s.bundle with protocolVersion := byte }
      nextStage := .procFlags }
  | .procFlags => (s.readSdnv sdnvReadU32 (·.bundle.procFlags)
      (fun s value => { s with bundle := { s.bundle with procFlags := value } }) byte
      .blockLength).2
  | .blockLength => (s.readSdnv sdnvReadU16 (·.bundle.primaryBlockLength)
      (fun s value => { s with bundle := { s.bundle with primaryBlockLength := value } })
      byte .destinationEidScheme).2
  | .destinationEidScheme => (s.readSdnv sdnvReadU16 (·.destinationEidref.schemeOffset)
      (fun s value => { s with
        destinationEidref := { s.destinationEidref with schemeOffset := value } })
      byte .destinationEidSsp).2
  | .destinationEidSsp => (s.readSdnv sdnvReadU16 (·.destinationEidref.sspOffset)
      (fun s value => { s with
        destinationEidref := { s.destinationEidref with sspOffset := value } })
      byte .sourceEidScheme).2
  | .sourceEidScheme => (s.readSdnv sdnvReadU16 (·.sourceEidref.schemeOffset)
      (fun s value => { s with
        sourceEidref := { s.sourceEidref with schemeOffset := value } })
      byte .sourceEidSsp).2
  | .sourceEidSsp => (s.readSdnv sdnvReadU16 (·.sourceEidref.sspOffset)
      (fun s value => { s with
        sourceEidref := { s.sourceEidref with sspOffset := value } })
      byte .reportEidScheme).2
  | .reportEidScheme => (s.readSdnv sdnvReadU16 (·.reportToEidref.schemeOffset)
      (fun s value => { s with
        reportToEidref := { s.reportToEidref with schemeOffset := value } })
      byte .reportEidSsp).2
  | .reportEidSsp => (s.readSdnv sdnvReadU16 (·.reportToEidref.sspOffset)
      (fun s value => { s with
        reportToEidref := { s.reportToEidref with sspOffset := value } })
      byte .custodianEidScheme).2
  | .custodianEidScheme => (s.readSdnv sdnvReadU16 (·.custodianEidref.schemeOffset)
      (fun s value => { s with
        custodianEidref := { s.custodianEidref with schemeOffset := value } })
      byte .custodianEidSsp).2
  | .custodianEidSsp => (s.readSdnv sdnvReadU16 (·.custodianEidref.sspOffset)
      (fun s value => { s with
        custodianEidref := { s.custodianEidref with sspOffset := value } })
      byte .timestamp).2
  | .timestamp => (s.readSdnv sdnvReadU64 (·.bundle.creationTimestamp)
      (fun s value => { s with bundle := { s.bundle with creationTimestamp := value } })
      byte .sequenceNum).2
  | .sequenceNum => (s.readSdnv sdnvReadU64 (·.bundle.sequenceNumber)
      (fun s value => { s with bundle := { s.bundle with sequenceNumber := value } })
      byte .lifetime).2
  | .lifetime => (s.readSdnv sdnvReadU64 (·.bundle.lifetime)
      (fun s value => { s with bundle := { s.bundle with lifetime := value } })
      byte .dictLength).2
  | .dictLength => (s.readSdnv sdnvReadU16 (·.dictLength)
      (fun s value => { s with dictLength := value }) byte .dictionary).2
  | .dictionary => s.readDictionary env byte
  | .fragmentOffset => (s.readSdnv sdnvReadU32 (·.bundle.fragmentOffset)
      (fun s value => { s with bundle := { s.bundle with fragmentOffset := value } })
      byte .aduLength).2
  | .aduLength => (s.readSdnv sdnvReadU32 (·.bundle.totalAduLength)
      (fun s value => { s with bundle := { s.bundle with totalAduLength := value } })
      byte .blockType).2
  | .blockType => { s with nextStage := .blockFlags }.beginBlock env byte
  | .blockFlags => s.readBlockFlags byte
  | .blockEidRefCnt => s.readEidRefCnt byte
  | .blockEidRefSch => (s.readSdnv sdnvReadU16 (·.curEidref.schemeOffset)
      (fun s value => { s with curEidref := { s.curEidref with schemeOffset := value } })
      byte .blockEidRefSsp).2
  | .blockEidRefSsp => s.readEidRefSsp env byte
  | .blockDataLength => (s.readSdnv sdnvReadU32 (·.block.length)
      (fun s value => { s with block := { s.block with length := value } })
      byte .blockData).2
  | .blockData => s.endBlockData
  | .done => s.fail

/-- `bundle6_parser_length_known`. -/
def lengthKnown (s : Parser) : Bool :=
  match s.currentStage with
  | .version | .procFlags | .blockLength => false
  | _ => true

/-- `bundle6_parser_read_byte`. -/
def bundle6ParserReadByte (s : Parser) (byte : UInt8) : Parser :=
  if s.currentBlock = .primary ∧ s.lengthKnown = true ∧ s.primaryBytesRemaining = 0 then
    { s with status := .error, error := .blockLengthExhausted }
  else
    let s := if s.currentBlock = .primary then
        { s with
          primaryBytesRemaining := (s.primaryBytesRemaining + (2 ^ 16 - 1)) % 2 ^ 16 }
      else s
    let s := s.readStage env byte
    if s.currentStage ≠ s.nextStage ∧ s.status ≠ .error then s.bundle6ParserNext env
    else s

/-! ## A call -/

/-- The requested bulk is in the buffer that was allocated for it, and the parser
is told so: the flag is cleared, and a zero byte is fed. -/
def completeBulk (s : Parser) (data : List UInt8) : Parser :=
  { s with bulkRead := false, block := { s.block with data := data } }.bundle6ParserReadByte
    env 0

/-- The parser as a reader of bytes. -/
def reader : Reader Parser UInt8 where
  good s := s.status == .good
  pending s := if s.bulkRead then some s.nextBytes else none
  item s byte := s.bundle6ParserReadByte env byte
  fill s data := s.completeBulk env data

/-- `bundle6_parser_read` with a buffer: the parser after the call, and the bytes
it has not consumed. -/
def bundle6ParserRead (s : Parser) (buffer : List UInt8) : Parser × List UInt8 :=
  (reader env).read s buffer

end Parser

end Upcn.Bundle6
