import Upcn.Bundle
import Upcn.Bundle6.Size
import Upcn.Lib.Outcome

/-!
# Administrative records

`bundle6/reports.c`: the payload of a status report or a custody signal, and
the parser of such payloads.

The generator writes into a buffer that is sized from constants, the parser is
a state machine over bytes as in `parser.c`.  `ReportMem` says which calls of
`malloc` and `realloc` succeed.  The end of the file is about the parser: its
last stage runs into the error of `default`, so it never gets to `DONE`.
-/

namespace Upcn.Bundle6

open Outcome

/-- What stops the generator or the parser. -/
inductive ReportFault where
  /-- A byte outside a buffer is written. -/
  | outOfBounds
  | nullDeref
  deriving DecidableEq

/-- The allocations that succeed: the buffer and its `realloc` in the generator,
the record, its report or signal and its EID in the parser. -/
structure ReportMem where
  buffer : Bool
  realloc : Bool
  record : Bool
  content : Bool
  sourceEid : Bool

/-! ## The generator -/

/-- `ADMINISTRATVE_RECORD_MAX_SIZE`. -/
def administrativeRecordMaxSize : Nat := 1 + 2 + 4 * 2 + 9 * 2 + 4 + 2 + 40

/-- A buffer of `size` bytes, and what stands before `cur`. -/
structure RecordBuffer where
  size : Nat
  written : List UInt8

/-- The bytes are written at `cur`. -/
def RecordBuffer.write (buffer : RecordBuffer) (bytes : List UInt8) :
    Except ReportFault RecordBuffer :=
  if buffer.written.length + bytes.length ≤ buffer.size then
    .ok { buffer with written := buffer.written ++ bytes }
  else .error .outOfBounds

/-- The characters of an EID as bytes. -/
def eidBytes (eid : Eid) : List UInt8 := eid.map fun c => UInt8.ofNat c.toNat

/-- `struct bundle_status_report`. -/
structure StatusReport where
  status : UInt8
  reason : UInt8
  deriving DecidableEq

/-- `if (is_custody_signal) (*cur++) = prefix_2;`. -/
def writeSecondPrefix (isCustodySignal : Bool) (prefix2 : UInt8)
    (buffer : RecordBuffer) : Except ReportFault RecordBuffer :=
  if isCustodySignal then buffer.write [prefix2] else .ok buffer

/-- The fragment information of `generate_record`, if there is one. -/
def writeFragment (b : Upcn.Bundle) (buffer : RecordBuffer) :
    Except ReportFault RecordBuffer :=
  if b.bundleIsFragmented then do
    let buffer ← buffer.write (sdnvWriteU32 b.fragmentOffset.toNat)
    buffer.write (sdnvWriteU32 b.payloadLength.toNat)
  else .ok buffer

/-- `generate_record` up to the call of `encapsulate_record`: the payload. -/
def generateRecord (mem : ReportMem) (b : Upcn.Bundle) (isCustodySignal : Bool)
    (prefix1 prefix2 : UInt8) (millitime : UInt64) :
    Except ReportFault (Option (List UInt8)) := do
  if !mem.buffer then return none
  let buffer : RecordBuffer := ⟨administrativeRecordMaxSize, []⟩
  let buffer ← buffer.write [(if isCustodySignal then 0x20 else 0x10) |||
    (if b.bundleIsFragmented then 0x01 else 0x00)]
  let buffer ← buffer.write [prefix1]
  let buffer ← writeSecondPrefix isCustodySignal prefix2 buffer
  let buffer ← writeFragment b buffer
  let buffer ← buffer.write (sdnvWriteU64 (millitime.toNat / 1000))
  let buffer ← buffer.write (sdnvWriteU32 (millitime.toNat % 1000 * 1000))
  let buffer ← buffer.write (sdnvWriteU64 b.creationTimestamp.toNat)
  let buffer ← buffer.write (sdnvWriteU64 b.sequenceNumber.toNat)
  let eidLength := b.source.length % 2 ^ 16
  let buffer ← buffer.write (sdnvWriteU32 eidLength)
  if !mem.realloc then throw .nullDeref
  let buffer := { buffer with size := buffer.written.length + eidLength }
  let buffer ← buffer.write ((eidBytes b.source).take eidLength)
  return some buffer.written

/-- The payload of `bundle6_generate_status_report`. -/
def bundle6GenerateStatusReport (mem : ReportMem) (b : Upcn.Bundle)
    (report : StatusReport) (millitime : UInt64) :
    Except ReportFault (Option (List UInt8)) :=
  generateRecord mem b true report.status report.reason millitime

/-- The payload of `bundle6_generate_custody_signal`. -/
def bundle6GenerateCustodySignal (mem : ReportMem) (b : Upcn.Bundle)
    (signal : CustodySignal) (millitime : UInt64) :
    Except ReportFault (Option (List UInt8)) :=
  generateRecord mem b false
    ((UInt8.ofNat signal.reason &&& 0x7F) |||
      (if signal.type = .acceptance then 0x80 else 0x00)) 0 millitime

/-! ## The parser -/

/-- `enum record_parser_stage`. -/
inductive RecordStage where
  | type
  | reportFlags
  | reportReason
  | custodyStatus
  | fragmentOffset
  | fragmentLength
  | recordDtnSeconds
  | recordDtnNanoseconds
  | bundleCreationTimestamp
  | bundleCreationSequence
  | bundleSourceLength
  | bundleSourceEid
  deriving DecidableEq

/-- `struct bundle_administrative_record`.  `bundleSourceEid` is the buffer. -/
structure AdministrativeRecord where
  type : Nat
  flags : Nat
  statusReport : Option StatusReport
  custodySignal : Option CustodySignal
  fragmentOffset : Nat
  fragmentLength : Nat
  eventTimestamp : Nat
  eventNanoseconds : Nat
  bundleCreationTimestamp : Nat
  bundleSequenceNumber : Nat
  bundleSourceEidLength : Nat
  bundleSourceEid : Option (List UInt8)
  deriving DecidableEq

/-- `BUNDLE_AR_STATUS_REPORT`. -/
def arStatusReport : Nat := 1

/-- `BUNDLE_AR_CUSTODY_SIGNAL`. -/
def arCustodySignal : Nat := 2

/-- `struct record_parser`. -/
structure RecordParser where
  status : ParserStatus
  stage : RecordStage
  sdnvState : SdnvState
  record : AdministrativeRecord
  currentIndex : Nat
  bytesRemaining : Nat
  deriving DecidableEq

/-- `record_parser_init`, when the record can be allocated. -/
def RecordParser.init : RecordParser where
  status := .good
  stage := .type
  sdnvState := .reset
  record := {
    type := 0
    flags := 0
    statusReport := none
    custodySignal := none
    fragmentOffset := 0
    fragmentLength := 0
    eventTimestamp := 0
    eventNanoseconds := 0
    bundleCreationTimestamp := 0
    bundleSequenceNumber := 0
    bundleSourceEidLength := 0
    bundleSourceEid := none }
  currentIndex := 0
  bytesRemaining := 0

namespace RecordParser

/-- `record_parser_next`. -/
def next (s : RecordParser) (stage : RecordStage) : RecordParser :=
  { s with stage := stage, sdnvState := .reset }

/-- `record_parser_wait_for_sdnv`. -/
def waitForSdnv (s : RecordParser) (stage : RecordStage) : Bool × RecordParser :=
  match s.sdnvState.status with
  | .inProgress => (false, s)
  | .done => (true, s.next stage)
  | .error => (false, { s with status := .error })

/-- The stage after the report or the signal. -/
def afterContent (s : RecordParser) : RecordParser :=
  if s.record.flags.testBit 0 then s.next .fragmentOffset
  else s.next .recordDtnSeconds

/-- A stage that reads one number: it is read, and its end waited for. -/
def readNumber (s : RecordParser)
    (read : SdnvState → Nat → UInt8 → SdnvState × Nat)
    (get : AdministrativeRecord → Nat)
    (set : AdministrativeRecord → Nat → AdministrativeRecord) (byte : UInt8)
    (stage : RecordStage) : Bool × RecordParser :=
  let (sdnvState, value) := read s.sdnvState (get s.record) byte
  ({ s with sdnvState := sdnvState, record := set s.record value }).waitForSdnv stage

/-- `RP_EXPECT_TYPE`. -/
def readType (mem : ReportMem) (s : RecordParser) (byte : UInt8) : RecordParser :=
  let s := { s with record := { s.record with
    type := byte.toNat / 16
    flags := byte.toNat % 16 } }
  if s.record.type = arStatusReport then
    ({ s with record := { s.record with
      statusReport := if mem.content then some ⟨0, 0⟩ else none } }).next .reportFlags
  else if s.record.type = arCustodySignal then
    ({ s with record := { s.record with
      custodySignal := if mem.content then some ⟨.acceptance, 0⟩ else none } }).next
        .custodyStatus
  else { s with status := .error }

/-- `RP_EXPECT_BUNDLE_SOURCE_LENGTH`. -/
def readSourceLength (mem : ReportMem) (s : RecordParser) (byte : UInt8) :
    RecordParser :=
  let (read, s) := s.readNumber sdnvReadU16 (·.bundleSourceEidLength)
    (fun r v => { r with bundleSourceEidLength := v }) byte .bundleSourceEid
  if read then
    { s with
      status := if mem.sourceEid then s.status else .error
      record := { s.record with
        bundleSourceEid := if mem.sourceEid then
          some (List.replicate (s.record.bundleSourceEidLength + 1) 0) else none }
      currentIndex := 0
      bytesRemaining := s.record.bundleSourceEidLength }
  else s

/-- A byte is written to `bundle_source_eid`. -/
def writeSource (s : RecordParser) (index : Nat) (byte : UInt8) :
    Except ReportFault RecordParser :=
  match s.record.bundleSourceEid with
  | none => .error .nullDeref
  | some eid =>
    if index < eid.length then
      .ok { s with record := { s.record with
        bundleSourceEid := some (eid.set index byte) } }
    else .error .outOfBounds

/-- `if (parser->bytes_remaining == 0)`: the terminator, and the end. -/
def endSource (s : RecordParser) : Except ReportFault RecordParser :=
  if s.bytesRemaining = 0 then do
    let s ← s.writeSource s.currentIndex 0
    return { s with status := .done }
  else .ok s

/-- `RP_EXPECT_BUNDLE_SOURCE_EID`, with the fall through to `default`. -/
def readSource (s : RecordParser) (byte : UInt8) : Except ReportFault RecordParser := do
  let s := { s with bytesRemaining := (s.bytesRemaining + 2 ^ 16 - 1) % 2 ^ 16 }
  let s ← s.writeSource s.currentIndex byte
  let s ← { s with currentIndex := (s.currentIndex + 1) % 2 ^ 16 }.endSource
  return { s with status := .error }

/-- `record_parser_read_byte`. -/
def readByte (mem : ReportMem) (s : RecordParser) (byte : UInt8) :
    Except ReportFault RecordParser :=
  match s.stage with
  | .type => .ok (s.readType mem byte)
  | .reportFlags =>
    match s.record.statusReport with
    | none => .error .nullDeref
    | some report => .ok (({ s with record := { s.record with
        statusReport := some { report with status := byte } } }).next .reportReason)
  | .reportReason =>
    match s.record.statusReport with
    | none => .error .nullDeref
    | some report => .ok (({ s with record := { s.record with
        statusReport := some { report with reason := byte } } }).afterContent)
  | .custodyStatus =>
    match s.record.custodySignal with
    | none => .error .nullDeref
    | some _ => .ok (({ s with record := { s.record with
        custodySignal := some ⟨if byte.toNat / 2 ^ 7 ≠ 0 then .acceptance else .refusal,
          byte.toNat % 2 ^ 7⟩ } }).afterContent)
  | .fragmentOffset => .ok (s.readNumber sdnvReadU32 (·.fragmentOffset)
      (fun r v => { r with fragmentOffset := v }) byte .fragmentLength).2
  | .fragmentLength => .ok (s.readNumber sdnvReadU32 (·.fragmentLength)
      (fun r v => { r with fragmentLength := v }) byte .recordDtnSeconds).2
  | .recordDtnSeconds => .ok (s.readNumber sdnvReadU64 (·.eventTimestamp)
      (fun r v => { r with eventTimestamp := v }) byte .recordDtnNanoseconds).2
  | .recordDtnNanoseconds => .ok (s.readNumber sdnvReadU32 (·.eventNanoseconds)
      (fun r v => { r with eventNanoseconds := v }) byte .bundleCreationTimestamp).2
  | .bundleCreationTimestamp => .ok (s.readNumber sdnvReadU64
      (·.bundleCreationTimestamp) (fun r v => { r with bundleCreationTimestamp := v })
      byte .bundleCreationSequence).2
  | .bundleCreationSequence => .ok (s.readNumber sdnvReadU64 (·.bundleSequenceNumber)
      (fun r v => { r with bundleSequenceNumber := v }) byte .bundleSourceLength).2
  | .bundleSourceLength => .ok (s.readSourceLength mem byte)
  | .bundleSourceEid => s.readSource byte

/-- The loop of `bundle6_parse_administrative_record`. -/
def readBytes (mem : ReportMem) :
    RecordParser → List UInt8 → Except ReportFault RecordParser
  | s, [] => .ok s
  | s, byte :: rest =>
    if s.status = .good then do
      let s ← s.readByte mem byte
      readBytes mem s rest
    else .ok s

end RecordParser

/-- `bundle6_parse_administrative_record`. -/
def bundle6ParseAdministrativeRecord (mem : ReportMem) (data : List UInt8) :
    Except ReportFault (Option AdministrativeRecord) := do
  if !mem.record then return none
  let s ← RecordParser.init.readBytes mem data
  return if s.status = .done then some s.record else none

/-! ## The buffer of the generator -/

theorem length_sdnvWriteU32_le {value : Nat} (h : value < 2 ^ 32) :
    (sdnvWriteU32 value).length ≤ 5 := by
  rw [length_sdnvWriteU32]
  exact (sdnvGetSizeU32_spec h).2.2

theorem length_sdnvWriteU64_le {value : Nat} (h : value < 2 ^ 64) :
    (sdnvWriteU64 value).length ≤ 10 := by
  rw [length_sdnvWriteU64]
  exact (sdnvGetSizeU64_spec h).2.2

/-- The buffer has its first size, and at most so many bytes are written. -/
def RecordBuffer.Within (buffer : RecordBuffer) (n : Nat) : Prop :=
  buffer.size = administrativeRecordMaxSize ∧ buffer.written.length ≤ n

theorem RecordBuffer.Within.write {buffer : RecordBuffer} {n k : Nat}
    {bytes : List UInt8} (h : buffer.Within n) (hbytes : bytes.length ≤ k)
    (hroom : n + k ≤ administrativeRecordMaxSize) :
    Ends (· = .nullDeref) (buffer.write bytes) (·.Within (n + k)) := by
  have hwritten := h.2
  unfold RecordBuffer.write
  rw [if_pos (by rw [h.1]; omega)]
  refine ends_ok ⟨h.1, ?_⟩
  rw [List.length_append]
  omega

theorem RecordBuffer.Within.mono {buffer : RecordBuffer} {n k : Nat}
    (h : buffer.Within n) (hnk : n ≤ k) : buffer.Within k :=
  ⟨h.1, Nat.le_trans h.2 hnk⟩

theorem RecordBuffer.Within.writeByte {buffer : RecordBuffer} {n : Nat}
    (h : buffer.Within n) (byte : UInt8) (hroom : n < administrativeRecordMaxSize) :
    Ends (· = .nullDeref) (buffer.write [byte]) (·.Within (n + 1)) :=
  h.write (Nat.le_of_eq List.length_singleton) hroom

theorem writeSecondPrefix_ends (isCustodySignal : Bool) (prefix2 : UInt8)
    {buffer : RecordBuffer} (h : buffer.Within 2) :
    Ends (· = .nullDeref) (writeSecondPrefix isCustodySignal prefix2 buffer)
      (·.Within 3) := by
  unfold writeSecondPrefix
  split
  · exact h.writeByte prefix2 (by decide)
  · exact ends_ok (h.mono (by omega))

theorem writeFragment_ends (b : Upcn.Bundle) {buffer : RecordBuffer}
    (h : buffer.Within 3) :
    Ends (· = .nullDeref) (writeFragment b buffer) (·.Within 13) := by
  have hoffset := length_sdnvWriteU32_le b.fragmentOffset.toNat_lt
  have hlength := length_sdnvWriteU32_le b.payloadLength.toNat_lt
  unfold writeFragment
  split
  · refine (h.write hoffset (by decide)).bind fun buffer h => ?_
    exact h.write hlength (by decide)
  · exact ends_ok (h.mono (by omega))

/-- The generator never writes outside of its buffer. -/
theorem generateRecord_inBounds (mem : ReportMem) (b : Upcn.Bundle)
    (isCustodySignal : Bool) (prefix1 prefix2 : UInt8) (millitime : UInt64) :
    Ends (· = .nullDeref)
      (generateRecord mem b isCustodySignal prefix1 prefix2 millitime)
      fun _ => True := by
  have htime := millitime.toNat_lt
  have hseconds : (sdnvWriteU64 (millitime.toNat / 1000)).length ≤ 10 :=
    length_sdnvWriteU64_le (by omega)
  have hnanoseconds : (sdnvWriteU32 (millitime.toNat % 1000 * 1000)).length ≤ 5 :=
    length_sdnvWriteU32_le (by omega)
  have htimestamp := length_sdnvWriteU64_le b.creationTimestamp.toNat_lt
  have hsequence := length_sdnvWriteU64_le b.sequenceNumber.toNat_lt
  have heid : (sdnvWriteU32 (b.source.length % 2 ^ 16)).length ≤ 5 :=
    length_sdnvWriteU32_le (by omega)
  unfold generateRecord
  split
  · exact ends_ok trivial
  have hempty : (⟨administrativeRecordMaxSize, []⟩ : RecordBuffer).Within 0 :=
    ⟨rfl, Nat.zero_le _⟩
  refine (hempty.writeByte _ (by decide)).bind fun buffer h => ?_
  refine (h.writeByte _ (by decide)).bind fun buffer h => ?_
  refine (writeSecondPrefix_ends _ _ h).bind fun buffer h => ?_
  refine (writeFragment_ends b h).bind fun buffer h => ?_
  refine (h.write hseconds (by decide)).bind fun buffer h => ?_
  refine (h.write hnanoseconds (by decide)).bind fun buffer h => ?_
  refine (h.write htimestamp (by decide)).bind fun buffer h => ?_
  refine (h.write hsequence (by decide)).bind fun buffer h => ?_
  refine (h.write heid (by decide)).bind fun buffer h => ?_
  split
  · exact ends_error rfl
  -- the buffer has been extended by the length of the EID
  unfold RecordBuffer.write
  dsimp only
  rw [if_pos (by rw [List.length_take]; omega)]
  exact ends_ok trivial

/-! ## The last stage of the parser -/

namespace RecordParser

variable {s t : RecordParser}

theorem waitForSdnv_status (s : RecordParser) (stage : RecordStage) :
    (s.waitForSdnv stage).2.status = s.status ∨
      (s.waitForSdnv stage).2.status = .error := by
  unfold waitForSdnv
  split
  · exact .inl rfl
  · exact .inl rfl
  · exact .inr rfl

theorem readNumber_status (s : RecordParser)
    (read : SdnvState → Nat → UInt8 → SdnvState × Nat)
    (get : AdministrativeRecord → Nat)
    (set : AdministrativeRecord → Nat → AdministrativeRecord) (byte : UInt8)
    (stage : RecordStage) :
    (s.readNumber read get set byte stage).2.status = s.status ∨
      (s.readNumber read get set byte stage).2.status = .error :=
  waitForSdnv_status _ stage

theorem readType_status (mem : ReportMem) (s : RecordParser) (byte : UInt8) :
    (s.readType mem byte).status = s.status ∨
      (s.readType mem byte).status = .error := by
  unfold readType
  dsimp only
  split
  · exact .inl rfl
  · split
    · exact .inl rfl
    · exact .inr rfl

theorem afterContent_status (s : RecordParser) :
    s.afterContent.status = s.status := by
  unfold afterContent
  split <;> rfl

theorem readSourceLength_status (mem : ReportMem) (s : RecordParser) (byte : UInt8) :
    (s.readSourceLength mem byte).status = s.status ∨
      (s.readSourceLength mem byte).status = .error := by
  have h := readNumber_status s sdnvReadU16 (·.bundleSourceEidLength)
    (fun r v => { r with bundleSourceEidLength := v }) byte .bundleSourceEid
  unfold readSourceLength
  dsimp only
  split
  · dsimp only
    split
    · exact h
    · exact .inr rfl
  · exact h

/-- Behind the last byte of the EID stands `DONE`, and then the error. -/
theorem readSource_status (h : s.readSource byte = .ok t) : t.status = .error := by
  unfold readSource at h
  obtain ⟨u, -, h⟩ := bind_eq_ok h
  obtain ⟨v, -, h⟩ := bind_eq_ok h
  rw [← Except.ok.inj h]

/-- One byte leaves the status as it is or makes it an error. -/
theorem readByte_status {mem : ReportMem} {byte : UInt8}
    (h : s.readByte mem byte = .ok t) :
    t.status = s.status ∨ t.status = .error := by
  unfold readByte at h
  split at h
  case h_1 =>
    rw [← Except.ok.inj h]
    exact readType_status mem s byte
  case h_2 | h_3 | h_4 =>
    split at h
    · cases h
    · rw [← Except.ok.inj h]
      first
      | exact .inl rfl
      | exact .inl (afterContent_status _)
  case h_11 =>
    rw [← Except.ok.inj h]
    exact readSourceLength_status mem s byte
  case h_12 => exact .inr (readSource_status h)
  all_goals
    rw [← Except.ok.inj h]
    exact readNumber_status ..

/-- No run over bytes gets to `DONE`. -/
theorem readBytes_not_done {mem : ReportMem} {data : List UInt8}
    (hs : s.status ≠ .done) (h : s.readBytes mem data = .ok t) :
    t.status ≠ .done := by
  induction data generalizing s with
  | nil => rwa [← Except.ok.inj h]
  | cons byte rest ih =>
    unfold readBytes at h
    split at h
    · obtain ⟨u, hu, h⟩ := bind_eq_ok h
      refine ih ?_ h
      rcases readByte_status hu with hkeep | herror
      · rwa [hkeep]
      · rw [herror]
        decide
    · rwa [← Except.ok.inj h]

end RecordParser

/-- The parser returns no record, whatever it is given. -/
theorem parse_never_returns (mem : ReportMem) (data : List UInt8)
    (record : AdministrativeRecord) :
    bundle6ParseAdministrativeRecord mem data ≠ .ok (some record) := by
  intro h
  unfold bundle6ParseAdministrativeRecord at h
  split at h
  · cases h
  · obtain ⟨t, ht, h⟩ := bind_eq_ok h
    have hdone := RecordParser.readBytes_not_done (by decide) ht
    rw [if_neg hdone] at h
    cases h

/-! ## The round trip -/

/-- The record is about `b`. -/
structure RecordOf (b : Upcn.Bundle) (record : AdministrativeRecord) : Prop where
  fragment : record.flags.testBit 0 = b.bundleIsFragmented
  fragmentOffset : b.bundleIsFragmented = true →
    record.fragmentOffset = b.fragmentOffset.toNat
  fragmentLength : b.bundleIsFragmented = true →
    record.fragmentLength = b.payloadLength.toNat
  creationTimestamp : record.bundleCreationTimestamp = b.creationTimestamp.toNat
  sequenceNumber : record.bundleSequenceNumber = b.sequenceNumber.toNat
  sourceEid : record.bundleSourceEid = some (eidBytes b.source ++ [0])

/-- The payload of a status report is read back as this report. -/
def StatusReportReadBack (mem : ReportMem) (b : Upcn.Bundle) (report : StatusReport)
    (millitime : UInt64) : Prop :=
  ∃ payload record,
    bundle6GenerateStatusReport mem b report millitime = .ok (some payload) ∧
      bundle6ParseAdministrativeRecord mem payload = .ok (some record) ∧
      record.type = arStatusReport ∧ record.statusReport = some report ∧
      RecordOf b record

/-- The payload of a custody signal is read back as this signal. -/
def CustodySignalReadBack (mem : ReportMem) (b : Upcn.Bundle) (signal : CustodySignal)
    (millitime : UInt64) : Prop :=
  ∃ payload record,
    bundle6GenerateCustodySignal mem b signal millitime = .ok (some payload) ∧
      bundle6ParseAdministrativeRecord mem payload = .ok (some record) ∧
      record.type = arCustodySignal ∧ record.custodySignal = some signal ∧
      RecordOf b record

/-- No status report and no custody signal is read back. -/
theorem records_never_readBack (mem : ReportMem) (b : Upcn.Bundle)
    (report : StatusReport) (signal : CustodySignal) (millitime : UInt64) :
    ¬ StatusReportReadBack mem b report millitime ∧
      ¬ CustodySignalReadBack mem b signal millitime := by
  constructor
  · rintro ⟨payload, record, -, hparse, -⟩
    exact parse_never_returns mem payload record hparse
  · rintro ⟨payload, record, -, hparse, -⟩
    exact parse_never_returns mem payload record hparse

/-- A bundle from `dtn:a`. -/
def reportedBundle : Upcn.Bundle where
  id := bundleInvalidId
  protocolVersion := 6
  procFlags := 0
  retConstraints := .none
  destination := "dtn:b".toList
  source := "dtn:a".toList
  reportTo := "dtn:a".toList
  currentCustodian := dtnNone
  creationTimestamp := 1000
  sequenceNumber := 1
  lifetime := 60
  fragmentOffset := 0
  totalAduLength := 0
  blocks := [.payload]
  payload := Payload.empty

/-- All allocations succeed. -/
def ampleMem : ReportMem := ⟨true, true, true, true, true⟩

/-- The payloads for one bundle: the first byte of the status report is that of
a custody signal and the other way round, and neither is parsed. -/
theorem reportedBundle_lost :
    ¬ StatusReportReadBack ampleMem reportedBundle ⟨1, 0⟩ 2000000 ∧
      ¬ CustodySignalReadBack ampleMem reportedBundle ⟨.acceptance, 0⟩ 2000000 ∧
      bundle6GenerateStatusReport ampleMem reportedBundle ⟨1, 0⟩ 2000000 =
        .ok (some [0x20, 1, 0, 0x8F, 0x50, 0, 0x87, 0x68, 1, 5, 100, 116, 110, 58, 97]) ∧
      bundle6ParseAdministrativeRecord ampleMem
        [0x20, 1, 0, 0x8F, 0x50, 0, 0x87, 0x68, 1, 5, 100, 116, 110, 58, 97] =
          .ok none ∧
      bundle6GenerateCustodySignal ampleMem reportedBundle ⟨.acceptance, 0⟩ 2000000 =
        .ok (some [0x10, 0x80, 0x8F, 0x50, 0, 0x87, 0x68, 1, 5, 100, 116, 110, 58, 97]) ∧
      bundle6ParseAdministrativeRecord ampleMem
        [0x10, 0x80, 0x8F, 0x50, 0, 0x87, 0x68, 1, 5, 100, 116, 110, 58, 97] =
          .ok none := by
  refine ⟨?_, ?_, by decide, by decide, by decide, by decide⟩
  · rintro ⟨payload, record, -, hparse, -⟩
    exact parse_never_returns ampleMem payload record hparse
  · rintro ⟨payload, record, -, hparse, -⟩
    exact parse_never_returns ampleMem payload record hparse

end Upcn.Bundle6
