import Mathlib.Data.Nat.Bitwise
import Upcn.Bundle
import Upcn.Bundle7.EidParser
import Upcn.Bundle7.Fragment

/-!
# Status reports

The administrative records of `bundle7/reports.c`: the payload of a status report, and the
parser of such payloads.  `malloc` and `realloc` succeed here, the bundle that is reported
has not expired, and `payload` is its payload block.

* `recordItem` is the data item of a status report.
* `length_statusReportPayload` is about the buffer, and `parse_of_payload` about what is
  read of the payload.
* `statusReport_readBack` puts them together.
-/

namespace Upcn

/-- The value of the enumerator. -/
def StatusReportStatus.flag : StatusReportStatus → Nat
  | .bundleReceived => 0x01
  | .custodyTransfer => 0x02
  | .bundleForwarded => 0x04
  | .bundleDelivered => 0x08
  | .bundleDeleted => 0x10

theorem StatusReportReason.code_lt (reason : StatusReportReason) : reason.code < 24 := by
  cases reason <;> decide

end Upcn

namespace Upcn.Bundle7

open Cbor

/-! ## The generator -/

/-- `HAS_FLAG`. -/
def hasFlag (value flag : Nat) : Bool := value &&& flag ≠ 0

/-- `BUNDLE_FLAG_REPORT_STATUS_TIME`. -/
def flagReportStatusTime : Nat := 0x000040

/-- `BUNDLE_AR_STATUS_REPORT`. -/
def arStatusReport : Nat := 1

/-- `struct bundle_status_report`. -/
structure StatusReport where
  status : Nat
  bundleReceivedTime : UInt64
  bundleForwardedTime : UInt64
  bundleDeliveredTime : UInt64
  bundleDeletedTime : UInt64
  reason : StatusReportReason

/-- The time of a status. -/
def StatusReport.time (report : StatusReport) : StatusReportStatus → UInt64
  | .bundleReceived => report.bundleReceivedTime
  | .bundleForwarded => report.bundleForwardedTime
  | .bundleDelivered => report.bundleDeliveredTime
  | .bundleDeleted => report.bundleDeletedTime
  | .custodyTransfer => 0

/-- The status information, in its order. -/
def statusInfoFlags : List StatusReportStatus :=
  [.bundleReceived, .bundleForwarded, .bundleDelivered, .bundleDeleted]

/-- `record_get_last_fields_size`. -/
def Bundle.recordGetLastFieldsSize (b : Bundle) (payload : Block) : Nat :=
  eidMaxSerializedSize b.source
    + (1 + cborUintSizeof b.creationTimestamp + cborUintSizeof b.sequenceNumber)
    + (if b.isFragmented then cborUintSizeof b.fragmentOffset + cborUintSizeof payload.length
      else 0)

/-- The size of the buffer. -/
def Bundle.statusReportBufferSize (b : Bundle) (payload : Block) : Nat :=
  49 + b.recordGetLastFieldsSize payload

/-- `serialize_last_fields`. -/
def Bundle.serializeLastFields (b : Bundle) (payload : Block) : Option (List UInt8) := do
  let eid ← eidSerializeCbor b.source
  let timestamp := array 2 ++ (uint b.creationTimestamp ++ uint b.sequenceNumber)
  let fragment :=
    if b.isFragmented then uint b.fragmentOffset ++ uint payload.length else []
  return eid ++ (timestamp ++ fragment)

/-- `serialize_status_info`. -/
def serializeStatusInfo (b : Bundle) (report : StatusReport) (flag : StatusReportStatus) :
    List UInt8 :=
  if hasFlag report.status flag.flag then
    if hasFlag b.procFlags flagReportStatusTime then
      array 2 ++ (boolByte true :: uint (report.time flag).toNat)
    else array 1 ++ [boolByte true]
  else array 1 ++ [boolByte false]

/-- The payload that `bundle7_generate_status_report` encodes, whatever the size of the
buffer: `none` if the source EID cannot be encoded. -/
def statusReportPayload (b : Bundle) (payload : Block) (report : StatusReport) :
    Option (List UInt8) := do
  let lastFields ← b.serializeLastFields payload
  let statusInfo := array 4 ++ statusInfoFlags.flatMap (serializeStatusInfo b report)
  let fields := array (if b.isFragmented then 6 else 4) ++
    (statusInfo ++ (uint report.reason.code ++ lastFields))
  return array 2 ++ (uint arStatusReport ++ fields)

/-! ## The parser -/

/-- What is read of the status information.  A time that is not there is not written. -/
structure StatusInfo where
  status : Nat
  times : StatusReportStatus → Option UInt64

/-- The fields of `struct bundle_administrative_record` that `parse_last_fields` writes.  The
last two are written for a fragment only. -/
structure LastFields where
  bundleSourceEidLength : UInt16
  bundleSourceEid : List UInt8
  bundleCreationTimestamp : UInt64
  bundleSequenceNumber : UInt64
  fragment : Option (UInt32 × UInt32)

/-- `struct bundle_administrative_record`, of a status report.  `isFragment` is its one
flag. -/
structure AdministrativeRecord where
  type : Nat
  isFragment : Bool
  statusInfo : StatusInfo
  reason : Nat
  lastFields : LastFields

variable (cbor : PullParser)

/-- The time of an assertion, if there is one. -/
def readTime (flag : StatusReportStatus) (info : StatusInfo) (assertion : cbor.Value) :
    Option (StatusInfo × cbor.Value) :=
  if cbor.atEnd assertion then some (info, assertion)
  else do
    guard (cbor.isUnsignedInteger assertion)
    let time := cbor.getUint64 assertion
    let assertion ← cbor.advanceFixed assertion
    return ({ info with times := Function.update info.times flag (some time) }, assertion)

/-- One round of the loop in `status_info`. -/
def readAssertion (flag : StatusReportStatus) (info : StatusInfo) (asserts : cbor.Value) :
    Option (StatusInfo × cbor.Value) := do
  guard (cbor.isArray asserts)
  let (entered, assertion) := cbor.enterContainer asserts
  guard entered
  guard (cbor.isBoolean assertion)
  let value := cbor.getBoolean assertion
  let status := if value then info.status ||| flag.flag else info.status
  let assertion ← cbor.advanceFixed assertion
  let (info, assertion) ← readTime cbor flag { info with status := status } assertion
  guard (cbor.atEnd assertion)
  let asserts ← cbor.leaveContainer asserts assertion
  return (info, asserts)

/-- The loop. -/
def readAssertions : List StatusReportStatus → StatusInfo → cbor.Value →
    Option (StatusInfo × cbor.Value)
  | [], info, asserts => some (info, asserts)
  | flag :: flags, info, asserts => do
    let (info, asserts) ← readAssertion cbor flag info asserts
    readAssertions flags info asserts

/-- `status_info`. -/
def statusInfo (it : cbor.Value) : Option (StatusInfo × cbor.Value) := do
  guard (cbor.isArray it && cbor.isLengthKnown it)
  let length ← cbor.getArrayLength it
  guard (length = 4)
  let (entered, asserts) := cbor.enterContainer it
  guard entered
  let (info, asserts) ← readAssertions cbor statusInfoFlags ⟨0, fun _ => none⟩ asserts
  let it ← cbor.leaveContainer it asserts
  return (info, it)

/-- The fields of a fragment, at the end of `parse_last_fields`. -/
def parseFragmentFields (isFragment : Bool) (it : cbor.Value) :
    Option (Option (UInt32 × UInt32) × cbor.Value) :=
  if isFragment then do
    guard (cbor.isUnsignedInteger it)
    let offset := cbor.getUint64 it
    let it ← cbor.advanceFixed it
    guard (cbor.isUnsignedInteger it)
    let length := cbor.getUint64 it
    let it ← cbor.advanceFixed it
    return (some (offset.toUInt32, length.toUInt32), it)
  else some (none, it)

/-- `parse_last_fields`. -/
def parseLastFields (isFragment : Bool) (it : cbor.Value) :
    Option (LastFields × cbor.Value) := do
  let (eid, it) ← bundle7EidParseCbor cbor it
  guard (cbor.isArray it)
  let (entered, timestamp) := cbor.enterContainer it
  guard entered
  guard (cbor.isUnsignedInteger timestamp)
  let creation := cbor.getUint64 timestamp
  let timestamp ← cbor.advanceFixed timestamp
  guard (cbor.isUnsignedInteger timestamp)
  let sequence := cbor.getUint64 timestamp
  let timestamp ← cbor.advanceFixed timestamp
  guard (cbor.atEnd timestamp)
  let it ← cbor.leaveContainer it timestamp
  let (fragment, it) ← parseFragmentFields cbor isFragment it
  return (⟨.ofNat eid.length, eid, creation, sequence, fragment⟩, it)

/-- `status_report`, for a record of this type. -/
def statusReport (type : Nat) (it : cbor.Value) :
    Option (AdministrativeRecord × cbor.Value) := do
  guard (cbor.isArray it && cbor.isLengthKnown it)
  let length ← cbor.getArrayLength it
  guard (length = 6 || length = 4)
  let isFragment := length = 6
  let (entered, report) := cbor.enterContainer it
  guard entered
  let (info, report) ← statusInfo cbor report
  guard (cbor.isUnsignedInteger report)
  let reason := (cbor.getUint64 report).toNat % 2 ^ 32
  let report ← cbor.advanceFixed report
  let (lastFields, report) ← parseLastFields cbor isFragment report
  guard (cbor.atEnd report)
  let it ← cbor.leaveContainer it report
  return (⟨type, isFragment, info, reason, lastFields⟩, it)

/-- `administrative_record`.  What comes of leaving the container is not looked at. -/
def administrativeRecord (it : cbor.Value) : Option AdministrativeRecord := do
  guard (cbor.isArray it)
  let (entered, nested) := cbor.enterContainer it
  guard entered
  guard (cbor.isUnsignedInteger nested)
  let type := (cbor.getUint64 nested).toNat % 2 ^ 32
  let nested ← cbor.advanceFixed nested
  guard (type = arStatusReport)
  let (record, nested) ← statusReport cbor type nested
  guard (cbor.atEnd nested)
  return record

/-- `bundle7_parse_administrative_record`. -/
def bundle7ParseAdministrativeRecord (data : List UInt8) : Option AdministrativeRecord := do
  guard (data.length ≠ 0)
  let it ← cbor.init data
  administrativeRecord cbor it

/-! ## What is expected of it -/

/-- The numbers have the width that they have in the program. -/
structure Bundle.Typed (b : Bundle) (payload : Block) : Prop where
  creationTimestamp : b.creationTimestamp < 2 ^ 64
  sequenceNumber : b.sequenceNumber < 2 ^ 64
  fragmentOffset : b.fragmentOffset < 2 ^ 32
  payloadLength : payload.length < 2 ^ 32
  source : b.source.length < 2 ^ 64

/-- The times are reported. -/
def Bundle.reportsTimes (b : Bundle) : Bool := hasFlag b.procFlags flagReportStatusTime

/-- The time of a status is reported: it is asserted, and the times are reported. -/
def Bundle.reportedTime (b : Bundle) (report : StatusReport) (flag : StatusReportStatus) :
    Option UInt64 :=
  if hasFlag report.status flag.flag && b.reportsTimes then some (report.time flag) else none

/-- `record` is the record about `b` with this status, and otherwise that of `report`. -/
structure RecordOf (b : Bundle) (payload : Block) (report : StatusReport) (status : Nat)
    (record : AdministrativeRecord) : Prop where
  type : record.type = arStatusReport
  status : record.statusInfo.status = status
  times : ∀ flag ∈ statusInfoFlags, record.statusInfo.times flag = b.reportedTime report flag
  reason : record.reason = report.reason.code
  source : record.lastFields.bundleSourceEid = b.source
  creationTimestamp : record.lastFields.bundleCreationTimestamp.toNat = b.creationTimestamp
  sequenceNumber : record.lastFields.bundleSequenceNumber.toNat = b.sequenceNumber
  isFragment : record.isFragment = b.isFragmented
  fragment : record.lastFields.fragment.map (fun f => (f.1.toNat, f.2.toNat)) =
    if b.isFragmented then some (b.fragmentOffset, payload.length) else none

/-- The payload is in its buffer, and read back as a record with this status. -/
def StatusReportReadBack (b : Bundle) (payload : Block) (report : StatusReport)
    (status : Nat) : Prop :=
  ∃ bytes record, statusReportPayload b payload report = some bytes ∧
    bytes.length ≤ b.statusReportBufferSize payload ∧
    bundle7ParseAdministrativeRecord cbor bytes = some record ∧
    RecordOf b payload report status record

/-- The flags that are encoded: BPv7 has no transfer of custody. -/
def encodedStatusFlags : Nat := 0x01 ||| 0x04 ||| 0x08 ||| 0x10

variable {cbor} {Stands : List UInt8 → cbor.Value → List (List Item) → Prop}
  {buffer bytes eid : List UInt8} {it : cbor.Value} {rest : List Item}
  {outer : List (List Item)} {b : Bundle} {payload : Block} {report : StatusReport}
  {info : StatusInfo}

/-! ## The data item of a status report -/

/-- What `serialize_status_info` encodes. -/
def assertionItem (b : Bundle) (report : StatusReport) (flag : StatusReportStatus) : Item :=
  .array true (.bool (hasFlag report.status flag.flag) ::
    (b.reportedTime report flag).toList.map fun time => .uint time.toNat)

/-- What `serialize_last_fields` encodes, behind the EID. -/
def Bundle.fragmentItems (b : Bundle) (payload : Block) : List Item :=
  if b.isFragmented then [.uint b.fragmentOffset, .uint payload.length] else []

/-- The fields of the report. -/
def Bundle.reportItems (b : Bundle) (payload : Block) (report : StatusReport) (source : Item) :
    List Item :=
  .array true (statusInfoFlags.map (assertionItem b report)) ::
    .uint report.reason.code :: source ::
    .array true [.uint b.creationTimestamp, .uint b.sequenceNumber] :: b.fragmentItems payload

/-- What `bundle7_generate_status_report` encodes. -/
def recordItem (b : Bundle) (payload : Block) (report : StatusReport) (source : Item) : Item :=
  .array true [.uint arStatusReport, .array true (b.reportItems payload report source)]

theorem length_reportItems (b : Bundle) (payload : Block) (report : StatusReport)
    (source : Item) : (b.reportItems payload report source).length =
      if b.isFragmented then 6 else 4 := by
  unfold Bundle.reportItems Bundle.fragmentItems
  split <;> rfl

theorem serializeStatusInfo_encodes (b : Bundle) (report : StatusReport)
    (flag : StatusReportStatus) :
    Encodes (assertionItem b report flag) (serializeStatusInfo b report flag) := by
  have htime := encodes_uint (report.time flag).toNat_lt
  unfold assertionItem serializeStatusInfo Bundle.reportedTime Bundle.reportsTimes
  cases hasFlag report.status flag.flag
  · exact encodes_array (.bool .nil) (by simp)
  · cases hasFlag b.procFlags flagReportStatusTime
    · exact encodes_array (.bool .nil) (by simp)
    · exact encodes_array (.bool htime) (by simp)

theorem serializeStatusInfo_encodesAll (b : Bundle) (report : StatusReport)
    (flags : List StatusReportStatus) :
    EncodesAll (flags.map (assertionItem b report))
      (flags.flatMap (serializeStatusInfo b report)) := by
  induction flags with
  | nil => exact .nil
  | cons flag flags ih => exact (serializeStatusInfo_encodes b report flag).cons ih

/-- The payload is an encoding of the item. -/
theorem statusReportPayload_encodes (htyped : b.Typed payload)
    (heid : eidSerializeCbor b.source = some eid) :
    ∃ bytes source, statusReportPayload b payload report = some bytes ∧
      eidItem b.source = some source ∧ Encodes (recordItem b payload report source) bytes := by
  obtain ⟨source, hsource, hencodes⟩ := eidSerializeCbor_encodes heid htyped.source
  have hfragment : EncodesAll (b.fragmentItems payload)
      (if b.isFragmented then uint b.fragmentOffset ++ uint payload.length else []) := by
    have hoffset := htyped.fragmentOffset
    have hlength := htyped.payloadLength
    unfold Bundle.fragmentItems
    split
    · exact (encodes_uint (by omega)).cons (encodes_uint (by omega))
    · exact .nil
  have hreason : Encodes (.uint report.reason.code) (uint report.reason.code) := by
    have := report.reason.code_lt
    exact encodes_uint (by omega)
  have htimestamp := encodes_pair (encodes_uint htyped.creationTimestamp)
    (encodes_uint htyped.sequenceNumber)
  have hstatus : Encodes (.array true (statusInfoFlags.map (assertionItem b report))) _ :=
    encodes_array (serializeStatusInfo_encodesAll b report statusInfoFlags)
      (by simp [statusInfoFlags])
  have hfields : EncodesAll (b.reportItems payload report source) _ :=
    hstatus.cons (hreason.cons (hencodes.cons (htimestamp.cons hfragment)))
  have hcount := length_reportItems b payload report source
  have hreport := encodes_array hfields (by rw [hcount]; split <;> decide)
  rw [hcount] at hreport
  refine ⟨_, source, ?_, hsource, encodes_pair (encodes_uint (by decide)) hreport⟩
  rw [statusReportPayload, Bundle.serializeLastFields, heid]
  rfl

/-! ## The buffer -/

theorem length_serializeStatusInfo (b : Bundle) (report : StatusReport)
    (flag : StatusReportStatus) : (serializeStatusInfo b report flag).length ≤ 11 := by
  have htime := (report.time flag).toNat_lt
  have hsize : headSize (report.time flag).toNat ≤ 9 := by
    unfold headSize
    split_ifs <;> omega
  have hone : headSize 1 = 1 := rfl
  have htwo : headSize 2 = 1 := rfl
  unfold serializeStatusInfo
  split_ifs
  · simp only [List.length_append, List.length_cons, length_array, length_uint]
    omega
  · simp [hone]
  · simp [hone]

/-- The bound of the source EID is enough for the buffer. -/
theorem length_statusReportPayload_le (heid : eidSerializeCbor b.source = some eid)
    (hlength : eid.length ≤ eidMaxSerializedSize b.source)
    (h : statusReportPayload b payload report = some bytes) :
    bytes.length ≤ b.statusReportBufferSize payload := by
  rw [statusReportPayload, Bundle.serializeLastFields, heid] at h
  obtain rfl := Option.some.inj h
  have hfragment : (if b.isFragmented then uint b.fragmentOffset ++ uint payload.length
      else []).length =
      if b.isFragmented then cborUintSizeof b.fragmentOffset + cborUintSizeof payload.length
      else 0 := by
    split <;> simp [cborUintSizeof_eq]
  have hreason : headSize report.reason.code = 1 := by
    rw [headSize, if_pos (report.reason.code_lt)]
  have hcount : headSize (if b.isFragmented then 6 else 4) = 1 := by
    split <;> rfl
  have hreceived := length_serializeStatusInfo b report .bundleReceived
  have hforwarded := length_serializeStatusInfo b report .bundleForwarded
  have hdelivered := length_serializeStatusInfo b report .bundleDelivered
  have hdeleted := length_serializeStatusInfo b report .bundleDeleted
  have htwo : headSize 2 = 1 := rfl
  have hfour : headSize 4 = 1 := rfl
  have hone : headSize arStatusReport = 1 := rfl
  rw [Bundle.statusReportBufferSize, Bundle.recordGetLastFieldsSize, ← hfragment]
  simp only [statusInfoFlags, List.flatMap_cons, List.flatMap_nil, List.length_append,
    List.length_nil, length_array, length_uint, cborUintSizeof_eq, hcount, hreason, htwo, hfour,
    hone]
  omega

theorem length_statusReportPayload (hcbor : cbor.FollowsEncoding) (htyped : b.Typed payload)
    (hsource : Survives cbor b.source) (h : statusReportPayload b payload report = some bytes) :
    bytes.length ≤ b.statusReportBufferSize payload := by
  have ⟨eid, heid, _⟩ := hsource
  exact length_statusReportPayload_le heid
    (length_le_of_survives hcbor hsource htyped.source heid) h

/-! ## What is read -/

/-- An assertion is noted. -/
def StatusInfo.note (b : Bundle) (report : StatusReport) (info : StatusInfo)
    (flag : StatusReportStatus) : StatusInfo where
  status := info.status ||| (report.status &&& flag.flag)
  times := (b.reportedTime report flag).elim info.times fun time =>
    Function.update info.times flag (some time)

/-- Of a flag, all or nothing is set. -/
theorem and_flag (status : Nat) (flag : StatusReportStatus) :
    status &&& flag.flag = if hasFlag status flag.flag then flag.flag else 0 := by
  have hbit : ∃ i, flag.flag = 2 ^ i := by
    cases flag
    · exact ⟨0, rfl⟩
    · exact ⟨1, rfl⟩
    · exact ⟨2, rfl⟩
    · exact ⟨3, rfl⟩
    · exact ⟨4, rfl⟩
  obtain ⟨i, hi⟩ := hbit
  unfold hasFlag
  rw [hi, Nat.and_two_pow]
  cases status.testBit i <;> simp

/-- One round reads one assertion. -/
theorem readAssertion_of_stands (info : StatusInfo) (hfollows : cbor.Follows Stands)
    {flag : StatusReportStatus}
    (h : Stands buffer it ((assertionItem b report flag :: rest) :: outer)) :
    ∃ it', readAssertion cbor flag info it = some (info.note b report flag, it') ∧
      Stands buffer it' (rest :: outer) := by
  have hsmall : (Item.bool (hasFlag report.status flag.flag) ::
      (b.reportedTime report flag).toList.map fun time => Item.uint time.toNat).length <
      2 ^ 32 - 1 := by
    cases b.reportedTime report flag <;> simp
  obtain ⟨harray, -, -, inner, henter, hbool⟩ := hfollows.array _ _ _ _ _ _ h hsmall
  obtain ⟨hisBool, hgetBool, next, hnext, htime⟩ := hfollows.bool _ _ _ _ _ hbool
  have hstatus : (if hasFlag report.status flag.flag = true then info.status ||| flag.flag
      else info.status) = info.status ||| (report.status &&& flag.flag) := by
    rw [and_flag]
    cases hasFlag report.status flag.flag <;> simp
  -- The time, and the end of the assertion behind it.
  have hread : ∃ last, readTime cbor flag
      { info with status := info.status ||| (report.status &&& flag.flag) } next =
        some (info.note b report flag, last) ∧ Stands buffer last ([] :: rest :: outer) := by
    unfold readTime StatusInfo.note
    cases hreported : b.reportedTime report flag with
    | none =>
      rw [hreported] at htime
      have hatEnd : cbor.atEnd next = true := hfollows.atEnd _ _ _ _ htime
      exact ⟨next, by rw [if_pos hatEnd]; rfl, htime⟩
    | some time =>
      rw [hreported] at htime
      have hatEnd : cbor.atEnd next = false := hfollows.atEnd _ _ _ _ htime
      obtain ⟨hisTime, hgetTime, last, hlast, hend⟩ := hfollows.uint _ _ _ _ _ htime
      have heq : cbor.getUint64 next = time := UInt64.toNat_inj.mp hgetTime
      exact ⟨last, by simp [hatEnd, hisTime, hlast, heq], hend⟩
  obtain ⟨last, hlast, hend⟩ := hread
  have hatEnd : cbor.atEnd last = true := hfollows.atEnd _ _ _ _ hend
  obtain ⟨it', hleave, hit'⟩ := hfollows.leave _ _ _ _ _ _ _ h hend
  refine ⟨it', ?_, hit'⟩
  simp [readAssertion, harray, henter, hisBool, hgetBool, hnext, hstatus, hlast, hatEnd, hleave]

/-- The loop reads all of them. -/
theorem readAssertions_of_stands (info : StatusInfo) (hfollows : cbor.Follows Stands)
    (flags : List StatusReportStatus)
    (h : Stands buffer it (flags.map (assertionItem b report) :: outer)) :
    ∃ it', readAssertions cbor flags info it =
        some (flags.foldl (StatusInfo.note b report) info, it') ∧
      Stands buffer it' ([] :: outer) := by
  induction flags generalizing info it with
  | nil => exact ⟨it, rfl, h⟩
  | cons flag flags ih =>
    obtain ⟨next, hread, hnext⟩ := readAssertion_of_stands info hfollows h
    obtain ⟨it', hreads, hit'⟩ := ih (info.note b report flag) hnext
    refine ⟨it', ?_, hit'⟩
    simp [readAssertions, hread, hreads]

/-- What is read of the status information. -/
def Bundle.readStatusInfo (b : Bundle) (report : StatusReport) : StatusInfo :=
  statusInfoFlags.foldl (StatusInfo.note b report) ⟨0, fun _ => none⟩

theorem statusInfo_of_stands (hfollows : cbor.Follows Stands)
    (h : Stands buffer it
      ((.array true (statusInfoFlags.map (assertionItem b report)) :: rest) :: outer)) :
    ∃ it', statusInfo cbor it = some (b.readStatusInfo report, it') ∧
      Stands buffer it' (rest :: outer) := by
  obtain ⟨harray, hknown, hlength, inner, henter, hinner⟩ :=
    hfollows.array _ _ _ _ _ _ h (by simp [statusInfoFlags])
  obtain ⟨last, hread, hend⟩ :=
    readAssertions_of_stands ⟨0, fun _ => none⟩ hfollows statusInfoFlags hinner
  obtain ⟨it', hleave, hit'⟩ := hfollows.leave _ _ _ _ _ _ _ h hend
  have hfour : cbor.getArrayLength it = some 4 := hlength rfl
  refine ⟨it', ?_, hit'⟩
  simp [statusInfo, harray, hknown, hfour, henter, hread, hleave, Bundle.readStatusInfo]

/-- The flags that are encoded are read, and so are the times that are reported. -/
theorem readStatusInfo_status (b : Bundle) (report : StatusReport) :
    (b.readStatusInfo report).status = report.status &&& encodedStatusFlags := by
  show (((0 ||| (report.status &&& 0x01)) ||| (report.status &&& 0x04)) |||
    (report.status &&& 0x08)) ||| (report.status &&& 0x10) = _
  rw [Nat.zero_or, ← Nat.and_or_distrib_left, ← Nat.and_or_distrib_left,
    ← Nat.and_or_distrib_left]
  rfl

theorem note_times (flag other : StatusReportStatus) :
    (info.note b report flag).times other =
      if other = flag then (b.reportedTime report flag).or (info.times other)
      else info.times other := by
  unfold StatusInfo.note
  cases b.reportedTime report flag with
  | none => simp
  | some time => simp [Function.update_apply]

theorem readStatusInfo_times (b : Bundle) (report : StatusReport) :
    ∀ flag ∈ statusInfoFlags,
      (b.readStatusInfo report).times flag = b.reportedTime report flag := by
  unfold Bundle.readStatusInfo statusInfoFlags
  simp [note_times]

/-- The last fields are read. -/
theorem parseLastFields_of_stands (hfollows : cbor.Follows Stands) (htyped : b.Typed payload)
    {source : Item} (hsource : eidItem b.source = some source)
    (h : Stands buffer it ((source :: .array true [.uint b.creationTimestamp,
      .uint b.sequenceNumber] :: b.fragmentItems payload) :: outer)) :
    ∃ fields it', parseLastFields cbor b.isFragmented it = some (fields, it') ∧
      Stands buffer it' ([] :: outer) ∧
      fields.bundleSourceEid = eidRead b.source ∧
      fields.bundleCreationTimestamp.toNat = b.creationTimestamp ∧
      fields.bundleSequenceNumber.toNat = b.sequenceNumber ∧
      fields.fragment.map (fun f => (f.1.toNat, f.2.toNat)) =
        if b.isFragmented then some (b.fragmentOffset, payload.length) else none := by
  obtain ⟨behind, heid, hbehind⟩ := bundle7EidParseCbor_of_stands hfollows hsource h
  obtain ⟨harray, -, -, inner, henter, hinner⟩ :=
    hfollows.array _ _ _ _ _ _ hbehind (by simp)
  obtain ⟨hisCreation, hgetCreation, next, hnext, hsequence⟩ := hfollows.uint _ _ _ _ _ hinner
  obtain ⟨hisSequence, hgetSequence, last, hlast, hend⟩ := hfollows.uint _ _ _ _ _ hsequence
  have hatEnd : cbor.atEnd last = true := hfollows.atEnd _ _ _ _ hend
  obtain ⟨left, hleave, hleft⟩ := hfollows.leave _ _ _ _ _ _ _ hbehind hend
  have hfragment : ∃ fragment it', parseFragmentFields cbor b.isFragmented left =
      some (fragment, it') ∧ Stands buffer it' ([] :: outer) ∧
      fragment.map (fun f => (f.1.toNat, f.2.toNat)) =
        if b.isFragmented then some (b.fragmentOffset, payload.length) else none := by
    unfold Bundle.fragmentItems at hleft
    unfold parseFragmentFields
    cases hfragmented : b.isFragmented with
    | false =>
      rw [hfragmented] at hleft
      exact ⟨none, left, rfl, hleft, rfl⟩
    | true =>
      rw [hfragmented] at hleft
      obtain ⟨hisOffset, hgetOffset, second, hsecond, hlength⟩ :=
        hfollows.uint _ _ _ _ _ hleft
      obtain ⟨hisLength, hgetLength, it', hthird, hit'⟩ := hfollows.uint _ _ _ _ _ hlength
      have hoffset : (cbor.getUint64 left).toUInt32.toNat = b.fragmentOffset := by
        rw [UInt64.toNat_toUInt32, hgetOffset, Nat.mod_eq_of_lt htyped.fragmentOffset]
      have hlength : (cbor.getUint64 second).toUInt32.toNat = payload.length := by
        rw [UInt64.toNat_toUInt32, hgetLength, Nat.mod_eq_of_lt htyped.payloadLength]
      refine ⟨some ((cbor.getUint64 left).toUInt32, (cbor.getUint64 second).toUInt32), it', ?_,
        hit', ?_⟩
      · simp [hisOffset, hsecond, hisLength, hthird]
      · rw [Option.map_some, hoffset, hlength]
        rfl
  obtain ⟨fragment, it', hparse, hit', hread⟩ := hfragment
  refine ⟨⟨.ofNat (eidRead b.source).length, eidRead b.source, cbor.getUint64 inner,
    cbor.getUint64 next, fragment⟩, it', ?_, hit', rfl, hgetCreation, hgetSequence, hread⟩
  simp [parseLastFields, heid, harray, henter, hisCreation, hnext, hisSequence, hlast, hatEnd,
    hleave, hparse]

/-- The record that is read of the payload. -/
theorem parse_of_payload (hcbor : cbor.FollowsEncoding) (htyped : b.Typed payload)
    (hsource : Survives cbor b.source) (h : statusReportPayload b payload report = some bytes) :
    ∃ record, bundle7ParseAdministrativeRecord cbor bytes = some record ∧
      RecordOf b payload report (report.status &&& encodedStatusFlags) record := by
  have heidRead := hsource.eidRead_eq hcbor htyped.source
  obtain ⟨Stands, hfollows⟩ := hcbor
  obtain ⟨eid, heid, -⟩ := hsource
  obtain ⟨_, source, hbytes, hitem, hencodes⟩ :=
    statusReportPayload_encodes htyped heid
  obtain rfl := Option.some.inj (hbytes.symm.trans h)
  obtain ⟨it, hinit, hit⟩ := hfollows.init _ _ hencodes
  -- The record and its type.
  obtain ⟨harray, -, -, nested, henter, hnested⟩ := hfollows.array _ _ _ _ _ _ hit (by simp)
  obtain ⟨hisType, hgetType, next, hnext, hreport⟩ := hfollows.uint _ _ _ _ _ hnested
  -- The report.
  have hcount := length_reportItems b payload report source
  obtain ⟨hisReport, hknown, hlength, inner, henterReport, hinfo⟩ :=
    hfollows.array _ _ _ _ _ _ hreport (by rw [hcount]; split <;> decide)
  rw [hcount] at hlength
  obtain ⟨behind, hreadInfo, hreason⟩ := statusInfo_of_stands hfollows hinfo
  obtain ⟨hisReason, hgetReason, last, hlast, hfields⟩ := hfollows.uint _ _ _ _ _ hreason
  obtain ⟨fields, final, hreadFields, hend, hsource, hcreation, hsequence, hfragment⟩ :=
    parseLastFields_of_stands hfollows htyped hitem hfields
  have hatEnd : cbor.atEnd final = true := hfollows.atEnd _ _ _ _ hend
  obtain ⟨left, hleave, hleft⟩ := hfollows.leave _ _ _ _ _ _ _ hreport hend
  have hatEndRecord : cbor.atEnd left = true := hfollows.atEnd _ _ _ _ hleft
  have hreasonRead : (cbor.getUint64 behind).toNat % 2 ^ 32 = report.reason.code := by
    have := report.reason.code_lt
    rw [hgetReason, Nat.mod_eq_of_lt (by omega)]
  have hreadReport : statusReport cbor arStatusReport next =
      some (⟨arStatusReport, b.isFragmented, b.readStatusInfo report,
        (cbor.getUint64 behind).toNat % 2 ^ 32, fields⟩, left) := by
    have hsix : cbor.getArrayLength next = some (if b.isFragmented then 6 else 4) := hlength rfl
    unfold statusReport
    rw [hsix]
    cases hfragmented : b.isFragmented <;> rw [hfragmented] at hreadFields <;>
      simp [hisReport, hknown, henterReport, hreadInfo, hisReason, hlast, hreadFields, hatEnd,
        hleave]
  have htype : (cbor.getUint64 nested).toNat % 2 ^ 32 = arStatusReport := by
    rw [hgetType]
    rfl
  refine ⟨⟨arStatusReport, b.isFragmented, b.readStatusInfo report,
    (cbor.getUint64 behind).toNat % 2 ^ 32, fields⟩, ?_, ⟨rfl, readStatusInfo_status b report,
    readStatusInfo_times b report, hreasonRead, hsource.trans heidRead, hcreation, hsequence, rfl,
    hfragment⟩⟩
  have hpos := hencodes.length_pos.ne'
  simp [-Nat.reducePow, bundle7ParseAdministrativeRecord, administrativeRecord, hpos, hinit,
    harray, henter, hisType, htype, hnext, hreadReport, hatEndRecord]

/-- A status report is read back with the flags that BPv7 has. -/
theorem statusReport_readBack (cbor : PullParser) (hcbor : cbor.FollowsEncoding) (b : Bundle)
    (payload : Block) (htyped : b.Typed payload) (hsource : Survives cbor b.source)
    (report : StatusReport) :
    StatusReportReadBack cbor b payload report (report.status &&& encodedStatusFlags) := by
  have ⟨eid, heid, _⟩ := hsource
  obtain ⟨bytes, -, hbytes, -⟩ := statusReportPayload_encodes htyped heid
  obtain ⟨record, hparse, hrecord⟩ := parse_of_payload hcbor htyped hsource hbytes
  exact ⟨bytes, record, hbytes, length_statusReportPayload hcbor htyped hsource hbytes, hparse,
    hrecord⟩

/-- A payload of one byte. -/
def reportedPayload : Block where
  type := blockTypePayload
  number := 1
  flags := 0
  crcType := crcTypeNone
  length := 1
  data := [0]

/-- A bundle from `dtn:a` whose times are reported. -/
def reportedBundle : Bundle where
  protocolVersion := 7
  procFlags := flagReportStatusTime
  crcType := crcTypeNone
  destination := dtnPrefix ++ [98]
  source := dtnPrefix ++ [97]
  reportTo := dtnPrefix ++ [97]
  creationTimestamp := 1000
  sequenceNumber := 1
  lifetime := 60
  fragmentOffset := 0
  totalAduLength := 0
  primaryBlockLength := 0
  blocks := [reportedPayload]

/-- A report with this status. -/
def reportOf (status : Nat) : StatusReport where
  status := status
  bundleReceivedTime := 100
  bundleForwardedTime := 200
  bundleDeliveredTime := 0
  bundleDeletedTime := 0
  reason := .noInfo

theorem reportedBundle_typed : reportedBundle.Typed reportedPayload := by
  constructor <;> decide

theorem reportedBundle_survives : Survives itemParser reportedBundle.source :=
  ⟨[0x82, 1, 0x61, 97], by decide, by decide⟩

/-- The report that a bundle was received and forwarded. -/
theorem statusReport_readBack_forwarded :
    StatusReportReadBack itemParser reportedBundle reportedPayload (reportOf 5)
      ((reportOf 5).status &&& encodedStatusFlags) :=
  statusReport_readBack itemParser itemParser_follows reportedBundle reportedPayload
    reportedBundle_typed reportedBundle_survives (reportOf 5)

/-- The transfer of custody is not read back. -/
theorem custodyTransfer_not_readBack :
    itemParser.FollowsEncoding ∧ reportedBundle.Typed reportedPayload ∧
      reportedBundle.payloadBlock = some reportedPayload ∧
      Survives itemParser reportedBundle.source ∧
      ¬ StatusReportReadBack itemParser reportedBundle reportedPayload
        (reportOf StatusReportStatus.custodyTransfer.flag)
        (reportOf StatusReportStatus.custodyTransfer.flag).status := by
  refine ⟨itemParser_follows, reportedBundle_typed, by decide, reportedBundle_survives, ?_⟩
  rintro ⟨bytes, record, hbytes, -, hparse, hrecord⟩
  obtain ⟨other, hother, hread⟩ :=
    parse_of_payload itemParser_follows reportedBundle_typed reportedBundle_survives hbytes
  obtain rfl := Option.some.inj (hparse.symm.trans hother)
  exact absurd (hrecord.status.symm.trans hread.status) (by decide)

end Upcn.Bundle7
