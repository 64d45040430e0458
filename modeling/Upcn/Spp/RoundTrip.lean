import Upcn.Spp.DataLength
import Upcn.Spp.TimecodeRoundTrip

/-!
# The round trip of a space packet header

What `spp_parser_read` makes of the bytes that `spp_serialize_header` writes.

* `readChunks` is the reader of a stream that arrives in chunks.
* `Reads` says that the parser takes the bytes, and is behind the header with the last one.
* `serializeHeader_roundTrip` is the round trip.
-/

namespace Upcn.Spp

/-! ## The words of the primary header -/

/-- A word is read as it is written. -/
theorem word_writeUint16 (word : UInt16) :
    ((word >>> 8).toUInt8.toUInt16 <<< 8) ||| (word &&& 0xff).toUInt8.toUInt16 = word := by
  have hword := word.toNat_lt
  have hhigh : (word >>> 8).toUInt8.toNat = word.toNat / 256 := by
    rw [UInt16.toNat_toUInt8, UInt16.toNat_shiftRight, show (8 : UInt16).toNat % 16 = 8 from rfl,
      Nat.shiftRight_eq_div_pow]
    omega
  have hlow : (word &&& 0xff).toUInt8.toNat = word.toNat % 256 := by
    rw [UInt16.toNat_toUInt8, UInt16.toNat_and, show (0xff : UInt16).toNat = 2 ^ 8 - 1 from rfl,
      Nat.and_two_pow_sub_one_eq_mod, Nat.mod_mod]
  apply UInt16.toNat_inj.mp
  rw [SppParser.toNat_word, hhigh, hlow]
  omega

/-- A flag is a bit of the word. -/
theorem flag_eq_testBit (word : UInt16) {mask : UInt16} {i : Nat} (hmask : mask.toNat = 2 ^ i) :
    ((word &&& mask) != 0) = word.toNat.testBit i := by
  rw [Bool.eq_iff_iff, bne_iff_ne, ne_eq, ← UInt16.toNat_inj, UInt16.toNat_and, hmask,
    Nat.and_two_pow]
  have hpos := Nat.two_pow_pos i
  cases word.toNat.testBit i with
  | false => simp
  | true => simp

namespace SppPrimaryHeader

variable (header : SppPrimaryHeader)

/-- What `spp_serialize_primary_header` accepts. -/
structure InRange : Prop where
  apid : header.apid ≤ sppMaxApid
  segmentNumber : header.segmentNumber ≤ sppMaxSegmentNumber
  pos : 1 ≤ header.dataLength
  dataLength : header.dataLength ≤ sppMaxDataLength

/-- The first word, `part1`. -/
def firstWord : UInt16 :=
  let part1 : UInt16 := 0
  let part1 := if header.isRequest then part1 ||| 0x1000 else part1
  let part1 := if header.hasSecondaryHeader then part1 ||| 0x0800 else part1
  part1 ||| header.apid

/-- The second word, `part2`. -/
def secondWord : UInt16 := (header.segmentStatus.value <<< 14) ||| header.segmentNumber

/-- The third word, `len`. -/
def thirdWord : UInt16 := (header.dataLength - 1).toUInt16

/-- The bytes of the header. -/
def octets : List UInt8 :=
  writeUint16 header.firstWord ++ writeUint16 header.secondWord ++ writeUint16 header.thirdWord

variable {header}

theorem InRange.serialize (h : header.InRange) :
    serializePrimaryHeader header = some header.octets := by
  have happid : ¬header.apid > sppMaxApid := UInt16.not_lt.mpr h.apid
  have hlength : ¬header.dataLength > sppMaxDataLength := UInt64.not_lt.mpr h.dataLength
  have hsegment : ¬header.segmentNumber > sppMaxSegmentNumber := UInt16.not_lt.mpr h.segmentNumber
  rw [serializePrimaryHeader, if_neg happid, if_neg hlength, if_neg hsegment]
  rfl

theorem InRange.toNat_firstWord (h : header.InRange) :
    header.firstWord.toNat = 2 ^ 11 * (header.isRequest.toNat * 2 +
      header.hasSecondaryHeader.toNat) + header.apid.toNat := by
  have happid : header.apid.toNat < 2 ^ 11 :=
    Nat.lt_succ_of_le (UInt16.le_iff_toNat_le.mp h.apid)
  rw [Nat.two_pow_add_eq_or_of_lt happid]
  unfold firstWord
  dsimp only
  rw [UInt16.toNat_or]
  cases header.isRequest <;> cases header.hasSecondaryHeader <;> rfl

theorem InRange.toNat_secondWord (h : header.InRange) :
    header.secondWord.toNat =
      2 ^ 14 * header.segmentStatus.value.toNat + header.segmentNumber.toNat := by
  have hsegment : header.segmentNumber.toNat < 2 ^ 14 :=
    Nat.lt_succ_of_le (UInt16.le_iff_toNat_le.mp h.segmentNumber)
  rw [Nat.two_pow_add_eq_or_of_lt hsegment, secondWord, UInt16.toNat_or]
  cases header.segmentStatus <;> rfl

/-- The flags and the identifier are in the first word. -/
theorem InRange.firstWord (h : header.InRange) :
    ((header.firstWord &&& 0x1000) != 0) = header.isRequest ∧
      ((header.firstWord &&& 0x0800) != 0) = header.hasSecondaryHeader ∧
      header.firstWord &&& 0x07ff = header.apid := by
  have happid : header.apid.toNat < 2 ^ 11 :=
    Nat.lt_succ_of_le (UInt16.le_iff_toNat_le.mp h.apid)
  have hword := h.toNat_firstWord
  refine ⟨?_, ?_, ?_⟩
  · rw [flag_eq_testBit _ (show (0x1000 : UInt16).toNat = 2 ^ 12 from rfl), hword,
      Nat.testBit_eq_decide_div_mod_eq]
    cases header.isRequest <;> cases header.hasSecondaryHeader <;> simp <;> omega
  · rw [flag_eq_testBit _ (show (0x0800 : UInt16).toNat = 2 ^ 11 from rfl), hword,
      Nat.testBit_eq_decide_div_mod_eq]
    cases header.isRequest <;> cases header.hasSecondaryHeader <;> simp <;> omega
  · apply UInt16.toNat_inj.mp
    rw [UInt16.toNat_and, show (0x07ff : UInt16).toNat = 2 ^ 11 - 1 from rfl,
      Nat.and_two_pow_sub_one_eq_mod, hword]
    omega

/-- The segment fields are in the second word. -/
theorem InRange.secondWord (h : header.InRange) :
    SegmentStatus.ofValue ((header.secondWord &&& 0xc000) >>> 14) = header.segmentStatus ∧
      header.secondWord &&& 0x3fff = header.segmentNumber := by
  have hsegment : header.segmentNumber.toNat < 2 ^ 14 :=
    Nat.lt_succ_of_le (UInt16.le_iff_toNat_le.mp h.segmentNumber)
  have hword := h.toNat_secondWord
  refine ⟨?_, ?_⟩
  · have hvalue : (header.secondWord &&& 0xc000) >>> 14 = header.segmentStatus.value := by
      apply UInt16.toNat_inj.mp
      rw [UInt16.toNat_shiftRight, UInt16.toNat_and, show (14 : UInt16).toNat % 16 = 14 from rfl,
        Nat.shiftRight_and_distrib, show (0xc000 : UInt16).toNat >>> 14 = 2 ^ 2 - 1 from rfl,
        Nat.and_two_pow_sub_one_eq_mod, Nat.shiftRight_eq_div_pow, hword]
      have hless : header.segmentStatus.value.toNat < 4 := by
        cases header.segmentStatus <;> decide
      omega
    rw [hvalue]
    cases header.segmentStatus <;> rfl
  · apply UInt16.toNat_inj.mp
    rw [UInt16.toNat_and, show (0x3fff : UInt16).toNat = 2 ^ 14 - 1 from rfl,
      Nat.and_two_pow_sub_one_eq_mod, hword]
    omega

/-- The length is in the third word, less one. -/
theorem InRange.thirdWord (h : header.InRange) :
    header.thirdWord.toUInt64 + 1 = header.dataLength := by
  have hpos : 1 ≤ header.dataLength.toNat := UInt64.le_iff_toNat_le.mp h.pos
  have hmax : header.dataLength.toNat ≤ 65536 := UInt64.le_iff_toNat_le.mp h.dataLength
  apply UInt64.toNat_inj.mp
  rw [SppParser.toNat_length, SppPrimaryHeader.thirdWord, UInt64.toNat_toUInt16,
    UInt64.toNat_sub_of_le _ _ h.pos]
  show (header.dataLength.toNat - 1) % 65536 + 1 = header.dataLength.toNat
  omega

/-- The first byte is accepted. -/
theorem InRange.checkFirstByte (h : header.InRange) :
    checkFirstByte (header.firstWord >>> 8).toUInt8 = true := by
  have hall : ∀ n < 32, Upcn.Spp.checkFirstByte (UInt8.ofNat n) = true := by decide
  have happid : header.apid.toNat < 2 ^ 11 :=
    Nat.lt_succ_of_le (UInt16.le_iff_toNat_le.mp h.apid)
  have hless : (header.firstWord >>> 8).toUInt8.toNat < 32 := by
    rw [UInt16.toNat_toUInt8, UInt16.toNat_shiftRight, show (8 : UInt16).toNat % 16 = 8 from rfl,
      Nat.shiftRight_eq_div_pow, h.toNat_firstWord]
    have hrequest := header.isRequest.toNat_le
    have hsecondary := header.hasSecondaryHeader.toNat_le
    omega
  have hbyte := hall _ hless
  rwa [UInt8.ofNat_toNat] at hbyte

end SppPrimaryHeader

namespace SppParser

/-- The bytes are read chunk by chunk, up to the data or to where the parser stops. -/
def readChunks (ctx : SppContext) (parser : SppParser) :
    List (List UInt8) → Except SppFault (Nat × SppParser)
  | [] => .ok (0, parser)
  | chunk :: rest => do
    let (count, parser) ← parser.read ctx chunk
    if count < chunk.length ∨ parser.state = .dataSubparser then return (count, parser)
    let (later, parser) ← parser.readChunks ctx rest
    return (count + later, parser)

/-- The parser takes the bytes, and is in the data state with the last one of them. -/
inductive Reads (ctx : SppContext) : SppParser → List UInt8 → SppParser → Prop where
  | last {parser parser' : SppParser} {byte : UInt8} :
    parser.parseByte ctx byte = .ok (false, parser') → parser'.state = .dataSubparser →
    Reads ctx parser [byte] parser'
  | more {parser next parser' : SppParser} {byte : UInt8} {rest : List UInt8} :
    parser.parseByte ctx byte = .ok (true, next) → Reads ctx next rest parser' →
    Reads ctx parser (byte :: rest) parser'

variable {ctx : SppContext} {parser parser' start : SppParser} {header : List UInt8}

section
variable {byte : UInt8} {more : Bool}

theorem status_parseLenLsb (parser : SppParser) (byte : UInt8) :
    (parser.parseLenLsb ctx byte).2.status = parser.status := by
  rw [parseLenLsb]
  dsimp only
  split
  · rfl
  · split
    · rfl
    · split <;> rfl

theorem status_of_parseTimecode (h : parser.parseTimecode ctx byte = .ok (more, parser')) :
    parser'.status = parser.status := by
  unfold parseTimecode at h
  cases hfeed : parser.tcParser.feed byte with
  | error fault =>
    simp only [hfeed] at h
    cases h
  | ok result =>
    obtain ⟨status, next⟩ := result
    simp only [hfeed] at h
    cases status with
    | good =>
      obtain ⟨-, rfl⟩ := Prod.mk.inj (Except.ok.inj h)
      rfl
    | error =>
      obtain ⟨-, rfl⟩ := Prod.mk.inj (Except.ok.inj h)
      rfl
    | done =>
      dsimp only at h
      split at h <;> obtain ⟨-, rfl⟩ := Prod.mk.inj (Except.ok.inj h) <;> rfl

/-- The status of an error stays. -/
theorem status_of_parseByte (h : parser.parseByte ctx byte = .ok (more, parser'))
    (hgood : parser'.status = .good) : parser.status = .good := by
  unfold parseByte at h
  split at h
  · split at h <;> obtain ⟨-, rfl⟩ := Prod.mk.inj (Except.ok.inj h)
    · cases hgood
    · exact hgood
  case h_6 =>
    have hlast := congrArg (fun result => result.2.status) (Except.ok.inj h)
    exact (status_parseLenLsb parser byte).symm.trans (hlast.trans hgood)
  case h_7 => exact (status_of_parseTimecode h).symm.trans hgood
  case h_8 => cases h
  case h_9 => cases h
  all_goals
    obtain ⟨-, rfl⟩ := Prod.mk.inj (Except.ok.inj h)
    exact hgood

end

namespace Reads

theorem ne_nil (h : Reads ctx parser header parser') : header ≠ [] := by
  cases h <;> exact List.cons_ne_nil _ _

theorem state (h : Reads ctx parser header parser') : parser'.state = .dataSubparser := by
  induction h with
  | last _ hdata => exact hdata
  | more _ _ ih => exact ih

/-- The status was good all the time. -/
theorem good (h : Reads ctx parser header parser') (hgood : parser'.status = .good) :
    parser.status = .good := by
  induction h with
  | last hstep _ => exact status_of_parseByte hstep hgood
  | more hstep _ ih => exact status_of_parseByte hstep (ih hgood)

/-- In the data state nothing can be read. -/
theorem not_data (h : Reads ctx parser header parser') : parser.state ≠ .dataSubparser := by
  intro hdata
  have hfault : ∀ byte, parser.parseByte ctx byte = .error .assertion := by
    intro byte
    rw [parseByte, hdata]
  cases h with
  | last hstep _ => cases (hfault _).symm.trans hstep
  | more hstep _ => cases (hfault _).symm.trans hstep

/-- With the whole header in a chunk the parser stops behind it. -/
theorem read (h : Reads ctx parser header parser') (payload : List UInt8) :
    parser.read ctx (header ++ payload) = .ok (header.length, parser') := by
  induction h with
  | last hstep _ =>
    rw [List.cons_append, SppParser.read, hstep]
    rfl
  | more hstep _ ih =>
    rw [List.cons_append, SppParser.read, hstep]
    show (do
      let (count, parser) ← SppParser.read ctx _ _
      return (count + 1, parser)) = _
    rw [ih]
    rfl

/-- A part of the header in a chunk is read whole. -/
theorem read_part {part rest : List UInt8} (h : Reads ctx parser (part ++ rest) parser')
    (hrest : rest ≠ []) :
    ∃ next, parser.read ctx part = .ok (part.length, next) ∧ Reads ctx next rest parser' := by
  induction part generalizing parser with
  | nil => exact ⟨parser, rfl, h⟩
  | cons byte part ih =>
    generalize hall : byte :: part ++ rest = all at h
    cases h with
    | last hstep hdata =>
      have hnil := (List.cons.inj hall).2
      exact absurd (List.append_eq_nil_iff.mp hnil).2 hrest
    | more hstep hlater =>
      obtain ⟨rfl, rfl⟩ := List.cons.inj hall
      obtain ⟨next, hread, hnext⟩ := ih hlater
      refine ⟨next, ?_, hnext⟩
      rw [SppParser.read, hstep]
      show (do
        let (count, parser) ← SppParser.read ctx _ _
        return (count + 1, parser)) = _
      rw [hread]
      rfl

/-- In any chunks the parser stops behind the header. -/
theorem readChunks (h : Reads ctx parser header parser') {payload : List UInt8}
    {chunks : List (List UInt8)} (hchunks : chunks.flatten = header ++ payload) :
    parser.readChunks ctx chunks = .ok (header.length, parser') := by
  induction chunks generalizing parser header with
  | nil => exact absurd (List.nil_eq_append_iff.mp hchunks).1 h.ne_nil
  | cons chunk rest ih =>
    rw [List.flatten_cons] at hchunks
    have hwhole : ∀ tail, chunk = header ++ tail →
        parser.readChunks ctx (chunk :: rest) = .ok (header.length, parser') := by
      rintro tail rfl
      rw [SppParser.readChunks, h.read tail]
      show (if _ then _ else _) = _
      rw [if_pos (.inr h.state)]
      rfl
    rcases List.append_eq_append_iff.mp hchunks with ⟨tail, hheader, hrest⟩ | ⟨tail, hchunk, -⟩
    · by_cases htail : tail = []
      · exact hwhole [] (by rw [hheader, htail, List.append_nil, List.append_nil])
      · rw [hheader] at h
        obtain ⟨next, hread, hnext⟩ := h.read_part htail
        rw [SppParser.readChunks, hread]
        show (if _ then _ else _) = _
        rw [if_neg (by simpa using hnext.not_data), ih hnext hrest, hheader, List.length_append]
        rfl
    · exact hwhole tail hchunk

end Reads

/-! ## The timecode -/

/-- An octet of the timecode that is not the last one. -/
theorem parseByte_good {byte : UInt8} {tcParser : TcParser}
    (hstate : parser.state = .shTimecodeSubparser)
    (hfeed : parser.tcParser.feed byte = .ok (.good, tcParser)) :
    parser.parseByte ctx byte = .ok (true, { parser with
      dataLength := parser.dataLength - 1
      tcParser := tcParser }) := by
  rw [parseByte, hstate]
  dsimp only
  rw [parseTimecode]
  dsimp only
  rw [hfeed]
  dsimp only
  rw [hstate]

/-- The last octet of the timecode. -/
theorem parseByte_done {byte : UInt8} {tcParser : TcParser} (hzero : ctx.ancillaryDataLen = 0)
    (hstate : parser.state = .shTimecodeSubparser)
    (hfeed : parser.tcParser.feed byte = .ok (.done, tcParser)) :
    parser.parseByte ctx byte = .ok (false, { parser with
      dataLength := parser.dataLength - 1
      tcParser := tcParser
      dtnTimestamp := tcParser.dtnTimestamp
      state := .dataSubparser }) := by
  have hancillary : ¬ctx.ancillaryDataLen > 0 := by rw [hzero]; decide
  rw [parseByte, hstate]
  dsimp only
  rw [parseTimecode]
  dsimp only
  rw [hfeed]
  dsimp only
  rw [if_neg hancillary]

/-- The octets that complete the timecode are the end of the header. -/
theorem reads_timecode (parser : SppParser) {octets : List UInt8} {tcParser : TcParser}
    (hzero : ctx.ancillaryDataLen = 0) (hstate : parser.state = .shTimecodeSubparser)
    (h : parser.tcParser.Completes octets tcParser) :
    ∃ parser', Reads ctx parser octets parser' ∧ parser'.status = parser.status ∧
      parser'.header = parser.header ∧ parser'.dtnTimestamp = tcParser.dtnTimestamp ∧
      parser'.dataLength + UInt64.ofNat octets.length = parser.dataLength := by
  generalize hstart : parser.tcParser = tcStart at h
  induction h generalizing parser with
  | last hfeed =>
    exact ⟨_, .last (parseByte_done hzero hstate (hstart ▸ hfeed)) rfl, rfl, rfl, rfl,
      UInt64.sub_add_cancel parser.dataLength 1⟩
  | @more _ next _ byte rest hfeed _ ih =>
    obtain ⟨parser', hreads, hstatus, hheader, htime, hlength⟩ := @ih { parser with
      dataLength := parser.dataLength - 1
      tcParser := next } hstate rfl
    refine ⟨parser', .more (parseByte_good hstate (hstart ▸ hfeed)) hreads, hstatus, hheader, htime,
      ?_⟩
    rw [List.length_cons, UInt64.ofNat_add, ← UInt64.add_assoc, hlength]
    exact UInt64.sub_add_cancel parser.dataLength 1

/-! ## The primary header -/

theorem reads_five (hstate : start.state = .phP1Msb) {b₀ b₁ b₂ b₃ b₄ : UInt8}
    (hfirst : checkFirstByte b₀ = true) {rest : List UInt8}
    (h : Reads ctx (start.behindFive b₀ b₁ b₂ b₃ b₄) rest parser') :
    Reads ctx start (b₀ :: b₁ :: b₂ :: b₃ :: b₄ :: rest) parser' := by
  have hstep : start.parseByte ctx b₀ = .ok (true, { start with
      bufw := b₀.toUInt16 <<< 8
      state := .phP1Lsb }) := by
    rw [parseByte, hstate]
    dsimp only
    rw [hfirst, Bool.not_true, if_neg Bool.false_ne_true]
  exact .more hstep (.more rfl (.more rfl (.more rfl (.more rfl h))))

/-- The parser behind the primary header of these fields. -/
theorem parseLenLsb_eq (start : SppParser) {fields : SppPrimaryHeader} (h : fields.InRange)
    (hzero : ctx.ancillaryDataLen = 0) :
    let parser := start.behindFive (fields.firstWord >>> 8).toUInt8
      (fields.firstWord &&& 0xff).toUInt8 (fields.secondWord >>> 8).toUInt8
      (fields.secondWord &&& 0xff).toUInt8 (fields.thirdWord >>> 8).toUInt8
    parser.parseLenLsb ctx (fields.thirdWord &&& 0xff).toUInt8 =
      if fields.hasSecondaryHeader = false ∨ ctx.timecode = none then
        (false, { start with
          bufw := fields.thirdWord
          header := fields
          dataLength := fields.dataLength
          state := .dataSubparser })
      else
        (true, { start with
          bufw := fields.thirdWord
          header := fields
          dataLength := fields.dataLength
          state := .shTimecodeSubparser
          tcParser := (ctx.timecode.map start.tcParser.init).getD start.tcParser }) := by
  obtain ⟨hrequest, hsecondary, happid⟩ := h.firstWord
  obtain ⟨hstatus, hnumber⟩ := h.secondWord
  have hancillary : ¬ctx.ancillaryDataLen > 0 := by rw [hzero]; decide
  unfold parseLenLsb behindFive parsePhP1 parsePhP2 parsePhLen
  dsimp only
  rw [word_writeUint16, word_writeUint16, word_writeUint16, hrequest, hsecondary, happid, hstatus,
    hnumber, h.thirdWord, hzero, UInt64.sub_zero]
  by_cases hflag : fields.hasSecondaryHeader = true
  · have hset : ¬(!fields.hasSecondaryHeader) = true := by rw [hflag]; decide
    have hnot : ¬fields.hasSecondaryHeader = false := by rw [hflag]; decide
    rw [if_neg hset]
    cases htimecode : ctx.timecode with
    | none =>
      dsimp only
      rw [if_neg (by decide), if_pos (.inr rfl)]
    | some timecode =>
      have hboth : ¬(fields.hasSecondaryHeader = false ∨ some timecode = none) := by simp [hflag]
      rw [if_neg hboth]
      rfl
  · have hclear : fields.hasSecondaryHeader = false := Bool.eq_false_iff.mpr hflag
    rw [if_pos (by rw [hclear]; rfl), if_pos (.inl hclear)]

/-- Without a secondary header the primary header is the whole header. -/
theorem reads_primary {fields : SppPrimaryHeader} (h : fields.InRange)
    (hzero : ctx.ancillaryDataLen = 0) (htimecode : ctx.timecode = none)
    (hstate : start.state = .phP1Msb) :
    ∃ parser', Reads ctx start fields.octets parser' ∧ parser'.status = start.status ∧
      parser'.header = fields ∧ parser'.dataLength = fields.dataLength := by
  have hlast := parseLenLsb_eq start h hzero
  dsimp only at hlast
  rw [if_pos (.inr htimecode)] at hlast
  exact ⟨_, reads_five hstate h.checkFirstByte (.last (congrArg Except.ok hlast) rfl), rfl, rfl,
    rfl⟩

/-- With a timecode its octets follow. -/
theorem reads_secondary {fields : SppPrimaryHeader} (h : fields.InRange)
    (hzero : ctx.ancillaryDataLen = 0) (hsecondary : fields.hasSecondaryHeader = true)
    {timecode : TcContext} (htimecode : ctx.timecode = some timecode)
    (hstate : start.state = .phP1Msb) {octets : List UInt8} {tcParser : TcParser}
    (hoctets : (start.tcParser.init timecode).Completes octets tcParser) :
    ∃ parser', Reads ctx start (fields.octets ++ octets) parser' ∧
      parser'.status = start.status ∧ parser'.header = fields ∧
      parser'.dtnTimestamp = tcParser.dtnTimestamp ∧
      parser'.dataLength + UInt64.ofNat octets.length = fields.dataLength := by
  have hlast := parseLenLsb_eq start h hzero
  dsimp only at hlast
  have hboth : ¬(fields.hasSecondaryHeader = false ∨ ctx.timecode = none) := by
    simp [hsecondary, htimecode]
  rw [if_neg hboth, htimecode] at hlast
  obtain ⟨parser', hreads, hstatus, hheader, htime, hlength⟩ := reads_timecode { start with
    bufw := fields.thirdWord
    header := fields
    dataLength := fields.dataLength
    state := .shTimecodeSubparser
    tcParser := start.tcParser.init timecode } hzero rfl hoctets
  exact ⟨parser', reads_five hstate h.checkFirstByte (.more (congrArg Except.ok hlast) hreads),
    hstatus, hheader, htime, hlength⟩

end SppParser

/-! ## The round trip -/

namespace TcContext

variable {timecode : TcContext}

theorem Supported.size_le (h : timecode.Supported) : timecode.size ≤ 15 := by
  have hbase := h.base
  have hfractional := h.fractional
  unfold size
  split
  · split
    · split <;> omega
    · omega
  · omega

/-- There are octets of a timecode. -/
theorem Supported.size_pos (h : timecode.Supported) : 1 ≤ timecode.size := by
  have hunsegmented : timecode.defaults.type.isUnsegmented = true := by rw [h.type]; rfl
  have hbase := h.base
  rw [size, if_pos hunsegmented]
  omega

end TcContext

/-- The contexts whose timecodes the parser can hold, without ancillary data. -/
structure SppContext.Supported (ctx : SppContext) : Prop where
  ancillary : ctx.ancillaryDataLen = 0
  timecode : ∀ timecode, ctx.timecode = some timecode → timecode.Supported

/-- What `spp_serialize_primary_header` accepts of the metadata. -/
structure SppMeta.InRange (metadata : SppMeta) : Prop where
  apid : metadata.apid ≤ sppMaxApid
  segmentNumber : metadata.segmentNumber ≤ sppMaxSegmentNumber

namespace SppContext

variable {ctx : SppContext} {metadata : SppMeta} {payloadLen : UInt64}

theorem Supported.timecodeSize_some (h : ctx.Supported) {timecode : TcContext}
    (htimecode : ctx.timecode = some timecode) : ctx.timecodeSize.toNat = timecode.size := by
  have hle := (h.timecode timecode htimecode).size_le
  rw [timecodeSize, htimecode]
  exact UInt64.toNat_ofNat_of_lt' (show timecode.size < 2 ^ 64 by omega)

theorem Supported.timecodeSize_le (h : ctx.Supported) : ctx.timecodeSize.toNat ≤ 15 := by
  cases htimecode : ctx.timecode with
  | none =>
    rw [timecodeSize, htimecode]
    decide
  | some timecode =>
    rw [h.timecodeSize_some htimecode]
    exact (h.timecode timecode htimecode).size_le

/-- The lengths, without a wrap. -/
theorem Supported.lengths (h : ctx.Supported) (hmin : ctx.minPayloadSize ≤ payloadLen)
    (hmax : payloadLen ≤ ctx.maxPayloadSize) :
    (payloadLen + ctx.ancillaryDataLen + ctx.timecodeSize).toNat =
        payloadLen.toNat + ctx.timecodeSize.toNat ∧
      1 ≤ payloadLen.toNat + ctx.timecodeSize.toNat ∧
      payloadLen.toNat + ctx.timecodeSize.toNat ≤ 65536 := by
  have hsize := h.timecodeSize_le
  have hbounds : 1 ≤ payloadLen.toNat + ctx.timecodeSize.toNat ∧
      payloadLen.toNat + ctx.timecodeSize.toNat ≤ 65536 := by
    unfold minPayloadSize at hmin
    unfold maxPayloadSize at hmax
    dsimp only at hmax
    rw [h.ancillary, UInt64.sub_zero] at hmax
    cases htimecode : ctx.timecode with
    | none =>
      rw [htimecode, h.ancillary] at hmin
      rw [htimecode] at hmax
      have hone : 1 ≤ payloadLen.toNat := UInt64.le_iff_toNat_le.mp hmin
      have hmore : payloadLen.toNat ≤ 65536 := UInt64.le_iff_toNat_le.mp hmax
      have hnone : ctx.timecodeSize = 0 := by rw [timecodeSize, htimecode]; rfl
      rw [hnone]
      exact ⟨hone, hmore⟩
    | some timecode =>
      have hsome := h.timecodeSize_some htimecode
      have htaken := TcContext.Supported.size_pos (h.timecode timecode htimecode)
      rw [htimecode, Option.isSome_some, if_pos rfl] at hmax
      have hle : ctx.timecodeSize ≤ sppMaxDataLength :=
        UInt64.le_iff_toNat_le.mpr (Nat.le_trans hsize (by decide))
      rw [UInt64.le_iff_toNat_le, UInt64.toNat_sub_of_le _ _ hle] at hmax
      have hmore : payloadLen.toNat ≤ 65536 - ctx.timecodeSize.toNat := hmax
      omega
  refine ⟨?_, hbounds⟩
  rw [h.ancillary, UInt64.add_zero, UInt64.toNat_add]
  exact Nat.mod_eq_of_lt (by omega)

/-- The primary header is one that is accepted. -/
theorem Supported.inRange (h : ctx.Supported) (hmeta : metadata.InRange)
    (hmin : ctx.minPayloadSize ≤ payloadLen) (hmax : payloadLen ≤ ctx.maxPayloadSize) :
    (ctx.primaryHeader metadata payloadLen).InRange := by
  obtain ⟨hlength, hpos, hle⟩ := h.lengths hmin hmax
  refine ⟨hmeta.apid, hmeta.segmentNumber, UInt64.le_iff_toNat_le.mpr ?_,
    UInt64.le_iff_toNat_le.mpr ?_⟩
  · show 1 ≤ (payloadLen + ctx.ancillaryDataLen + ctx.timecodeSize).toNat
    omega
  · show (payloadLen + ctx.ancillaryDataLen + ctx.timecodeSize).toNat ≤ 65536
    omega

/-- The size without the payload. -/
theorem Supported.size_sub (h : ctx.Supported) (hmin : ctx.minPayloadSize ≤ payloadLen)
    (hmax : payloadLen ≤ ctx.maxPayloadSize) :
    (ctx.size payloadLen - payloadLen).toNat = 6 + ctx.timecodeSize.toNat := by
  obtain ⟨-, hpos, hle⟩ := h.lengths hmin hmax
  have hnot : ¬(payloadLen = 0 ∧ ctx.ancillaryDataLen = 0 ∧ ctx.timecode = none) := by
    rintro ⟨rfl, -, hnone⟩
    have hzero : ctx.timecodeSize = 0 := by rw [timecodeSize, hnone]; rfl
    rw [hzero] at hpos
    exact absurd hpos (by decide)
  have hsum : ctx.size payloadLen = sppPrimaryHeaderSize + ctx.timecodeSize + payloadLen := by
    rw [size, if_neg hnot, h.ancillary, UInt64.zero_add, UInt64.add_assoc, UInt64.add_comm]
  rw [hsum, UInt64.add_sub_cancel, UInt64.toNat_add]
  have hsize := h.timecodeSize_le
  exact Nat.mod_eq_of_lt (show 6 + ctx.timecodeSize.toNat < 2 ^ 64 by omega)

/-- The header that is written is read, and the parser is behind it with its fields. -/
theorem Supported.reads (hctx : ctx.Supported) (hmeta : metadata.InRange)
    (hmin : ctx.minPayloadSize ≤ payloadLen) (hmax : payloadLen ≤ ctx.maxPayloadSize)
    {start : SppParser} (hstate : start.state = .phP1Msb) :
    ∃ header parser, ctx.serializeHeader metadata payloadLen = some header ∧
      header.length = 6 + ctx.timecodeSize.toNat ∧ SppParser.Reads ctx start header parser ∧
      parser.status = start.status ∧ parser.header = ctx.primaryHeader metadata payloadLen ∧
      parser.dataLength = payloadLen ∧
      ∀ timecode, ctx.timecode = some timecode →
        metadata.dtnTimestamp.toNat + ccsdsEpochToDtnEpoch.toNat <
          2 ^ (8 * timecode.defaults.baseUnitOctets.toNat) →
        parser.dtnTimestamp = metadata.dtnTimestamp := by
  have hrange := hctx.inRange hmeta hmin hmax
  have hzero := hctx.ancillary
  have hdataLength : (ctx.primaryHeader metadata payloadLen).dataLength =
      payloadLen + ctx.timecodeSize := by
    show payloadLen + ctx.ancillaryDataLen + ctx.timecodeSize = _
    rw [hzero, UInt64.add_zero]
  cases htimecode : ctx.timecode with
  | none =>
    obtain ⟨parser, hreads, hstatus, hheader, hlength⟩ :=
      SppParser.reads_primary hrange hzero htimecode hstate
    have hnone : ctx.timecodeSize = 0 := by rw [timecodeSize, htimecode]; rfl
    refine ⟨_, parser, ?_, ?_, hreads, hstatus, hheader, ?_, fun _ hsome => nomatch hsome⟩
    · rw [serializeHeader, hrange.serialize, htimecode]
      rfl
    · rw [hnone]
      rfl
    · rw [hlength, hdataLength, hnone, UInt64.add_zero]
  | some timecode =>
    obtain ⟨octets, tcParser, hserialize, hsize, hcompletes, htime⟩ :=
      (hctx.timecode timecode htimecode).completes start.tcParser metadata.dtnTimestamp
        metadata.dtnCounter
    have hsecondary : (ctx.primaryHeader metadata payloadLen).hasSecondaryHeader = true := by
      show (ctx.ancillaryDataLen > 0 || ctx.timecode.isSome) = true
      rw [htimecode, Option.isSome_some, Bool.or_true]
    obtain ⟨parser, hreads, hstatus, hheader, hread, hlength⟩ :=
      SppParser.reads_secondary hrange hzero hsecondary htimecode hstate hcompletes
    refine ⟨_, parser, ?_, ?_, hreads, hstatus, hheader, ?_, fun other hother hfits => ?_⟩
    · rw [serializeHeader, hrange.serialize, htimecode]
      show (do
        let octets ← timecode.serialize _ _
        return _ ++ octets) = _
      rw [hserialize]
      rfl
    · rw [List.length_append, hsize, hctx.timecodeSize_some htimecode]
      rfl
    · have hsame : UInt64.ofNat octets.length = ctx.timecodeSize := by
        rw [hsize, timecodeSize, htimecode]
        rfl
      rw [hdataLength, hsame] at hlength
      exact (UInt64.add_left_inj _).mp hlength
    · obtain rfl := Option.some.inj hother
      rw [hread, htime hfits]

/-- The header that is written is read back, in any chunks. -/
theorem Supported.serializeHeader_roundTrip (hctx : ctx.Supported) (hmeta : metadata.InRange)
    (hmin : ctx.minPayloadSize ≤ payloadLen) (hmax : payloadLen ≤ ctx.maxPayloadSize)
    {start : SppParser} (hstate : start.state = .phP1Msb) :
    ∃ header, ctx.serializeHeader metadata payloadLen = some header ∧
      header.length = (ctx.size payloadLen - payloadLen).toNat ∧
      ∀ payload chunks, chunks.flatten = header ++ payload →
        ∃ parser read, start.readChunks ctx chunks = .ok (header.length, parser) ∧
          parser.state = .dataSubparser ∧ parser.getDataLength = some payloadLen ∧
          parser.getMeta = some read ∧ read.apid = metadata.apid ∧
          read.isRequest = metadata.isRequest ∧
          read.segmentStatus = metadata.segmentStatus ∧
          read.segmentNumber = metadata.segmentNumber ∧
          ∀ timecode, ctx.timecode = some timecode →
            metadata.dtnTimestamp.toNat + ccsdsEpochToDtnEpoch.toNat <
              2 ^ (8 * timecode.defaults.baseUnitOctets.toNat) →
            read.dtnTimestamp = metadata.dtnTimestamp := by
  obtain ⟨header, parser, hserialize, hlength, hreads, -, hheader, hdata, htime⟩ :=
    hctx.reads hmeta hmin hmax hstate
  refine ⟨header, hserialize, hlength.trans (hctx.size_sub hmin hmax).symm,
    fun payload chunks hchunks => ?_⟩
  have hbehind := hreads.state
  refine ⟨parser, { metadata with dtnTimestamp := parser.dtnTimestamp, dtnCounter := 0 },
    hreads.readChunks hchunks, hbehind, ?_, ?_, rfl, rfl, rfl, rfl, htime⟩
  · rw [SppParser.getDataLength, hbehind, hdata]
  · rw [SppParser.getMeta, hbehind, hheader]
    rfl

/-- A timecode of four octets and two fractional ones, and ten bytes of data. -/
theorem serializeHeader_roundTrip_ten :
    let ctx : SppContext := ⟨some ⟨true, ⟨.unsegmentedCcsdsEpoch, 4, 2⟩⟩, 0⟩
    let metadata : SppMeta := ⟨true, 0x155, .unsegmented, 7, 1000, 0⟩
    ∃ header, ctx.serializeHeader metadata 10 = some header ∧
      header.length = (ctx.size 10 - 10).toNat ∧
      ∀ payload chunks, chunks.flatten = header ++ payload →
        ∃ parser read, SppParser.blank.readChunks ctx chunks = .ok (header.length, parser) ∧
          parser.state = .dataSubparser ∧ parser.getDataLength = some 10 ∧
          parser.getMeta = some read ∧ read.apid = metadata.apid ∧
          read.isRequest = metadata.isRequest ∧
          read.segmentStatus = metadata.segmentStatus ∧
          read.segmentNumber = metadata.segmentNumber ∧
          ∀ timecode, ctx.timecode = some timecode →
            metadata.dtnTimestamp.toNat + ccsdsEpochToDtnEpoch.toNat <
              2 ^ (8 * timecode.defaults.baseUnitOctets.toNat) →
            read.dtnTimestamp = metadata.dtnTimestamp :=
  Supported.serializeHeader_roundTrip
    ⟨rfl, fun timecode htimecode => by
      obtain rfl := Option.some.inj htimecode
      exact ⟨rfl, ⟨by decide, by decide⟩, by decide⟩⟩
    ⟨by decide, by decide⟩ (by decide) (by decide) rfl

end SppContext

end Upcn.Spp
