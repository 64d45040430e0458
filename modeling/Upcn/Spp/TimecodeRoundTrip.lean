import Upcn.Spp.TimecodeBounds

/-!
# The round trip of a timecode

What `spp_tc_parser_feed` makes of the octets that `spp_tc_serialize` writes.

* `Completes` says that the parser takes the octets and is done with the last one.
* `Announces` says which octet counts a preamble stands for.
* `Supported.completes` is the round trip.
-/

namespace Upcn.Spp

namespace TcParser

/-- The parser takes the bytes, and is done with the last one of them. -/
inductive Completes : TcParser → List UInt8 → TcParser → Prop where
  | last {parser parser' : TcParser} {byte : UInt8} :
    parser.feed byte = .ok (.done, parser') → Completes parser [byte] parser'
  | more {parser next parser' : TcParser} {byte : UInt8} {rest : List UInt8} :
    parser.feed byte = .ok (.good, next) → Completes next rest parser' →
    Completes parser (byte :: rest) parser'

variable {parser parser' : TcParser} {byte : UInt8} {b f : Nat}

/-! ## The octets -/

/-- An octet is put behind the count. -/
def pushOctet (count : UInt64) (byte : UInt8) : UInt64 := (count <<< 8) ||| byte.toUInt64

/-- The end of an octet changes only which octets are read next. -/
theorem advance_frame (parser : TcParser) :
    parser.unsegmentedAdvance.2.format = parser.format ∧
      parser.unsegmentedAdvance.2.fractionalRemaining = parser.fractionalRemaining ∧
      parser.unsegmentedAdvance.2.baseUnitCount = parser.baseUnitCount := by
  unfold unsegmentedAdvance
  dsimp only
  split <;> split <;> exact ⟨rfl, rfl, rfl⟩

/-- An octet of the base unit goes into the count, and a fractional one does not. -/
theorem Reading.feed_count (h : parser.Reading b f) {result : TcStatus}
    (hfeed : parser.feed byte = .ok (result, parser')) :
    parser'.format = parser.format ∧ parser'.status = result ∧
      (0 < b → parser'.fractionalRemaining = parser.fractionalRemaining ∧
        parser'.baseUnitCount = pushOctet parser.baseUnitCount byte) ∧
      (b = 0 → parser'.readBaseUnit = true ∧
        parser'.baseUnitCount = parser.baseUnitCount) := by
  rcases h.octets with ⟨hread, hpos, -⟩ | ⟨hread, hzero, -, hptr⟩
  · rw [feed_base h.type hread] at hfeed
    obtain ⟨rfl, rfl⟩ := Prod.mk.inj (Except.ok.inj hfeed)
    obtain ⟨hformat, hremaining, hcount⟩ := advance_frame (parser.takeBase byte)
    exact ⟨hformat, rfl, fun _ => ⟨hremaining, hcount⟩, fun hzero => absurd hzero (by omega)⟩
  · have hpos := h.pos
    rw [feed_fractional h.type hread (show _ < 6 by omega)] at hfeed
    obtain ⟨rfl, rfl⟩ := Prod.mk.inj (Except.ok.inj hfeed)
    obtain ⟨hformat, -, hcount⟩ := advance_frame (parser.takeFractional byte)
    refine ⟨hformat, rfl, fun hmore => absurd hzero (by omega), fun _ => ⟨?_, hcount⟩⟩
    have hsame : (parser.takeFractional byte).readBaseUnit = true := hread
    rw [advance_fractional (.inl hsame)]

/-- The octets that are missing complete the timecode, and those of the base unit are its
count. -/
theorem Reading.completes (h : parser.Reading b f) {bytes : List UInt8}
    (hlength : bytes.length = b + f) :
    ∃ parser', Completes parser bytes parser' ∧ parser'.status = .done ∧
      parser'.format = parser.format ∧
      parser'.baseUnitCount = (bytes.take b).foldl pushOctet parser.baseUnitCount := by
  induction bytes generalizing parser b f with
  | nil => exact absurd h.pos (by rw [← hlength]; exact Nat.lt_irrefl 0)
  | cons byte rest ih =>
    rw [List.length_cons] at hlength
    rcases h.feed byte with ⟨hlast, parser', hfeed⟩ | ⟨next, b', f', hfeed, hnext, hless⟩
    · obtain ⟨hformat, hstatus, hbase, hfractional⟩ := h.feed_count hfeed
      obtain rfl : rest = [] := List.eq_nil_of_length_eq_zero (by omega)
      refine ⟨parser', .last hfeed, hstatus, hformat, ?_⟩
      rcases Nat.eq_zero_or_pos b with rfl | hpos
      · exact (hfractional rfl).2
      · obtain rfl : b = 1 := by omega
        exact (hbase hpos).2
    · obtain ⟨hformat, -, hbase, hfractional⟩ := h.feed_count hfeed
      obtain ⟨parser', hcompletes, hstatus, hsame, hcount⟩ := ih hnext (by omega)
      refine ⟨parser', .more hfeed hcompletes, hstatus, hsame.trans hformat, ?_⟩
      rw [hcount]
      rcases Nat.eq_zero_or_pos b with rfl | hpos
      · obtain ⟨hread, hkept⟩ := hfractional rfl
        have hzero : b' = 0 := by
          rcases hnext.octets with ⟨hnot, -⟩ | ⟨-, hzero, -⟩
          · exact absurd (hnot.symm.trans hread) Bool.false_ne_true
          · exact hzero
        rw [hzero, hkept]
        rfl
      · obtain ⟨hremaining, hpush⟩ := hbase hpos
        have hsame : f' = f := by
          rw [← hnext.fractional, ← h.fractional, hremaining]
        obtain rfl : b = b' + 1 := by omega
        rw [hpush]
        rfl

/-! ## The value -/

theorem serializeOctets_length (value : UInt64) (n shift : Nat) :
    (serializeOctets value n shift).length = n := by
  induction n generalizing shift with
  | zero => rfl
  | succ n ih => rw [serializeOctets, List.length_cons, ih]

theorem toNat_shiftRight_ofNat (value : UInt64) {n : Nat} (hn : n ≤ 7) :
    (value >>> UInt64.ofNat (8 * n)).toNat = value.toNat / 2 ^ (8 * n) := by
  have hshift : (UInt64.ofNat (8 * n)).toNat = 8 * n :=
    UInt64.toNat_ofNat_of_lt' (show 8 * n < 2 ^ 64 by omega)
  rw [UInt64.toNat_shiftRight, hshift, Nat.mod_eq_of_lt (by omega), Nat.shiftRight_eq_div_pow]

theorem toNat_pushOctet {count : UInt64} (byte : UInt8) (hcount : count.toNat < 2 ^ 56) :
    (pushOctet count byte).toNat = count.toNat * 256 + byte.toNat := by
  unfold pushOctet
  rw [UInt64.toNat_or, UInt64.toNat_shiftLeft, UInt8.toNat_toUInt64,
    show (8 : UInt64).toNat % 64 = 8 from rfl, Nat.mod_eq_of_lt (by rw [Nat.shiftLeft_eq]; omega),
    ← Nat.shiftLeft_add_eq_or_of_lt byte.toNat_lt, Nat.shiftLeft_eq]

theorem toNat_octet (word : UInt64) : (word &&& 0xff).toUInt8.toNat = word.toNat % 256 := by
  rw [UInt64.toNat_toUInt8, UInt64.toNat_and, show (0xff : UInt64).toNat = 2 ^ 8 - 1 from rfl,
    Nat.and_two_pow_sub_one_eq_mod, Nat.mod_mod]

/-- The octet at a shift, behind what is left of it. -/
theorem pushOctet_shift (value : UInt64) {n : Nat} (hn : n ≤ 6) :
    pushOctet (value >>> UInt64.ofNat (8 * (n + 1)))
        ((value >>> UInt64.ofNat (8 * n)) &&& 0xff).toUInt8 =
      value >>> UInt64.ofNat (8 * n) := by
  have hhigh : (value >>> UInt64.ofNat (8 * (n + 1))).toNat = value.toNat / 2 ^ (8 * n) / 256 := by
    rw [toNat_shiftRight_ofNat value (by omega), Nat.div_div_eq_div_mul, Nat.mul_succ, Nat.pow_add]
  have hlow := toNat_shiftRight_ofNat value (n := n) (by omega)
  have hlt : value.toNat / 2 ^ (8 * n) / 256 < 2 ^ 56 := by
    have hless := Nat.div_le_self value.toNat (2 ^ (8 * n))
    have hvalue := value.toNat_lt
    omega
  apply UInt64.toNat_inj.mp
  rw [toNat_pushOctet _ (by rwa [hhigh]), hhigh, toNat_octet, hlow]
  omega
/-- The octets of a value, the most significant one first, are put together again. -/
theorem foldl_pushOctet (value : UInt64) {n : Nat} (hn : n ≤ 7) :
    (serializeOctets value n ((n - 1) * 8)).foldl pushOctet (value >>> UInt64.ofNat (8 * n)) =
      value := by
  induction n with
  | zero => exact UInt64.shiftRight_zero
  | succ n ih =>
    have hshift : (n + 1 - 1) * 8 = 8 * n := by omega
    rw [serializeOctets, List.foldl_cons, hshift, pushOctet_shift value (by omega)]
    have hnext : 8 * n - 8 = (n - 1) * 8 := by omega
    rw [hnext]
    exact ih (by omega)

/-! ## The preamble -/

/-- The octets of a preamble stand for the counts. -/
def Announces (octets : List UInt8) (b f : Nat) : Prop :=
  preamble octets = octets ∧ baseUnitSum octets = b ∧ fractionalSum octets = f ∧
    ((octets.head?.map TcType.detect) = some .unsegmentedCcsdsEpoch) ∧
    (octets.map fun (byte : UInt8) => (byte &&& 0x80) != 0) ∈ [[false], [true, false]]

instance (octets : List UInt8) (b f : Nat) : Decidable (Announces octets b f) := by
  unfold Announces
  infer_instance

theorem serializePreamble_announces : ∀ b < 8, ∀ f < 7, 1 ≤ b →
    ∃ octets ∈ (TcConfig.mk .unsegmentedCcsdsEpoch (UInt8.ofNat b)
        (UInt8.ofNat f)).serializePreamble,
      Announces octets b f := by
  decide +kernel

/-- The parser waits for the octets, and its count is still 0. -/
def Ready (parser : TcParser) (b f : Nat) : Prop :=
  parser.Reading b f ∧ parser.baseUnitCount = 0

theorem ready_startFromConfig (parser : TcParser)
    (htype : parser.format.type = .unsegmentedCcsdsEpoch)
    (hbase : 0 < parser.format.baseUnitOctets.toNat)
    (hfractional : parser.format.fractionalOctets.toNat ≤ 6) :
    parser.startFromConfig.Ready parser.format.baseUnitOctets.toNat
      parser.format.fractionalOctets.toNat :=
  ⟨⟨htype, rfl, .inl ⟨rfl, hbase, rfl, rfl, hfractional⟩⟩, rfl⟩

/-- An octet of a preamble keeps the type of the first one, and the format stays unknown. -/
theorem parse_type {type : TcType} (hunknown : parser.format.type = .unknown)
    (htype : if parser.hasSecondOctet then parser.detectedType = type
      else TcType.detect byte = type) :
    let parsed := if !parser.hasSecondOctet then parser.pfieldParseFirst byte
      else parser.pfieldParseSecond byte
    parsed.2.detectedType = type ∧ parsed.2.format.type = .unknown := by
  cases hsecond : parser.hasSecondOctet with
  | false =>
    rw [hsecond, if_neg Bool.false_ne_true] at htype
    rw [Bool.not_false, if_pos rfl]
    unfold pfieldParseFirst
    dsimp only
    split <;> exact ⟨htype, hunknown⟩
  | true =>
    rw [hsecond, if_pos rfl] at htype
    rw [Bool.not_true, if_neg Bool.false_ne_true]
    unfold pfieldParseSecond
    dsimp only
    split <;> exact ⟨htype, hunknown⟩

/-- The type of the first octet is the one that the preamble ends with. -/
theorem feed_type (type : TcType) {result : TcStatus} (hunknown : parser.format.type = .unknown)
    (htype : if parser.hasSecondOctet then parser.detectedType = type
      else TcType.detect byte = type)
    (hfeed : parser.feed byte = .ok (result, parser')) :
    parser'.detectedType = type ∧
      (parser'.format.type = .unknown ∨ parser'.format.type = type) := by
  have hpfield : parser.feed byte = .ok ((parser.pfieldFeed byte).1,
      { (parser.pfieldFeed byte).2 with status := (parser.pfieldFeed byte).1 }) := by
    unfold feed feedType
    rw [hunknown]
    rfl
  rw [hpfield] at hfeed
  obtain ⟨-, rfl⟩ := Prod.mk.inj (Except.ok.inj hfeed)
  show (parser.pfieldFeed byte).2.detectedType = type ∧
    ((parser.pfieldFeed byte).2.format.type = .unknown ∨
      (parser.pfieldFeed byte).2.format.type = type)
  have hparse := parse_type hunknown htype
  unfold pfieldFeed
  dsimp only at hparse ⊢
  generalize (if !parser.hasSecondOctet then parser.pfieldParseFirst byte
    else parser.pfieldParseSecond byte) = parsed at hparse
  obtain ⟨result, next⟩ := parsed
  obtain ⟨hdetected, hformat⟩ := hparse
  dsimp only at hdetected hformat ⊢
  split
  · exact ⟨hdetected, .inl hformat⟩
  · split
    · exact ⟨hdetected, .inr hdetected⟩
    · exact ⟨hdetected, .inl hformat⟩

/-- Behind a preamble of this type. -/
theorem BehindPreamble.ready {front : List UInt8} (h : parser.BehindPreamble front)
    (htype : parser.format.type = .unknown ∨ parser.format.type = .unsegmentedCcsdsEpoch)
    (hne : front ≠ []) (hbase : baseUnitSum front ≤ 255) (hfractional : fractionalSum front ≤ 6) :
    parser.Ready (baseUnitSum front) (fractionalSum front) := by
  refine ⟨(h.reading hne hbase hfractional).resolve_left fun hcustom => ?_, h.count⟩
  rcases htype with htype | htype <;> exact absurd (hcustom.symm.trans htype) (by decide)

/-- A preamble that announces the counts is read, and the octets are waited for. -/
theorem ready_preamble (parser : TcParser) {ctx : TcContext} (hctx : ctx.withPField = true)
    {octets : List UInt8} (h : Announces octets b f) (hbase : b ≤ 255) (hfractional : f ≤ 6) :
    ∃ next, next.Ready b f ∧
      ∀ rest parser', Completes next rest parser' →
        Completes (parser.init ctx) (octets ++ rest) parser' := by
  obtain ⟨-, rfl, rfl, hfirst, hflags⟩ := h
  have hstart := inPreamble_init parser hctx
  cases octets with
  | nil => exact nomatch hfirst
  | cons first octets =>
    have hdetect : TcType.detect first = .unsegmentedCcsdsEpoch := Option.some.inj hfirst
    obtain ⟨next, hfeed, hnext⟩ := hstart.feed first fun _ => by rw [hdetect]; rfl
    obtain ⟨hdetected, htype⟩ := feed_type .unsegmentedCcsdsEpoch hstart.type (by
      rw [hstart.started, List.isEmpty_nil, Bool.not_true, if_neg Bool.false_ne_true]
      exact hdetect) hfeed
    rcases octets with _ | ⟨second, _ | ⟨third, octets⟩⟩
    · have hlast : ((first &&& 0x80) != 0) = false := by simpa using hflags
      rw [hlast, if_neg Bool.false_ne_true] at hnext
      exact ⟨next, hnext.ready htype (List.cons_ne_nil _ _) hbase hfractional,
        fun rest parser' hrest => .more hfeed hrest⟩
    · have hflag : ((first &&& 0x80) != 0) = true ∧ ((second &&& 0x80) != 0) = false := by
        simpa using hflags
      rw [hflag.1, if_pos rfl] at hnext
      obtain ⟨last, hfeed', hlast⟩ := hnext.feed second fun hnil => nomatch hnil
      rw [hflag.2, if_neg Bool.false_ne_true] at hlast
      obtain ⟨-, htype'⟩ := feed_type .unsegmentedCcsdsEpoch hnext.type (by
        rw [hnext.started]
        exact hdetected) hfeed'
      exact ⟨last, hlast.ready htype' (List.cons_ne_nil _ _) hbase hfractional,
        fun rest parser' hrest => .more hfeed (.more hfeed' hrest)⟩
    · exact absurd hflags (by simp)

end TcParser

/-! ## The round trip -/

namespace TcContext

open TcParser

/-- The timecodes that the parser can hold. -/
structure Supported (ctx : TcContext) : Prop where
  type : ctx.defaults.type = .unsegmentedCcsdsEpoch
  base : 1 ≤ ctx.defaults.baseUnitOctets.toNat ∧ ctx.defaults.baseUnitOctets.toNat ≤ 7
  fractional : ctx.defaults.fractionalOctets.toNat ≤ 6

variable {ctx : TcContext}

/-- The octets behind the preamble. -/
theorem serializeUnsegmented_length (config : TcConfig) (seconds fractional : UInt64) :
    (serializeUnsegmented config seconds fractional).length =
      config.baseUnitOctets.toNat + config.fractionalOctets.toNat := by
  rw [serializeUnsegmented, List.length_append, serializeOctets_length, serializeOctets_length]

/-- The preamble announces the counts, and its size is the one that is reserved. -/
theorem Supported.preamble (h : ctx.Supported) :
    ∃ octets, ctx.defaults.serializePreamble = some octets ∧
      octets.length = (if ctx.defaults.needSecondByte then 2 else 1) ∧
      Announces octets ctx.defaults.baseUnitOctets.toNat ctx.defaults.fractionalOctets.toNat := by
  have hdefaults : ctx.defaults = ⟨.unsegmentedCcsdsEpoch,
      UInt8.ofNat ctx.defaults.baseUnitOctets.toNat,
      UInt8.ofNat ctx.defaults.fractionalOctets.toNat⟩ := by
    rw [UInt8.ofNat_toNat, UInt8.ofNat_toNat, ← h.type]
  obtain ⟨octets, hmem, hannounces⟩ := serializePreamble_announces
    ctx.defaults.baseUnitOctets.toNat (by have := h.base; omega)
    ctx.defaults.fractionalOctets.toNat (by have := h.fractional; omega) h.base.1
  rw [← hdefaults] at hmem
  refine ⟨octets, hmem, ?_, hannounces⟩
  have hunsegmented : ctx.defaults.type.isUnsegmented = true := by rw [h.type]; rfl
  have hsome : ctx.defaults.serializePreamble = some octets := hmem
  rw [TcConfig.serializePreamble, if_pos hunsegmented] at hsome
  cases hneed : ctx.defaults.needSecondByte <;> rw [hneed] at hsome <;>
    · obtain rfl := Option.some.inj hsome
      rfl

/-- The count of the octets of the base unit is the time, when it fits. -/
theorem Supported.count (h : ctx.Supported) {dtnTimestamp fractional : UInt64}
    (hfits : dtnTimestamp.toNat + ccsdsEpochToDtnEpoch.toNat <
      2 ^ (8 * ctx.defaults.baseUnitOctets.toNat)) :
    ((serializeUnsegmented ctx.defaults (dtnTimestamp + ccsdsEpochToDtnEpoch) fractional).take
      ctx.defaults.baseUnitOctets.toNat).foldl pushOctet 0 =
        dtnTimestamp + ccsdsEpochToDtnEpoch := by
  have hle : 2 ^ (8 * ctx.defaults.baseUnitOctets.toNat) ≤ 2 ^ 56 :=
    Nat.pow_le_pow_right (by decide) (by have := h.base; omega)
  have hsum : (dtnTimestamp + ccsdsEpochToDtnEpoch).toNat =
      dtnTimestamp.toNat + ccsdsEpochToDtnEpoch.toNat := by
    rw [UInt64.toNat_add]
    exact Nat.mod_eq_of_lt (by omega)
  have hzero : (dtnTimestamp + ccsdsEpochToDtnEpoch) >>>
      UInt64.ofNat (8 * ctx.defaults.baseUnitOctets.toNat) = 0 := by
    apply UInt64.toNat_inj.mp
    rw [toNat_shiftRight_ofNat _ h.base.2, hsum]
    exact Nat.div_eq_of_lt hfits
  rw [serializeUnsegmented, List.take_left' (serializeOctets_length _ _ _), ← hzero]
  exact foldl_pushOctet _ h.base.2

/-- A time behind its epoch is read back. -/
theorem dtnTimestamp_eq {parser : TcParser} {dtnTimestamp : UInt64}
    (hstatus : parser.status = .done) (htype : parser.format.type = .unsegmentedCcsdsEpoch)
    (hcount : parser.baseUnitCount = dtnTimestamp + ccsdsEpochToDtnEpoch)
    (hfits : dtnTimestamp.toNat + ccsdsEpochToDtnEpoch.toNat < 2 ^ 64) :
    parser.dtnTimestamp = dtnTimestamp := by
  have hsum : (dtnTimestamp + ccsdsEpochToDtnEpoch).toNat =
      dtnTimestamp.toNat + ccsdsEpochToDtnEpoch.toNat := by
    rw [UInt64.toNat_add]
    exact Nat.mod_eq_of_lt hfits
  have hnot : ¬dtnTimestamp + ccsdsEpochToDtnEpoch < ccsdsEpochToDtnEpoch := by
    rw [UInt64.lt_iff_toNat_lt, hsum]
    omega
  unfold TcParser.dtnTimestamp
  rw [if_neg (by rw [hstatus]; decide), htype, hcount]
  dsimp only
  rw [if_neg hnot, UInt64.add_sub_cancel]

/-- The parser takes the octets of a timestamp, and ends with it if it fits. -/
theorem Supported.completes (h : ctx.Supported) (parser : TcParser) (dtnTimestamp : UInt64)
    (dtnCounter : UInt32) :
    ∃ octets parser', ctx.serialize dtnTimestamp dtnCounter = some octets ∧
      octets.length = ctx.size ∧ (parser.init ctx).Completes octets parser' ∧
      (dtnTimestamp.toNat + ccsdsEpochToDtnEpoch.toNat <
          2 ^ (8 * ctx.defaults.baseUnitOctets.toNat) →
        parser'.dtnTimestamp = dtnTimestamp) := by
  obtain ⟨hbase, hseven⟩ := h.base
  have hunsegmented : ctx.defaults.type.isUnsegmented = true := by rw [h.type]; rfl
  have hlength := serializeUnsegmented_length ctx.defaults (dtnTimestamp + ccsdsEpochToDtnEpoch)
    (dtnCounter.toUInt64 <<< 32)
  -- What is the same with and without a P-field.
  have hready : ∀ next : TcParser, next.Ready ctx.defaults.baseUnitOctets.toNat
      ctx.defaults.fractionalOctets.toNat → ∃ parser',
        next.Completes (serializeUnsegmented ctx.defaults (dtnTimestamp + ccsdsEpochToDtnEpoch)
          (dtnCounter.toUInt64 <<< 32)) parser' ∧
        (dtnTimestamp.toNat + ccsdsEpochToDtnEpoch.toNat <
          2 ^ (8 * ctx.defaults.baseUnitOctets.toNat) → parser'.dtnTimestamp = dtnTimestamp) := by
    rintro next ⟨hreading, hzero⟩
    obtain ⟨parser', hcompletes, hstatus, hformat, hcount⟩ := hreading.completes hlength
    refine ⟨parser', hcompletes, fun hfits => dtnTimestamp_eq hstatus ?_ ?_ ?_⟩
    · rw [hformat]
      exact hreading.type
    · rw [hcount, hzero]
      exact h.count hfits
    · exact Nat.lt_of_lt_of_le hfits (Nat.pow_le_pow_right (by decide) (by omega))
  cases hfield : ctx.withPField with
  | true =>
    obtain ⟨octets, hpreamble, hsize, hannounces⟩ := h.preamble
    obtain ⟨next, hnext, hbehind⟩ := ready_preamble parser hfield hannounces (by omega) h.fractional
    obtain ⟨parser', hcompletes, htime⟩ := hready next hnext
    refine ⟨octets ++ serializeUnsegmented ctx.defaults (dtnTimestamp + ccsdsEpochToDtnEpoch)
      (dtnCounter.toUInt64 <<< 32), parser', ?_, ?_, hbehind _ _ hcompletes, htime⟩
    · rw [serialize, if_pos hfield, hpreamble, h.type]
      rfl
    · rw [List.length_append, hlength, hsize, size, if_pos hunsegmented, if_pos hfield]
      omega
  | false =>
    have hnot : ¬ctx.withPField = true := by rw [hfield]; exact Bool.false_ne_true
    have hinit : (parser.init ctx).Ready ctx.defaults.baseUnitOctets.toNat
        ctx.defaults.fractionalOctets.toNat := by
      rw [TcParser.init, if_neg hnot]
      obtain ⟨hreading, hzero⟩ := ready_startFromConfig { parser with format := ctx.defaults }
        h.type hbase h.fractional
      exact ⟨⟨hreading.type, hreading.fractional, hreading.octets⟩, hzero⟩
    obtain ⟨parser', hcompletes, htime⟩ := hready _ hinit
    refine ⟨_, parser', ?_, ?_, hcompletes, htime⟩
    · rw [serialize, if_neg hnot, h.type]
      rfl
    · rw [hlength, size, if_pos hunsegmented, if_neg hnot, Nat.add_zero]

end TcContext

end Upcn.Spp
