import Upcn.Bundle7.ReadEid
import Upcn.Bundle7.ReadPath

/-!
# The parse functions of the BPv7 parser

What each parse function makes of the bytes that were serialized, as a part of the way through a
bundle.
-/

namespace Upcn.Bundle7.Parser

open Cbor
open Upcn.Bundle7Parser (Stage)

variable {cbor : DataDecoder} {At : cbor.Value → Place → Prop} {b : Bundle} {s q : Parser}
  {bytes rest : List UInt8} {stage : Stage} {finish : Parser → Parser}

/-! ## Called again -/

/-- A parse function can be called again in these states: it makes the same of them as of `s₀`. -/
structure Again (stage : Stage) (finish : Parser → Parser) (s₀ s : Parser) : Prop where
  parse : s.parse = stage
  good : s.status = .good
  bulkRead : s.bulkRead = false
  finish : finish s = finish s₀

/-- A parse function at a place: it reads the bytes of an item, and what it leaves can be taken up
again. -/
structure Stands (At : cbor.Value → Place → Prop) (finish : Parser → Parser) (q : Parser)
    (bytes : List UInt8) (s : Parser) (p : Place) (left : Option Nat) (result : Parsed cbor) :
    Prop where
  reads : Reads At id p bytes left result.2
  left : left = none → q.parse = .primaryBlockStart
  parse : result.1.parse = s.parse
  status : result.1.status = s.status
  bulkRead : result.1.bulkRead = s.bulkRead
  again : finish result.1 = finish s
  moved : ∀ v, result.2 = .ok v → cbor.nextByte v = p.pos + bytes.length →
    result.1.behind bytes = (finish s).behind bytes

/-- A parse function that stands at each place takes the bytes. -/
theorem takes_of_stands {s₀ : Parser} (hfollows : cbor.Follows At) (hbegins : Begins bytes)
    (hq : ((finish s₀).behind bytes).parse ≠ .blockCrc ∧
      ((finish s₀).behind bytes).parse ≠ .bundleEnd)
    (hstands : ∀ s v p later more, Again stage finish s₀ s → At v p → Usable stage p.left →
      p.rest ++ later = bytes ++ more → ∃ left,
        Stands At finish ((finish s₀).behind bytes) bytes s p left (parseStage cbor s v)) :
    Takes At (Again stage finish s₀) bytes ((finish s₀).behind bytes) where
  good s h := ⟨h.good, h.bulkRead⟩
  begins := hbegins
  outcome s v p later more hs hat husable heq hwhole := by
    rw [hs.parse] at husable
    obtain ⟨left, h⟩ := hstands s v p later more hs hat husable heq
    generalize parseStage cbor s v = result at h
    obtain ⟨s', r⟩ := result
    rcases h.reads.next heq hwhole with ⟨hbytes, v', hr, hat'⟩ | ⟨hr, hshort⟩
    · obtain rfl : r = .ok v' := hr
      have hpos := hfollows.nextByte v' _ hat'
      refine .moved hbytes ?_ hpos ?_
      · rw [h.moved v' rfl hpos, hs.finish]
      · by_cases hend : left = some 0
        · exact .inl ((hfollows.atEnd v' _ hat').mpr hend)
        · exact .inr ⟨left, hat', ⟨hend, h.left⟩, hq⟩
    · obtain rfl : r = .error .unexpectedEOF := hr
      exact .waits ⟨h.parse.trans hs.parse, h.status.trans hs.good, h.bulkRead.trans hs.bulkRead,
        h.again.trans hs.finish⟩ hshort

/-! ## Numbers -/

/-- What a parse function makes of a number is the same when it is made again. -/
structure Records (record : UInt64 → Nat → Parser → Parser × Option CborError) (value : UInt64) :
    Prop where
  accepts : ∀ count s, (record value count s).2 = none
  redo : ∀ m n s, (record value n (record value m s).1).1 = (record value n s).1
  parse : ∀ count s, (record value count s).1.parse = s.parse
  status : ∀ count s, (record value count s).1.status = s.status
  bulkRead : ∀ count s, (record value count s).1.bulkRead = s.bulkRead

variable {record : UInt64 → Nat → Parser → Parser × Option CborError} {value : UInt64}

theorem takes_number (hfollows : cbor.Follows At) (hrecords : Records record value)
    (hstage : ∀ s it, s.parse = stage → parseStage cbor s it = parseNumber cbor record s it)
    (hne : stage ≠ .primaryBlockStart) (s₀ : Parser)
    (hq : (((record value (uint value.toNat).length s₀).1).behind (uint value.toNat)).parse ≠
        .blockCrc ∧
      (((record value (uint value.toNat).length s₀).1).behind (uint value.toNat)).parse ≠
        .bundleEnd) :
    Takes At (Again stage (fun s => (record value (uint value.toNat).length s).1) s₀)
      (uint value.toNat)
      (((record value (uint value.toNat).length s₀).1).behind (uint value.toNat)) := by
  refine takes_of_stands hfollows (begins_uint value.toNat_lt) hq
    fun s v p later more hs hat husable heq => ?_
  obtain ⟨hunsigned, hget, hfront, hreads⟩ :=
    reads_uint hfollows hat husable.1 value.toNat_lt heq
  have hvalue : cbor.getUint64 v = value := UInt64.toNat_inj.mp hget
  have hparse : parseStage cbor s v =
      ((record value (cbor.nextByte (cbor.advanceFixed v).2 - cbor.nextByte v) s).1,
        cbor.advance v) := by
    rw [hstage s v hs.parse, parseNumber, hunsigned, hvalue]
    simp only [Bool.not_true, Bool.false_eq_true, if_false]
    have haccepts := hrecords.accepts
      (cbor.nextByte (cbor.advanceFixed v).2 - cbor.nextByte v) s
    generalize record value (cbor.nextByte (cbor.advanceFixed v).2 - cbor.nextByte v) s = r
      at haccepts ⊢
    obtain ⟨s', err⟩ := r
    obtain rfl : err = none := haccepts
    rfl
  rw [hparse]
  refine ⟨p.left.map (· - 1), hreads, fun hnone => ?_, hrecords.parse _ _, hrecords.status _ _,
    hrecords.bulkRead _ _, hrecords.redo _ _ _, fun v' hv' hpos => ?_⟩
  · have hleft : p.left = none := by simpa using hnone
    exact absurd (husable.2 hleft) hne
  · have hfixed : (cbor.advanceFixed v).2 = v' := by
      change cbor.advance v = .ok v' at hv'
      unfold Decoder.advance at hv'
      split at hv'
      · cases hv'
      · rename_i heq
        rw [heq]
        exact Except.ok.inj hv'
    rw [hfixed, hpos, hfollows.nextByte v p hat, Nat.add_sub_cancel_left]

theorem records_protocolVersion (value : UInt64) : Records protocolVersion value := by
  constructor <;> intros <;> rfl

theorem records_primaryProcFlags (value : UInt64) : Records primaryProcFlags value := by
  constructor <;> intros <;> rfl

theorem records_crcType (h : value.toNat ≤ 2) : Records crcType value := by
  have hle : ¬ 2 < value := fun hlt => absurd (UInt64.lt_iff_toNat_lt.mp hlt) (Nat.not_lt.mpr h)
  constructor <;> intros <;> simp [crcType, hle]

@[simp] theorem behindNumbers_again (m n : Nat) (s : Parser) :
    (s.behindNumbers m).behindNumbers n = s.behindNumbers n := by
  unfold behindNumbers
  by_cases hcrc : s.bundle.crcType ≠ crcTypeNone
  · simp [hcrc]
  · simp [hcrc]

theorem keeps_behindNumbers (n : Nat) (s : Parser) : (s.behindNumbers n).parse = s.parse ∧
    (s.behindNumbers n).status = s.status ∧ (s.behindNumbers n).bulkRead = s.bulkRead := by
  unfold behindNumbers
  split <;> exact ⟨rfl, rfl, rfl⟩

theorem records_lifetime (value : UInt64) : Records lifetime value where
  accepts _ _ := rfl
  redo m n s := by
    unfold lifetime behindNumbers Bundle.isFragmented
    dsimp only
    split_ifs <;> simp_all
  parse n s := by
    unfold lifetime
    dsimp only
    split
    · rfl
    · exact (keeps_behindNumbers n _).1
  status n s := by
    unfold lifetime
    dsimp only
    split
    · rfl
    · exact (keeps_behindNumbers n _).2.1
  bulkRead n s := by
    unfold lifetime
    dsimp only
    split
    · rfl
    · exact (keeps_behindNumbers n _).2.2

theorem records_fragmentOffset (value : UInt64) : Records fragmentOffset value := by
  constructor <;> intros <;> rfl

theorem records_totalAduLength (value : UInt64) : Records totalAduLength value where
  accepts _ _ := rfl
  redo m n s := by
    unfold totalAduLength behindNumbers
    dsimp only
    split_ifs <;> simp_all
  parse n s := (keeps_behindNumbers n _).1
  status n s := (keeps_behindNumbers n _).2.1
  bulkRead n s := (keeps_behindNumbers n _).2.2

theorem records_blockType (value : UInt64) : Records blockType value := by
  constructor <;> intros <;> rfl

theorem records_blockNumber (value : UInt64) : Records blockNumber value := by
  constructor <;> intros <;> rfl

theorem records_blockProcFlags (value : UInt64) : Records blockProcFlags value := by
  constructor <;> intros <;> rfl

theorem records_blockCrcType (value : UInt64) : Records blockCrcType value := by
  constructor <;> intros <;> simp [blockCrcType]

/-! ## Endpoints and times -/

/-- What was read is given back with the iterator. -/
theorem value_of_reads {α V : Type} {At : V → Place → Prop} {a : α} {p : Place}
    {left : Option Nat} {r : Except CborError (α × V)}
    (h : Reads At (fun v => (a, v)) p bytes left r) :
    Reads At id p bytes left (r.map (·.2)) ∧ ∀ x, r = .ok x → x.1 = a := by
  refine ⟨⟨fun hnot => ?_, fun hthere => ?_⟩, fun x hx => ?_⟩
  · rw [h.short hnot]
    rfl
  · obtain ⟨moved, hmoves, rfl⟩ := h.moves hthere
    refine ⟨moved, hmoves, ?_⟩
    cases moved <;> rfl
  · by_cases hthere : bytes <+: p.rest
    · obtain ⟨moved, -, rfl⟩ := h.moves hthere
      cases moved with
      | error err => cases hx
      | ok v =>
        cases hx
        rfl
    · rw [h.short hthere] at hx
      cases hx

theorem takes_eid (hfollows : cbor.Follows At) {set : Bundle → List UInt8 → Bundle} {next : Stage}
    {eid : List UInt8} (hbytes : eidSerialize eid = some bytes)
    (hstage : ∀ s it, s.parse = stage → parseStage cbor s it = parseEid cbor set next s it)
    (hset : ∀ b eid, set (set b eid) eid = set b eid) (hne : stage ≠ .primaryBlockStart)
    (hbegins : Begins bytes) (s₀ : Parser)
    (hfinish : finish = fun s =>
      { s with bundle := set s.bundle (eidRead eid), next := some next })
    (hq : ((finish s₀).behind bytes).parse ≠ .blockCrc ∧
      ((finish s₀).behind bytes).parse ≠ .bundleEnd) :
    Takes At (Again stage finish s₀) bytes ((finish s₀).behind bytes) := by
  refine takes_of_stands hfollows hbegins hq fun s v p later more hs hat husable heq => ?_
  obtain ⟨hreads, hvalue⟩ := value_of_reads (reads_eid hfollows hat husable.1 hbytes heq)
  have hleft : p.left.map (· - 1) = none →
      ((finish s₀).behind bytes).parse = .primaryBlockStart := fun hnone =>
    absurd (husable.2 (by simpa using hnone)) hne
  rw [hstage s v hs.parse]
  unfold parseEid
  cases hr : bundle7EidParseCbor cbor v with
  | error err =>
    rw [hr] at hreads
    exact ⟨_, hreads, hleft, rfl, rfl, rfl, rfl, fun v' hv' => by cases hv'⟩
  | ok x =>
    obtain ⟨read, it⟩ := x
    rw [hr] at hreads
    obtain rfl : read = eidRead eid := hvalue _ hr
    refine ⟨_, hreads, hleft, rfl, rfl, rfl, ?_, fun v' _ _ => ?_⟩
    · simp [hfinish, hset]
    · simp [hfinish]

theorem takes_creationTimestamp (hfollows : cbor.Follows At) (time sequence : UInt64)
    (s₀ : Parser)
    (hfinish : finish = fun s =>
      { s with bundle := stamped s.bundle time sequence, next := some .lifetime })
    (hbytes : bytes = array 2 ++ (uint time.toNat ++ uint sequence.toNat))
    (hq : ((finish s₀).behind bytes).parse ≠ .blockCrc ∧
      ((finish s₀).behind bytes).parse ≠ .bundleEnd) :
    Takes At (Again .creationTimestamp finish s₀) bytes ((finish s₀).behind bytes) := by
  have hbegins : Begins bytes := by
    rw [hbytes]
    exact (begins_array (by decide)).append _
  refine takes_of_stands hfollows hbegins hq fun s v p later more hs hat husable heq => ?_
  rw [hbytes] at heq
  obtain ⟨hreads, hvalue⟩ :=
    value_of_reads (reads_twoNumbers hfollows hat husable.1 time sequence heq)
  have hleft : p.left.map (· - 1) = none →
      ((finish s₀).behind bytes).parse = .primaryBlockStart := fun hnone =>
    absurd (husable.2 (by simpa using hnone)) (by decide)
  rw [← hbytes] at hreads
  have hstage : parseStage cbor s v = creationTimestamp cbor s v := by
    rw [parseStage, hs.parse]
  rw [hstage]
  unfold creationTimestamp
  rcases bundle7TimestampParse_eq s.bundle v with
    ⟨times, next, hr, hparse⟩ | ⟨err, b', hr, hparse, hsame⟩
  · rw [hr] at hreads
    obtain rfl : times = (time, sequence) := hvalue _ hr
    rw [hparse]
    exact ⟨_, hreads, hleft, rfl, rfl, rfl, by simp [hfinish, stamped], fun v' _ _ => by
      simp [hfinish]⟩
  · rw [hr] at hreads
    rw [hparse]
    exact ⟨_, hreads, hleft, rfl, rfl, rfl, by simp [hfinish, hsame], fun v' hv' => by cases hv'⟩

/-! ## Arrays -/

theorem begins_mark : Begins [0x9f] := fun _ => .inr rfl

theorem takes_bundleStart (hfollows : cbor.Follows At) (s₀ : Parser)
    (hfinish : finish = fun s => { s with next := some .primaryBlockStart })
    (hq : ((finish s₀).behind [0x9f]).parse = .primaryBlockStart) :
    Takes At (Again .bundleStart finish s₀) [0x9f] ((finish s₀).behind [0x9f]) := by
  refine takes_of_stands hfollows begins_mark (by rw [hq]; decide)
    fun s v p later more hs hat husable heq => ?_
  obtain ⟨rest, hrest⟩ : ∃ rest, p.rest = 0x9f :: rest := by
    have hne := (hfollows.whole v p hat husable.1).ne_nil
    cases hp : p.rest with
    | nil => exact absurd hp hne
    | cons byte rest =>
      rw [hp] at heq
      exact ⟨rest, by rw [(List.cons.inj heq).1]⟩
  obtain ⟨harray, hknown, hmoves⟩ := hfollows.indefinite v p rest hat husable.1 hrest
  have hstage : parseStage cbor s v =
      ({ s with next := some .primaryBlockStart }, cbor.enterContainer v) := by
    rw [parseStage, hs.parse]
    simp [bundleStart, harray, hknown, hs.parse]
  rw [hstage]
  refine ⟨none, ⟨fun hnot => ?_, fun _ => ⟨cbor.enterContainer v, ?_, ?_⟩⟩, fun _ => hq, rfl, rfl,
    rfl, by simp [hfinish], fun v' _ _ => by simp [hfinish]⟩
  · exact absurd ⟨rest, hrest.symm⟩ hnot
  · rw [hrest]
    exact hmoves
  · cases cbor.enterContainer v <;> rfl

/-- The beginning of a block with a CRC stream of its own. -/
theorem takes_array (hfollows : cbor.Follows At) {next : Stage} {count : Nat} (hpos : 0 < count)
    (hcount : count < 2 ^ 32 - 1) (s₀ : Parser)
    (hfinish : finish = fun s => { s with crcFeed := true, fed := [], next := some next })
    (hstage : ∀ s it, s.parse = stage → cbor.isArray it = true → cbor.isLengthKnown it = true →
      parseStage cbor s it =
        ({ s with crcFeed := true, fed := [], next := some next }, cbor.enterContainer it))
    (hq : ((finish s₀).behind (array count)).parse ≠ .blockCrc ∧
      ((finish s₀).behind (array count)).parse ≠ .bundleEnd) :
    Takes At (Again stage finish s₀) (array count) ((finish s₀).behind (array count)) := by
  refine takes_of_stands hfollows (begins_array (by omega)) hq
    fun s v p later more hs hat husable heq => ?_
  obtain ⟨harray, hknown, -, hreads⟩ := reads_enter hfollows hat husable.1 hpos hcount heq
  rw [hstage s v hs.parse harray hknown]
  exact ⟨_, hreads, fun h => (by simp at h), rfl, rfl, rfl, by simp [hfinish], fun v' _ _ => by
    simp [hfinish]⟩

/-! ## Checksums -/

/-- The bytes of the CRC of a block with this type, over the bytes before it. -/
def checksumBytes (crcType : Nat) (fed : List UInt8) : List UInt8 :=
  if crcType = crcType16 then bigEndian 2 (checksums.crc16 (fed ++ [0x42, 0, 0]))
  else bigEndian 4 (checksums.crc32 (fed ++ [0x44, 0, 0, 0, 0]))

theorem length_checksumBytes (crcType : Nat) (fed : List UInt8) :
    (checksumBytes crcType fed).length = if crcType = crcType16 then 2 else 4 := by
  unfold checksumBytes
  split <;> simp

/-- The CRC that was written fits. -/
theorem crcVerify_checksumBytes (crcType : Nat) (fed : List UInt8) :
    crcVerify crcType fed (checksumBytes crcType fed) (checksumBytes crcType fed).length =
      .ok true := by
  rw [length_checksumBytes]
  unfold crcVerify checksumBytes
  by_cases hcrc : crcType = crcType16
  · have htake : (bigEndian 2 (checksums.crc16 (fed ++ [0x42, 0, 0]))).take 2 = bigEndian 2 _ :=
      List.take_of_length_le (by simp)
    have hlt : checksums.crc16 (fed ++ [0x42, 0, 0]) < 2 ^ (8 * 2) := UInt16.toNat_lt _
    simp only [hcrc, if_true, htake, ofBigEndian_bigEndian, Nat.mod_eq_of_lt hlt]
    simp
  · have htake : (bigEndian 4 (checksums.crc32 (fed ++ [0x44, 0, 0, 0, 0]))).take 4 =
        bigEndian 4 _ := List.take_of_length_le (by simp)
    have hlt : checksums.crc32 (fed ++ [0x44, 0, 0, 0, 0]) < 2 ^ (8 * 4) := UInt32.toNat_lt _
    simp only [hcrc, if_false, htake, ofBigEndian_bigEndian, Nat.mod_eq_of_lt hlt]
    simp

theorem takes_primaryBlockCrc (hfollows : cbor.Follows At) (s₀ : Parser) {count : Nat}
    (hcount : count = if s₀.bundle.crcType = crcType16 then 3 else 5)
    (hfinish : finish = fun s => { s with
      crcFeed := false
      bundle := { s.bundle with primaryBlockLength := (s.bundleSize - 1 + count) % 2 ^ 16 }
      next := some .blockStart })
    (hbytes : bytes = byteString (checksumBytes s₀.bundle.crcType s₀.fed))
    (hq : ((finish s₀).behind bytes).parse ≠ .blockCrc ∧
      ((finish s₀).behind bytes).parse ≠ .bundleEnd) :
    Takes At (Again .primaryBlockCrc finish s₀) bytes ((finish s₀).behind bytes) := by
  have hsize : (checksumBytes s₀.bundle.crcType s₀.fed).length ≤ 4 := by
    rw [length_checksumBytes]
    split <;> omega
  have hbegins : Begins bytes := by
    rw [hbytes]
    exact begins_byteString (by omega)
  refine takes_of_stands hfollows hbegins hq fun s v p later more hs hat husable heq => ?_
  have hcrcType : s.bundle.crcType = s₀.bundle.crcType := by
    have hsame := congrArg (fun s => s.bundle.crcType) hs.finish
    simpa [hfinish] using hsame
  have hfed : s.fed = s₀.fed := by
    have hsame := congrArg Parser.fed hs.finish
    simpa [hfinish] using hsame
  rw [hbytes] at heq
  obtain ⟨hisBytes, hcopied, hreads⟩ :=
    reads_bytes hfollows hat husable.1 (by omega) hsize heq
  rw [← hbytes] at hcopied hreads
  obtain ⟨hreads', hvalue⟩ := value_of_reads hreads
  have hleft : p.left.map (· - 1) = none →
      ((finish s₀).behind bytes).parse = .primaryBlockStart := fun hnone =>
    absurd (husable.2 (by simpa using hnone)) (by decide)
  have hstage : parseStage cbor s v = primaryBlockCrc cbor s v := by
    rw [parseStage, hs.parse]
  rw [hstage]
  unfold primaryBlockCrc
  rw [hisBytes]
  cases hr : cbor.copyByteString v 4 with
  | error err =>
    rw [hr] at hreads'
    exact ⟨_, hreads', hleft, rfl, rfl, rfl, rfl, fun v' hv' => by cases hv'⟩
  | ok x =>
    obtain ⟨length, next⟩ := x
    rw [hr] at hreads hreads'
    obtain rfl : length = _ := hvalue _ hr
    have hthere : bytes <+: p.rest := by
      by_contra hnot
      cases hreads.short hnot
    have hverify := crcVerify_checksumBytes s₀.bundle.crcType s₀.fed
    simp only [Bool.not_true, Bool.false_eq_true, if_false, hcopied hthere, hcrcType, hfed,
      hverify, ← hcount]
    refine ⟨_, hreads', hleft, rfl, rfl, rfl, ?_, fun v' _ _ => ?_⟩
    · simp [hfinish, hfed, hcrcType]
    · simp [hfinish, hfed, hcrcType]

theorem takes_blockCrc (hfollows : cbor.Follows At) (s₀ : Parser)
    (hfinish : finish = fun s => blockEnd { s with crcFeed := false })
    (hbytes : bytes = byteString (checksumBytes s₀.block.crcType (s₀.fed ++ s₀.block.data))) :
    TakesLast At (Again .blockCrc finish s₀) bytes ((finish s₀).behind bytes) := by
  have hsize : (checksumBytes s₀.block.crcType (s₀.fed ++ s₀.block.data)).length ≤ 4 := by
    rw [length_checksumBytes]
    split <;> omega
  have hbegins : Begins bytes := by
    rw [hbytes]
    exact begins_byteString (by omega)
  have hsame : ∀ s, Again .blockCrc finish s₀ s → s.block = s₀.block ∧ s.fed = s₀.fed := by
    intro s hs
    refine ⟨?_, ?_⟩
    · have hblock := congrArg Parser.block hs.finish
      simpa [hfinish, blockEnd] using hblock
    · have hfed := congrArg Parser.fed hs.finish
      simpa [hfinish, blockEnd] using hfed
  have hstage : ∀ s v, Again .blockCrc finish s₀ s → parseStage cbor s v = blockCrc cbor s v := by
    intro s v hs
    rw [parseStage, hs.parse]
  refine ⟨fun s hs => ⟨hs.good, hs.bulkRead, hs.parse⟩, hbegins,
    fun s v p hs hat hleft hthere => ?_, fun s v p later more hs hat hleft heq hnot => ?_⟩
  · obtain ⟨hblock, hfed⟩ := hsame s hs
    obtain ⟨tail, htail⟩ := hthere
    have heq : p.rest ++ [] =
        byteString (checksumBytes s₀.block.crcType (s₀.fed ++ s₀.block.data)) ++ tail := by
      rw [List.append_nil, ← htail, hbytes]
    obtain ⟨hisBytes, hcopied, hreads⟩ :=
      reads_bytes hfollows hat (by simp [hleft]) (by omega) hsize heq
    rw [← hbytes] at hcopied hreads
    have hthere : bytes <+: p.rest := ⟨tail, htail⟩
    obtain ⟨moved, hmoves, hr⟩ := hreads.moves hthere
    rw [hleft] at hmoves
    obtain ⟨next, rfl, hnext⟩ := hmoves.ended rfl
    have hverify := crcVerify_checksumBytes s₀.block.crcType (s₀.fed ++ s₀.block.data)
    rw [hstage s v hs]
    refine ⟨finish s, next, ?_, ?_, hfollows.nextByte next _ hnext,
      (hfollows.atEnd next _ hnext).mpr rfl⟩
    · unfold blockCrc
      rw [hisBytes, hr]
      simp [Except.map, hcopied hthere, hblock, hfed, hverify, hfinish]
    · rw [hs.finish]
  · rw [hbytes] at heq
    obtain ⟨hisBytes, -, hreads⟩ :=
      reads_bytes hfollows hat (by simp [hleft]) (by omega) hsize heq
    rw [← hbytes] at hreads
    rw [hstage s v hs]
    refine ⟨{ s with crcFeed := false }, ?_, hs.parse, hs.good, hs.bulkRead, ?_⟩
    · unfold blockCrc
      rw [hisBytes, hreads.short hnot]
      rfl
    · have hredo := hs.finish
      simp only [hfinish] at hredo ⊢
      exact hredo

/-! ## Data -/

/-- The head of a byte string, made of that of a number. -/
theorem asByteString_uint (length : Nat) : asByteString (uint length) = head 2 length := by
  have hshort : ∀ n < 24, UInt8.ofNat (0 * 2 ^ 5 + n) ||| 0x40 = UInt8.ofNat (2 * 2 ^ 5 + n) := by
    decide
  unfold uint head
  split_ifs with h
  · exact congrArg (· :: []) (hshort length h)
  all_goals rfl

theorem takes_blockData (hfollows : cbor.Follows At) {length : Nat} (hlength : length < 2 ^ 64)
    (hparse : s.parse = .blockData) (hgood : s.status = .good) (hbulk : s.bulkRead = false) :
    TakesHead At s (head 2 length) (behind (head 2 length) { s with
      crcFeed := true
      block := { s.block with length := length % 2 ^ 32, data := [] }
      nextBytes := length
      bulkRead := true
      bundleSize := s.bundleSize + length
      next := some (if s.block.crcType ≠ crcTypeNone then .blockCrc else .blockEnd) }) := by
  have hstart : EncodesHead 2 length (head 2 length) := encodesHead_head hlength
  refine ⟨⟨hgood, hbulk⟩, begins_of_encodes (by decide) hstart,
    fun v p later more hat husable heq => ?_⟩
  obtain ⟨tail, hrest, -⟩ := hfollows.head hat husable.1 (by decide) hstart heq
  obtain ⟨hisBytes, hget, hpos, -, -⟩ :=
    hfollows.bytes v p length _ tail hat husable.1 hrest hstart
  have hknown : p.left ≠ none := by
    intro hnone
    have hstage := husable.2 hnone
    rw [hparse] at hstage
    cases hstage
  refine ⟨⟨tail, hrest.symm⟩, _, _, ?_, rfl, hpos hknown⟩
  rw [parseStage, hparse]
  simp [blockData, hisBytes, hget, hparse]

end Upcn.Bundle7.Parser
