import Upcn.Bundle7.ReadStages
import Upcn.Bundle7.Size

/-!
# From the BPv7 serializer to the parser

The bytes that `bundle7_serialize` writes are a way of the parser (`path_bundle`): `Bundle.Sendable`
says of which bundles, and `Bundle.received` is what is delivered.

`Goes` is the way from one stage on, if the bundle is not too large, and there is a lemma for each
stage.
-/

namespace Upcn.Bundle7

open Cbor
open Upcn.Bundle7Parser (Stage)

/-! ## Bundles that are sent -/

/-- The block can be sent: its fields have their sizes, the parser knows its CRC type, and its data
do not begin with what no data item begins with. -/
structure Block.Sendable (block : Block) : Prop where
  type : block.type < 2 ^ 32
  number : block.number < 2 ^ 8
  crcType : block.crcType ≤ crcType32
  data : block.data.length = block.length
  length : block.length < 2 ^ 32
  clear : noHead block.data = false

/-- The block that is received. -/
def Block.received (block : Block) : Block :=
  { block with flags := convertToProtocolBlockFlags block }

/-- The bundle can be sent to a parser with a buffer of this size: its fields have their sizes, and
its last block is the payload block. -/
structure Bundle.Sendable (b : Bundle) (room : Nat) : Prop where
  crcType : b.crcType ≤ crcType32
  creationTimestamp : b.creationTimestamp < 2 ^ 64
  sequenceNumber : b.sequenceNumber < 2 ^ 64
  lifetime : b.lifetime < 2 ^ 64
  fragmentOffset : b.fragmentOffset < 2 ^ 32
  totalAduLength : b.totalAduLength < 2 ^ 32
  eids : ∀ eid ∈ [b.destination, b.source, b.reportTo], eidSizeof eid < room
  blocks : ∀ block ∈ b.blocks, block.Sendable
  payload : ∃ extensions payload, b.blocks = extensions ++ [payload] ∧ payload.type = 1 ∧
    ∀ block ∈ extensions, block.type ≠ 1

/-- The bundle that is received. -/
def Bundle.received (b : Bundle) : Bundle :=
  { b.withProtocolFlags with
    destination := eidRead b.destination
    source := eidRead b.source
    reportTo := eidRead b.reportTo
    fragmentOffset := if b.isFragmented then b.fragmentOffset else 0
    totalAduLength := if b.isFragmented then b.totalAduLength else 0
    primaryBlockLength := b.withProtocolFlags.headerLength % 2 ^ 16
    blocks := b.blocks.map Block.received }

namespace Parser

variable {cbor : DataDecoder} {At : cbor.Value → Place → Prop} {room quota : Nat} {b : Bundle}

/-! ## Before a stage -/

/-- The parser before a stage of a bundle with which nothing is wrong. -/
def before (quota : Nat) (stage : Stage) (feed : Bool) (fed : List UInt8) (size nextBytes : Nat)
    (bundle : Bundle) (block : Block) : Parser where
  status := .good
  bulkRead := false
  crcInvalid := false
  nextBytes := nextBytes
  parse := stage
  next := some stage
  crcFeed := feed
  fed := fed
  bundleSize := size
  bundleQuota := quota
  bundle := bundle
  block := block
  delivered := []

/-- The way from a stage on, if these bytes are within the quota.  When the CRC streams are fed,
they were fed `front`. -/
def Goes (At : cbor.Value → Place → Prop) (room quota : Nat) (b : Bundle) (stage : Stage)
    (feed : Bool) (front : List UInt8) (size : Nat) (bundle : Bundle) (block : Block)
    (unread : List UInt8) : Prop :=
  size + unread.length ≤ quota → ∀ nextBytes fed, (feed = true → fed = front) →
    Path At room b (before quota stage feed fed size nextBytes bundle block) unread

variable {stage next : Stage} {feed feed' : Bool} {front front' bytes rest : List UInt8}
  {size count n : Nat} {bundle bundle' : Bundle} {block block' : Block}

/-- Behind these bytes, within the quota. -/
theorem behind_of_le {s : Parser} (h : s.bundleSize + bytes.length ≤ s.bundleQuota) :
    s.behind bytes = { s with
      bundleSize := s.bundleSize + bytes.length
      fed := if s.crcFeed then s.fed ++ bytes else s.fed
      parse := s.next.getD s.parse } := by
  unfold behind
  dsimp only
  rw [if_neg (Nat.not_lt.mpr h)]

/-- The next stage of a parse function. -/
theorem goes_item (finish : Parser → Parser)
    (htakes : ∀ nextBytes fed, (feed = true → fed = front) →
      ((finish (before quota stage feed fed size nextBytes bundle block)).behind bytes).parse ≠
          .blockCrc ∧
        ((finish (before quota stage feed fed size nextBytes bundle block)).behind bytes).parse ≠
          .bundleEnd →
      Takes At (Again stage finish (before quota stage feed fed size nextBytes bundle block)) bytes
        ((finish (before quota stage feed fed size nextBytes bundle block)).behind bytes))
    (hfinish : ∀ nextBytes fed, (feed = true → fed = front) →
      ∃ fed', (feed' = true → fed' = front') ∧
        finish (before quota stage feed fed size nextBytes bundle block) =
          { before quota stage feed' fed' size nextBytes bundle' block' with next := some next })
    (hne : next ≠ .blockCrc ∧ next ≠ .bundleEnd) (hheaded : Headed count rest)
    (hroom : bytes.length + count ≤ room)
    (hgoes : Goes At room quota b next feed' (front' ++ bytes) (size + bytes.length) bundle' block'
      rest) :
    Goes At room quota b stage feed front size bundle block (bytes ++ rest) := by
  intro hsize nextBytes fed hfed
  rw [List.length_append] at hsize
  have hle : size + bytes.length ≤ quota := by omega
  obtain ⟨fed', hfed', hstate⟩ := hfinish nextBytes fed hfed
  have hq : (finish (before quota stage feed fed size nextBytes bundle block)).behind bytes =
      before quota next feed' (if feed' then fed' ++ bytes else fed') (size + bytes.length)
        nextBytes bundle' block' := by
    rw [hstate, behind_of_le hle]
    rfl
  refine .item (htakes nextBytes fed hfed ?_) ⟨rfl, rfl, rfl, rfl⟩ hheaded hroom ?_
  · rw [hq]
    exact hne
  · rw [hq]
    refine hgoes (by omega) nextBytes _ fun hfeed => ?_
    rw [if_pos hfeed, hfed' hfeed]

/-! ## Heads -/

theorem headed_uint (h : n < 2 ^ 64) (tail : List UInt8) : Headed 9 (uint n ++ tail) :=
  headed_head (by decide) h (headSize_le n) tail

/-- The array of a block. -/
theorem headed_array (h : n < 24) (tail : List UInt8) : Headed 1 (array n ++ tail) :=
  headed_head (by decide) (by omega) (Nat.le_of_eq (headSize_of_lt h)) tail

theorem headed_eid {eid : List UInt8} (h : eidSerialize eid = some bytes) (tail : List UInt8) :
    Headed 1 (bytes ++ tail) := by
  have harray : ∃ front, bytes = array 2 ++ front := by
    unfold eidSerialize at h
    split at h
    · cases h
    · rename_i encoded hencoded
      split_ifs at h
      obtain rfl := Option.some.inj h
      unfold eidSerializeCbor at hencoded
      split_ifs at hencoded
      · exact ⟨uint 1 ++ uint 0, by rw [← Option.some.inj hencoded]; rfl⟩
      · exact ⟨uint 1 ++ textString (eid.drop 4), by
          rw [← Option.some.inj hencoded, serializeDtn, List.append_assoc]⟩
      · obtain ⟨⟨node, service⟩, -, rfl⟩ := Option.map_eq_some_iff.mp hencoded
        exact ⟨uint 2 ++ (array 2 ++ uint node ++ uint service), List.append_assoc ..⟩
  obtain ⟨front, rfl⟩ := harray
  rw [List.append_assoc]
  exact headed_array (by decide) _

theorem begins_eid {eid : List UInt8} (h : eidSerialize eid = some bytes) : Begins bytes := by
  have hheaded := headed_eid h []
  rw [List.append_nil] at hheaded
  exact hheaded.begins

theorem headed_checksum (crcType : Nat) (fed tail : List UInt8) :
    Headed 1 (byteString (checksumBytes crcType fed) ++ tail) := by
  have hlength : (checksumBytes crcType fed).length < 24 := by
    rw [length_checksumBytes]
    split <;> omega
  rw [byteString, List.append_assoc]
  exact headed_head (by decide) (by omega) (Nat.le_of_eq (headSize_of_lt hlength)) _

/-! ## Numbers -/

theorem toNat_value (h : n < 2 ^ 64) : (UInt64.ofNat n).toNat = n := UInt64.toNat_ofNat_of_lt' h

/-- The CRC streams are fed further if the block has a CRC. -/
theorem feed_of_type (hn : n < 2 ^ 64) :
    (feed && decide (UInt64.ofNat n ≠ 0)) = (feed && decide (n ≠ 0)) := by
  congr 1
  apply decide_eq_decide.mpr
  rw [ne_eq, ← UInt64.toNat_inj, toNat_value hn]
  rfl

variable {record : UInt64 → Nat → Parser → Parser × Option CborError}

/-- The next stage of the parse function of a number. -/
theorem goes_number (hfollows : cbor.Follows At) (hn : n < 2 ^ 64)
    (hrecords : Records record (UInt64.ofNat n))
    (hstage : ∀ s it, s.parse = stage → parseStage cbor s it = parseNumber cbor record s it)
    (hstart : stage ≠ .primaryBlockStart) (hfeed : feed' = true → feed = true)
    (hrecord : ∀ nextBytes fed, (record (UInt64.ofNat n) (headSize n)
        (before quota stage feed fed size nextBytes bundle block)).1 =
      { before quota stage feed' fed size nextBytes bundle' block' with next := some next })
    (hne : next ≠ .blockCrc ∧ next ≠ .bundleEnd) (hheaded : Headed count rest)
    (hcount : count ≤ 9) (hroom : 28 ≤ room)
    (hgoes : Goes At room quota b next feed' (front ++ uint n) (size + headSize n) bundle' block'
      rest) :
    Goes At room quota b stage feed front size bundle block (uint n ++ rest) := by
  have hsize := headSize_le n
  rw [← length_uint] at hgoes hsize
  refine goes_item (fun s => (record (UInt64.ofNat n) (headSize n) s).1)
    (fun nextBytes fed _ hq => ?_)
    (fun nextBytes fed hfed => ⟨fed, fun h => hfed (hfeed h), hrecord nextBytes fed⟩) hne hheaded
    (by omega) hgoes
  have htakes := takes_number hfollows hrecords hstage hstart
    (before quota stage feed fed size nextBytes bundle block)
  rw [toNat_value hn, length_uint] at htakes
  exact htakes hq

theorem goes_eid (hfollows : cbor.Follows At) (set : Bundle → List UInt8 → Bundle)
    {eid : List UInt8} (hbytes : eidSerialize eid = some bytes)
    (hstage : ∀ s it, s.parse = stage → parseStage cbor s it = parseEid cbor set next s it)
    (hset : ∀ b eid, set (set b eid) eid = set b eid) (hstart : stage ≠ .primaryBlockStart)
    (hne : next ≠ .blockCrc ∧ next ≠ .bundleEnd) (hheaded : Headed 1 rest)
    (hlength : bytes.length + 1 ≤ room)
    (hgoes : Goes At room quota b next feed (front ++ bytes) (size + bytes.length)
      (set bundle (eidRead eid)) block rest) :
    Goes At room quota b stage feed front size bundle block (bytes ++ rest) :=
  goes_item _ (fun _ _ _ hq =>
    takes_eid hfollows hbytes hstage hset hstart (begins_eid hbytes) _ rfl hq)
    (fun _ fed hfed => ⟨fed, hfed, rfl⟩) hne hheaded hlength hgoes

theorem goes_destinationEid (hfollows : cbor.Follows At) {eid : List UInt8}
    (hbytes : eidSerialize eid = some bytes) (hheaded : Headed 1 rest)
    (hlength : bytes.length + 1 ≤ room)
    (hgoes : Goes At room quota b .sourceEid feed (front ++ bytes) (size + bytes.length)
      { bundle with destination := eidRead eid } block rest) :
    Goes At room quota b .destinationEid feed front size bundle block (bytes ++ rest) :=
  goes_eid hfollows (fun b eid => { b with destination := eid }) hbytes
    (fun s it h => by rw [parseStage, h]) (fun _ _ => rfl) (by decide) (by decide) hheaded hlength
    hgoes

theorem goes_sourceEid (hfollows : cbor.Follows At) {eid : List UInt8}
    (hbytes : eidSerialize eid = some bytes) (hheaded : Headed 1 rest)
    (hlength : bytes.length + 1 ≤ room)
    (hgoes : Goes At room quota b .reportToEid feed (front ++ bytes) (size + bytes.length)
      { bundle with source := eidRead eid } block rest) :
    Goes At room quota b .sourceEid feed front size bundle block (bytes ++ rest) :=
  goes_eid hfollows (fun b eid => { b with source := eid }) hbytes
    (fun s it h => by rw [parseStage, h]) (fun _ _ => rfl) (by decide) (by decide) hheaded hlength
    hgoes

theorem goes_reportToEid (hfollows : cbor.Follows At) {eid : List UInt8}
    (hbytes : eidSerialize eid = some bytes) (hheaded : Headed 1 rest)
    (hlength : bytes.length + 1 ≤ room)
    (hgoes : Goes At room quota b .creationTimestamp feed (front ++ bytes) (size + bytes.length)
      { bundle with reportTo := eidRead eid } block rest) :
    Goes At room quota b .reportToEid feed front size bundle block (bytes ++ rest) :=
  goes_eid hfollows (fun b eid => { b with reportTo := eid }) hbytes
    (fun s it h => by rw [parseStage, h]) (fun _ _ => rfl) (by decide) (by decide) hheaded hlength
    hgoes

/-- A CRC is written as it is read. -/
theorem crcField_eq {crcType : Nat} (hle : crcType ≤ crcType32) (hne : crcType ≠ crcTypeNone)
    (fed : List UInt8) :
    crcField checksums crcType fed = byteString (checksumBytes crcType fed) := by
  unfold crcField writeCrc checksumBytes
  rw [if_pos hne]
  by_cases h32 : crcType = crcType32
  · rw [if_pos h32, if_neg (by rw [h32]; decide)]
  · have h16 : crcType = crcType16 := by
      unfold crcType32 crcTypeNone at *
      unfold crcType16
      omega
    rw [if_neg h32, if_pos h16]

/-! ## The primary block -/

variable (hfollows : cbor.Follows At) (hroom : 28 ≤ room)
include hfollows hroom

/-- The beginning of a bundle. -/
theorem path_init (hheaded : Headed 1 rest)
    (hgoes : Goes At room quota b .primaryBlockStart false [] 1 (init quota).bundle
      (init quota).block rest)
    (hsize : 1 + rest.length ≤ quota) : Path At room b (init quota) ([0x9f] ++ rest) := by
  have hle : 1 ≤ quota := by omega
  have hq : behind [0x9f] { init quota with next := some .primaryBlockStart } =
      before quota .primaryBlockStart false [] 1 0 (init quota).bundle (init quota).block := by
    rw [behind_of_le (show 0 + 1 ≤ quota by omega)]
    rfl
  have htakes := takes_bundleStart hfollows (init quota) rfl (congrArg Parser.parse hq)
  refine .item htakes ⟨rfl, rfl, rfl, rfl⟩ hheaded (show 1 + 1 ≤ room by omega) ?_
  rw [hq]
  exact hgoes hsize 0 [] fun _ => rfl

/-- The array of the primary block. -/
theorem goes_primaryBlockStart (hn : n < 24) (hpos : 0 < n) (hheaded : Headed 9 rest)
    (hgoes : Goes At room quota b .protocolVersion true (array n) (size + 1) bundle block rest) :
    Goes At room quota b .primaryBlockStart feed front size bundle block (array n ++ rest) := by
  have hlength : (array n).length = 1 := by
    rw [length_array, headSize_of_lt hn]
  rw [← hlength] at hgoes
  refine goes_item _ (fun nextBytes fed _ hq => takes_array hfollows hpos (by omega) _ rfl
      (fun s it hs harray hknown => ?_) hq)
    (fun nextBytes fed _ => ⟨[], fun _ => rfl, rfl⟩) (by decide) hheaded (by omega) hgoes
  rw [parseStage, hs]
  simp [primaryBlockStart, harray, hknown, hs]

theorem goes_protocolVersion (hn : n < 2 ^ 8) (hheaded : Headed 9 rest)
    (hgoes : Goes At room quota b .primaryProcFlags feed (front ++ uint n) (size + headSize n)
      { bundle with protocolVersion := n } block rest) :
    Goes At room quota b .protocolVersion feed front size bundle block (uint n ++ rest) := by
  have hn' : n < 2 ^ 64 := by omega
  refine goes_number hfollows hn' (records_protocolVersion _)
    (fun s it h => by rw [parseStage, h]) (by decide) id (fun nextBytes fed => ?_) (by decide)
    hheaded (Nat.le_refl 9) hroom hgoes
  simp only [protocolVersion, toNat_value hn', Nat.mod_eq_of_lt hn]
  rfl

theorem goes_primaryProcFlags (hn : n < 2 ^ 32) (hflags : n &&& bpV7Flags = n)
    (hheaded : Headed 9 rest)
    (hgoes : Goes At room quota b .crcType feed (front ++ uint n) (size + headSize n)
      { bundle with procFlags := n } block rest) :
    Goes At room quota b .primaryProcFlags feed front size bundle block (uint n ++ rest) := by
  have hn' : n < 2 ^ 64 := by omega
  refine goes_number hfollows hn' (records_primaryProcFlags _)
    (fun s it h => by rw [parseStage, h]) (by decide) id (fun nextBytes fed => ?_) (by decide)
    hheaded (Nat.le_refl 9) hroom hgoes
  simp only [primaryProcFlags, toNat_value hn', Nat.mod_eq_of_lt hn, hflags]
  rfl

theorem goes_crcType (hn : n ≤ crcType32) (hheaded : Headed 1 rest)
    (hgoes : Goes At room quota b .destinationEid (feed && decide (n ≠ crcTypeNone))
      (front ++ uint n) (size + headSize n) { bundle with crcType := n } block rest) :
    Goes At room quota b .crcType feed front size bundle block (uint n ++ rest) := by
  have hn' : n < 2 ^ 64 := Nat.lt_of_le_of_lt hn (by decide)
  have htoNat := toNat_value hn'
  have hle : ¬ 2 < UInt64.ofNat n := fun hlt =>
    absurd (UInt64.lt_iff_toNat_lt.mp hlt) (by rw [htoNat]; exact Nat.not_lt.mpr hn)
  refine goes_number hfollows hn' (records_crcType (by rw [htoNat]; exact hn))
    (fun s it h => by rw [parseStage, h]) (by decide)
    (fun h => (Bool.and_eq_true_iff.mp h).1) (fun nextBytes fed => ?_) (by decide) hheaded
    (by decide) hroom hgoes
  simp only [crcType, hle, if_false, htoNat]
  rw [feed_of_type hn']
  rfl

theorem goes_creationTimestamp {time sequence : Nat} (htime : time < 2 ^ 64)
    (hsequence : sequence < 2 ^ 64) (hheaded : Headed 9 rest)
    (hgoes : Goes At room quota b .lifetime feed (front ++ (array 2 ++ (uint time ++ uint sequence)))
      (size + (array 2 ++ (uint time ++ uint sequence)).length)
      { bundle with creationTimestamp := time, sequenceNumber := sequence } block rest) :
    Goes At room quota b .creationTimestamp feed front size bundle block
      (array 2 ++ (uint time ++ uint sequence) ++ rest) := by
  have hfirst := headSize_le time
  have hsecond := headSize_le sequence
  refine goes_item _ (fun nextBytes fed _ hq => takes_creationTimestamp hfollows
    (UInt64.ofNat time) (UInt64.ofNat sequence) _ rfl ?_ hq)
    (fun nextBytes fed hfed => ⟨fed, hfed, ?_⟩) (by decide) hheaded ?_ hgoes
  · rw [toNat_value htime, toNat_value hsequence]
  · simp only [stamped, toNat_value htime, toNat_value hsequence]
    rfl
  · have hsize : headSize 2 = 1 := rfl
    simp only [List.length_append, length_array, length_uint]
    omega

theorem goes_primaryBlockCrc (hheaded : Headed 1 rest)
    (hgoes : ∀ front', Goes At room quota b .blockStart false front'
      (size + (byteString (checksumBytes bundle.crcType front)).length)
      { bundle with
        primaryBlockLength :=
          (size - 1 + (byteString (checksumBytes bundle.crcType front)).length) % 2 ^ 16 }
      block rest) :
    Goes At room quota b .primaryBlockCrc true front size bundle block
      (byteString (checksumBytes bundle.crcType front) ++ rest) := by
  have hlength : (byteString (checksumBytes bundle.crcType front)).length =
      if bundle.crcType = crcType16 then 3 else 5 := by
    rw [length_byteString, length_checksumBytes]
    split <;> rfl
  refine goes_item (fun s => { s with
      crcFeed := false
      bundle := { s.bundle with
        primaryBlockLength :=
          (s.bundleSize - 1 + (byteString (checksumBytes bundle.crcType front)).length) % 2 ^ 16 }
      next := some .blockStart }) (fun nextBytes fed hfed hq => ?_)
    (fun nextBytes fed hfed => ⟨front, fun h => (by cases h), ?_⟩) (by decide) hheaded ?_
    (hgoes (front ++ byteString (checksumBytes bundle.crcType front)))
  · obtain rfl := hfed rfl
    exact takes_primaryBlockCrc hfollows _ hlength rfl rfl hq
  · obtain rfl := hfed rfl
    rfl
  · rw [hlength]
    split <;> omega

/-- The last number of the primary block, with the CRC behind it. -/
theorem goes_lastNumber (bundle' : Bundle) (hn : n < 2 ^ 64) (hrecords : Records record (UInt64.ofNat n))
    (hstage : ∀ s it, s.parse = stage → parseStage cbor s it = parseNumber cbor record s it)
    (hstart : stage ≠ .primaryBlockStart) (hcrc : bundle'.crcType ≤ crcType32) (hpos : 0 < size)
    (hrecord : ∀ nextBytes fed, (record (UInt64.ofNat n) (headSize n) (before quota stage
        (decide (bundle'.crcType ≠ crcTypeNone)) fed size nextBytes bundle block)).1 =
      behindNumbers (headSize n) (before quota stage
        (decide (bundle'.crcType ≠ crcTypeNone)) fed size nextBytes bundle' block))
    (hheaded : Headed 1 rest)
    (hgoes : ∀ front', Goes At room quota b .blockStart false front'
      (size + (uint n ++ crcField checksums bundle'.crcType (front ++ uint n)).length)
      { bundle' with
        primaryBlockLength :=
          (size - 1 + (uint n ++ crcField checksums bundle'.crcType (front ++ uint n)).length) %
            2 ^ 16 } block rest) :
    Goes At room quota b stage (decide (bundle'.crcType ≠ crcTypeNone)) front size bundle block
      (uint n ++ (crcField checksums bundle'.crcType (front ++ uint n) ++ rest)) := by
  by_cases hnone : bundle'.crcType = crcTypeNone
  · have hfield : crcField checksums bundle'.crcType (front ++ uint n) = [] :=
      if_neg (not_not.mpr hnone)
    have hfeed : decide (bundle'.crcType ≠ crcTypeNone) = false :=
      decide_eq_false (not_not.mpr hnone)
    rw [hfeed] at hrecord ⊢
    rw [hfield, List.append_nil, length_uint] at hgoes
    rw [hfield, List.nil_append]
    refine goes_number hfollows hn hrecords hstage hstart id (fun nextBytes fed => ?_)
      (by decide : Stage.blockStart ≠ .blockCrc ∧ Stage.blockStart ≠ .bundleEnd) hheaded
      (by decide) hroom (hgoes _)
    rw [hrecord]
    simp [behindNumbers, before, hnone]
  · have hfield := crcField_eq hcrc hnone (front ++ uint n)
    have hfeed : decide (bundle'.crcType ≠ crcTypeNone) = true := decide_eq_true hnone
    rw [hfeed] at hrecord ⊢
    rw [hfield, List.length_append, length_uint, ← Nat.add_assoc, ← Nat.add_assoc] at hgoes
    rw [hfield]
    have hlength : size + headSize n - 1 = size - 1 + headSize n := by omega
    have hcrcGoes : Goes At room quota b .primaryBlockCrc true (front ++ uint n)
        (size + headSize n) bundle' block
        (byteString (checksumBytes bundle'.crcType (front ++ uint n)) ++ rest) := by
      apply goes_primaryBlockCrc hfollows hroom hheaded
      rw [hlength]
      exact hgoes
    refine goes_number hfollows hn hrecords hstage hstart id (fun nextBytes fed => ?_)
      (by decide : Stage.primaryBlockCrc ≠ .blockCrc ∧ Stage.primaryBlockCrc ≠ .bundleEnd)
      (headed_checksum _ _ rest) (by decide) hroom hcrcGoes
    rw [hrecord]
    simp [behindNumbers, before, hnone]

/-- The lifetime of a fragment. -/
theorem goes_fragmentLifetime (hn : n < 2 ^ 64) (hfragment : bundle.isFragmented = true)
    (hheaded : Headed 9 rest)
    (hgoes : Goes At room quota b .fragmentOffset feed (front ++ uint n) (size + headSize n)
      { bundle with lifetime := n } block rest) :
    Goes At room quota b .lifetime feed front size bundle block (uint n ++ rest) := by
  refine goes_number hfollows hn (records_lifetime _)
    (fun s it h => by rw [parseStage, h]) (by decide) id (fun nextBytes fed => ?_) (by decide)
    hheaded (Nat.le_refl 9) hroom hgoes
  have hsame : ({ bundle with lifetime := n } : Bundle).isFragmented = true := hfragment
  simp [lifetime, before, toNat_value hn, hsame]

theorem goes_fragmentOffset (hn : n < 2 ^ 32) (hheaded : Headed 9 rest)
    (hgoes : Goes At room quota b .totalAduLength feed (front ++ uint n) (size + headSize n)
      { bundle with fragmentOffset := n } block rest) :
    Goes At room quota b .fragmentOffset feed front size bundle block (uint n ++ rest) := by
  have hn' : n < 2 ^ 64 := by omega
  refine goes_number hfollows hn' (records_fragmentOffset _)
    (fun s it h => by rw [parseStage, h]) (by decide) id (fun nextBytes fed => ?_) (by decide)
    hheaded (Nat.le_refl 9) hroom hgoes
  simp only [fragmentOffset, toNat_value hn', Nat.mod_eq_of_lt hn]
  rfl

/-- The lifetime, and where the bundle is a fragment of its ADU. -/
def lastNumbers (fragmented : Bool) (life offset total : Nat) : List UInt8 :=
  uint life ++ if fragmented then uint offset ++ uint total else []

theorem goes_lifetime {life offset total : Nat} (hlife : life < 2 ^ 64) (hoffset : offset < 2 ^ 32)
    (htotal : total < 2 ^ 32) (hcrc : bundle.crcType ≤ crcType32) (hpos : 0 < size)
    (hheaded : Headed 1 rest) {numbers : List UInt8}
    (hnumbers : lastNumbers bundle.isFragmented life offset total = numbers)
    (hgoes : ∀ front', Goes At room quota b .blockStart false front'
      (size + (numbers ++ crcField checksums bundle.crcType (front ++ numbers)).length)
      { bundle with
        lifetime := life
        fragmentOffset := if bundle.isFragmented then offset else bundle.fragmentOffset
        totalAduLength := if bundle.isFragmented then total else bundle.totalAduLength
        primaryBlockLength :=
          (size - 1 + (numbers ++ crcField checksums bundle.crcType (front ++ numbers)).length) %
            2 ^ 16 } block rest) :
    Goes At room quota b .lifetime (decide (bundle.crcType ≠ crcTypeNone)) front size bundle block
      (numbers ++ (crcField checksums bundle.crcType (front ++ numbers) ++ rest)) := by
  cases hfragment : bundle.isFragmented with
  | false =>
    rw [hfragment] at hnumbers hgoes
    obtain rfl : uint life = numbers := by simpa [lastNumbers] using hnumbers
    refine goes_lastNumber hfollows hroom { bundle with lifetime := life } hlife
      (records_lifetime _) (fun s it h => by rw [parseStage, h]) (by decide) hcrc hpos
      (fun nextBytes fed => ?_) hheaded hgoes
    have hsame : ({ bundle with lifetime := life } : Bundle).isFragmented = false := hfragment
    simp [lifetime, before, toNat_value hlife, hsame]
  | true =>
    rw [hfragment] at hnumbers hgoes
    obtain rfl : uint life ++ (uint offset ++ uint total) = numbers := by
      simpa [lastNumbers] using hnumbers
    have hoffset' : offset < 2 ^ 64 := by omega
    have htotal' : total < 2 ^ 64 := by omega
    have hassoc : uint life ++ (uint offset ++ uint total) ++
        (crcField checksums bundle.crcType (front ++ (uint life ++ (uint offset ++ uint total))) ++
          rest) = uint life ++ (uint offset ++ (uint total ++
        (crcField checksums bundle.crcType (front ++ uint life ++ uint offset ++ uint total) ++
          rest))) := by
      simp only [List.append_assoc]
    rw [hassoc]
    refine goes_fragmentLifetime hfollows hroom hlife hfragment (headed_uint hoffset' _)
      (goes_fragmentOffset hfollows hroom hoffset (headed_uint htotal' _)
        (goes_lastNumber hfollows hroom { bundle with
          lifetime := life
          fragmentOffset := offset
          totalAduLength := total } htotal' (records_totalAduLength _)
          (fun s it h => by rw [parseStage, h]) (by decide) hcrc (by omega) (fun nextBytes fed => ?_)
          hheaded fun front' => ?_))
    · simp only [totalAduLength, toNat_value htotal', Nat.mod_eq_of_lt htotal]
      rfl
    · have hlater := hgoes front'
      simp only [List.length_append, length_uint, List.append_assoc, if_true] at hlater ⊢
      have hsize : ∀ k, size + headSize life + headSize offset + (headSize total + k) =
          size + (headSize life + (headSize offset + (headSize total + k))) := by
        intro k
        omega
      have hblock : ∀ k, size + headSize life + headSize offset - 1 + (headSize total + k) =
          size - 1 + (headSize life + (headSize offset + (headSize total + k))) := by
        intro k
        omega
      rw [hsize, hblock]
      exact hlater

/-! ## Blocks -/

/-- The array of a block. -/
theorem goes_blockStart (hn : n < 24) (hpos : 0 < n) (hheaded : Headed 9 rest)
    (hgoes : Goes At room quota b .blockType true (array n) (size + 1) bundle block rest) :
    Goes At room quota b .blockStart feed front size bundle block (array n ++ rest) := by
  have hlength : (array n).length = 1 := by
    rw [length_array, headSize_of_lt hn]
  rw [← hlength] at hgoes
  refine goes_item _ (fun nextBytes fed _ hq => takes_array hfollows hpos (by omega) _ rfl
      (fun s it hs harray hknown => ?_) hq)
    (fun nextBytes fed _ => ⟨[], fun _ => rfl, rfl⟩) (by decide) hheaded (by omega) hgoes
  rw [parseStage, hs]
  simp [blockStart, harray, hs]

theorem goes_blockType (hn : n < 2 ^ 32) (hheaded : Headed 9 rest)
    (hgoes : Goes At room quota b .blockNumber feed (front ++ uint n) (size + headSize n) bundle
      (bundleBlockCreate n) rest) :
    Goes At room quota b .blockType feed front size bundle block (uint n ++ rest) := by
  have hn' : n < 2 ^ 64 := by omega
  refine goes_number hfollows hn' (records_blockType _)
    (fun s it h => by rw [parseStage, h]) (by decide) id (fun nextBytes fed => ?_) (by decide)
    hheaded (Nat.le_refl 9) hroom hgoes
  simp only [blockType, toNat_value hn', Nat.mod_eq_of_lt hn]
  rfl

theorem goes_blockNumber (hn : n < 2 ^ 8) (hheaded : Headed 9 rest)
    (hgoes : Goes At room quota b .blockProcFlags feed (front ++ uint n) (size + headSize n) bundle
      { block with number := n } rest) :
    Goes At room quota b .blockNumber feed front size bundle block (uint n ++ rest) := by
  have hn' : n < 2 ^ 64 := by omega
  refine goes_number hfollows hn' (records_blockNumber _)
    (fun s it h => by rw [parseStage, h]) (by decide) id (fun nextBytes fed => ?_) (by decide)
    hheaded (Nat.le_refl 9) hroom hgoes
  simp only [blockNumber, toNat_value hn', Nat.mod_eq_of_lt hn]
  rfl

theorem goes_blockProcFlags (hn : n < 2 ^ 8)
    (hflags : n &&& (0x01 ||| 0x10 ||| 0x02 ||| 0x04) = n) (hheaded : Headed 9 rest)
    (hgoes : Goes At room quota b .blockCrcType feed (front ++ uint n) (size + headSize n) bundle
      { block with flags := n } rest) :
    Goes At room quota b .blockProcFlags feed front size bundle block (uint n ++ rest) := by
  have hn' : n < 2 ^ 64 := by omega
  refine goes_number hfollows hn' (records_blockProcFlags _)
    (fun s it h => by rw [parseStage, h]) (by decide) id (fun nextBytes fed => ?_) (by decide)
    hheaded (Nat.le_refl 9) hroom hgoes
  simp only [blockProcFlags, toNat_value hn', Nat.mod_eq_of_lt hn, hflags]
  rfl

theorem goes_blockCrcType (hn : n ≤ crcType32) (hheaded : Headed 9 rest)
    (hgoes : Goes At room quota b .blockData (feed && decide (n ≠ crcTypeNone))
      (front ++ uint n) (size + headSize n) bundle { block with crcType := n } rest) :
    Goes At room quota b .blockCrcType feed front size bundle block (uint n ++ rest) := by
  have hn' : n < 2 ^ 64 := Nat.lt_of_le_of_lt hn (by decide)
  have hmod : n < 2 ^ 32 := Nat.lt_of_le_of_lt hn (by decide)
  refine goes_number hfollows hn' (records_blockCrcType _)
    (fun s it h => by rw [parseStage, h]) (by decide)
    (fun h => (Bool.and_eq_true_iff.mp h).1) (fun nextBytes fed => ?_) (by decide) hheaded
    (Nat.le_refl 9) hroom hgoes
  simp only [blockCrcType, toNat_value hn', Nat.mod_eq_of_lt hmod]
  rw [feed_of_type hn']
  rfl

/-- What follows the data of a block: its CRC, another block, or the end of the bundle. -/
def Marked (rest : List UInt8) : Prop :=
  ∃ byte tail, rest = byte :: tail ∧ byte ∈ ([0x42, 0x44, 0x85, 0x86, 0xff] : List UInt8)

omit hfollows hroom in
/-- What follows the data of a block cannot be taken for a part of a head that begins in them. -/
theorem clear_append {data : List UInt8} (hclear : noHead data = false)
    (hrest : Marked rest)
    (after : List UInt8) : noHead (data ++ (rest ++ after)) = false := by
  obtain ⟨byte, tail, rfl, hbyte⟩ := hrest
  cases data with
  | nil =>
    simp only [List.mem_cons, List.not_mem_nil, or_false] at hbyte
    rcases hbyte with rfl | rfl | rfl | rfl | rfl <;> rfl
  | cons first data =>
    cases data with
    | nil =>
      have hlow : ¬ byte < 32 := by
        simp only [List.mem_cons, List.not_mem_nil, or_false] at hbyte
        rcases hbyte with rfl | rfl | rfl | rfl | rfl <;> decide
      simpa [noHead, hlow] using hclear
    | cons second data => exact hclear

omit hfollows hroom in
theorem marked_checksum (crcType : Nat) (fed rest : List UInt8) :
    Marked (byteString (checksumBytes crcType fed) ++ rest) := by
  rw [byteString, length_checksumBytes]
  split
  · exact ⟨0x42, _, rfl, by decide⟩
  · exact ⟨0x44, _, rfl, by decide⟩

/-- What follows the payload block, and what another one. -/
def following (type : Nat) : Stage := if type = 1 then .bundleEnd else .blockStart

/-- The state in which the data of a block are read. -/
def reading (quota : Nat) (fed : List UInt8) (size length : Nat) (bundle : Bundle)
    (block : Block) : Parser :=
  { before quota (if block.crcType ≠ crcTypeNone then .blockCrc else .blockEnd) true fed size length
      bundle { block with length, data := [] } with bulkRead := true }

omit hfollows hroom in
/-- The data of a block without a CRC. -/
theorem bulkDone_of_none (hnone : block.crcType = crcTypeNone) (fed data : List UInt8)
    (length : Nat) :
    (reading quota fed size length bundle block).bulkDone data =
      before quota (following block.type) true fed size length
        { bundle with blocks := bundle.blocks ++ [{ block with length, data }] }
        { block with length, data } := by
  unfold reading bulkDone
  rw [if_neg (not_not.mpr hnone)]
  rfl

/-- The data of a block with a CRC, and the CRC. -/
theorem path_blockCrc (hnone : block.crcType ≠ crcTypeNone) {fed data : List UInt8}
    (hbytes : bytes = byteString (checksumBytes block.crcType (fed ++ data)))
    (hsize : size + (bytes.length + rest.length) ≤ quota)
    (hgoes : ∀ feed' front' block', Goes At room quota b (following block.type) feed' front'
      (size + bytes.length)
      { bundle with blocks := bundle.blocks ++ [{ block with length := data.length, data }] }
      block' rest) :
    Path At room b ((reading quota fed size data.length bundle block).bulkDone data)
      (bytes ++ rest) := by
  have hread : (reading quota fed size data.length bundle block).bulkDone data =
      before quota .blockCrc true fed size data.length bundle
        { block with length := data.length, data } := by
    unfold reading bulkDone
    rw [if_pos hnone]
    rfl
  have hlength : bytes.length ≤ 5 := by
    have hsmall : headSize 2 = 1 ∧ headSize 4 = 1 := ⟨rfl, rfl⟩
    rw [hbytes, length_byteString, length_checksumBytes]
    split <;> omega
  rw [hread]
  have htakes := takes_blockCrc hfollows (before quota .blockCrc true fed size data.length bundle
    { block with length := data.length, data }) rfl hbytes
  refine .last htakes ⟨rfl, rfl, rfl, rfl⟩ (by omega) ?_
  rw [behind_of_le (show size + bytes.length ≤ quota by omega)]
  exact hgoes false fed { block with length := data.length, data } (by omega) data.length fed
    fun h => by cases h

/-- The data of a block, with the CRC behind them. -/
theorem goes_blockData {data : List UInt8} (hdata : data.length < 2 ^ 32)
    (hclear : noHead data = false) (hcrc : block.crcType ≤ crcType32)
    (hrest : Marked rest)
    {field : List UInt8}
    (hfield : crcField checksums block.crcType (front ++ head 2 data.length ++ data) = field)
    (hgoes : ∀ feed' front' block', Goes At room quota b (following block.type) feed' front'
      (size + headSize data.length + data.length + field.length)
      { bundle with blocks := bundle.blocks ++ [{ block with length := data.length, data }] }
      block' rest) :
    Goes At room quota b .blockData (decide (block.crcType ≠ crcTypeNone)) front size bundle block
      (head 2 data.length ++ (data ++ (field ++ rest))) := by
  intro hsize nextBytes fed hfed
  simp only [List.length_append, length_head] at hsize
  have hsmall := headSize_le data.length
  have hq : behind (head 2 data.length) { before quota .blockData
        (decide (block.crcType ≠ crcTypeNone)) fed size nextBytes bundle block with
      crcFeed := true
      block := { block with length := data.length % 2 ^ 32, data := [] }
      nextBytes := data.length
      bulkRead := true
      bundleSize := size + data.length
      next := some (if block.crcType ≠ crcTypeNone then .blockCrc else .blockEnd) } =
      reading quota (fed ++ head 2 data.length) (size + headSize data.length + data.length)
        data.length bundle block := by
    rw [behind_of_le (by rw [length_head]; show size + data.length + _ ≤ quota; omega)]
    unfold reading before
    simp only [Nat.mod_eq_of_lt hdata, length_head, Option.getD_some, if_true]
    rw [Nat.add_right_comm]
  have htakes : TakesHead At (before quota .blockData (decide (block.crcType ≠ crcTypeNone)) fed
      size nextBytes bundle block) (head 2 data.length)
      (reading quota (fed ++ head 2 data.length) (size + headSize data.length + data.length)
        data.length bundle block) := by
    rw [← hq]
    exact takes_blockData hfollows (by omega) rfl rfl rfl
  refine .head htakes rfl (by rw [length_head]; omega) ?_
  by_cases hnone : block.crcType = crcTypeNone
  · -- nothing is read behind the data
    obtain rfl : [] = field := by
      rw [← hfield]
      exact (if_neg (not_not.mpr hnone)).symm
    refine .bulk rfl rfl rfl (clear_append hclear hrest) ?_
    rw [bulkDone_of_none hnone]
    refine hgoes true _ _ ?_ _ _ fun _ => rfl
    dsimp only [List.length_nil] at hsize ⊢
    omega
  · have hfeed : fed = front := hfed (decide_eq_true hnone)
    rw [crcField_eq hcrc hnone] at hfield
    have hmarked : Marked (field ++ rest) := by
      rw [← hfield]
      exact marked_checksum _ _ _
    refine .bulk rfl rfl rfl (clear_append hclear hmarked) ?_
    refine path_blockCrc hfollows hroom hnone ?_ (by omega) hgoes
    rw [← hfield, hfeed]

omit hfollows hroom in
/-- The array of a block, as it is written. -/
theorem array_eq (hn : n < 24) : [UInt8.ofNat (0x80 + n)] = array n := (if_pos hn).symm

omit hfollows hroom in
theorem blockGetItemCount_mem (sent : Block) :
    blockGetItemCount sent = 5 ∨ blockGetItemCount sent = 6 := by
  unfold blockGetItemCount
  split
  · exact .inr rfl
  · exact .inl rfl

omit hfollows hroom in
theorem convertToProtocolBlockFlags_lt (sent : Block) :
    convertToProtocolBlockFlags sent < 2 ^ 8 :=
  Nat.lt_of_le_of_lt Nat.and_le_right (by decide)

omit hfollows hroom in
/-- A block, as it is read. -/
theorem serializeBlock_eq {sent : Block} (h : sent.Sendable) (rest : List UInt8) :
    serializeBlock checksums sent ++ rest =
      array (blockGetItemCount sent) ++ (uint sent.type ++ (uint sent.number ++
        (uint (convertToProtocolBlockFlags sent) ++ (uint sent.crcType ++
          (head 2 sent.data.length ++ (sent.data ++
            (crcField checksums sent.crcType (array (blockGetItemCount sent) ++ uint sent.type ++
              uint sent.number ++ uint (convertToProtocolBlockFlags sent) ++ uint sent.crcType ++
              head 2 sent.data.length ++ sent.data) ++ rest))))))) := by
  have hcount : blockGetItemCount sent < 24 := by
    have hmem := blockGetItemCount_mem sent
    omega
  unfold serializeBlock
  rw [asByteString_uint, array_eq hcount, h.data]
  simp only [List.append_assoc]

/-- A block that is read. -/
theorem goes_block {sent : Block} (h : sent.Sendable) (hrest : Marked rest)
    (hgoes : ∀ feed' front' block', Goes At room quota b (following sent.type) feed' front'
      (size + (serializeBlock checksums sent).length)
      { bundle with blocks := bundle.blocks ++ [sent.received] } block' rest) :
    Goes At room quota b .blockStart feed front size bundle block
      (serializeBlock checksums sent ++ rest) := by
  have hmem := blockGetItemCount_mem sent
  have hflags := convertToProtocolBlockFlags_lt sent
  have hdata : sent.data.length < 2 ^ 32 := by
    rw [h.data]
    exact h.length
  have hcrc : sent.crcType < 2 ^ 64 := Nat.lt_of_le_of_lt h.crcType (by decide)
  have hnumber : sent.number < 2 ^ 64 := Nat.lt_trans h.number (by decide)
  have hidempotent : convertToProtocolBlockFlags sent &&& (0x01 ||| 0x10 ||| 0x02 ||| 0x04) =
      convertToProtocolBlockFlags sent := by
    rw [convertToProtocolBlockFlags, Nat.and_assoc, Nat.and_self]
  have hlength : (serializeBlock checksums sent).length = _ :=
    (congrArg List.length (List.append_nil _)).symm.trans
      (congrArg List.length (serializeBlock_eq h []))
  simp only [List.append_nil, List.length_append, length_array, length_uint, length_head,
    headSize_of_lt (show blockGetItemCount sent < 24 by omega)] at hlength
  rw [serializeBlock_eq h]
  refine goes_blockStart hfollows hroom (by omega) (by omega)
    (headed_uint (Nat.lt_trans h.type (by decide)) _)
    (goes_blockType hfollows hroom h.type (headed_uint hnumber _)
    (goes_blockNumber hfollows hroom h.number (headed_uint (Nat.lt_trans hflags (by decide)) _)
    (goes_blockProcFlags hfollows hroom hflags hidempotent (headed_uint hcrc _)
    (goes_blockCrcType hfollows hroom h.crcType
      (headed_head (by decide) (by omega) (headSize_le _) _) ?_))))
  have hblock : Block.mk sent.type sent.number (convertToProtocolBlockFlags sent) sent.crcType
      sent.data.length sent.data = sent.received := by
    rw [h.data]
    rfl
  refine @goes_blockData cbor At room quota b
    (array (blockGetItemCount sent) ++ uint sent.type ++ uint sent.number ++
      uint (convertToProtocolBlockFlags sent) ++ uint sent.crcType) rest
    (size + 1 + headSize sent.type + headSize sent.number +
      headSize (convertToProtocolBlockFlags sent) + headSize sent.crcType) bundle
    ⟨sent.type, sent.number, convertToProtocolBlockFlags sent, sent.crcType, 0, []⟩ hfollows hroom
    sent.data hdata h.clear h.crcType hrest _ rfl fun feed' front' block' => ?_
  have hlater := hgoes feed' front' block'
  rw [hlength, ← hblock] at hlater
  simp only [← Nat.add_assoc] at hlater
  exact hlater

omit hfollows in
/-- The end of the bundle. -/
theorem goes_bundleEnd : Goes At room quota b .bundleEnd feed front size b block [0xff] :=
  fun hsize _ _ _ => .stop rfl rfl rfl rfl rfl rfl hsize (by omega)

omit hfollows hroom in
/-- What begins with a block. -/
theorem block_begins {sent : Block} (h : sent.Sendable) (rest : List UInt8) :
    Marked (serializeBlock checksums sent ++ rest) ∧
      Headed 1 (serializeBlock checksums sent ++ rest) := by
  have hmem := blockGetItemCount_mem sent
  rw [serializeBlock_eq h]
  refine ⟨?_, headed_array (by omega) _⟩
  rcases hmem with hcount | hcount
  · exact ⟨0x85, _, by rw [hcount]; rfl, by decide⟩
  · exact ⟨0x86, _, by rw [hcount]; rfl, by decide⟩

omit hfollows hroom in
theorem blocks_begin {extensions : List Block} {payload : Block} (hpayload : payload.Sendable)
    (hextensions : ∀ sent ∈ extensions, sent.Sendable ∧ sent.type ≠ 1) (rest : List UInt8) :
    Marked ((extensions ++ [payload]).flatMap (serializeBlock checksums) ++ rest) ∧
      Headed 1 ((extensions ++ [payload]).flatMap (serializeBlock checksums) ++ rest) := by
  cases extensions with
  | nil =>
    simp only [List.nil_append, List.flatMap_cons, List.flatMap_nil, List.append_nil]
    exact block_begins hpayload rest
  | cons first extensions =>
    rw [List.cons_append, List.flatMap_cons, List.append_assoc]
    exact block_begins (hextensions first List.mem_cons_self).1 _

/-- The blocks behind the primary block, by induction on those before the payload block. -/
theorem goes_blocks {extensions : List Block} {payload : Block} (hpayload : payload.Sendable)
    (htype : payload.type = 1)
    (hextensions : ∀ sent ∈ extensions, sent.Sendable ∧ sent.type ≠ 1)
    (hbundle : { bundle with
      blocks := bundle.blocks ++ (extensions ++ [payload]).map Block.received } = b) :
    Goes At room quota b .blockStart feed front size bundle block
      ((extensions ++ [payload]).flatMap (serializeBlock checksums) ++ [0xff]) := by
  induction extensions generalizing feed front size bundle block with
  | nil =>
    simp only [List.nil_append, List.flatMap_cons, List.flatMap_nil, List.append_nil]
    refine goes_block hfollows hroom hpayload ⟨0xff, [], rfl, by decide⟩ fun _ _ _ => ?_
    rw [following, if_pos htype]
    have hlast : { bundle with blocks := bundle.blocks ++ [payload.received] } = b := hbundle
    rw [hlast]
    exact goes_bundleEnd hroom
  | cons sent extensions ih =>
    obtain ⟨hsent, hother⟩ := hextensions sent List.mem_cons_self
    have hrest : ∀ other ∈ extensions, other.Sendable ∧ other.type ≠ 1 :=
      fun other hmem => hextensions other (List.mem_cons_of_mem _ hmem)
    rw [List.cons_append, List.flatMap_cons, List.append_assoc]
    refine goes_block hfollows hroom hsent (blocks_begin hpayload hrest [0xff]).1 fun _ _ _ => ?_
    rw [following, if_neg hother]
    refine ih hrest ?_
    rw [← hbundle]
    simp

/-! ## A whole bundle -/

omit hfollows hroom in
theorem filterProtocolProcFlags_lt (b : Bundle) : filterProtocolProcFlags b < 2 ^ 32 :=
  Nat.lt_of_le_of_lt Nat.and_le_right (by decide)

omit hfollows hroom in
theorem primaryBlockGetItemCount_lt (b : Bundle) :
    0 < primaryBlockGetItemCount b ∧ primaryBlockGetItemCount b < 24 := by
  unfold primaryBlockGetItemCount
  split_ifs <;> omega

/-- What is written before the lifetime. -/
def primaryFront (sent : Bundle) (destination source reportTo : List UInt8) : List UInt8 :=
  array (primaryBlockGetItemCount sent) ++ uint sent.protocolVersion ++
    uint (filterProtocolProcFlags sent) ++ uint sent.crcType ++ destination ++ source ++ reportTo ++
    (array 2 ++ (uint sent.creationTimestamp ++ uint sent.sequenceNumber))

/-- The numbers behind it. -/
def primaryEnd (sent : Bundle) : List UInt8 :=
  lastNumbers sent.isFragmented sent.lifetime sent.fragmentOffset sent.totalAduLength

omit hfollows hroom in
theorem serializePrimary_eq (sent : Bundle) (destination source reportTo rest : List UInt8) :
    serializePrimary checksums sent destination source reportTo ++ rest =
      array (primaryBlockGetItemCount sent) ++ (uint sent.protocolVersion ++
        (uint (filterProtocolProcFlags sent) ++ (uint sent.crcType ++ (destination ++ (source ++
          (reportTo ++ (array 2 ++ (uint sent.creationTimestamp ++ uint sent.sequenceNumber) ++
            (primaryEnd sent ++ (crcField checksums sent.crcType
              (primaryFront sent destination source reportTo ++ primaryEnd sent) ++
                rest))))))))) := by
  have harray : ([0x82] : List UInt8) = array 2 := rfl
  unfold serializePrimary primaryFront primaryEnd lastNumbers
  rw [array_eq (primaryBlockGetItemCount_lt sent).2, harray]
  simp only [List.append_assoc]

/-- The primary block. -/
theorem goes_primaryBlock {sent : Bundle} (h : sent.Sendable room)
    {destination source reportTo : List UInt8}
    (hdestination : eidSerialize sent.destination = some destination)
    (hsource : eidSerialize sent.source = some source)
    (hreportTo : eidSerialize sent.reportTo = some reportTo) (hversion : sent.protocolVersion = 7)
    (hheaded : Headed 1 rest)
    (hgoes : ∀ front', Goes At room quota b .blockStart false front'
      (1 + (serializePrimary checksums sent destination source reportTo).length)
      { sent.received with blocks := [] } block rest) :
    Goes At room quota b .primaryBlockStart false front 1 (init quota).bundle block
      (serializePrimary checksums sent destination source reportTo ++ rest) := by
  obtain ⟨hpos, hcount⟩ := primaryBlockGetItemCount_lt sent
  have hflags : filterProtocolProcFlags sent &&& bpV7Flags = filterProtocolProcFlags sent := by
    rw [filterProtocolProcFlags, Nat.and_assoc, Nat.and_self]
  have hcrc : sent.crcType < 2 ^ 64 := Nat.lt_of_le_of_lt h.crcType (by decide)
  have hroomDestination : destination.length + 1 ≤ room := by
    rw [length_eidSerialize hdestination]
    exact h.eids _ (by simp)
  have hroomSource : source.length + 1 ≤ room := by
    rw [length_eidSerialize hsource]
    exact h.eids _ (by simp)
  have hroomReportTo : reportTo.length + 1 ≤ room := by
    rw [length_eidSerialize hreportTo]
    exact h.eids _ (by simp)
  have hlength : 1 + (serializePrimary checksums sent destination source reportTo).length =
      1 + 1 + headSize sent.protocolVersion + headSize (filterProtocolProcFlags sent) +
        headSize sent.crcType + destination.length + source.length + reportTo.length +
        (array 2 ++ (uint sent.creationTimestamp ++ uint sent.sequenceNumber)).length +
        (primaryEnd sent ++ crcField checksums sent.crcType
          (primaryFront sent destination source reportTo ++ primaryEnd sent)).length := by
    have hbytes := congrArg List.length
      (serializePrimary_eq sent destination source reportTo [])
    simp only [List.append_nil, List.length_append, length_array, length_uint,
      headSize_of_lt hcount] at hbytes ⊢
    omega
  rw [serializePrimary_eq]
  refine goes_primaryBlockStart hfollows hroom hcount hpos (headed_uint (by omega) _)
    (goes_protocolVersion hfollows hroom (by omega)
      (headed_uint (Nat.lt_trans (filterProtocolProcFlags_lt sent) (by decide)) _)
    (goes_primaryProcFlags hfollows hroom (filterProtocolProcFlags_lt sent) hflags
      (headed_uint hcrc _)
    (goes_crcType hfollows hroom h.crcType (headed_eid hdestination _)
    (goes_destinationEid hfollows hdestination (headed_eid hsource _) hroomDestination
    (goes_sourceEid hfollows hsource (headed_eid hreportTo _) hroomSource
    (goes_reportToEid hfollows hreportTo ?_ hroomReportTo
    (goes_creationTimestamp hfollows hroom h.creationTimestamp h.sequenceNumber ?_ ?_)))))))
  · rw [List.append_assoc]
    exact headed_array (by decide) _
  · unfold primaryEnd lastNumbers
    rw [List.append_assoc]
    exact headed_uint h.lifetime _
  · have hfragment : (filterProtocolProcFlags sent).testBit 0 = sent.isFragmented :=
      isFragmented_withProtocolFlags sent
    refine @goes_lifetime cbor At room quota b (primaryFront sent destination source reportTo) rest
      (1 + 1 + headSize sent.protocolVersion + headSize (filterProtocolProcFlags sent) +
        headSize sent.crcType + destination.length + source.length + reportTo.length +
        (array 2 ++ (uint sent.creationTimestamp ++ uint sent.sequenceNumber)).length)
      { (init quota).bundle with
        protocolVersion := sent.protocolVersion
        procFlags := filterProtocolProcFlags sent
        crcType := sent.crcType
        destination := eidRead sent.destination
        source := eidRead sent.source
        reportTo := eidRead sent.reportTo
        creationTimestamp := sent.creationTimestamp
        sequenceNumber := sent.sequenceNumber }
      block hfollows hroom sent.lifetime sent.fragmentOffset sent.totalAduLength h.lifetime
      h.fragmentOffset h.totalAduLength h.crcType (by omega) hheaded (primaryEnd sent) ?_
      fun front' => ?_
    · unfold primaryEnd Bundle.isFragmented
      rw [hfragment]
      rfl
    · have hlater := hgoes front'
      have hheader : (serializePrimary checksums sent destination source reportTo).length =
          sent.withProtocolFlags.headerLength := by
        rw [length_serializePrimary hdestination hsource hreportTo,
          if_neg (Nat.not_lt.mpr h.crcType), Nat.add_zero]
      convert hlater using 1
      · dsimp only
        omega
      · unfold Bundle.received
        simp only [Bundle.mk.injEq]
        refine ⟨rfl, rfl, rfl, trivial, trivial, trivial, rfl, rfl, rfl, ?_, ?_, ?_, rfl⟩
        · exact if_congr (iff_of_eq (congrArg (· = true) hfragment)) rfl rfl
        · exact if_congr (iff_of_eq (congrArg (· = true) hfragment)) rfl rfl
        · congr 1
          omega

omit hfollows hroom in
theorem protocolVersion_of_serialize {sent : Bundle}
    (h : bundle7Serialize checksums sent = some bytes) : sent.protocolVersion = 7 := by
  by_contra hversion
  simp [bundle7Serialize, hversion] at h

/-- The bytes of a bundle are a way of the parser to the bundle that is received. -/
theorem path_bundle {sent : Bundle} (h : sent.Sendable room)
    (hserialize : bundle7Serialize checksums sent = some bytes) (hquota : bytes.length ≤ quota) :
    Path At room sent.received (init quota) bytes := by
  have hversion := protocolVersion_of_serialize hserialize
  obtain ⟨destination, source, reportTo, hdestination, hsource, hreportTo, rfl⟩ :=
    bundle7Serialize_eq_some hserialize
  obtain ⟨extensions, payload, hblocks, htype, hextensions⟩ := h.payload
  have hpayload : payload.Sendable := h.blocks payload (by rw [hblocks]; simp)
  have hother : ∀ block ∈ extensions, block.Sendable ∧ block.type ≠ 1 := fun block hmem =>
    ⟨h.blocks block (by rw [hblocks]; simp [hmem]), hextensions block hmem⟩
  have hheaded := (blocks_begin hpayload hother [0xff]).2
  simp only [List.append_assoc] at hquota ⊢
  rw [hblocks] at hquota ⊢
  refine path_init hfollows hroom ?_ (goes_primaryBlock hfollows hroom h hdestination hsource
    hreportTo hversion hheaded fun front' => goes_blocks hfollows hroom hpayload htype hother ?_) ?_
  · rw [serializePrimary_eq]
    exact headed_array (primaryBlockGetItemCount_lt sent).2 _
  · unfold Bundle.received
    rw [hblocks]
    rfl
  · rw [List.length_append] at hquota
    exact hquota

end Parser

end Upcn.Bundle7
