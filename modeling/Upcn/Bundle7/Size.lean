import Upcn.Bundle7.Serializer

/-!
# The serialized size

`bundle7_get_serialized_size` of `bundle7/bundle7.c` with the sizes it adds up, and when
they are those of the bytes that `bundle7_serialize` writes.
-/

namespace Upcn.Bundle7

/-- `bundle7_cbor_uint_sizeof`. -/
def cborUintSizeof (num : Nat) : Nat :=
  if num ≤ 2 ^ 16 - 1 then
    if num ≤ 2 ^ 8 - 1 then
      if num ≤ 23 then 1 else 2
    else 3
  else if num ≤ 2 ^ 32 - 1 then 5
  else 9

/-- `bundle7_eid_sizeof`.  The length of the SSP is a `size_t`. -/
def eidSizeof (eid : List UInt8) : Nat :=
  if eid = dtnNone then 3
  else if eid.head? = some 100 then
    let length := (eid.length + 2 ^ 64 - 4) % 2 ^ 64
    (1 + cborUintSizeof 1 + cborUintSizeof length + length) % 2 ^ 64
  else
    match scanIpn eid with
    | none => 0
    | some (node, service) =>
      1 + cborUintSizeof 2 + 1 + cborUintSizeof node + cborUintSizeof service

/-- The size of the CRC field of a block. -/
def crcSize (crcType : Nat) : Nat :=
  if crcType = crcType32 then 5
  else if crcType = crcType16 then 3
  else 0

/-- The sum of `bundle7_recalculate_primary_block_length`. -/
def Bundle.headerLength (b : Bundle) : Nat :=
  1
    + cborUintSizeof b.protocolVersion
    + cborUintSizeof b.procFlags
    + cborUintSizeof b.crcType
    + eidSizeof b.destination
    + eidSizeof b.source
    + eidSizeof b.reportTo
    + 1
    + cborUintSizeof b.creationTimestamp
    + cborUintSizeof b.sequenceNumber
    + cborUintSizeof b.lifetime
    + (if b.isFragmented then
        cborUintSizeof b.fragmentOffset + cborUintSizeof b.totalAduLength
      else 0)
    + crcSize b.crcType

/-- `bundle7_recalculate_primary_block_length`.  The field has 16 bits. -/
def Bundle.bundle7RecalculatePrimaryBlockLength (b : Bundle) : Bundle :=
  { b with primaryBlockLength := b.headerLength % 2 ^ 16 }

/-- `bundle7_block_get_serialized_size`. -/
def bundle7BlockGetSerializedSize (block : Block) : Nat :=
  1
    + cborUintSizeof block.type
    + cborUintSizeof block.number
    + cborUintSizeof (convertToProtocolBlockFlags block)
    + cborUintSizeof block.crcType
    + cborUintSizeof block.length
    + block.length
    + crcSize block.crcType

/-- `bundle7_get_serialized_size`. -/
def Bundle.bundle7GetSerializedSize (b : Bundle) : Nat :=
  1 + b.primaryBlockLength + (b.blocks.map bundle7BlockGetSerializedSize).sum + 1

/-- A bundle of the program: the CRC type of the primary block is one of the three, and the
blocks have their data. -/
structure Bundle.Held (b : Bundle) : Prop where
  crcType : b.crcType ≤ crcType32
  data : ∀ block ∈ b.blocks, block.data.length = block.length

/-- The block has a CRC type that the parser lets pass, and that has no size. -/
def Block.hasUnknownCrc (block : Block) : Bool := crcType32 < block.crcType

/-- The bundle with the flags that BPv7 has. -/
def Bundle.withProtocolFlags (b : Bundle) : Bundle :=
  { b with procFlags := filterProtocolProcFlags b }

/-- The EIDs can be encoded. -/
def Bundle.Encodable (b : Bundle) : Prop :=
  (eidSerialize b.destination).isSome ∧ (eidSerialize b.source).isSome ∧
    (eidSerialize b.reportTo).isSome

/-- The flags that are not sent make no difference to the size of the primary block. -/
def Bundle.FlagsFit (b : Bundle) : Prop :=
  cborUintSizeof b.procFlags =
    cborUintSizeof (filterProtocolProcFlags b) + if crcType32 < b.crcType then 3 else 0

/-! ## Numbers and endpoints -/

variable {crc : Checksums} {b : Bundle} {block : Block} {eid bytes fed : List UInt8}

theorem cborUintSizeof_eq (num : Nat) : cborUintSizeof num = Cbor.headSize num := by
  unfold cborUintSizeof Cbor.headSize
  split_ifs <;> omega

theorem head?_of_isPrefix {tail : List UInt8} {c : UInt8} (h : c :: tail <+: eid) :
    eid.head? = some c := by
  obtain ⟨rest, rfl⟩ := h
  rfl

/-- The size of an EID that can be written is the size of what is written. -/
theorem length_eidSerialize (h : eidSerialize eid = some bytes) :
    bytes.length = eidSizeof eid := by
  unfold eidSerialize at h
  split at h
  · cases h
  rename_i written hwritten
  split at h
  · rename_i hfits
    obtain rfl := Option.some.inj h
    unfold eidSerializeCbor at hwritten
    unfold eidSizeof
    by_cases hnone : eid = dtnNone
    · rw [if_pos hnone] at hwritten ⊢
      obtain rfl := Option.some.inj hwritten
      rfl
    rw [if_neg hnone] at hwritten ⊢
    by_cases hdtn : dtnPrefix <+: eid
    · rw [if_pos hdtn] at hwritten
      obtain rfl := Option.some.inj hwritten
      have hlength := hdtn.length_le
      have hfour : dtnPrefix.length = 4 := rfl
      rw [serializeDtn] at hfits ⊢
      simp only [List.length_append, Cbor.length_array, Cbor.length_uint,
        Cbor.length_textString, List.length_drop, bufferSize] at hfits ⊢
      have hssp : (eid.length + 2 ^ 64 - 4) % 2 ^ 64 = eid.length - 4 := by omega
      rw [if_pos (head?_of_isPrefix hdtn), hssp]
      simp only [cborUintSizeof_eq]
      have hsize : Cbor.headSize 2 = 1 := rfl
      omega
    · rw [if_neg hdtn] at hwritten
      split at hwritten
      · rename_i hipn
        have hhead := head?_of_isPrefix hipn.2
        rw [hhead, if_neg (by decide)]
        unfold serializeIpn at hwritten
        cases hscan : scanIpn eid with
        | none =>
          rw [hscan] at hwritten
          cases hwritten
        | some numbers =>
          rw [hscan] at hwritten
          obtain rfl := Option.some.inj hwritten
          simp only [List.length_append, Cbor.length_array, Cbor.length_uint,
            cborUintSizeof_eq]
          have hsize : Cbor.headSize 2 = 1 := rfl
          omega
      · cases hwritten
  · cases h

/-! ## Blocks -/

/-- A CRC field has its size, but for the types that are written as CRC-16. -/
theorem length_crcField (crcType : Nat) :
    (crcField crc crcType fed).length =
      crcSize crcType + if crcType32 < crcType then 3 else 0 := by
  unfold crcField writeCrc crcSize crcTypeNone crcType16 crcType32
  have hfour : Cbor.headSize 4 = 1 := rfl
  have htwo : Cbor.headSize 2 = 1 := rfl
  by_cases hnone : crcType = 0
  · subst hnone
    rfl
  rw [if_pos hnone]
  by_cases h32 : crcType = 2
  · rw [if_pos h32, if_pos h32, if_neg (by omega), Cbor.length_byteString,
      Cbor.length_bigEndian, hfour]
  · rw [if_neg h32, if_neg h32, Cbor.length_byteString, Cbor.length_bigEndian, htwo]
    split_ifs <;> omega

theorem length_asByteString (bytes : List UInt8) : (asByteString bytes).length = bytes.length := by
  cases bytes <;> rfl

theorem length_serializeBlock (hdata : block.data.length = block.length) :
    (serializeBlock crc block).length =
      bundle7BlockGetSerializedSize block + if block.hasUnknownCrc then 3 else 0 := by
  unfold serializeBlock bundle7BlockGetSerializedSize Block.hasUnknownCrc
  simp only [List.length_append, List.length_cons, List.length_nil, Cbor.length_uint,
    length_asByteString, length_crcField, cborUintSizeof_eq, hdata, decide_eq_true_eq]
  omega

theorem length_serializeBlocks {blocks : List Block}
    (hdata : ∀ block ∈ blocks, block.data.length = block.length) :
    (blocks.flatMap (serializeBlock crc)).length =
      (blocks.map bundle7BlockGetSerializedSize).sum + 3 * blocks.countP (·.hasUnknownCrc) := by
  induction blocks with
  | nil => rfl
  | cons block blocks ih =>
    rw [List.flatMap_cons, List.length_append, length_serializeBlock (hdata _ List.mem_cons_self),
      ih fun b hb => hdata b (List.mem_cons_of_mem _ hb), List.map_cons, List.sum_cons,
      List.countP_cons]
    split_ifs <;> omega

/-! ## The primary block -/

theorem isFragmented_withProtocolFlags (b : Bundle) :
    b.withProtocolFlags.isFragmented = b.isFragmented := by
  unfold Bundle.withProtocolFlags Bundle.isFragmented filterProtocolProcFlags
  rw [Nat.testBit_and]
  simp [bpV7Flags]

theorem length_serializePrimary {destination source reportTo : List UInt8}
    (hdestination : eidSerialize b.destination = some destination)
    (hsource : eidSerialize b.source = some source)
    (hreportTo : eidSerialize b.reportTo = some reportTo) :
    (serializePrimary crc b destination source reportTo).length =
      b.withProtocolFlags.headerLength + if crcType32 < b.crcType then 3 else 0 := by
  have hfragment : (if b.isFragmented then
      Cbor.uint b.fragmentOffset ++ Cbor.uint b.totalAduLength else []).length =
      if b.isFragmented then
        cborUintSizeof b.fragmentOffset + cborUintSizeof b.totalAduLength else 0 := by
    split <;> simp [cborUintSizeof_eq]
  unfold serializePrimary
  simp only [List.length_append, List.length_cons, List.length_nil, Cbor.length_uint,
    length_crcField, hfragment, length_eidSerialize hdestination, length_eidSerialize hsource,
    length_eidSerialize hreportTo]
  rw [Bundle.headerLength, isFragmented_withProtocolFlags]
  simp only [Bundle.withProtocolFlags, cborUintSizeof_eq]
  omega

/-- What `bundle7_serialize` has written when it succeeds. -/
theorem bundle7Serialize_eq_some (h : bundle7Serialize crc b = some bytes) :
    ∃ destination source reportTo, eidSerialize b.destination = some destination ∧
      eidSerialize b.source = some source ∧ eidSerialize b.reportTo = some reportTo ∧
      bytes = [0x9f] ++ serializePrimary crc b destination source reportTo ++
        b.blocks.flatMap (serializeBlock crc) ++ [0xff] := by
  unfold bundle7Serialize at h
  by_cases hversion : b.protocolVersion = 7
  · simp only [hversion, ne_eq, not_true_eq_false, if_false, Option.pure_def, Option.bind_eq_bind,
      Option.bind_eq_some_iff] at h
    obtain ⟨destination, hdestination, source, hsource, reportTo, hreportTo, heq⟩ := h
    exact ⟨destination, source, reportTo, hdestination, hsource, hreportTo,
      (Option.some.inj heq).symm⟩
  · simp [hversion] at h

theorem cborUintSizeof_le (n : Nat) : cborUintSizeof n ≤ 9 := by
  unfold cborUintSizeof
  split_ifs <;> omega

theorem eidSizeof_le (h : (eidSerialize eid).isSome) :
    eidSizeof eid ≤ bufferSize := by
  obtain ⟨bytes, hbytes⟩ := Option.isSome_iff_exists.mp h
  rw [← length_eidSerialize hbytes]
  unfold eidSerialize at hbytes
  split at hbytes
  · cases hbytes
  · split at hbytes
    · rename_i hfits
      obtain rfl := Option.some.inj hbytes
      exact hfits
    · cases hbytes

/-- The header of a bundle that can be encoded is small. -/
theorem Bundle.Encodable.headerLength_lt (h : b.Encodable) : b.headerLength < 2 ^ 16 := by
  obtain ⟨hdestination, hsource, hreportTo⟩ := h
  have h1 := eidSizeof_le hdestination
  have h2 := eidSizeof_le hsource
  have h3 := eidSizeof_le hreportTo
  have hcrc : crcSize b.crcType ≤ 5 := by
    unfold crcSize
    split_ifs <;> omega
  have hsize := cborUintSizeof_le
  have := hsize b.protocolVersion
  have := hsize b.procFlags
  have := hsize b.crcType
  have := hsize b.creationTimestamp
  have := hsize b.sequenceNumber
  have := hsize b.lifetime
  have := hsize b.fragmentOffset
  have := hsize b.totalAduLength
  rw [bufferSize] at h1 h2 h3
  rw [Bundle.headerLength]
  split_ifs <;> omega

/-- The flags that are sent, and the size of the header. -/
theorem headerLength_withProtocolFlags (b : Bundle) :
    b.headerLength + cborUintSizeof (filterProtocolProcFlags b) =
      b.withProtocolFlags.headerLength + cborUintSizeof b.procFlags := by
  rw [Bundle.headerLength, Bundle.headerLength, isFragmented_withProtocolFlags]
  simp only [Bundle.withProtocolFlags]
  omega

theorem encodable_of_bundle7Serialize
    (h : bundle7Serialize crc b = some bytes) : b.Encodable := by
  obtain ⟨destination, source, reportTo, hdestination, hsource, hreportTo, -⟩ :=
    bundle7Serialize_eq_some h
  exact ⟨Option.isSome_iff_exists.mpr ⟨_, hdestination⟩,
    Option.isSome_iff_exists.mpr ⟨_, hsource⟩, Option.isSome_iff_exists.mpr ⟨_, hreportTo⟩⟩

/-- What is serialized of a bundle with the right flags. -/
theorem length_bundle7Serialize
    (hserialize : bundle7Serialize crc b = some bytes) (hfit : b.FlagsFit)
    (hdata : ∀ block ∈ b.blocks, block.data.length = block.length) :
    bytes.length = 1 + b.headerLength + ((b.blocks.map bundle7BlockGetSerializedSize).sum +
      3 * b.blocks.countP (·.hasUnknownCrc)) + 1 := by
  obtain ⟨destination, source, reportTo, hdestination, hsource, hreportTo, rfl⟩ :=
    bundle7Serialize_eq_some hserialize
  have hflags := headerLength_withProtocolFlags b
  have hprimary : (serializePrimary crc b destination source reportTo).length = _ :=
    length_serializePrimary hdestination hsource hreportTo
  rw [Bundle.FlagsFit] at hfit
  simp only [List.length_append, List.length_cons, List.length_nil, hprimary,
    length_serializeBlocks hdata]
  omega

/-! ## Bundles whose length is right -/

/-- The size is right for a bundle whose header length is the one of its fields, in the shortest
form: received so, or created or cut here. -/
theorem size_eq_length (hserialize : bundle7Serialize crc b = some bytes)
    (hdata : ∀ block ∈ b.blocks, block.data.length = block.length)
    (hknown : ∀ block ∈ b.blocks, block.hasUnknownCrc = false) (hfit : b.FlagsFit)
    (hlength : b.primaryBlockLength = b.headerLength) :
    b.bundle7GetSerializedSize = bytes.length := by
  have hcount : b.blocks.countP (·.hasUnknownCrc) = 0 :=
    List.countP_eq_zero.mpr fun block hblock => by simp [hknown block hblock]
  rw [length_bundle7Serialize hserialize hfit hdata, hcount, Bundle.bundle7GetSerializedSize,
    hlength]
  rfl

theorem size_recalculated
    (hserialize : bundle7Serialize crc b.bundle7RecalculatePrimaryBlockLength = some bytes)
    (hdata : ∀ block ∈ b.blocks, block.data.length = block.length)
    (hknown : ∀ block ∈ b.blocks, block.hasUnknownCrc = false) (hfit : b.FlagsFit) :
    b.bundle7RecalculatePrimaryBlockLength.bundle7GetSerializedSize = bytes.length := by
  have hencodable : b.Encodable := encodable_of_bundle7Serialize hserialize
  exact size_eq_length hserialize hdata hknown hfit (Nat.mod_eq_of_lt hencodable.headerLength_lt)

/-! ## The result -/

/-- The size of a bundle that can be serialized is the number of bytes exactly if its
header length is that of the primary block as it is written, and of the fields that blocks
of unknown CRC types get. -/
theorem bundle7Size_eq_iff (crc : Checksums) (b : Bundle) (bytes : List UInt8) (h : b.Held)
    (hserialize : bundle7Serialize crc b = some bytes) :
    b.bundle7GetSerializedSize = bytes.length ↔
      b.primaryBlockLength =
        b.withProtocolFlags.headerLength + 3 * b.blocks.countP (·.hasUnknownCrc) := by
  obtain ⟨destination, source, reportTo, hdestination, hsource, hreportTo, rfl⟩ :=
    bundle7Serialize_eq_some hserialize
  have hprimary : (serializePrimary crc b destination source reportTo).length =
      b.withProtocolFlags.headerLength := by
    rw [length_serializePrimary hdestination hsource hreportTo,
      if_neg (Nat.not_lt.mpr h.crcType)]
    rfl
  have hblocks : (b.blocks.flatMap (serializeBlock crc)).length =
      (b.blocks.map bundle7BlockGetSerializedSize).sum + 3 * b.blocks.countP (·.hasUnknownCrc) :=
    length_serializeBlocks h.data
  simp only [List.length_append, List.length_cons, List.length_nil, hprimary, hblocks,
    Bundle.bundle7GetSerializedSize]
  omega

/-- A bundle between null endpoints with one byte of payload and no CRCs. -/
def nullBundle (primaryBlockLength : Nat) : Bundle where
  protocolVersion := 7
  procFlags := 0
  crcType := crcTypeNone
  destination := dtnNone
  source := dtnNone
  reportTo := dtnNone
  creationTimestamp := 0
  sequenceNumber := 0
  lifetime := 5
  fragmentOffset := 0
  totalAduLength := 0
  primaryBlockLength := primaryBlockLength
  blocks := [⟨1, 1, 0, crcTypeNone, 1, [42]⟩]

theorem nullBundle_held (primaryBlockLength : Nat) : (nullBundle primaryBlockLength).Held :=
  ⟨Nat.zero_le _, fun block hblock => by obtain rfl := List.mem_singleton.mp hblock; rfl⟩

/-- The bytes of it. -/
def nullBytes : List UInt8 :=
  [0x9f, 0x88, 7, 0, 0, 0x82, 1, 0, 0x82, 1, 0, 0x82, 1, 0, 0x82, 0, 0, 5,
    0x85, 1, 1, 0, 0, 0x41, 42, 0xff]

/-- The parser has counted one byte more for a lifetime that was not in the shortest form,
and it is not written again. -/
theorem size_longLifetime : (nullBundle 18).Held ∧
    (∀ crc, bundle7Serialize crc (nullBundle 18) = some nullBytes) ∧
    (nullBundle 18).bundle7GetSerializedSize ≠ nullBytes.length :=
  ⟨nullBundle_held 18, fun _ => rfl, by decide⟩

/-- The first fragment of a bundle from `ipn:7.1` to `dtn:b`, with a hop count block and CRCs. -/
def crcBundle : Bundle :=
  { nullBundle 35 with
    procFlags := 1
    crcType := crcType16
    destination := dtnPrefix ++ [98]
    source := ipnPrefix ++ [55, 46, 49]
    lifetime := 86400000000
    totalAduLength := 300
    blocks := [⟨10, 2, 1, crcType32, 3, [0x82, 30, 0]⟩, ⟨1, 1, 0, crcType16, 2, [42, 43]⟩] }

theorem bundle7Size_eq_iff_crcBundle : ∃ bytes,
    bundle7Serialize ⟨fun _ => 0, fun _ => 0⟩ crcBundle = some bytes ∧
      crcBundle.bundle7GetSerializedSize = bytes.length :=
  ⟨_, rfl, (bundle7Size_eq_iff ⟨fun _ => 0, fun _ => 0⟩ crcBundle _
    ⟨by decide, by decide⟩ rfl).mpr (by decide)⟩

end Upcn.Bundle7
