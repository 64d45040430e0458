import Upcn.Bundle7.Size

/-!
# Fragments of BPv7 bundles

`bundle7_fragment_bundle` of `bundle7/fragment.c` with the size of the smallest first
fragment in `bundle7/bundle7.c`.

* `Splits` says what two fragments of a bundle are.
* `RoomForFragment` compares what the size of the smallest first fragment accounts for with
  what the fragment needs: it counts the fields of a fragment for those bundles only that
  are fragments already.
* `fragmentsWell_iff` says when the result is as it should be.
-/

namespace Upcn.Bundle7

/-! ## The fragmenter -/

/-- `BUNDLE_BLOCK_TYPE_PAYLOAD`. -/
def blockTypePayload : Nat := 1

def Block.isPayload (block : Block) : Bool := block.type = blockTypePayload

/-- `bundle_block_must_be_replicated`, for a block that is not the payload. -/
def Block.isReplicated (block : Block) : Bool := block.flags.testBit 0 && !block.isPayload

/-- What `bundle7_get_first_fragment_min_size` adds for a block. -/
def firstFragmentBlockSize (block : Block) : Nat :=
  if block.isPayload then
    1
      + cborUintSizeof block.type
      + cborUintSizeof block.number
      + cborUintSizeof block.flags
      + cborUintSizeof block.crcType
      + cborUintSizeof block.length
      + crcSize block.crcType
      + 2
  else bundle7BlockGetSerializedSize block

/-- `payload_block`. -/
def Bundle.payloadBlock (b : Bundle) : Option Block := b.blocks.find? (·.isPayload)

/-- `bundle7_get_first_fragment_min_size`. -/
def Bundle.firstFragmentMinSize (b : Bundle) (payload : Block) : Nat :=
  b.primaryBlockLength + ((b.blocks.map firstFragmentBlockSize).sum +
    if b.isFragmented then cborUintSizeof payload.length + 1 else 0)

/-- `total_adu_length` of the fragments. -/
def Bundle.aduLength (b : Bundle) (payload : Block) : Nat :=
  if b.isFragmented then b.totalAduLength else payload.length

/-- The blocks with the payload cut off behind `length` bytes. -/
def shortenPayload (length : Nat) : List Block → List Block
  | [] => []
  | block :: rest =>
    if block.isPayload then
      { block with length := length, data := block.data.take length } :: rest
    else block :: shortenPayload length rest

/-- The payload block of the second fragment. -/
def remainingPayload (payload : Block) (length : Nat) : Block where
  type := blockTypePayload
  number := 1
  flags := 0
  crcType := crcTypeNone
  length := payload.length - length
  data := (payload.data.drop length).take (payload.length - length)

/-- The header of a fragment with this offset. -/
def Bundle.fragmentHeader (b : Bundle) (payload : Block) (offset : Nat) : Bundle :=
  { b with
    procFlags := b.procFlags ||| 1
    fragmentOffset := offset
    totalAduLength := b.aduLength payload }

/-- What `bundle7_fragment_bundle` returns. -/
inductive Fragmentation where
  /-- `NULL`, before anything is changed. -/
  | null
  /-- The bundle itself. -/
  | input
  /-- The bundle, as it is changed, and the one that is returned. -/
  | fragments (first second : Bundle)
  /-- The assertion fails. -/
  | assertion
  /-- There is no payload block. -/
  | nullDeref
  deriving DecidableEq

/-- `bundle7_fragment_bundle`, for a bundle of version 7.  `malloc` succeeds, and
`emptyMem` says whether `realloc` to no bytes returns a pointer. -/
def bundle7FragmentBundle (emptyMem : Bool) (b : Bundle) (firstMax : Nat) : Fragmentation :=
  match b.payloadBlock with
  | none => .nullDeref
  | some payload =>
    let firstMin := b.firstFragmentMinSize payload
    if firstMax < firstMin then .null
    else
      let firstLength := (firstMax - firstMin) % 2 ^ 32
      if payload.length ≤ firstLength then .input
      else if firstLength = 0 ∧ emptyMem = false then .assertion
      else
        let first := { b.fragmentHeader payload b.fragmentOffset with
          blocks := shortenPayload firstLength b.blocks }
        let second := { b.fragmentHeader payload ((b.fragmentOffset + firstLength) % 2 ^ 32) with
          blocks := b.blocks.filter Block.isReplicated ++ [remainingPayload payload firstLength] }
        .fragments first.bundle7RecalculatePrimaryBlockLength
          second.bundle7RecalculatePrimaryBlockLength

/-! ## What is expected of it -/

/-- The primary block length is that of the primary block, if it can be encoded. -/
def Bundle.PrimaryLengthRight (b : Bundle) : Prop :=
  ∀ crc destination source reportTo, eidSerialize b.destination = some destination →
    eidSerialize b.source = some source → eidSerialize b.reportTo = some reportTo →
    b.primaryBlockLength = (serializePrimary crc b destination source reportTo).length

/-- The payload block of `b` between the other blocks. -/
structure Bundle.Payload (b : Bundle) (front : List Block) (payload : Block)
    (back : List Block) : Prop where
  version : b.protocolVersion = 7
  blocks : b.blocks = front ++ payload :: back
  isPayload : payload.isPayload = true
  others : ∀ block ∈ front ++ back, block.isPayload = false
  data : ∀ block ∈ b.blocks, block.data.length = block.length

/-- `first` and `second` are two fragments of `b`, of which the first has at most `firstMax`
bytes. -/
structure Splits (b : Bundle) (front : List Block) (payload : Block) (back : List Block)
    (firstMax : Nat) (first second : Bundle) : Prop where
  blocks : ∃ length,
    first.blocks = front ++
      { payload with length := length, data := payload.data.take length } :: back ∧
    second.blocks = (front ++ back).filter Block.isReplicated ++
      [remainingPayload payload length] ∧
    payload.data.take length ++ (remainingPayload payload length).data = payload.data ∧
    (payload.data.take length).length = length ∧
    first.fragmentOffset = b.fragmentOffset ∧
    second.fragmentOffset = b.fragmentOffset + length
  total : first.totalAduLength = b.aduLength payload ∧
    second.totalAduLength = b.aduLength payload
  flags : first.isFragmented = true ∧ second.isFragmented = true
  primary : first.PrimaryLengthRight ∧ second.PrimaryLengthRight
  small : ∀ crc bytes, bundle7Serialize crc first = some bytes → bytes.length ≤ firstMax

/-- The result is as it should be. -/
def FragmentsWell (emptyMem : Bool) (b : Bundle) (front : List Block) (payload : Block)
    (back : List Block) (firstMax : Nat) : Prop :=
  match bundle7FragmentBundle emptyMem b firstMax with
  | .null => True
  | .input => True
  | .fragments first second => Splits b front payload back firstMax first second
  | .assertion => False
  | .nullDeref => False

/-- With `length` bytes of payload, the first fragment takes no more than the size of the
smallest one and `room` bytes. -/
def Bundle.RoomForFragment (b : Bundle) (payload : Block) (length room : Nat) : Prop :=
  (b.fragmentHeader payload b.fragmentOffset).headerLength +
      cborUintSizeof (convertToProtocolBlockFlags payload) + cborUintSizeof length + length +
      3 * b.blocks.countP (·.hasUnknownCrc) ≤
    b.primaryBlockLength + cborUintSizeof payload.flags + cborUintSizeof payload.length +
      (if b.isFragmented then cborUintSizeof payload.length + 1 else 0) + room

/-- When the fragments are as they should be. -/
def Bundle.Divisible (emptyMem : Bool) (b : Bundle) (payload : Block) (firstMax : Nat) : Prop :=
  let room := firstMax - b.firstFragmentMinSize payload
  let length := room % 2 ^ 32
  firstMax < b.firstFragmentMinSize payload ∨ payload.length ≤ length ∨
    (length ≠ 0 ∨ emptyMem = true) ∧ b.fragmentOffset + length < 2 ^ 32 ∧
      (b.Encodable → b.FlagsFit ∧ b.RoomForFragment payload length room)

variable {b : Bundle} {front back : List Block} {payload : Block} {length firstMax : Nat}
  {emptyMem : Bool}

/-! ## The blocks -/

theorem Bundle.Payload.payloadBlock_eq (h : b.Payload front payload back) :
    b.payloadBlock = some payload := by
  rw [Bundle.payloadBlock, h.blocks, List.find?_append]
  have hnone : front.find? (·.isPayload) = none := by
    rw [List.find?_eq_none]
    intro block hblock
    rw [h.others block (List.mem_append_left _ hblock)]
    exact Bool.false_ne_true
  rw [hnone, List.find?_cons_of_pos h.isPayload]
  rfl

theorem shortenPayload_append (hfront : ∀ block ∈ front, block.isPayload = false)
    (hpayload : payload.isPayload = true) :
    shortenPayload length (front ++ payload :: back) = front ++
      { payload with length := length, data := payload.data.take length } :: back := by
  induction front with
  | nil => exact if_pos hpayload
  | cons block front ih =>
    have hblock := hfront block List.mem_cons_self
    rw [List.cons_append, shortenPayload, hblock, if_neg Bool.false_ne_true,
      ih fun block hmem => hfront block (List.mem_cons_of_mem _ hmem), List.cons_append]

theorem Bundle.Payload.shortenPayload_eq (h : b.Payload front payload back) :
    shortenPayload length b.blocks = front ++
      { payload with length := length, data := payload.data.take length } :: back := by
  rw [h.blocks]
  exact shortenPayload_append
    (fun block hblock => h.others block (List.mem_append_left _ hblock)) h.isPayload

/-- The payload is not among the replicated blocks. -/
theorem Bundle.Payload.replicated_eq (h : b.Payload front payload back) :
    b.blocks.filter Block.isReplicated = (front ++ back).filter Block.isReplicated := by
  have hnot : payload.isReplicated = false := by
    rw [Block.isReplicated, h.isPayload, Bool.not_true, Bool.and_false]
  rw [h.blocks, List.filter_append, List.filter_cons_of_neg (by rw [hnot]; exact Bool.false_ne_true),
    List.filter_append]

theorem Bundle.Payload.data_eq (h : b.Payload front payload back) :
    payload.data.length = payload.length :=
  h.data payload (by rw [h.blocks]; exact List.mem_append_right _ List.mem_cons_self)

/-- The sizes of the other blocks. -/
def othersSize (front back : List Block) : Nat :=
  ((front ++ back).map bundle7BlockGetSerializedSize).sum

theorem Bundle.Payload.firstFragmentMinSize_eq (h : b.Payload front payload back) :
    b.firstFragmentMinSize payload = b.primaryBlockLength + (othersSize front back +
      firstFragmentBlockSize payload +
      if b.isFragmented then cborUintSizeof payload.length + 1 else 0) := by
  have hothers : ∀ list : List Block, (∀ block ∈ list, block.isPayload = false) →
      list.map firstFragmentBlockSize = list.map bundle7BlockGetSerializedSize := by
    intro list hlist
    refine List.map_congr_left fun block hblock => ?_
    rw [firstFragmentBlockSize, hlist block hblock, if_neg Bool.false_ne_true]
  rw [Bundle.firstFragmentMinSize, h.blocks, List.map_append, List.map_cons, List.sum_append,
    List.sum_cons, hothers front fun block hblock => h.others block (List.mem_append_left _ hblock),
    hothers back fun block hblock => h.others block (List.mem_append_right _ hblock), othersSize,
    List.map_append, List.sum_append]
  omega

/-! ## The primary block -/

theorem cborUintSizeof_or_one (n : Nat) : cborUintSizeof (n ||| 1) = cborUintSizeof n := by
  have hor : (n ||| 1) = n ∨ (n ||| 1) = n + 1 ∧ n % 2 = 0 := by
    have hdouble := Nat.two_pow_add_eq_or_of_lt (b := 1) (i := 1) (by decide) (n / 2)
    rcases Nat.mod_two_eq_zero_or_one n with heven | hodd
    · have hn : n = 2 ^ 1 * (n / 2) := by omega
      rw [← hn] at hdouble
      exact .inr ⟨hdouble.symm, heven⟩
    · have hn : n = 2 ^ 1 * (n / 2) + 1 := by omega
      rw [← hn] at hdouble
      rw [hdouble, Nat.or_assoc, Nat.or_self]
      exact .inl rfl
  unfold cborUintSizeof
  rcases hor with heq | ⟨heq, heven⟩
  · rw [heq]
  · rw [heq]
    split_ifs <;> omega

/-- The recalculated length is right if and only if the flags fit. -/
theorem primaryLengthRight_iff :
    b.bundle7RecalculatePrimaryBlockLength.PrimaryLengthRight ↔ (b.Encodable → b.FlagsFit) := by
  have hflags := headerLength_withProtocolFlags b
  rw [Bundle.FlagsFit]
  constructor
  · intro h hencodable
    have hmod := Nat.mod_eq_of_lt hencodable.headerLength_lt
    obtain ⟨hdestination, hsource, hreportTo⟩ := hencodable
    obtain ⟨destination, hdestination⟩ := Option.isSome_iff_exists.mp hdestination
    obtain ⟨source, hsource⟩ := Option.isSome_iff_exists.mp hsource
    obtain ⟨reportTo, hreportTo⟩ := Option.isSome_iff_exists.mp hreportTo
    have hright := h ⟨fun _ => 0, fun _ => 0⟩ destination source reportTo hdestination hsource
      hreportTo
    have hlength : (serializePrimary ⟨fun _ => 0, fun _ => 0⟩ b destination source
        reportTo).length = _ := length_serializePrimary hdestination hsource hreportTo
    change b.headerLength % 2 ^ 16 = (serializePrimary _ b destination source reportTo).length
      at hright
    omega
  · intro h crc destination source reportTo hdestination hsource hreportTo
    have hencodable : b.Encodable := ⟨Option.isSome_iff_exists.mpr ⟨_, hdestination⟩,
      Option.isSome_iff_exists.mpr ⟨_, hsource⟩, Option.isSome_iff_exists.mpr ⟨_, hreportTo⟩⟩
    have hmod := Nat.mod_eq_of_lt hencodable.headerLength_lt
    have hlength : (serializePrimary crc b destination source reportTo).length = _ :=
      length_serializePrimary hdestination hsource hreportTo
    have hfit := h hencodable
    change b.headerLength % 2 ^ 16 = (serializePrimary crc b destination source reportTo).length
    omega

theorem isFragmented_fragmentHeader (payload : Block) (offset : Nat) :
    (b.fragmentHeader payload offset).isFragmented = true := by
  rw [Bundle.isFragmented, Bundle.fragmentHeader, Nat.testBit_or]
  simp

/-- The flag of a fragment is sent, and does not need a further byte. -/
theorem flagsFit_fragmentHeader (payload : Block) (offset : Nat) (blocks : List Block) :
    Bundle.FlagsFit { b.fragmentHeader payload offset with blocks := blocks } ↔ b.FlagsFit := by
  have hfilter : (b.procFlags ||| 1) &&& bpV7Flags = (b.procFlags &&& bpV7Flags) ||| 1 := by
    rw [Nat.and_or_distrib_right]
    rfl
  simp only [Bundle.FlagsFit, Bundle.fragmentHeader, filterProtocolProcFlags, hfilter,
    cborUintSizeof_or_one]
  rfl

/-- Both fragments have the right primary block length, or none. -/
theorem primaryLengthRight_fragment (offset : Nat) (blocks : List Block) :
    (Bundle.bundle7RecalculatePrimaryBlockLength
      { b.fragmentHeader payload offset with blocks := blocks }).PrimaryLengthRight ↔
        (b.Encodable → b.FlagsFit) := by
  rw [primaryLengthRight_iff, flagsFit_fragmentHeader]
  rfl

/-! ## The size of the first fragment -/

/-- The payload block that is cut off, and what the smallest fragment has for it. -/
theorem bundle7BlockGetSerializedSize_shortened (hpayload : payload.isPayload = true)
    (length : Nat) (data : List UInt8) :
    bundle7BlockGetSerializedSize { payload with length := length, data := data } +
        cborUintSizeof payload.flags + cborUintSizeof payload.length + 2 =
      firstFragmentBlockSize payload + cborUintSizeof (convertToProtocolBlockFlags payload) +
        cborUintSizeof length + length := by
  rw [firstFragmentBlockSize, if_pos hpayload, bundle7BlockGetSerializedSize]
  have hflags : convertToProtocolBlockFlags { payload with length := length, data := data } =
      convertToProtocolBlockFlags payload := rfl
  rw [hflags]
  dsimp only
  omega

/-- A bundle whose EIDs can be encoded is serialized. -/
theorem bundle7Serialize_of_encodable (crc : Checksums) (h : b.Encodable)
    (hversion : b.protocolVersion = 7) : ∃ bytes, bundle7Serialize crc b = some bytes := by
  obtain ⟨hdestination, hsource, hreportTo⟩ := h
  obtain ⟨destination, hdestination⟩ := Option.isSome_iff_exists.mp hdestination
  obtain ⟨source, hsource⟩ := Option.isSome_iff_exists.mp hsource
  obtain ⟨reportTo, hreportTo⟩ := Option.isSome_iff_exists.mp hreportTo
  rw [bundle7Serialize, if_neg (not_not.mpr hversion), hdestination, hsource, hreportTo]
  exact ⟨_, rfl⟩

/-- The first fragment is small enough if and only if there is room for it. -/
theorem small_iff (h : b.Payload front payload back) (hlength : length ≤ payload.length)
    (hmin : b.firstFragmentMinSize payload ≤ firstMax) (hfit : b.Encodable → b.FlagsFit) :
    (∀ crc bytes, bundle7Serialize crc (Bundle.bundle7RecalculatePrimaryBlockLength
        { b.fragmentHeader payload b.fragmentOffset with
          blocks := shortenPayload length b.blocks }) = some bytes → bytes.length ≤ firstMax) ↔
      (b.Encodable → b.RoomForFragment payload length
        (firstMax - b.firstFragmentMinSize payload)) := by
  rw [h.shortenPayload_eq]
  generalize hfirst : Bundle.bundle7RecalculatePrimaryBlockLength
    { b.fragmentHeader payload b.fragmentOffset with
      blocks := front ++
        { payload with length := length, data := payload.data.take length } :: back } = first
  have hencodable : first.Encodable ↔ b.Encodable := by
    rw [← hfirst]
    rfl
  have hfits : first.FlagsFit ↔ b.FlagsFit := by
    rw [← hfirst]
    exact flagsFit_fragmentHeader payload b.fragmentOffset (front ++
      { payload with length := length, data := payload.data.take length } :: back)
  have hheader : first.headerLength =
      (b.fragmentHeader payload b.fragmentOffset).headerLength := by
    rw [← hfirst]
    rfl
  have hblocks : first.blocks = front ++
      { payload with length := length, data := payload.data.take length } :: back := by
    rw [← hfirst]
    rfl
  have hsum : (first.blocks.map bundle7BlockGetSerializedSize).sum = othersSize front back +
      bundle7BlockGetSerializedSize
        { payload with length := length, data := payload.data.take length } := by
    rw [hblocks, othersSize]
    simp only [List.map_append, List.map_cons, List.sum_append, List.sum_cons]
    omega
  have hcount : first.blocks.countP (·.hasUnknownCrc) = b.blocks.countP (·.hasUnknownCrc) := by
    rw [hblocks, h.blocks]
    simp only [List.countP_append, List.countP_cons]
    rfl
  have hdata : ∀ block ∈ first.blocks, block.data.length = block.length := by
    intro block hblock
    rw [hblocks] at hblock
    rcases List.mem_append.mp hblock with hblock | hblock
    · exact h.data block (by rw [h.blocks]; exact List.mem_append_left _ hblock)
    · rcases List.mem_cons.mp hblock with rfl | hblock
      · rw [List.length_take, h.data_eq]
        exact Nat.min_eq_left hlength
      · exact h.data block (by
          rw [h.blocks]
          exact List.mem_append_right _ (List.mem_cons_of_mem _ hblock))
  have hshortened := bundle7BlockGetSerializedSize_shortened h.isPayload length
    (payload.data.take length)
  have hsize := h.firstFragmentMinSize_eq
  have hroom : b.RoomForFragment payload length (firstMax - b.firstFragmentMinSize payload) ↔
      1 + first.headerLength + ((first.blocks.map bundle7BlockGetSerializedSize).sum +
        3 * first.blocks.countP (·.hasUnknownCrc)) + 1 ≤ firstMax := by
    rw [Bundle.RoomForFragment, hheader, hsum, hcount]
    omega
  constructor
  · intro hsmall hb
    obtain ⟨bytes, hbytes⟩ := bundle7Serialize_of_encodable ⟨fun _ => 0, fun _ => 0⟩
      (hencodable.mpr hb) (by rw [← hfirst]; exact h.version)
    have hlen := length_bundle7Serialize hbytes (hfits.mpr (hfit hb)) hdata
    have := hsmall _ _ hbytes
    exact hroom.mpr (by omega)
  · intro hb crc bytes hbytes
    have hencoded := hencodable.mp (encodable_of_bundle7Serialize hbytes)
    rw [length_bundle7Serialize hbytes (hfits.mpr (hfit hencoded)) hdata]
    exact hroom.mp (hb hencoded)

/-! ## The result -/

/-- The bundle is cut off behind `length` bytes of payload. -/
theorem splits_iff (h : b.Payload front payload back) (hlength : length < payload.length)
    (hmin : b.firstFragmentMinSize payload ≤ firstMax) :
    Splits b front payload back firstMax
        (Bundle.bundle7RecalculatePrimaryBlockLength
          { b.fragmentHeader payload b.fragmentOffset with
            blocks := shortenPayload length b.blocks })
        (Bundle.bundle7RecalculatePrimaryBlockLength
          { b.fragmentHeader payload ((b.fragmentOffset + length) % 2 ^ 32) with
            blocks := b.blocks.filter Block.isReplicated ++ [remainingPayload payload length] }) ↔
      b.fragmentOffset + length < 2 ^ 32 ∧
        (b.Encodable → b.FlagsFit ∧ b.RoomForFragment payload length
          (firstMax - b.firstFragmentMinSize payload)) := by
  constructor
  · intro hsplit
    have hfit := (primaryLengthRight_fragment _ _).mp hsplit.primary.1
    have hroom := (small_iff h (Nat.le_of_lt hlength) hmin hfit).mp hsplit.small
    refine ⟨?_, fun hb => ⟨hfit hb, hroom hb⟩⟩
    obtain ⟨length', hfirst, -, -, -, -, hoffset⟩ := hsplit.blocks
    obtain rfl : length = length' := by
      change shortenPayload length b.blocks = _ at hfirst
      rw [h.shortenPayload_eq] at hfirst
      exact congrArg Block.length (List.cons.inj (List.append_cancel_left hfirst)).1
    change (b.fragmentOffset + length) % 2 ^ 32 = b.fragmentOffset + length at hoffset
    omega
  · rintro ⟨hoffset, hb⟩
    have hfit : b.Encodable → b.FlagsFit := fun hencodable => (hb hencodable).1
    have htake : (payload.data.take length).length = length := by
      rw [List.length_take, h.data_eq]
      exact Nat.min_eq_left (Nat.le_of_lt hlength)
    refine ⟨⟨length, h.shortenPayload_eq, ?_, ?_, htake, rfl, Nat.mod_eq_of_lt hoffset⟩,
      ⟨rfl, rfl⟩, ⟨isFragmented_fragmentHeader payload 0, isFragmented_fragmentHeader payload 0⟩,
      ⟨(primaryLengthRight_fragment _ _).mpr hfit, (primaryLengthRight_fragment _ _).mpr hfit⟩,
      (small_iff h (Nat.le_of_lt hlength) hmin hfit).mpr fun hencodable => (hb hencodable).2⟩
    · change _ ++ _ = _
      rw [h.replicated_eq]
    · have hdrop : (payload.data.drop length).take (payload.length - length) =
          payload.data.drop length := by
        have hdata := h.data_eq
        refine List.take_of_length_le ?_
        rw [List.length_drop]
        omega
      change _ ++ (payload.data.drop length).take (payload.length - length) = _
      rw [hdrop, List.take_append_drop]

/-- The result of `bundle7_fragment_bundle` is as it should be if and only if there is no
cut, or one behind some bytes with room for the fields of a fragment. -/
theorem fragmentsWell_iff (h : b.Payload front payload back) :
    FragmentsWell emptyMem b front payload back firstMax ↔
      b.Divisible emptyMem payload firstMax := by
  unfold FragmentsWell bundle7FragmentBundle Bundle.Divisible
  rw [h.payloadBlock_eq]
  dsimp only
  by_cases hmin : firstMax < b.firstFragmentMinSize payload
  · simp only [hmin, if_true, true_or]
  · rw [if_neg hmin]
    simp only [hmin, false_or]
    by_cases hall : payload.length ≤ (firstMax - b.firstFragmentMinSize payload) % 2 ^ 32
    · simp only [hall, if_true, true_or]
    · rw [if_neg hall]
      simp only [hall, false_or]
      by_cases hempty : (firstMax - b.firstFragmentMinSize payload) % 2 ^ 32 = 0 ∧ emptyMem = false
      · rw [if_pos hempty]
        refine iff_of_false not_false ?_
        rintro ⟨hsome | hmem, -⟩
        · exact hsome hempty.1
        · rw [hempty.2] at hmem
          cases hmem
      · rw [if_neg hempty]
        have hsome : (firstMax - b.firstFragmentMinSize payload) % 2 ^ 32 ≠ 0 ∨ emptyMem = true := by
          rw [not_and_or, Bool.not_eq_false] at hempty
          exact hempty
        simp only [hsome, true_and]
        exact splits_iff h (Nat.not_le.mp hall) (Nat.not_lt.mp hmin)

/-! ## Whole bundles and fragments -/

theorem headerLength_fragmentHeader (b : Bundle) (payload : Block) :
    (b.fragmentHeader payload b.fragmentOffset).headerLength = b.headerLength +
      if b.isFragmented then 0
      else cborUintSizeof b.fragmentOffset + cborUintSizeof payload.length := by
  rw [Bundle.headerLength, Bundle.headerLength, isFragmented_fragmentHeader]
  simp only [Bundle.fragmentHeader, cborUintSizeof_or_one, Bundle.aduLength, if_true]
  split <;> omega

theorem cborUintSizeof_pos (n : Nat) : 0 < cborUintSizeof n := by
  unfold cborUintSizeof
  split_ifs <;> omega

theorem cborUintSizeof_mono {m n : Nat} (h : m ≤ n) : cborUintSizeof m ≤ cborUintSizeof n := by
  unfold cborUintSizeof
  split_ifs <;> omega

/-- The smallest first fragment of a bundle that is not a fragment has no room for the
fields of one. -/
theorem not_roomForFragment (hwhole : b.isFragmented = false)
    (hprimary : b.primaryBlockLength = b.headerLength)
    (hflags : cborUintSizeof (convertToProtocolBlockFlags payload) =
      cborUintSizeof payload.flags) : ¬ b.RoomForFragment payload length length := by
  have hoffset := cborUintSizeof_pos b.fragmentOffset
  have hlength := cborUintSizeof_pos length
  rw [Bundle.RoomForFragment, headerLength_fragmentHeader, hwhole, hprimary, hflags]
  simp only [Bool.false_eq_true, if_false]
  omega

/-- For a fragment, it has more room than it takes. -/
theorem roomForFragment_of_fragment (hfragment : b.isFragmented = true)
    (hprimary : b.primaryBlockLength = b.headerLength)
    (hflags : cborUintSizeof (convertToProtocolBlockFlags payload) =
      cborUintSizeof payload.flags)
    (hcrc : b.blocks.countP (·.hasUnknownCrc) = 0) (hlength : length ≤ payload.length) :
    b.RoomForFragment payload length length := by
  have hmono := cborUintSizeof_mono hlength
  rw [Bundle.RoomForFragment, headerLength_fragmentHeader, hfragment, hprimary, hflags, hcrc]
  simp only [if_true]
  omega

/-- A bundle between null endpoints with four bytes of payload, which is not a fragment. -/
def wholeBundle : Bundle :=
  { nullBundle 17 with blocks := [⟨1, 1, 0, crcTypeNone, 4, [1, 2, 3, 4]⟩] }

/-- A fragment between null endpoints with a hop count block, which is replicated, a block that
is not and four bytes of payload. -/
def cutBundle : Bundle :=
  { nullBundle 19 with
    procFlags := 1
    fragmentOffset := 10
    totalAduLength := 20
    blocks := [⟨10, 2, 1, crcTypeNone, 3, [0x82, 30, 0]⟩, ⟨1, 1, 0, crcTypeNone, 4, [1, 2, 3, 4]⟩,
      ⟨7, 3, 0, crcTypeNone, 1, [5]⟩] }

theorem payload_cutBundle : cutBundle.Payload [⟨10, 2, 1, crcTypeNone, 3, [0x82, 30, 0]⟩]
    ⟨1, 1, 0, crcTypeNone, 4, [1, 2, 3, 4]⟩ [⟨7, 3, 0, crcTypeNone, 1, [5]⟩] where
  version := rfl
  blocks := rfl
  isPayload := rfl
  others := by decide
  data := by decide

/-- It is cut between the bytes of the payload, and the first block is in both fragments. -/
theorem fragmentsWell_cutBundle :
    (∃ first second, bundle7FragmentBundle true cutBundle 47 = .fragments first second ∧
      first.blocks.length = 3 ∧ second.blocks.length = 2) ∧
      FragmentsWell true cutBundle [⟨10, 2, 1, crcTypeNone, 3, [0x82, 30, 0]⟩]
        ⟨1, 1, 0, crcTypeNone, 4, [1, 2, 3, 4]⟩ [⟨7, 3, 0, crcTypeNone, 1, [5]⟩] 47 := by
  have hdivisible : cutBundle.Divisible true ⟨1, 1, 0, crcTypeNone, 4, [1, 2, 3, 4]⟩ 47 := by
    refine .inr (.inr ⟨.inl (by decide), by decide, fun _ => ⟨rfl, ?_⟩⟩)
    rw [Bundle.RoomForFragment]
    decide
  exact ⟨⟨_, _, rfl, rfl, rfl⟩, (fragmentsWell_iff payload_cutBundle).mpr hdivisible⟩

/-- The first fragment has two bytes of payload and is two bytes too large: it has got a fragment
offset and a total length. -/
theorem wholeBundle_not_fragmentsWell :
    ¬ FragmentsWell true wholeBundle [] ⟨1, 1, 0, crcTypeNone, 4, [1, 2, 3, 4]⟩ [] 27 := by
  have hfragments : bundle7FragmentBundle true wholeBundle 27 = .fragments
      { wholeBundle with
        procFlags := 1
        totalAduLength := 4
        primaryBlockLength := 19
        blocks := [⟨1, 1, 0, crcTypeNone, 2, [1, 2]⟩] }
      { wholeBundle with
        procFlags := 1
        fragmentOffset := 2
        totalAduLength := 4
        primaryBlockLength := 19
        blocks := [⟨1, 1, 0, crcTypeNone, 2, [3, 4]⟩] } := by decide
  rw [FragmentsWell, hfragments]
  intro hsplit
  exact absurd (hsplit.small ⟨fun _ => 0, fun _ => 0⟩ _ rfl) (by decide)

end Upcn.Bundle7
