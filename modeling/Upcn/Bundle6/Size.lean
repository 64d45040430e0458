import Upcn.Bundle6.Dictionary
import Mathlib.Algebra.BigOperators.Group.List.Basic

/-!
# The serialized size

`get_serialized_size` of `bundle6/bundle6.c`, and how far it is from the number of
bytes that `bundle6_serialize` writes.
-/

namespace Upcn.Bundle6

/-- The bit of `BUNDLE_BLOCK_FLAG_MUST_BE_REPLICATED`. -/
def Block.mustBeReplicated (block : Block) : Bool := block.flags.testBit 0

/-- The block is the payload block. -/
def Block.isPayload (block : Block) : Bool := block.type = 1

/-- The size of the two offsets of an EID. -/
def offsetsSize (info : EidInfo) : Nat :=
  sdnvGetSizeU16 info.dictSchemeOffset + sdnvGetSizeU16 info.dictSspOffset

/-- The size of the references of a block, which are looked up from `eidRefOffset` on. -/
def eidRefSize (references : List EidInfo) (eidRefOffset : Nat) (block : Block) : Nat :=
  if block.hasEidRefField then
    (((references.drop eidRefOffset).take block.eidRefs.length).map offsetsSize).sum +
      sdnvGetSizeU16 (block.eidRefs.length % 2 ^ 16)
  else 0

/-- The loop of `get_serialized_size` over the blocks. -/
def sizeBlocks (references : List EidInfo) (excludePayload firstFragment lastFragment : Bool) :
    List Block → Bool → Nat → Nat
  | [], _, _ => 0
  | block :: blocks, payloadReached, eidRefOffset =>
    let blockWanted := block.mustBeReplicated || (firstFragment && !payloadReached) ||
      (lastFragment && payloadReached)
    let blockSize := 1 + sdnvGetSizeU32 block.flags + sdnvGetSizeU32 block.length +
      eidRefSize references eidRefOffset block +
      (if block.isPayload && excludePayload then 0 else block.length)
    (if blockWanted then blockSize else 0) +
      sizeBlocks references excludePayload firstFragment lastFragment blocks
        (payloadReached || block.isPayload)
        (if block.hasEidRefField then eidRefOffset + block.eidRefs.length else eidRefOffset)

namespace Bundle

/-- The sizes of the fragment fields, which `get_serialized_size` adds to the header. -/
def fragmentFieldsSize (b : Bundle) : Nat :=
  if b.isFragmented ∧ b.payloadBlock ≠ none then
    sdnvGetSizeU32 b.totalAduLength + sdnvGetSizeU32 b.fragmentOffset
  else 0

/-- `get_serialized_size`: the size, and the bundle with its new header length. -/
def getSerializedSize (b : Bundle) (excludePayload firstFragment lastFragment : Bool) :
    Nat × Bundle :=
  let updated := b.bundle6RecalculateHeaderLength
  (updated.primaryBlockLength +
    sizeBlocks b.bundle6CalculateDict.eidReferences excludePayload firstFragment lastFragment
      b.blocks false 0 + b.fragmentFieldsSize, updated)

/-- `bundle6_get_serialized_size`. -/
def bundle6GetSerializedSize (b : Bundle) : Nat × Bundle :=
  b.getSerializedSize false true true

/-- `bundle6_get_first_fragment_min_size`. -/
def bundle6GetFirstFragmentMinSize (b : Bundle) : Nat × Bundle :=
  b.getSerializedSize true true false

/-- `bundle6_get_mid_fragment_min_size`. -/
def bundle6GetMidFragmentMinSize (b : Bundle) : Nat × Bundle :=
  b.getSerializedSize true false false

/-- `bundle6_get_last_fragment_min_size`. -/
def bundle6GetLastFragmentMinSize (b : Bundle) : Nat × Bundle :=
  b.getSerializedSize true false true

/-- The sizes of the references of all blocks, each at its place in the bundle. -/
def referencesSize (references : List EidInfo) : List Block → Nat → Nat
  | [], _ => 0
  | block :: blocks, eidRefOffset =>
    eidRefSize references eidRefOffset block + referencesSize references blocks
      (if block.hasEidRefField then eidRefOffset + block.eidRefs.length else eidRefOffset)

/-- By how much the fields of the bundle are counted too large: flags that are not
written, the old header length in the place of the new one, the fragment fields for the
second time, the references of a block in the place of the first ones of the bundle, and
what is lost of a header length of more than 16 bits. -/
def sizeDefect (b : Bundle) : Int :=
  let references := b.bundle6CalculateDict.eidReferences
  ((sdnvGetSizeU32 b.procFlags : Int) - sdnvGetSizeU32 (b.procFlags &&& rfc5050Flags)) +
    ((sdnvGetSizeU32 b.primaryBlockLength : Int) -
      sdnvGetSizeU32 (b.headerLength % 2 ^ 16)) +
    b.fragmentFieldsSize +
    ((referencesSize references b.blocks 0 : Int) -
      (b.blocks.map (eidRefSize references 0)).sum) -
    ((b.headerLength : Int) - (b.headerLength % 2 ^ 16 : Nat))

/-- A bundle of the program: the numbers fit their types, the blocks have their data, only
blocks with the flag have EID references, and the dictionary is below 65536 bytes. -/
structure Held (b : Bundle) : Prop where
  procFlags : b.procFlags < 2 ^ 32
  primaryBlockLength : b.primaryBlockLength < 2 ^ 16
  dictionary : b.bundle6CalculateDict.dictLengthBytes < 2 ^ 16
  unflagged : ∀ block ∈ b.blocks, block.hasEidRefField = false → block.eidRefs = []
  data : ∀ block ∈ b.blocks, block.data.length = block.length

end Bundle

/-! ## Sizes of numbers -/

variable {value k width mask : Nat}

theorem and_eq_zero_iff (hvalue : value < 2 ^ width)
    (hhigh : ∀ i < width, k ≤ i → mask.testBit i = true)
    (hlow : ∀ i < k, mask.testBit i = false) : value &&& mask = 0 ↔ value < 2 ^ k := by
  constructor
  · exact fun h => lt_of_and_eq_zero h hvalue hhigh
  · intro hlt
    refine Nat.eq_of_testBit_eq fun i => ?_
    rw [Nat.testBit_and, Nat.zero_testBit]
    rcases Nat.lt_or_ge i k with hi | hi
    · rw [hlow i hi, Bool.and_false]
    · rw [Nat.testBit_lt_two_pow (Nat.lt_of_lt_of_le hlt (Nat.pow_le_pow_right (by omega) hi)),
        Bool.false_and]

/-- A number of 16 bits has one size. -/
theorem sdnvGetSizeU32_eq_U16 (h : value < 2 ^ 16) :
    sdnvGetSizeU32 value = sdnvGetSizeU16 value := by
  have h32 : value < 2 ^ 32 := by omega
  have hone : value &&& 0xFF80 = 0 ↔ value < 2 ^ 7 :=
    and_eq_zero_iff h (by decide) (by decide)
  have htwo : value &&& 0xC000 = 0 ↔ value < 2 ^ 14 :=
    and_eq_zero_iff h (by decide) (by decide)
  have hone' : value &&& 0xFFFFFF80 = 0 ↔ value < 2 ^ 7 :=
    and_eq_zero_iff h32 (by decide) (by decide)
  have htwo' : value &&& 0xFFFFC000 = 0 ↔ value < 2 ^ 14 :=
    and_eq_zero_iff h32 (by decide) (by decide)
  have hthree : value &&& 0xFFE00000 = 0 ↔ value < 2 ^ 21 :=
    and_eq_zero_iff h32 (by decide) (by decide)
  unfold sdnvGetSizeU32 sdnvGetSizeU16
  simp only [hone, htwo, hone', htwo', hthree]
  split_ifs <;> omega

theorem length_clearMarker (bytes : List UInt8) : (clearMarker bytes).length = bytes.length := by
  induction bytes with
  | nil => rfl
  | cons byte bytes ih =>
    cases bytes with
    | nil => rfl
    | cons next bytes => exact congrArg (· + 1) ih

@[simp] theorem length_sdnvWriteGeneric (size value : Nat) :
    (sdnvWriteGeneric size value).length = size := by
  rw [sdnvWriteGeneric, length_clearMarker]
  exact length_sdnvGroups size value

@[simp] theorem length_sdnvWriteU16 (value : Nat) :
    (sdnvWriteU16 value).length = sdnvGetSizeU16 value := length_sdnvWriteGeneric _ _

@[simp] theorem length_sdnvWriteU32 (value : Nat) :
    (sdnvWriteU32 value).length = sdnvGetSizeU32 value := length_sdnvWriteGeneric _ _

@[simp] theorem length_sdnvWriteU64 (value : Nat) :
    (sdnvWriteU64 value).length = sdnvGetSizeU64 value := length_sdnvWriteGeneric _ _

@[simp] theorem length_serializeOffsets (info : EidInfo) :
    (serializeOffsets info).length = offsetsSize info := by
  simp [serializeOffsets, offsetsSize]

/-- The offsets of an EID have 16 bits, and the two sizes of them agree. -/
theorem offsetsSize_calculateEidInfo (eid : List UInt8) (dictLength : Nat) :
    sdnvGetSizeU32 (calculateEidInfo eid dictLength).1.dictSchemeOffset +
      sdnvGetSizeU32 (calculateEidInfo eid dictLength).1.dictSspOffset =
      offsetsSize (calculateEidInfo eid dictLength).1 := by
  have hscheme : (calculateEidInfo eid dictLength).1.dictSchemeOffset < 2 ^ 16 :=
    Nat.mod_lt _ (by decide)
  have hssp : (calculateEidInfo eid dictLength).1.dictSspOffset < 2 ^ 16 :=
    Nat.mod_lt _ (by decide)
  rw [offsetsSize, sdnvGetSizeU32_eq_U16 hscheme, sdnvGetSizeU32_eq_U16 hssp]

/-! ## Blocks -/

variable {b : Bundle} {block : Block} {blocks : List Block} {references : List EidInfo}

/-- What a block has besides its references. -/
def Block.plainSize (block : Block) : Nat :=
  1 + sdnvGetSizeU32 block.flags + sdnvGetSizeU32 block.length + block.length

theorem length_flatMap_serializeOffsets (infos : List EidInfo) :
    (infos.flatMap serializeOffsets).length = (infos.map offsetsSize).sum := by
  simp [List.length_flatMap]

theorem length_serializeBlock (desc : DictDescriptor) (hdata : block.data.length = block.length) :
    (serializeBlock desc block).length =
      block.plainSize + eidRefSize desc.eidReferences 0 block := by
  unfold serializeBlock eidRefSize Block.plainSize
  split
  · simp only [List.length_append, List.length_cons, List.length_nil, length_sdnvWriteU16,
      length_sdnvWriteU32, length_flatMap_serializeOffsets, hdata, List.drop_zero]
    omega
  · simp only [List.length_append, List.length_cons, List.length_nil, length_sdnvWriteU32,
      hdata]
    omega

theorem length_serializeBlocks (desc : DictDescriptor)
    (hdata : ∀ block ∈ blocks, block.data.length = block.length) :
    (blocks.flatMap (serializeBlock desc)).length =
      (blocks.map Block.plainSize).sum +
        (blocks.map (eidRefSize desc.eidReferences 0)).sum := by
  induction blocks with
  | nil => rfl
  | cons block blocks ih =>
    rw [List.flatMap_cons, List.length_append, ih fun b hb => hdata b (List.mem_cons_of_mem _ hb),
      length_serializeBlock desc (hdata block List.mem_cons_self)]
    simp only [List.map_cons, List.sum_cons]
    omega

/-- `bundle6_get_serialized_size` wants every block, and all of it. -/
theorem sizeBlocks_whole (payloadReached : Bool) (eidRefOffset : Nat) :
    sizeBlocks references false true true blocks payloadReached eidRefOffset =
      (blocks.map Block.plainSize).sum +
        Bundle.referencesSize references blocks eidRefOffset := by
  induction blocks generalizing payloadReached eidRefOffset with
  | nil => rfl
  | cons block blocks ih =>
    have hwanted : (block.mustBeReplicated || (true && !payloadReached) ||
        (true && payloadReached)) = true := by
      cases payloadReached <;> simp
    rw [sizeBlocks, ih, hwanted, Bool.and_false]
    simp only [if_true, Bool.false_eq_true, if_false, List.map_cons, List.sum_cons,
      Bundle.referencesSize, Block.plainSize]
    omega

/-! ## The result -/

namespace Bundle

/-- The header is written in the length that is computed for it, but for the flags and the
length itself. -/
theorem length_bundle6Serialize (h : b.Held) :
    (bundle6Serialize b.bundle6RecalculateHeaderLength).length +
        (sdnvGetSizeU32 b.procFlags + sdnvGetSizeU32 b.primaryBlockLength) =
      b.headerLength + (sdnvGetSizeU32 (b.procFlags &&& rfc5050Flags) +
          sdnvGetSizeU32 (b.headerLength % 2 ^ 16)) +
        (b.blocks.flatMap (serializeBlock b.bundle6CalculateDict)).length := by
  have hdict := length_dictionaryBytes h.unflagged
  have hlength := h.dictionary
  have hmod : b.bundle6CalculateDict.dictLengthBytes % 2 ^ 16 =
    b.bundle6CalculateDict.dictLengthBytes := Nat.mod_eq_of_lt hlength
  have hmod' : b.bundle6CalculateDict.dictLengthBytes % 2 ^ 32 =
    b.bundle6CalculateDict.dictLengthBytes := Nat.mod_eq_of_lt (by omega)
  have hdestination : sdnvGetSizeU32 b.bundle6CalculateDict.destinationEidInfo.dictSchemeOffset +
      sdnvGetSizeU32 b.bundle6CalculateDict.destinationEidInfo.dictSspOffset =
      offsetsSize b.bundle6CalculateDict.destinationEidInfo := offsetsSize_calculateEidInfo _ _
  have hsource : sdnvGetSizeU32 b.bundle6CalculateDict.sourceEidInfo.dictSchemeOffset +
      sdnvGetSizeU32 b.bundle6CalculateDict.sourceEidInfo.dictSspOffset =
      offsetsSize b.bundle6CalculateDict.sourceEidInfo := offsetsSize_calculateEidInfo _ _
  have hreportTo : sdnvGetSizeU32 b.bundle6CalculateDict.reportToEidInfo.dictSchemeOffset +
      sdnvGetSizeU32 b.bundle6CalculateDict.reportToEidInfo.dictSspOffset =
      offsetsSize b.bundle6CalculateDict.reportToEidInfo := offsetsSize_calculateEidInfo _ _
  have hcustodian : sdnvGetSizeU32 b.bundle6CalculateDict.custodianEidInfo.dictSchemeOffset +
      sdnvGetSizeU32 b.bundle6CalculateDict.custodianEidInfo.dictSspOffset =
      offsetsSize b.bundle6CalculateDict.custodianEidInfo := offsetsSize_calculateEidInfo _ _
  have hfragment : (if b.isFragmented then
      sdnvWriteU32 b.fragmentOffset ++ sdnvWriteU32 b.totalAduLength else []).length =
      if b.isFragmented then
        sdnvGetSizeU32 b.fragmentOffset + sdnvGetSizeU32 b.totalAduLength else 0 := by
    split <;> simp
  have hbytes : (bundle6Serialize b.bundle6RecalculateHeaderLength).length =
      1 + sdnvGetSizeU32 (b.procFlags &&& rfc5050Flags) +
        sdnvGetSizeU32 (b.headerLength % 2 ^ 16) +
        offsetsSize b.bundle6CalculateDict.destinationEidInfo +
        offsetsSize b.bundle6CalculateDict.sourceEidInfo +
        offsetsSize b.bundle6CalculateDict.reportToEidInfo +
        offsetsSize b.bundle6CalculateDict.custodianEidInfo +
        sdnvGetSizeU64 b.creationTimestamp + sdnvGetSizeU64 b.sequenceNumber +
        sdnvGetSizeU64 (b.lifetime / 1000000) +
        sdnvGetSizeU16 (b.bundle6CalculateDict.dictLengthBytes % 2 ^ 16) +
        b.dictionaryBytes.length +
        (if b.isFragmented then
          sdnvWriteU32 b.fragmentOffset ++ sdnvWriteU32 b.totalAduLength else []).length +
        (b.blocks.flatMap (serializeBlock b.bundle6CalculateDict)).length := by
    show (List.length (_ ++ _)) = _
    simp only [List.length_append, length_sdnvWriteU16, length_sdnvWriteU32,
      length_sdnvWriteU64, length_serializeOffsets]
    rfl
  rw [hbytes, hfragment, hdict, hmod, headerLength, hmod', sdnvGetSizeU32_eq_U16 hlength]
  generalize (if b.isFragmented then
    sdnvGetSizeU32 b.fragmentOffset + sdnvGetSizeU32 b.totalAduLength else 0) = fragment
  omega

/-- The size and the bytes differ by the defect. -/
theorem size_eq_add_sizeDefect (h : b.Held) :
    (b.bundle6GetSerializedSize.1 : Int) =
      (bundle6Serialize b.bundle6GetSerializedSize.2).length + b.sizeDefect := by
  have hbytes := length_bundle6Serialize h
  rw [length_serializeBlocks _ h.data] at hbytes
  have hsize : b.bundle6GetSerializedSize.1 = b.headerLength % 2 ^ 16 +
      ((b.blocks.map Block.plainSize).sum +
        referencesSize b.bundle6CalculateDict.eidReferences b.blocks 0) +
      b.fragmentFieldsSize := by
    rw [bundle6GetSerializedSize, getSerializedSize, sizeBlocks_whole]
    rfl
  have hupdated : b.bundle6GetSerializedSize.2 = b.bundle6RecalculateHeaderLength := rfl
  rw [hupdated, hsize]
  unfold sizeDefect
  dsimp only
  generalize b.headerLength % 2 ^ 16 = updated at hbytes ⊢
  omega

theorem eidRefSize_of_nil (h : block.eidRefs = [])
    (eidRefOffset : Nat) :
    eidRefSize references eidRefOffset block = eidRefSize references 0 block := by
  rw [eidRefSize, eidRefSize, h, List.length_nil, List.take_zero, List.take_zero]

theorem referencesSize_of_nil (h : ∀ block ∈ blocks, block.eidRefs = []) (eidRefOffset : Nat) :
    referencesSize references blocks eidRefOffset =
      (blocks.map (eidRefSize references 0)).sum := by
  induction blocks generalizing eidRefOffset with
  | nil => rfl
  | cons block blocks ih =>
    rw [referencesSize, eidRefSize_of_nil (h block List.mem_cons_self),
      ih fun other hother => h other (List.mem_cons_of_mem block hother)]
    rfl

/-- If one block at most has references, each is looked up where it is. -/
theorem referencesSize_of_pairwise
    (h : blocks.Pairwise fun block other => block.eidRefs = [] ∨ other.eidRefs = []) :
    referencesSize references blocks 0 = (blocks.map (eidRefSize references 0)).sum := by
  induction blocks with
  | nil => rfl
  | cons block blocks ih =>
    obtain ⟨hfirst, hlater⟩ := List.pairwise_cons.mp h
    rw [referencesSize, List.map_cons, List.sum_cons]
    by_cases hrefs : block.eidRefs = []
    · rw [hrefs, List.length_nil, Nat.zero_add, ite_self, ih hlater]
    · rw [referencesSize_of_nil fun other hother => (hfirst other hother).resolve_left hrefs]

/-- The size is right for a bundle that is no fragment, has only flags of RFC 5050 and references
in one block at most, and whose header length is below 65536 and as wide as the one before. -/
theorem size_eq_length (h : b.Held) (hwhole : b.isFragmented = false)
    (hflags : b.procFlags &&& rfc5050Flags = b.procFlags)
    (hrefs : b.blocks.Pairwise fun block other => block.eidRefs = [] ∨ other.eidRefs = [])
    (hlength : b.headerLength < 2 ^ 16)
    (hwidth : sdnvGetSizeU32 b.primaryBlockLength = sdnvGetSizeU32 b.headerLength) :
    b.bundle6GetSerializedSize.1 = (bundle6Serialize b.bundle6GetSerializedSize.2).length := by
  have hsize := size_eq_add_sizeDefect h
  have hfields : b.fragmentFieldsSize = 0 := by
    rw [fragmentFieldsSize, if_neg fun hc => Bool.noConfusion (hwhole.symm.trans hc.1)]
  unfold sizeDefect at hsize
  dsimp only at hsize
  rw [hflags, hfields, referencesSize_of_pairwise hrefs, Nat.mod_eq_of_lt hlength, hwidth] at hsize
  omega

end Bundle

/-- The size is the number of bytes that are written exactly if the defect is zero. -/
theorem bundle6Size_eq_iff (b : Bundle) (h : b.Held) :
    b.bundle6GetSerializedSize.1 = (bundle6Serialize b.bundle6GetSerializedSize.2).length ↔
      b.sizeDefect = 0 := by
  have hsize := Bundle.size_eq_add_sizeDefect h
  omega

/-- A bundle from `dtn:a` to `dtn:b` with one byte of payload: the whole of it, or the first
fragment. -/
def smallBundle (isFragment : Bool) : Bundle where
  protocolVersion := 6
  procFlags := if isFragment then 0x11 else 0x10
  primaryBlockLength := if isFragment then 47 else 45
  destination := [100, 116, 110, 58, 98]
  source := [100, 116, 110, 58, 97]
  reportTo := [100, 116, 110, 58, 110, 111, 110, 101]
  currentCustodian := [100, 116, 110, 58, 110, 111, 110, 101]
  creationTimestamp := 0
  sequenceNumber := 1
  lifetime := 1000000
  fragmentOffset := 0
  totalAduLength := if isFragment then 2 else 0
  blocks := [⟨1, 8, [], 1, [42]⟩]
  payloadBlock := some 0

theorem smallBundle_held (isFragment : Bool) : (smallBundle isFragment).Held := by
  cases isFragment <;> exact ⟨by decide, by decide, by decide, by decide, by decide⟩

/-- The fields of the fragment are counted in the header length, and once more. -/
theorem size_fragment : (smallBundle true).Held ∧
    (smallBundle true).bundle6GetSerializedSize.1 =
      (bundle6Serialize (smallBundle true).bundle6GetSerializedSize.2).length + 2 ∧
    (smallBundle true).bundle6GetSerializedSize.1 ≠
      (bundle6Serialize (smallBundle true).bundle6GetSerializedSize.2).length := by
  have hsize := Bundle.size_eq_add_sizeDefect (smallBundle_held true)
  have hdefect : (smallBundle true).sizeDefect = 2 := by decide
  rw [hdefect] at hsize
  exact ⟨smallBundle_held true, by omega, by omega⟩

theorem bundle6Size_eq_iff_smallBundle : (smallBundle false).bundle6GetSerializedSize.1 =
    (bundle6Serialize (smallBundle false).bundle6GetSerializedSize.2).length :=
  (bundle6Size_eq_iff _ (smallBundle_held false)).mpr (by decide)

end Upcn.Bundle6
