import Upcn.Bundle6.Fragment
import Upcn.Bundle6.RoundTrip

/-!
# The length of the primary block

`bundle6_serialize` writes `primary_block_length`, and the parser takes it as the number of
bytes that are left in the primary block.  Creating a bundle, cutting one and
`bundle_get_serialized_size`, which comes before each `bundle_serialize`, set the field to
the size of the whole block: the version, the flags and the length count, too.
-/

namespace Upcn.Bundle6

namespace Bundle

/-- What is written of the primary block before its length. -/
def primaryHead (b : Bundle) : List UInt8 :=
  [b.protocolVersion] ++ sdnvWriteU32 (b.procFlags &&& rfc5050Flags)

/-- What is written of the primary block behind its length. -/
def primaryRest (b : Bundle) : List UInt8 :=
  let desc := b.bundle6CalculateDict
  serializeOffsets desc.destinationEidInfo ++ serializeOffsets desc.sourceEidInfo ++
    serializeOffsets desc.reportToEidInfo ++ serializeOffsets desc.custodianEidInfo ++
    sdnvWriteU64 b.creationTimestamp ++ sdnvWriteU64 b.sequenceNumber ++
    sdnvWriteU64 (b.lifetime / 1000000) ++
    sdnvWriteU16 (desc.dictLengthBytes % 2 ^ 16) ++ bundle6SerializeDictionary desc ++
    (if b.isFragmented then
      sdnvWriteU32 b.fragmentOffset ++ sdnvWriteU32 b.totalAduLength
    else [])

/-- Where the length stands. -/
theorem bundle6Serialize_eq (b : Bundle) :
    bundle6Serialize b = b.primaryHead ++ (sdnvWriteU32 b.primaryBlockLength ++
      (b.primaryRest ++ b.blocks.flatMap (serializeBlock b.bundle6CalculateDict))) := by
  simp only [bundle6Serialize, primaryHead, primaryRest, List.append_assoc]

/-- The length that is written is the number of bytes behind it. -/
def LengthRight (b : Bundle) : Prop := b.primaryBlockLength = b.primaryRest.length

/-- Only blocks with the flag have EID references. -/
def Unflagged (b : Bundle) : Prop :=
  ∀ block ∈ b.blocks, block.hasEidRefField = false → block.eidRefs = []

instance (b : Bundle) : Decidable b.Unflagged :=
  inferInstanceAs (Decidable (∀ block ∈ b.blocks, _))

theorem length_primaryRest_eq (b : Bundle) (hunflagged : b.Unflagged) :
    b.primaryRest.length = Entry.totalSize b.offsetEntries +
      sdnvGetSizeU64 (b.lifetime / 1000000) +
      sdnvGetSizeU16 (b.bundle6CalculateDict.dictLengthBytes % 2 ^ 16) +
      b.bundle6CalculateDict.dictLengthBytes + b.fragmentBytes.length := by
  have hdict : (bundle6SerializeDictionary b.bundle6CalculateDict).length =
      b.bundle6CalculateDict.dictLengthBytes := length_dictionaryBytes hunflagged
  have htotal : Entry.totalSize b.offsetEntries =
      (serializeOffsets b.bundle6CalculateDict.destinationEidInfo).length +
      (serializeOffsets b.bundle6CalculateDict.sourceEidInfo).length +
      (serializeOffsets b.bundle6CalculateDict.reportToEidInfo).length +
      (serializeOffsets b.bundle6CalculateDict.custodianEidInfo).length +
      sdnvGetSizeU64 b.creationTimestamp + sdnvGetSizeU64 b.sequenceNumber := by
    simp only [Entry.totalSize, offsetEntries, List.map_cons, List.map_nil, List.sum_cons,
      List.sum_nil, Entry.u16, Entry.u64, length_serializeOffsets, offsetsSize, Nat.add_assoc,
      Nat.add_zero]
  rw [htotal]
  simp only [primaryRest, fragmentBytes, List.length_append, length_sdnvWriteU16,
    length_sdnvWriteU64, hdict]

/-- The bytes behind the length are less than what is computed, by those before it and by
the length. -/
theorem length_primaryRest (b : Bundle) (hunflagged : b.Unflagged)
    (hdict : b.bundle6CalculateDict.dictLengthBytes < 2 ^ 16) :
    b.primaryRest.length + (1 + sdnvGetSizeU32 b.procFlags + sdnvGetSizeU32 b.primaryBlockLength) =
      b.headerLength := by
  have hrest : b.primaryRest.length = b.bundle6RecalculateHeaderLength.restSize := by
    rw [length_primaryRest_eq b hunflagged, Nat.mod_eq_of_lt hdict]
    rfl
  rw [hrest]
  exact restSize_recalculate hdict

/-- The computed length is never the one to be written, not even modulo `2 ^ 16`. -/
theorem not_lengthRight_recalculate (b : Bundle) (hunflagged : b.Unflagged) :
    ¬ b.bundle6RecalculateHeaderLength.LengthRight := by
  intro hright
  have hwritten : b.headerLength % 2 ^ 16 = b.primaryRest.length := hright
  have hle := length_primaryRest_eq b hunflagged
  obtain ⟨hlt, hgt⟩ := headerLength_lt b
  by_cases hdict : b.bundle6CalculateDict.dictLengthBytes < 2 ^ 16
  · have hrest := length_primaryRest b hunflagged hdict
    have hsmall : ∀ value, sdnvGetSizeU32 value ≤ 5 := fun value => by
      unfold sdnvGetSizeU32
      repeat' split
      all_goals omega
    have hflags := hsmall b.procFlags
    have hlength := hsmall b.primaryBlockLength
    omega
  · have hmod : b.headerLength % 2 ^ 16 < 2 ^ 16 := Nat.mod_lt _ (by decide)
    omega

end Bundle

/-! ## Bundles that are created -/

/-- `bundle6_create_local`, where there is memory. -/
def bundle6CreateLocal (payload source destination : List UInt8)
    (creationTime lifetime procFlags : Nat) : Option Bundle :=
  if 58 ∉ source then none
  else if 58 ∉ destination then none
  else some (Bundle.bundle6RecalculateHeaderLength
    { Bundle.init with
      protocolVersion := 6
      procFlags := procFlags ||| 0x10
      creationTimestamp := creationTime
      sequenceNumber := 1
      lifetime := lifetime * 1000000 % 2 ^ 64
      source := source
      destination := destination
      reportTo := [100, 116, 110, 58, 110, 111, 110, 101]
      currentCustodian := [100, 116, 110, 58, 110, 111, 110, 101]
      blocks := [⟨1, 2 ^ 3, [], payload.length % 2 ^ 32, payload⟩]
      payloadBlock := some 0 })

theorem not_lengthRight_create {payload source destination : List UInt8}
    {creationTime lifetime procFlags : Nat} {b : Bundle}
    (h : bundle6CreateLocal payload source destination creationTime lifetime procFlags = some b) :
    ¬ b.LengthRight := by
  unfold bundle6CreateLocal at h
  split_ifs at h
  obtain rfl := Option.some.inj h
  refine Bundle.not_lengthRight_recalculate _ fun block hblock _ => ?_
  rw [List.mem_singleton.mp hblock]

/-! ## Bundles that are cut -/

/-- A block without the flag has no EID references. -/
def Block.Unflagged (block : Block) : Prop := block.hasEidRefField = false → block.eidRefs = []

theorem Block.Unflagged.setLast {block : Block} (h : block.Unflagged) :
    block.setLast.Unflagged := fun hflag => h (by
  have hbit : (2 ^ 3).testBit 6 = false := by decide
  rwa [hasEidRefField, Block.setLast, Nat.testBit_or, hbit, Bool.or_false] at hflag)

theorem Block.Unflagged.clearLast {block : Block} (h : block.Unflagged) :
    block.clearLast.Unflagged := fun hflag => h (by
  have hbit : (2 ^ 32 - 1 - 2 ^ 3).testBit 6 = true := by decide
  rwa [hasEidRefField, Block.clearLast, Nat.testBit_and, hbit, Bool.and_true] at hflag)

theorem Block.Unflagged.dup {block : Block} (h : block.Unflagged) : block.dup.Unflagged :=
  fun hflag => by rw [Block.dup, h hflag, List.reverse_nil]

theorem Block.Unflagged.shortened {block : Block} (h : block.Unflagged) (length : Nat) :
    (block.shortened length).Unflagged := by
  intro hflag
  rw [hasEidRefField, Block.shortened, ← hasEidRefField] at hflag
  rw [Block.shortened]
  exact h hflag

theorem unflagged_replicateBlocks {first second first' second' : List Block}
    (h : replicateBlocks first second = some (first', second'))
    (hfirst : ∀ block ∈ first, block.Unflagged) (hsecond : ∀ block ∈ second, block.Unflagged) :
    (∀ block ∈ first', block.Unflagged) ∧ ∀ block ∈ second', block.Unflagged := by
  unfold replicateBlocks at h
  split_ifs at h
  · obtain ⟨rfl, rfl⟩ := Prod.mk.inj (Option.some.inj h)
    exact ⟨hfirst, hsecond⟩
  · obtain ⟨rfl, rfl⟩ := Prod.mk.inj (Option.some.inj h)
    refine ⟨fun block hblock => ?_, hsecond⟩
    rcases List.mem_append.mp hblock with hblock | hblock
    · rcases List.mem_append.mp hblock with hblock | hblock
      · exact hfirst block ((List.dropLast_sublist first).subset hblock)
      · obtain ⟨last, hlast, rfl⟩ := Option.map_eq_some_iff.mp (Option.mem_toList.mp hblock)
        exact (hfirst last (List.mem_of_getLast? hlast)).clearLast
    · obtain ⟨copied, hcopied, rfl⟩ := List.mem_map.mp hblock
      exact (hsecond copied (List.mem_filter.mp hcopied).1).dup

theorem fragments_of_replicateBlocks {replicated : Option (List Block × List Block)}
    {f g : List Block → Bundle} {first second : Bundle}
    (h : (match replicated with
      | none => Fragmentation.nullDeref
      | some (first, second) => .fragments (f first) (g second)) = .fragments first second) :
    ∃ first' second', replicated = some (first', second') ∧
      f first' = first ∧ g second' = second := by
  cases replicated with
  | none => cases h
  | some fragments =>
    obtain ⟨hfirst, hsecond⟩ := Fragmentation.fragments.inj h
    exact ⟨_, _, rfl, hfirst, hsecond⟩

theorem not_lengthRight_fragments {emptyMem : Bool} {b first second : Bundle} {firstMax : Nat}
    (hunflagged : b.Unflagged)
    (h : bundle6FragmentBundle emptyMem b firstMax = .fragments first second) :
    ¬ first.LengthRight ∧ ¬ second.LengthRight := by
  obtain ⟨firstMin, b', hsize⟩ :
    ∃ firstMin b', b.bundle6GetFirstFragmentMinSize = (firstMin, b') := ⟨_, _, rfl⟩
  have hblocks : b'.blocks = b.blocks := congrArg (fun r => r.2.blocks) hsize.symm
  rw [bundle6FragmentBundle, hsize] at h
  dsimp only at h
  generalize (firstMax + 2 ^ 64 - firstMin) % 2 ^ 64 % 2 ^ 32 = firstLength at h
  split at h
  · cases h
  · next index hindex =>
    split at h
    · cases h
    · next payload after hdrop =>
      rw [hblocks] at h hdrop
      have hbefore : ∀ block ∈ b.blocks.take index, block.Unflagged :=
        fun block hblock => hunflagged block (List.mem_of_mem_take hblock)
      have hfrom : ∀ block ∈ payload :: after, block.Unflagged :=
        fun block hblock => hunflagged block (List.mem_of_mem_drop (hdrop ▸ hblock))
      have hshortened := (hfrom payload List.mem_cons_self).shortened firstLength
      by_cases hle : payload.length ≤ firstLength
      · rw [if_pos hle] at h
        cases h
      rw [if_neg hle] at h
      by_cases hassert : firstLength = 0 ∧ emptyMem = false
      · rw [if_pos hassert] at h
        cases h
      rw [if_neg hassert] at h
      obtain ⟨first', second', hreplicate, hfragments⟩ := fragments_of_replicateBlocks h
      obtain ⟨hfirst, hsecond⟩ := unflagged_replicateBlocks hreplicate
        (fun block hblock => by
          rcases List.mem_append.mp hblock with hblock | hblock
          · exact hbefore block hblock
          · obtain rfl := List.mem_singleton.mp hblock
            exact hshortened.setLast)
        (List.forall_mem_cons.mpr ⟨fun _ => rfl, fun block hblock =>
          hfrom block (List.mem_cons_of_mem payload hblock)⟩)
      obtain ⟨rfl, rfl⟩ := hfragments
      exact ⟨Bundle.not_lengthRight_recalculate _ hfirst,
        Bundle.not_lengthRight_recalculate _ hsecond⟩

/-! ## The result -/

/-- The length is never right: not when a bundle was created, not when it was cut, and not
when the transmit task serializes it. -/
theorem lengthRight_never (payload source destination : List UInt8)
    (creationTime lifetime procFlags : Nat) (emptyMem : Bool) (b : Bundle) (firstMax : Nat)
    (hunflagged : b.Unflagged) :
    (∀ created, bundle6CreateLocal payload source destination creationTime lifetime procFlags =
        some created → ¬ created.LengthRight) ∧
      (∀ first second, bundle6FragmentBundle emptyMem b firstMax = .fragments first second →
        ¬ first.LengthRight ∧ ¬ second.LengthRight) ∧
      ¬ b.bundle6GetSerializedSize.2.LengthRight :=
  ⟨fun _ h => not_lengthRight_create h, fun _ _ h => not_lengthRight_fragments hunflagged h,
    Bundle.not_lengthRight_recalculate b hunflagged⟩

/-- The length of this bundle is stated to be three bytes more. -/
theorem not_lengthRight_smallBundle :
    (smallBundle false).bundle6GetSerializedSize.2.primaryBlockLength =
        (smallBundle false).bundle6GetSerializedSize.2.primaryRest.length + 3 ∧
      ¬ (smallBundle false).bundle6GetSerializedSize.2.LengthRight := by
  unfold Bundle.LengthRight
  decide

theorem lengthRight_never_smallBundle :
    ¬ (smallBundle false).bundle6GetSerializedSize.2.LengthRight :=
  (lengthRight_never [] [] [] 0 0 0 true (smallBundle false) 0 (by decide)).2.2

end Upcn.Bundle6
