import Mathlib.Data.List.Basic
import Upcn.Bundle6.Size
import Upcn.Bundle7.Size
import Upcn.Router.Transmission

/-!
# The result of serializing a bundle

`bundle_serialize` and the loop of `cla_contact_tx_task` over the bundles of a command.
The serializers write as they go; here they return whether they succeeded, with the bytes
that were passed to `write`.

`bundle_serialize` does not look at the result of the serializers.
-/

namespace Upcn.Serialize

open Router (RoutedBundle RouterSignal)

/-! ## Bundles of both versions -/

/-- `struct bundle_block`. -/
structure Block where
  type : Nat
  number : Nat
  flags : Nat
  crcType : Nat
  length : Nat
  data : List UInt8
  eidRefs : List (List UInt8)
  deriving DecidableEq

/-- `struct bundle`. -/
structure Bundle where
  protocolVersion : UInt8
  procFlags : Nat
  crcType : Nat
  destination : List UInt8
  source : List UInt8
  reportTo : List UInt8
  currentCustodian : List UInt8
  creationTimestamp : Nat
  sequenceNumber : Nat
  lifetime : Nat
  fragmentOffset : Nat
  totalAduLength : Nat
  primaryBlockLength : Nat
  blocks : List Block
  payloadBlock : Option Nat
  deriving DecidableEq

/-- What BPv6 reads of a block. -/
def Block.toV6 (block : Block) : Bundle6.Block where
  type := UInt8.ofNat block.type
  flags := block.flags
  eidRefs := block.eidRefs
  length := block.length
  data := block.data

/-- What BPv7 reads of a block. -/
def Block.toV7 (block : Block) : Bundle7.Block where
  type := block.type
  number := block.number
  flags := block.flags
  crcType := block.crcType
  length := block.length
  data := block.data

/-- What BPv6 reads of a bundle. -/
def Bundle.toV6 (b : Bundle) : Bundle6.Bundle where
  protocolVersion := b.protocolVersion
  procFlags := b.procFlags
  primaryBlockLength := b.primaryBlockLength
  destination := b.destination
  source := b.source
  reportTo := b.reportTo
  currentCustodian := b.currentCustodian
  creationTimestamp := b.creationTimestamp
  sequenceNumber := b.sequenceNumber
  lifetime := b.lifetime
  fragmentOffset := b.fragmentOffset
  totalAduLength := b.totalAduLength
  blocks := b.blocks.map Block.toV6
  payloadBlock := b.payloadBlock

/-- What BPv7 reads of a bundle. -/
def Bundle.toV7 (b : Bundle) : Bundle7.Bundle where
  protocolVersion := b.protocolVersion.toNat
  procFlags := b.procFlags
  crcType := b.crcType
  destination := b.destination
  source := b.source
  reportTo := b.reportTo
  creationTimestamp := b.creationTimestamp
  sequenceNumber := b.sequenceNumber
  lifetime := b.lifetime
  fragmentOffset := b.fragmentOffset
  totalAduLength := b.totalAduLength
  primaryBlockLength := b.primaryBlockLength
  blocks := b.blocks.map Block.toV7

/-- Which allocations succeed: the descriptor of the dictionary of BPv6, which
`bundle6_calculate_dict` does not check, the dictionary, of a number of bytes, and the buffer
of BPv7. -/
structure Memory where
  descriptor : Bool
  dictionary : Nat → Bool
  buffer : Bool

/-! ## Serializing -/

variable (crc : Bundle7.Checksums) (mem : Memory)

/-- `bundle6_serialize`.  Without a descriptor a null pointer is followed, which is `none` here and
below. -/
def bundle6SerializeTo (b : Bundle6.Bundle) : Option (Bool × List UInt8) :=
  if mem.descriptor = false then none
  else if mem.dictionary b.bundle6CalculateDict.dictLengthBytes then
    some (true, Bundle6.bundle6Serialize b)
  else some (false, [])

/-- The primary block of BPv7, before its EIDs. -/
def primaryStart (b : Bundle7.Bundle) : List UInt8 :=
  [UInt8.ofNat (0x80 + Bundle7.primaryBlockGetItemCount b)] ++ Cbor.uint b.protocolVersion ++
    Cbor.uint (Bundle7.filterProtocolProcFlags b) ++ Cbor.uint b.crcType

/-- The primary block of BPv7, from its EIDs to its CRC. -/
def primaryEnd (b : Bundle7.Bundle) : List UInt8 :=
  [0x82] ++ Cbor.uint b.creationTimestamp ++ Cbor.uint b.sequenceNumber ++
    Cbor.uint b.lifetime ++
    (if b.isFragmented then Cbor.uint b.fragmentOffset ++ Cbor.uint b.totalAduLength else [])

/-- The EIDs of the primary block, up to the first one that cannot be written. -/
def writeEids : List (List UInt8) → Bool × List UInt8
  | [] => (true, [])
  | eid :: rest =>
    match Bundle7.eidSerialize eid with
    | none => (false, [])
    | some bytes => ((writeEids rest).1, bytes ++ (writeEids rest).2)

/-- `bundle7_serialize`. -/
def bundle7SerializeTo (b : Bundle7.Bundle) : Bool × List UInt8 :=
  if b.protocolVersion ≠ 7 then (false, [])
  else if mem.buffer = false then (false, [])
  else
    let (written, eids) := writeEids [b.destination, b.source, b.reportTo]
    if written then
      let fields := primaryStart b ++ eids ++ primaryEnd b
      (true, [0x9f] ++ (fields ++ Bundle7.crcField crc b.crcType fields) ++
        b.blocks.flatMap (Bundle7.serializeBlock crc) ++ [0xff])
    else (false, [0x9f] ++ primaryStart b ++ eids)

/-- The serializer of the version of a bundle. -/
def versionSerialize (b : Bundle) : Option (Bool × List UInt8) :=
  if b.protocolVersion = 6 then bundle6SerializeTo mem b.toV6
  else if b.protocolVersion = 7 then some (bundle7SerializeTo crc mem b.toV7)
  else some (false, [])

/-- `bundle_serialize`. -/
def bundleSerialize (b : Bundle) : Option (Bool × List UInt8) :=
  if b.protocolVersion = 6 then
    (bundle6SerializeTo mem b.toV6).map fun result => (true, result.2)
  else if b.protocolVersion = 7 then some (true, (bundle7SerializeTo crc mem b.toV7).2)
  else some (false, [])

/-! ## The transmit task -/

/-- What `bundle_get_serialized_size` makes of a bundle, with a descriptor. -/
def Bundle.sized (b : Bundle) : Bundle :=
  if b.protocolVersion = 6 then
    { b with primaryBlockLength := b.toV6.bundle6GetSerializedSize.2.primaryBlockLength }
  else b

/-- What a round of the transmit task leaves: the routed bundle, the signal, and what was
passed to the CLA, if the bundle was found. -/
structure Transmission where
  cur : RoutedBundle
  signal : RouterSignal
  packet : Option (List UInt8)
  deriving DecidableEq

/-- A round of the transmit task, with the result of `bundle_storage_get`. -/
def transmit (cur : RoutedBundle) (found : Option Bundle) : Option Transmission :=
  let cur := { cur with serialized := cur.serialized + 1 }
  match found with
  | none => some ⟨cur, .transmissionFailure, none⟩
  | some b => (bundleSerialize crc mem b.sized).map fun result =>
    if result.1 then
      ⟨{ cur with transmitted := cur.transmitted + 1 }, .transmissionSuccess, some result.2⟩
    else ⟨cur, .transmissionFailure, some result.2⟩

/-- The loop of the transmit task over the bundles of a command. -/
def transmitBundles (storage : Nat → Option Bundle) :
    List RoutedBundle → Option (List Transmission)
  | [] => some []
  | cur :: bundles => do
    let t ← transmit crc mem cur (storage cur.id)
    let rest ← transmitBundles storage bundles
    return t :: rest

/-! ## What the result is to say -/

/-- `bytes` is the complete serialization of `b`. -/
def Complete (b : Bundle) (bytes : List UInt8) : Prop :=
  (b.protocolVersion = 6 → bytes = Bundle6.bundle6Serialize b.toV6) ∧
  (b.protocolVersion = 7 → Bundle7.bundle7Serialize crc b.toV7 = some bytes)

/-- A round of the transmit task with `b` reports and counts what happened to it. -/
structure Transmitted (b : Bundle) (cur : RoutedBundle) (t : Transmission) : Prop where
  complete : t.signal = .transmissionSuccess ∨ t.cur.transmitted ≠ cur.transmitted →
    ∃ packet, t.packet = some packet ∧ Complete crc b.sized packet
  failure : ∀ bytes, versionSerialize crc mem b.sized = some (false, bytes) →
    t.signal = .transmissionFailure ∧ t.cur.transmitted = cur.transmitted

/-- The result of `bundle_serialize` is true, and so is what the transmit task makes of it. -/
structure Truthful (b : Bundle) : Prop where
  returns : ∃ s bytes, bundleSerialize crc mem b = some (s, bytes)
  complete : ∀ bytes, bundleSerialize crc mem b = some (true, bytes) → Complete crc b bytes
  failure : ∀ bytes, versionSerialize crc mem b = some (false, bytes) →
    ∃ bytes, bundleSerialize crc mem b = some (false, bytes)
  transmitted : ∀ cur, ∃ t, transmit crc mem cur (some b) = some t ∧ Transmitted crc mem b cur t

/-- There is memory for the descriptor and the dictionary, or for the buffer, and the EIDs of a
BPv7 bundle can be encoded in the buffer. -/
structure Serializable (b : Bundle) : Prop where
  descriptor : b.protocolVersion = 6 → mem.descriptor = true
  dictionary : b.protocolVersion = 6 →
    mem.dictionary b.toV6.bundle6CalculateDict.dictLengthBytes = true
  buffer : b.protocolVersion = 7 → mem.buffer = true
  eids : b.protocolVersion = 7 →
    ∀ eid ∈ [b.destination, b.source, b.reportTo], (Bundle7.eidSerialize eid).isSome = true

/-! ## The serializers -/

section

variable {crc mem} {b : Bundle}

theorem writeEids_fst (eids : List (List UInt8)) :
    (writeEids eids).1 = true ↔ ∀ eid ∈ eids, (Bundle7.eidSerialize eid).isSome = true := by
  induction eids with
  | nil => simp [writeEids]
  | cons eid rest ih =>
    rw [List.forall_mem_cons, ← ih, writeEids]
    cases Bundle7.eidSerialize eid with
    | none => simp
    | some bytes => simp

theorem bundle7SerializeTo_fst (b : Bundle7.Bundle) :
    (bundle7SerializeTo crc mem b).1 = true ↔ b.protocolVersion = 7 ∧ mem.buffer = true ∧
      ∀ eid ∈ [b.destination, b.source, b.reportTo],
        (Bundle7.eidSerialize eid).isSome = true := by
  rw [← writeEids_fst, bundle7SerializeTo]
  by_cases hversion : b.protocolVersion = 7
  · rw [if_neg (not_not.mpr hversion)]
    cases hbuffer : mem.buffer with
    | false => simp
    | true =>
      cases hwritten : (writeEids [b.destination, b.source, b.reportTo]).1 with
      | false => simp [hwritten]
      | true => simp [hwritten, hversion]
  · rw [if_pos hversion]
    simp [hversion]

/-- If it succeeds, everything was written. -/
theorem bundle7SerializeTo_snd {b : Bundle7.Bundle}
    (h : (bundle7SerializeTo crc mem b).1 = true) :
    Bundle7.bundle7Serialize crc b = some (bundle7SerializeTo crc mem b).2 := by
  obtain ⟨hversion, hbuffer, heids⟩ := (bundle7SerializeTo_fst b).mp h
  obtain ⟨destination, hdestination⟩ := Option.isSome_iff_exists.mp (heids b.destination (by simp))
  obtain ⟨source, hsource⟩ := Option.isSome_iff_exists.mp (heids b.source (by simp))
  obtain ⟨reportTo, hreportTo⟩ := Option.isSome_iff_exists.mp (heids b.reportTo (by simp))
  have hwritten : writeEids [b.destination, b.source, b.reportTo] =
      (true, destination ++ (source ++ (reportTo ++ []))) := by
    simp only [writeEids, hdestination, hsource, hreportTo]
  rw [bundle7SerializeTo, if_neg (not_not.mpr hversion), hbuffer,
    if_neg (by decide), hwritten]
  simp [Bundle7.bundle7Serialize, hversion, hdestination, hsource, hreportTo,
    Bundle7.serializePrimary, primaryStart, primaryEnd]

/-- If it fails, something is missing. -/
theorem bundle7Serialize_ne {b : Bundle7.Bundle}
    (h : (bundle7SerializeTo crc mem b).1 = false) :
    Bundle7.bundle7Serialize crc b ≠ some (bundle7SerializeTo crc mem b).2 := by
  intro hcomplete
  obtain ⟨destination, source, reportTo, hdestination, hsource, hreportTo, hbytes⟩ :=
    Bundle7.bundle7Serialize_eq_some hcomplete
  have hversion : b.protocolVersion = 7 := by
    by_contra hversion
    simp [Bundle7.bundle7Serialize, hversion] at hcomplete
  have heids : ∀ eid ∈ [b.destination, b.source, b.reportTo],
      (Bundle7.eidSerialize eid).isSome = true := by
    simp [hdestination, hsource, hreportTo]
  cases hbuffer : mem.buffer with
  | false =>
    rw [bundle7SerializeTo, if_neg (not_not.mpr hversion), if_pos hbuffer] at hbytes
    simp at hbytes
  | true =>
    rw [(bundle7SerializeTo_fst b).mpr ⟨hversion, hbuffer, heids⟩] at h
    cases h

theorem bundle6Serialize_ne_nil (b : Bundle6.Bundle) : Bundle6.bundle6Serialize b ≠ [] := by
  simp [Bundle6.bundle6Serialize]

/-- With the memory and EIDs that it needs, the serializer of the version writes everything. -/
theorem versionSerialize_of_serializable
    (hversion : b.protocolVersion = 6 ∨ b.protocolVersion = 7) (h : Serializable mem b) :
    ∃ bytes, versionSerialize crc mem b = some (true, bytes) ∧ Complete crc b bytes := by
  rcases hversion with hversion | hversion
  · have hother : b.protocolVersion ≠ 7 := by
      rw [hversion]
      decide
    refine ⟨Bundle6.bundle6Serialize b.toV6, ?_, fun _ => rfl, fun h => absurd h hother⟩
    rw [versionSerialize, if_pos hversion, bundle6SerializeTo, h.descriptor hversion,
      if_neg Bool.noConfusion, if_pos (h.dictionary hversion)]
  · have hother : b.protocolVersion ≠ 6 := by
      rw [hversion]
      decide
    have hseven : b.toV7.protocolVersion = 7 := by
      rw [Bundle.toV7, hversion]
      rfl
    have hok : (bundle7SerializeTo crc mem b.toV7).1 = true :=
      (bundle7SerializeTo_fst b.toV7).mpr ⟨hseven, h.buffer hversion, h.eids hversion⟩
    refine ⟨_, ?_, fun h => absurd h hother, fun _ => bundle7SerializeTo_snd hok⟩
    rw [versionSerialize, if_neg hother, if_pos hversion, ← hok]

/-- Where it does not, the bytes that were written are not everything. -/
theorem serializable_of_complete
    (hversion : b.protocolVersion = 6 ∨ b.protocolVersion = 7) {s : Bool} {bytes : List UInt8}
    (hwritten : versionSerialize crc mem b = some (s, bytes)) (h : Complete crc b bytes) :
    Serializable mem b := by
  rcases hversion with hversion | hversion
  · have hother : b.protocolVersion ≠ 7 := by
      rw [hversion]
      decide
    rw [versionSerialize, if_pos hversion, bundle6SerializeTo] at hwritten
    split_ifs at hwritten with hdescriptor hdictionary
    · exact ⟨fun _ => Bool.of_not_eq_false hdescriptor, fun _ => hdictionary,
        fun h => absurd h hother, fun h => absurd h hother⟩
    · obtain ⟨-, rfl⟩ := Prod.mk.inj (Option.some.inj hwritten)
      exact absurd (h.1 hversion).symm (bundle6Serialize_ne_nil b.toV6)
  · have hother : b.protocolVersion ≠ 6 := by
      rw [hversion]
      decide
    rw [versionSerialize, if_neg hother, if_pos hversion] at hwritten
    obtain rfl : (bundle7SerializeTo crc mem b.toV7).2 = bytes :=
      congrArg Prod.snd (Option.some.inj hwritten)
    have hcomplete := h.2 hversion
    have hok : (bundle7SerializeTo crc mem b.toV7).1 = true := by
      by_contra hfail
      exact bundle7Serialize_ne (Bool.not_eq_true _ ▸ hfail) hcomplete
    obtain ⟨-, hbuffer, heids⟩ := (bundle7SerializeTo_fst b.toV7).mp hok
    exact ⟨fun h => absurd h hother, fun h => absurd h hother, fun _ => hbuffer, fun _ => heids⟩

/-! ## `bundle_serialize` -/

/-- It succeeds with what the serializer of the version has written. -/
theorem bundleSerialize_of_version (hversion : b.protocolVersion = 6 ∨ b.protocolVersion = 7) :
    bundleSerialize crc mem b =
      (versionSerialize crc mem b).map fun result => (true, result.2) := by
  rw [bundleSerialize, versionSerialize]
  rcases hversion with hversion | hversion
  · rw [if_pos hversion, if_pos hversion]
  · have hother : b.protocolVersion ≠ 6 := by
      rw [hversion]
      decide
    rw [if_neg hother, if_pos hversion, if_neg hother, if_pos hversion]
    rfl

theorem bundleSerialize_of_other (hversion : ¬ (b.protocolVersion = 6 ∨ b.protocolVersion = 7)) :
    bundleSerialize crc mem b = some (false, []) := by
  obtain ⟨hsix, hseven⟩ := not_or.mp hversion
  rw [bundleSerialize, if_neg hsix, if_neg hseven]

@[simp] theorem protocolVersion_sized (b : Bundle) :
    b.sized.protocolVersion = b.protocolVersion := by
  rw [Bundle.sized]
  split <;> rfl

/-- The header length has no part in it. -/
theorem Serializable.sized (h : Serializable mem b) : Serializable mem b.sized := by
  by_cases hversion : b.protocolVersion = 6
  · rw [Bundle.sized, if_pos hversion]
    exact ⟨h.descriptor, h.dictionary, h.buffer, h.eids⟩
  · rw [Bundle.sized, if_neg hversion]
    exact h

theorem transmitted_of_serializable (h : Serializable mem b) (cur : RoutedBundle) :
    ∃ t, transmit crc mem cur (some b) = some t ∧ Transmitted crc mem b cur t := by
  rw [transmit]
  dsimp only
  by_cases hversion : b.sized.protocolVersion = 6 ∨ b.sized.protocolVersion = 7
  · obtain ⟨bytes, hwritten, hcomplete⟩ :=
      @versionSerialize_of_serializable crc mem b.sized hversion h.sized
    rw [bundleSerialize_of_version hversion, hwritten]
    refine ⟨_, rfl, fun _ => ⟨bytes, rfl, hcomplete⟩, fun other hfail => ?_⟩
    rw [hwritten] at hfail
    cases hfail
  · rw [bundleSerialize_of_other hversion]
    refine ⟨_, rfl, fun hcounted => ?_, fun _ _ => ⟨rfl, rfl⟩⟩
    rcases hcounted with hsignal | hcount
    · cases hsignal
    · exact absurd rfl hcount

/-- So is what the transmit task reports of the bundles of a command. -/
theorem transmitBundles_transmitted {storage : Nat → Option Bundle} (bundles : List RoutedBundle)
    (h : ∀ cur ∈ bundles, ∀ b, storage cur.id = some b → Serializable mem b) :
    ∃ sent, transmitBundles crc mem storage bundles = some sent ∧
      List.Forall₂ (fun cur t => ∀ b, storage cur.id = some b → Transmitted crc mem b cur t)
        bundles sent := by
  induction bundles with
  | nil => exact ⟨[], rfl, .nil⟩
  | cons cur bundles ih =>
    obtain ⟨hcur, hrest⟩ := List.forall_mem_cons.mp h
    obtain ⟨sent, hsent, hall⟩ := ih hrest
    rw [transmitBundles, hsent]
    cases hfound : storage cur.id with
    | none => exact ⟨_, rfl, .cons (fun b hb => by cases hfound.symm.trans hb) hall⟩
    | some b =>
      obtain ⟨t, ht, htransmitted⟩ := @transmitted_of_serializable crc mem b (hcur b hfound) cur
      rw [ht]
      refine ⟨_, rfl, .cons (fun b' hb => ?_) hall⟩
      obtain rfl := Option.some.inj (hfound.symm.trans hb)
      exact htransmitted

end

/-- A bundle without blocks. -/
def bundleTo (protocolVersion : UInt8) (destination : List UInt8) : Bundle where
  protocolVersion := protocolVersion
  procFlags := 0
  crcType := 0
  destination := destination
  source := Bundle7.dtnNone
  reportTo := Bundle7.dtnNone
  currentCustodian := Bundle7.dtnNone
  creationTimestamp := 0
  sequenceNumber := 1
  lifetime := 86400
  fragmentOffset := 0
  totalAduLength := 0
  primaryBlockLength := 0
  blocks := []
  payloadBlock := none

end Upcn.Serialize
