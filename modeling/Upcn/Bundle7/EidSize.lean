import Upcn.Bundle7.EidRoundTrip
import Upcn.Bundle7.Reports

/-!
# The size of an EID

`bundle7_eid_sizeof` and `bundle7_eid_get_max_serialized_size` against what
`bundle7_eid_serialize_cbor` writes.

* The size is exact.
* The bound counts on a number being no longer in CBOR than in the EID.  `sscanf` takes a
  minus sign for a 32-bit number, and `-1` has two characters and becomes five bytes.
  `headSize_scanUnsigned` says how much a number can grow by that.
-/

namespace Upcn.Bundle7

open Cbor

/-- What `bundle7_eid_serialize` returns: -1, 0 or the number of bytes that it wrote. -/
inductive EidSerialized where
  | error
  | tooSmall
  | written (bytes : List UInt8)
  deriving DecidableEq

/-- `bundle7_eid_serialize`. -/
def bundle7EidSerialize (eid : List UInt8) (bufferSize : Nat) : EidSerialized :=
  match eidSerializeCbor eid with
  | none => .error
  | some bytes => if bufferSize < bytes.length then .tooSmall else .written bytes

/-- The `int` that it returns. -/
def EidSerialized.returned : EidSerialized → Int
  | error => -1
  | tooSmall => 0
  | written bytes => (bytes.length : Int).bmod (2 ^ 32)

/-- `bundle7_eid_serialize_alloc`, where there is memory: the bytes, or `NULL`. -/
def bundle7EidSerializeAlloc (eid : List UInt8) : Option (List UInt8) :=
  let result := bundle7EidSerialize eid (eidMaxSerializedSize eid)
  if result.returned ≤ 0 then none
  else
    match result with
    | .written bytes => some bytes
    | _ => none

/-- The sizes of an EID that is encoded as `bytes`.  An `int` counts less than 2 GiB. -/
structure SizesRight (eid bytes : List UInt8) : Prop where
  sizeof : eidSizeof eid = bytes.length
  bound : bytes.length ≤ eidMaxSerializedSize eid
  serialized : bundle7EidSerialize eid (eidMaxSerializedSize eid) = .written bytes
  returned : bytes.length < 2 ^ 31 →
    (bundle7EidSerialize eid (eidMaxSerializedSize eid)).returned = bytes.length
  alloc : bytes.length < 2 ^ 31 → bundle7EidSerializeAlloc eid = some bytes
  reports : ∀ b payload report record, b.source = eid →
    statusReportPayload b payload report = some record →
      record.length ≤ b.statusReportBufferSize payload

/-- Both numbers of an `ipn` EID of at most 11 characters need more than 16 bits. -/
def LargeInShort (eid : List UInt8) : Prop :=
  eid.length ≤ 11 ∧ ∃ numbers ∈ scanIpn eid, 2 ^ 16 ≤ numbers.1 ∧ 2 ^ 16 ≤ numbers.2

instance (eid : List UInt8) : Decidable (LargeInShort eid) :=
  inferInstanceAs (Decidable (_ ∧ ∃ numbers ∈ scanIpn eid, _))

variable {eid bytes s left rest : List UInt8} {number node service : Nat}

/-! ## The exact size -/

theorem length_eidSerializeCbor (h : eidSerializeCbor eid = some bytes)
    (heid : eid.length < 2 ^ 63) : bytes.length = eidSizeof eid := by
  have hone : headSize 1 = 1 := rfl
  have htwo : headSize 2 = 1 := rfl
  unfold eidSerializeCbor at h
  unfold eidSizeof
  by_cases hnone : eid = dtnNone
  · rw [if_pos hnone] at h ⊢
    rw [← Option.some.inj h]
    rfl
  rw [if_neg hnone] at h ⊢
  by_cases hdtn : dtnPrefix <+: eid
  · rw [if_pos hdtn] at h
    have hlength : 4 ≤ eid.length := hdtn.length_le
    have hssp : (eid.length + 2 ^ 64 - 4) % 2 ^ 64 = eid.length - 4 := by omega
    have hhead : headSize (eid.length - 4) ≤ 9 := by
      unfold headSize
      split_ifs <;> omega
    rw [← Option.some.inj h, if_pos (head?_of_isPrefix hdtn), hssp, serializeDtn]
    simp only [List.length_append, length_array, length_uint, length_textString,
      List.length_drop, cborUintSizeof_eq]
    omega
  · rw [if_neg hdtn] at h
    split_ifs at h with hipn
    obtain ⟨⟨node, service⟩, hscan, rfl⟩ := Option.map_eq_some_iff.mp h
    rw [head?_of_isPrefix hipn.2, if_neg (by decide), hscan]
    simp only [List.length_append, length_array, length_uint, cborUintSizeof_eq]
    omega

/-! ## The characters of a number -/

theorem digits_lt (digits : List UInt8) (h : ∀ c ∈ digits, 48 ≤ c ∧ c ≤ 57) :
    digitsValue digits < 10 ^ digits.length := by
  induction digits using List.reverseRecOn with
  | nil => exact Nat.one_pos
  | append_singleton digits c ih =>
    have hfront := ih fun c hc => h c (List.mem_append_left _ hc)
    obtain ⟨-, hle⟩ := h c (List.mem_append_right _ (List.mem_singleton_self c))
    rw [UInt8.le_iff_toNat_le] at hle
    have hc : c.toNat ≤ 57 := hle
    rw [digitsValue, List.foldl_append, ← digitsValue, List.foldl_cons, List.foldl_nil,
      List.length_append, List.length_singleton, Nat.pow_succ]
    omega

/-- A number of `sscanf`, with or without a minus sign, and the digits it has. -/
theorem scanUnsigned_digits (h : scanUnsigned s = some (number, left)) :
    ∃ negative digits, number = unsignedOfDigits negative digits ∧
      (∀ c ∈ digits, 48 ≤ c ∧ c ≤ 57) ∧ 0 < digits.length ∧
      digits.length + (if negative then 1 else 0) + left.length ≤ s.length := by
  unfold scanUnsigned at h
  dsimp only at h
  generalize hspace : s.dropWhile (fun c => c = 32 ∨ (9 ≤ c ∧ c ≤ 13)) = unspaced at h
  generalize hsigned : (if unspaced.head? = some 45 ∨ unspaced.head? = some 43 then unspaced.tail
    else unspaced) = signed at h
  generalize hdigits : signed.takeWhile (fun c => 48 ≤ c ∧ c ≤ 57) = digits at h
  have hunspaced : unspaced.length ≤ s.length := by
    rw [← hspace]
    exact List.length_dropWhile_le _ _
  have hlength : signed.length + (if unspaced.head? = some 45 then 1 else 0) ≤
      unspaced.length := by
    rw [← hsigned]
    cases unspaced with
    | nil => simp
    | cons c unspaced =>
      simp only [List.head?_cons, Option.some.injEq, List.tail_cons]
      split_ifs <;> simp_all
  have htake : digits.length ≤ signed.length := by
    rw [← hdigits]
    exact (List.takeWhile_prefix _).length_le
  split_ifs at h with hnil
  obtain ⟨rfl, rfl⟩ := Prod.mk.inj (Option.some.inj h)
  refine ⟨_, digits, rfl, fun c hc => ?_, List.length_pos_iff.mpr hnil, ?_⟩
  · rw [← hdigits] at hc
    simpa using List.mem_takeWhile_imp hc
  · rw [List.length_drop]
    simp only [decide_eq_true_eq]
    omega

/-- A number takes at most three bytes more than it has characters, and no more if it has 16
bits. -/
theorem headSize_scanUnsigned (h : scanUnsigned s = some (number, left)) :
    headSize number + left.length ≤ s.length + 3 ∧
      (number < 2 ^ 16 → headSize number + left.length ≤ s.length) := by
  have hnumber := scanUnsigned_lt h
  obtain ⟨negative, digits, heq, hdigits, hpos, hlength⟩ := scanUnsigned_digits h
  have hvalue := digits_lt digits hdigits
  have hfive : headSize number ≤ 5 := by
    unfold headSize
    split_ifs <;> omega
  have hthree : number < 2 ^ 16 → headSize number ≤ 3 := fun hsmall => by
    unfold headSize
    split_ifs <;> omega
  -- With three characters or more there is nothing to show.
  by_cases hlong : 3 ≤ digits.length + if negative then 1 else 0
  · exact ⟨by omega, fun hsmall => by have := hthree hsmall; omega⟩
  have hshort : digits.length ≤ 2 := by omega
  have hhundred : digitsValue digits < 100 :=
    Nat.lt_of_lt_of_le hvalue (Nat.pow_le_pow_right (by decide) hshort)
  rw [unsignedOfDigits, ← digitsValue] at heq
  rw [if_neg (by omega)] at heq
  cases negative with
  | false =>
    simp only [Bool.false_eq_true, if_false] at heq hlength
    have hself : number = digitsValue digits := by omega
    have hhead : headSize number ≤ digits.length := by
      have hten : digits.length = 1 → digitsValue digits < 10 := fun hone => by
        rwa [hone] at hvalue
      unfold headSize
      split_ifs <;> omega
    exact ⟨by omega, fun _ => by omega⟩
  | true =>
    simp only [if_true] at heq hlength hlong
    refine ⟨by omega, fun hsmall => ?_⟩
    have hzero : number = 0 := by omega
    have hhead : headSize number = 1 := by rw [hzero]; rfl
    omega

theorem length_of_scanIpn (h : scanIpn eid = some (node, service)) :
    headSize node + headSize service + 5 ≤ eid.length + 6 ∧
      (node < 2 ^ 16 ∨ service < 2 ^ 16 →
        headSize node + headSize service + 5 ≤ eid.length + 3) := by
  unfold scanIpn at h
  split at h
  · rename_i hprefix
    split at h
    · rename_i node' rest hnode
      obtain ⟨⟨service', left⟩, hservice, heq⟩ := Option.map_eq_some_iff.mp h
      cases heq
      dsimp only
      have hlength : 4 ≤ eid.length := hprefix.length_le
      obtain ⟨hnodeLe, hnodeSmall⟩ := headSize_scanUnsigned hnode
      obtain ⟨hserviceLe, hserviceSmall⟩ := headSize_scanUnsigned hservice
      rw [List.length_cons, List.length_drop] at hnodeLe hnodeSmall
      refine ⟨by omega, ?_⟩
      rintro (hsmall | hsmall)
      · have := hnodeSmall hsmall
        omega
      · have := hserviceSmall hsmall
        omega
    · cases h
  · cases h

/-! ## The bound -/

theorem length_serializeIpn (h : scanIpn eid = some (node, service)) :
    (serializeIpn eid).map List.length = some (3 + headSize node + headSize service) := by
  have htwo : headSize 2 = 1 := rfl
  rw [serializeIpn, h]
  simp only [Option.map_some, List.length_append, length_array, length_uint, htwo]
  congr 1
  omega

theorem headSize_eq_five {n : Nat} (hge : 2 ^ 16 ≤ n) (hlt : n < 2 ^ 32) : headSize n = 5 := by
  unfold headSize
  split_ifs <;> omega

theorem headSize_le_five {n : Nat} (hlt : n < 2 ^ 32) : headSize n ≤ 5 := by
  unfold headSize
  split_ifs <;> omega

/-- What `sscanf` reads numbers from begins with `ipn:`. -/
theorem not_dtn_of_scanIpn {numbers : Nat × Nat} (hscan : scanIpn eid = some numbers) :
    ¬ dtnPrefix <+: eid := by
  intro hdtn
  unfold scanIpn at hscan
  split at hscan
  · rename_i hipn
    have hhead := (head?_of_isPrefix hdtn).symm.trans (head?_of_isPrefix hipn)
    exact absurd hhead (by decide)
  · cases hscan

/-- The bound for two numbers. -/
theorem bound_ipn {node service : Nat} (hscan : scanIpn eid = some (node, service)) :
    3 + headSize node + headSize service ≤ eidMaxSerializedSize eid ↔ ¬ LargeInShort eid := by
  have hpos := headSize_pos eid.length
  obtain ⟨hnode, hservice⟩ := scanIpn_lt hscan
  obtain ⟨-, hsmall⟩ := length_of_scanIpn hscan
  have hlarge : LargeInShort eid ↔ eid.length ≤ 11 ∧ 2 ^ 16 ≤ node ∧ 2 ^ 16 ≤ service := by
    rw [LargeInShort, hscan]
    simp
  rw [eidMaxSerializedSize, cborUintSizeof_eq, hlarge]
  constructor
  · rintro hle ⟨hshort, hnode', hservice'⟩
    have hnodeHead := headSize_eq_five hnode' hnode
    have hserviceHead := headSize_eq_five hservice' hservice
    have hhead : headSize eid.length = 1 := if_pos (by omega)
    omega
  · intro hnot
    by_cases hshort : eid.length ≤ 11
    · have := hsmall (by omega)
      omega
    · have hnodeHead := headSize_le_five hnode
      have hserviceHead := headSize_le_five hservice
      omega

/-- The bound holds but for two large numbers in a short EID. -/
theorem bound_iff (h : eidSerializeCbor eid = some bytes) :
    bytes.length ≤ eidMaxSerializedSize eid ↔ ¬ LargeInShort eid := by
  unfold eidSerializeCbor at h
  split_ifs at h with hnone hdtn hipn
  · subst hnone
    rw [← Option.some.inj h]
    decide
  · have hpos := headSize_pos eid.length
    have hlength : 4 ≤ eid.length := hdtn.length_le
    have hhead := headSize_mono (Nat.sub_le eid.length 4)
    have hone : headSize 1 = 1 := rfl
    have htwo : headSize 2 = 1 := rfl
    rw [← Option.some.inj h, serializeDtn, eidMaxSerializedSize, cborUintSizeof_eq]
    simp only [List.length_append, length_array, length_uint, length_textString,
      List.length_drop]
    refine iff_of_true (by omega) ?_
    rintro ⟨-, numbers, hscan, -⟩
    exact not_dtn_of_scanIpn hscan hdtn
  · obtain ⟨⟨node, service⟩, hscan, -⟩ := Option.map_eq_some_iff.mp h
    have hbytes := length_serializeIpn hscan
    rw [h] at hbytes
    rw [show bytes.length = 3 + headSize node + headSize service from Option.some.inj hbytes]
    exact bound_ipn hscan

theorem length_pos_of_eidSerializeCbor (h : eidSerializeCbor eid = some bytes) :
    0 < bytes.length := by
  unfold eidSerializeCbor at h
  split_ifs at h
  · rw [← Option.some.inj h]
    decide
  · rw [← Option.some.inj h, serializeDtn]
    simp only [List.length_append, length_array]
    exact Nat.lt_of_lt_of_le (headSize_pos 2) (by omega)
  · obtain ⟨numbers, hscan, -⟩ := Option.map_eq_some_iff.mp h
    have hbytes := length_serializeIpn hscan
    rw [h] at hbytes
    have hlength := Option.some.inj hbytes
    omega

/-! ## The sizes -/

theorem returned_written (h : bytes.length < 2 ^ 31) :
    (EidSerialized.written bytes).returned = bytes.length := by
  have hwraps : (bytes.length : Int).bmod (2 ^ 32) = bytes.length :=
    Int.bmod_eq_of_le (by omega) (by omega)
  exact hwraps

/-- When the sizes of an EID that can be encoded are right. -/
theorem sizesRight_iff (h : eidSerializeCbor eid = some bytes) (heid : eid.length < 2 ^ 63) :
    SizesRight eid bytes ↔ ¬ LargeInShort eid := by
  refine ⟨fun hright => (bound_iff h).mp hright.bound, fun hnot => ?_⟩
  have hbound := (bound_iff h).mpr hnot
  have hserialized : bundle7EidSerialize eid (eidMaxSerializedSize eid) = .written bytes := by
    rw [bundle7EidSerialize, h]
    exact if_neg (Nat.not_lt.mpr hbound)
  have hreturned : bytes.length < 2 ^ 31 →
      (bundle7EidSerialize eid (eidMaxSerializedSize eid)).returned = bytes.length :=
    fun hlength => hserialized ▸ returned_written hlength
  refine ⟨(length_eidSerializeCbor h heid).symm, hbound, hserialized, hreturned, ?_, ?_⟩
  · intro hlength
    have hpos := length_pos_of_eidSerializeCbor h
    have hlast := hreturned hlength
    rw [hserialized] at hlast
    rw [bundle7EidSerializeAlloc, hserialized]
    dsimp only
    rw [hlast, if_neg (by omega)]
  · rintro b payload report record rfl hrecord
    exact length_statusReportPayload_le h hbound hrecord

/-- `"ipn:1.1"`. -/
def ipnOne : List UInt8 := [105, 112, 110, 58, 49, 46, 49]

theorem sizesRight_iff_ipnOne : SizesRight ipnOne [0x82, 2, 0x82, 1, 1] :=
  (sizesRight_iff (by decide) (by decide)).mpr (by decide)

/-- `"ipn:-1.-1"`. -/
def ipnNegative : List UInt8 := [105, 112, 110, 58, 45, 49, 46, 45, 49]

/-- Thirteen bytes are written, and ten are the bound. -/
theorem not_sizesRight_ipnNegative :
    (∃ bytes, eidSerializeCbor ipnNegative = some bytes ∧ ¬ SizesRight ipnNegative bytes) ∧
      bundle7EidSerializeAlloc ipnNegative = none := by
  refine ⟨⟨_, rfl, fun hright => absurd hright.bound (by decide)⟩, by decide⟩

end Upcn.Bundle7
