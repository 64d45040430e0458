import Upcn.Bundle6.Parser

/-!
# Writing SDNVs

`bundle6/sdnv.c` as far as it writes, and that a reader gets back what was
written.

An SDNV is a number in groups of seven bits, the highest first; every byte but
the last has its top bit set.  `sdnvGroups` are the bytes with the top bit, and
the induction of the reader's side goes over them.
-/

namespace Upcn.Bundle6

/-! ## Sizes -/

/-- `sdnv_get_size_u16`. -/
def sdnvGetSizeU16 (value : Nat) : Nat :=
  if value &&& 0xFF80 = 0 then 1
  else if value &&& 0xC000 = 0 then 2
  else 3

/-- `sdnv_get_size_u32`. -/
def sdnvGetSizeU32 (value : Nat) : Nat :=
  if value &&& 0xFFFFFF80 = 0 then 1
  else if value &&& 0xFFFFC000 = 0 then 2
  else if value &&& 0xFFE00000 = 0 then 3
  else if value &&& 0xF0000000 = 0 then 4
  else 5

/-- `sdnv_get_size_u64`. -/
def sdnvGetSizeU64 (value : Nat) : Nat :=
  if value &&& 0xFFFFFFFFFFFFFF80 = 0 then 1
  else if value &&& 0xFFFFFFFFFFFFC000 = 0 then 2
  else if value &&& 0xFFFFFFFFFFE00000 = 0 then 3
  else if value &&& 0xFFFFFFFFF0000000 = 0 then 4
  else if value &&& 0xFFFFFFF800000000 = 0 then 5
  else if value &&& 0xFFFFFC0000000000 = 0 then 6
  else if value &&& 0xFFFE000000000000 = 0 then 7
  else if value &&& 0xFF00000000000000 = 0 then 8
  else if value &&& 0x8000000000000000 = 0 then 9
  else 10

/-! ## Writing -/

/-- The loop of `sdnv_write_generic` over so many bytes, from the last one to the
first. -/
def sdnvWriteLoop : Nat → Nat → List UInt8 → List UInt8
  | 0, _, written => written
  | n + 1, value, written =>
    sdnvWriteLoop n (value / 2 ^ 7) (UInt8.ofNat (value % 2 ^ 7 + 2 ^ 7) :: written)

/-- `(*last_byte) &= SDNV_VALUE_MASK`. -/
def clearMarker : List UInt8 → List UInt8
  | [] => []
  | [byte] => [UInt8.ofNat (byte.toNat % 2 ^ 7)]
  | byte :: rest => byte :: clearMarker rest

/-- `sdnv_write_generic`. -/
def sdnvWriteGeneric (size value : Nat) : List UInt8 :=
  clearMarker (sdnvWriteLoop size value [])

/-- `sdnv_write_u16`. -/
def sdnvWriteU16 (value : Nat) : List UInt8 :=
  sdnvWriteGeneric (sdnvGetSizeU16 value) value

/-- `sdnv_write_u32`. -/
def sdnvWriteU32 (value : Nat) : List UInt8 :=
  sdnvWriteGeneric (sdnvGetSizeU32 value) value

/-- `sdnv_write_u64`. -/
def sdnvWriteU64 (value : Nat) : List UInt8 :=
  sdnvWriteGeneric (sdnvGetSizeU64 value) value

/-! ## The size suffices -/

variable {width maxBytes maxValue size value k : Nat}

theorem lt_of_and_eq_zero {mask : Nat} (h : value &&& mask = 0)
    (hvalue : value < 2 ^ width) (hmask : ∀ i < width, k ≤ i → mask.testBit i = true) :
    value < 2 ^ k := by
  refine Nat.lt_pow_two_of_testBit value fun i hi => ?_
  rcases Nat.lt_or_ge i width with hlt | hge
  · have hbit := congrArg (Nat.testBit · i) h
    simpa [hmask i hlt hi] using hbit
  · exact Nat.testBit_lt_two_pow (Nat.lt_of_lt_of_le hvalue
      (Nat.pow_le_pow_right (by omega) hge))

theorem sdnvGetSizeU16_spec (h : value < 2 ^ 16) :
    value < 2 ^ (7 * sdnvGetSizeU16 value) ∧ 0 < sdnvGetSizeU16 value ∧
      sdnvGetSizeU16 value ≤ 3 := by
  unfold sdnvGetSizeU16
  split
  · rename_i hmask
    exact ⟨lt_of_and_eq_zero hmask h (by decide), by omega⟩
  · split
    · rename_i hmask
      exact ⟨lt_of_and_eq_zero hmask h (by decide), by omega⟩
    · omega

theorem sdnvGetSizeU32_spec (h : value < 2 ^ 32) :
    value < 2 ^ (7 * sdnvGetSizeU32 value) ∧ 0 < sdnvGetSizeU32 value ∧
      sdnvGetSizeU32 value ≤ 5 := by
  unfold sdnvGetSizeU32
  repeat' split
  all_goals
    rename_i hmask
    first
    | exact ⟨lt_of_and_eq_zero hmask h (by decide), by omega⟩
    | omega

theorem sdnvGetSizeU64_spec (h : value < 2 ^ 64) :
    value < 2 ^ (7 * sdnvGetSizeU64 value) ∧ 0 < sdnvGetSizeU64 value ∧
      sdnvGetSizeU64 value ≤ 10 := by
  unfold sdnvGetSizeU64
  repeat' split
  all_goals
    rename_i hmask
    first
    | exact ⟨lt_of_and_eq_zero hmask h (by decide), by omega⟩
    | omega

/-! ## The bytes -/

/-- The bytes of a number in so many groups, each with the top bit. -/
def sdnvGroups (size value : Nat) : List UInt8 := sdnvWriteLoop size value []

theorem sdnvWriteLoop_append (size value : Nat) (written : List UInt8) :
    sdnvWriteLoop size value written = sdnvGroups size value ++ written := by
  induction size generalizing value written with
  | zero => rfl
  | succ size ih =>
    rw [sdnvGroups, sdnvWriteLoop, sdnvWriteLoop, ih, ih _ [_], List.append_assoc]
    rfl

theorem sdnvGroups_succ (size value : Nat) :
    sdnvGroups (size + 1) value =
      sdnvGroups size (value / 2 ^ 7) ++ [UInt8.ofNat (value % 2 ^ 7 + 2 ^ 7)] := by
  rw [sdnvGroups, sdnvWriteLoop, sdnvWriteLoop_append]

theorem clearMarker_append (bytes : List UInt8) (byte : UInt8) :
    clearMarker (bytes ++ [byte]) = bytes ++ [UInt8.ofNat (byte.toNat % 2 ^ 7)] := by
  induction bytes with
  | nil => rfl
  | cons b bytes ih =>
    cases bytes with
    | nil => rfl
    | cons c bytes =>
      rw [List.cons_append, List.cons_append, clearMarker, ← List.cons_append, ih]
      · rfl
      · simp

theorem sdnvWriteGeneric_succ (size value : Nat) :
    sdnvWriteGeneric (size + 1) value =
      sdnvGroups size (value / 2 ^ 7) ++ [UInt8.ofNat (value % 2 ^ 7)] := by
  have hbyte : (UInt8.ofNat (value % 2 ^ 7 + 2 ^ 7)).toNat % 2 ^ 7 = value % 2 ^ 7 := by
    rw [UInt8.toNat_ofNat']
    omega
  rw [sdnvWriteGeneric, ← sdnvGroups, sdnvGroups_succ, clearMarker_append, hbyte]

theorem length_sdnvGroups (size value : Nat) : (sdnvGroups size value).length = size := by
  induction size generalizing value with
  | zero => rfl
  | succ size ih => rw [sdnvGroups_succ, List.length_append, ih]; rfl

/-! ## Reading them back -/

/-- A byte that fits. -/
theorem sdnvReadGeneric_of_fits {byte : UInt8} {x : Nat}
    (hfits : k < maxBytes ∨ k = maxBytes ∧ x ≤ maxValue)
    (hshift : k ≠ 0 → x * 2 ^ 7 < 2 ^ width) :
    sdnvReadGeneric width maxBytes maxValue ⟨.inProgress, k⟩ x byte =
      (⟨if byte.toNat < 2 ^ 7 then .done else .inProgress, k + 1⟩,
        (if k = 0 then 0 else x * 2 ^ 7) + byte.toNat % 2 ^ 7) := by
  have hvalue : (if k = 0 then 0 else x * 2 ^ 7 % 2 ^ width) ||| byte.toNat % 2 ^ 7 =
      (if k = 0 then 0 else x * 2 ^ 7) + byte.toNat % 2 ^ 7 := by
    have hlow : byte.toNat % 2 ^ 7 < 2 ^ 7 := Nat.mod_lt _ (by omega)
    split
    · rw [Nat.zero_or, Nat.zero_add]
    · rename_i hk
      rw [Nat.mod_eq_of_lt (hshift hk), Nat.mul_comm, Nat.two_pow_add_eq_or_of_lt hlow]
  simp only [sdnvReadGeneric]
  rw [if_neg fun hne => hne hfits, if_neg (by simp), hvalue]

/-- The reader of `width` bits takes numbers of so many bits, in so many bytes. -/
structure SdnvFits (width maxBytes maxValue : Nat) : Prop where
  bytes : 0 < maxBytes
  value : maxValue + 1 = 2 ^ (width - 7)
  width : 7 ≤ width

theorem sdnvFits_u16 : SdnvFits 16 2 0x1FF := ⟨by omega, by decide, by omega⟩

theorem sdnvFits_u32 : SdnvFits 32 4 0x1FFFFFF := ⟨by omega, by decide, by omega⟩

theorem sdnvFits_u64 : SdnvFits 64 9 0x1FFFFFFFFFFFFFF := ⟨by omega, by decide, by omega⟩

namespace SdnvFits

variable (h : SdnvFits width maxBytes maxValue)
include h

/-- Before the next byte of a number that fits, the reader accepts it. -/
theorem accepts (hvalue : value < 2 ^ width) (hk : k ≤ maxBytes) :
    (k < maxBytes ∨ k = maxBytes ∧ value / 2 ^ 7 ≤ maxValue) ∧
      value / 2 ^ 7 * 2 ^ 7 < 2 ^ width := by
  have hpow : 2 ^ width = 2 ^ (width - 7) * 2 ^ 7 := by
    rw [← Nat.pow_add, Nat.sub_add_cancel h.width]
  have hmax := h.value
  refine ⟨?_, ?_⟩
  · rcases Nat.lt_or_ge k maxBytes with hlt | hge
    · exact .inl hlt
    · have hdiv : value / 2 ^ 7 < 2 ^ (width - 7) := by
        rw [Nat.div_lt_iff_lt_mul (by omega), ← hpow]
        exact hvalue
      exact .inr ⟨by omega, by omega⟩
  · exact Nat.lt_of_le_of_lt (Nat.div_mul_le_self value (2 ^ 7)) hvalue

end SdnvFits

end Upcn.Bundle6
