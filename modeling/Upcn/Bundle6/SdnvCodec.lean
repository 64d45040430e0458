import Mathlib.Data.List.Infix
import Upcn.Bundle6.Sdnv

/-!
# The SDNV codec

Each of the four readers of `bundle6/sdnv.c` against each of the four writers, and what a
reader makes of any sequence of bytes that could be an SDNV.

* `SdnvWidth.feed` is the reader, called for one byte after the other.
* `sdnvNumber` is what the bytes denote, without a bound.
* A reader of a width accepts what has no more bytes than its largest number and denotes a
  number of that width.  `sdnvFeed_continued` is the induction over the bytes that are
  followed by another one.
-/

namespace Upcn.Bundle6

/-! ## The codec of eight bits -/

/-- `sdnv_get_size_u8`. -/
def sdnvGetSizeU8 (value : Nat) : Nat := if value &&& 0x80 = 0 then 1 else 2

/-- `sdnv_write_u8`. -/
def sdnvWriteU8 (value : Nat) : List UInt8 := sdnvWriteGeneric (sdnvGetSizeU8 value) value

/-! ## What bytes denote -/

/-- The number that the bytes of an SDNV stand for. -/
def sdnvNumber (bytes : List UInt8) : Nat :=
  bytes.foldl (fun number byte => number * 2 ^ 7 + byte.toNat % 2 ^ 7) 0

/-- Another byte follows each of the bytes. -/
def Marked (bytes : List UInt8) : Prop := ∀ byte ∈ bytes, 2 ^ 7 ≤ byte.toNat

/-- A byte follows each of the bytes but the last one. -/
def Continued (bytes : List UInt8) : Prop := Marked bytes.dropLast

/-- The last of the bytes ends the number. -/
def Ended (bytes : List UInt8) : Prop := ∃ byte ∈ bytes.getLast?, byte.toNat < 2 ^ 7

instance (bytes : List UInt8) : Decidable (Marked bytes) :=
  inferInstanceAs (Decidable (∀ byte ∈ bytes, _))

instance (bytes : List UInt8) : Decidable (Continued bytes) :=
  inferInstanceAs (Decidable (Marked _))

instance (bytes : List UInt8) : Decidable (Ended bytes) :=
  inferInstanceAs (Decidable (∃ byte ∈ bytes.getLast?, _))

section
variable {width maxBytes maxValue value size : Nat} {bytes : List UInt8} {byte : UInt8}

theorem sdnvNumber_append (bytes : List UInt8) (byte : UInt8) :
    sdnvNumber (bytes ++ [byte]) = sdnvNumber bytes * 2 ^ 7 + byte.toNat % 2 ^ 7 := by
  rw [sdnvNumber, List.foldl_append]
  rfl

theorem sdnvNumber_lt (bytes : List UInt8) : sdnvNumber bytes < 2 ^ (7 * bytes.length) := by
  induction bytes using List.reverseRecOn with
  | nil => exact Nat.one_pos
  | append_singleton bytes byte ih =>
    have hlow : byte.toNat % 2 ^ 7 < 2 ^ 7 := Nat.mod_lt _ (by decide)
    rw [sdnvNumber_append, List.length_append, List.length_singleton, Nat.mul_add, Nat.pow_add]
    omega

theorem sdnvNumber_le_append (bytes rest : List UInt8) :
    sdnvNumber bytes ≤ sdnvNumber (bytes ++ rest) := by
  induction rest using List.reverseRecOn with
  | nil => rw [List.append_nil]
  | append_singleton rest byte ih =>
    rw [← List.append_assoc, sdnvNumber_append]
    omega

theorem marked_append {rest : List UInt8} :
    Marked (bytes ++ rest) ↔ Marked bytes ∧ Marked rest := List.forall_mem_append

theorem continued_append : Continued (bytes ++ [byte]) ↔ Marked bytes := by
  rw [Continued, List.dropLast_concat]

theorem ended_append : Ended (bytes ++ [byte]) ↔ byte.toNat < 2 ^ 7 := by
  rw [Ended, List.getLast?_concat]
  simp

/-! ## One reader -/

/-- `sdnv_read_generic` for one byte after the other, from a state that was reset. -/
def sdnvFeed (width maxBytes maxValue value : Nat) (bytes : List UInt8) : SdnvState × Nat :=
  bytes.foldl (fun s byte => sdnvReadGeneric width maxBytes maxValue s.1 s.2 byte)
    (SdnvState.reset, value)

/-- The bytes are no more than the reader takes, and their number has its width. -/
def Fits (width maxBytes : Nat) (bytes : List UInt8) : Prop :=
  bytes.length ≤ maxBytes + 1 ∧ sdnvNumber bytes < 2 ^ width

instance (width maxBytes : Nat) (bytes : List UInt8) : Decidable (Fits width maxBytes bytes) :=
  inferInstanceAs (Decidable (_ ∧ _))

theorem sdnvFeed_append : sdnvFeed width maxBytes maxValue value (bytes ++ [byte]) =
    sdnvReadGeneric width maxBytes maxValue (sdnvFeed width maxBytes maxValue value bytes).1
      (sdnvFeed width maxBytes maxValue value bytes).2 byte := by
  rw [sdnvFeed, List.foldl_append]
  rfl

theorem Fits.of_append {rest : List UInt8} (h : Fits width maxBytes (bytes ++ rest)) :
    Fits width maxBytes bytes := by
  have hle := sdnvNumber_le_append bytes rest
  rw [Fits, List.length_append] at h
  exact ⟨by omega, by omega⟩

/-- The reader refuses the next byte. -/
def Refused (maxBytes maxValue : Nat) (s : SdnvState × Nat) : Prop :=
  ¬ (s.1.bytesParsed < maxBytes ∨ s.1.bytesParsed = maxBytes ∧ s.2 ≤ maxValue)

theorem sdnvReadGeneric_of_refused {s : SdnvState × Nat} (h : Refused maxBytes maxValue s) :
    sdnvReadGeneric width maxBytes maxValue s.1 s.2 byte =
      ({ s.1 with status := .error }, s.2) := if_pos h

/-- What the reader holds behind bytes that another one follows: their number, or what is
refused from now on. -/
structure Held (width maxBytes maxValue : Nat) (bytes : List UInt8) (s : SdnvState × Nat) :
    Prop where
  state : Fits width maxBytes bytes → s.1 = ⟨.inProgress, bytes.length⟩
  value : Fits width maxBytes bytes → bytes ≠ [] → s.2 = sdnvNumber bytes
  refused : ¬ Fits width maxBytes bytes → Refused maxBytes maxValue s

namespace SdnvFits

variable (h : SdnvFits width maxBytes maxValue) (hlow : 7 * maxBytes ≤ width)
include h hlow

/-- The check before a byte asks whether the number is still of the width with it. -/
theorem fits_append_iff (bytes : List UInt8) (byte : UInt8) :
    Fits width maxBytes (bytes ++ [byte]) ↔
      bytes.length < maxBytes ∨ bytes.length = maxBytes ∧ sdnvNumber bytes ≤ maxValue := by
  have hpow : 2 ^ width = 2 ^ (width - 7) * 2 ^ 7 := by
    rw [← Nat.pow_add, Nat.sub_add_cancel h.width]
  have hmax := h.value
  have hbyte : byte.toNat % 2 ^ 7 < 2 ^ 7 := Nat.mod_lt _ (by decide)
  rw [Fits, List.length_append, List.length_singleton, sdnvNumber_append, hpow]
  constructor
  · intro hfits
    omega
  · rintro (hlt | ⟨heq, hle⟩)
    · have hbound := sdnvNumber_lt (bytes ++ [byte])
      rw [sdnvNumber_append, List.length_append, List.length_singleton] at hbound
      have hmono : 2 ^ (7 * (bytes.length + 1)) ≤ 2 ^ width :=
        Nat.pow_le_pow_right (by decide) (by omega)
      omega
    · omega

/-- A byte that fits is taken. -/
theorem sdnvReadGeneric_of_append (hfits : Fits width maxBytes (bytes ++ [byte]))
    (hvalue : bytes ≠ [] → value = sdnvNumber bytes) :
    sdnvReadGeneric width maxBytes maxValue ⟨.inProgress, bytes.length⟩ value byte =
      (⟨if byte.toNat < 2 ^ 7 then .done else .inProgress, (bytes ++ [byte]).length⟩,
        sdnvNumber (bytes ++ [byte])) := by
  have haccepts := (h.fits_append_iff hlow bytes byte).mp hfits
  have hnumber := hfits.2
  rw [sdnvNumber_append] at hnumber
  rw [List.length_append, List.length_singleton, sdnvNumber_append]
  by_cases hne : bytes = []
  · subst hne
    exact sdnvReadGeneric_of_fits (.inl h.bytes) fun hzero => absurd rfl hzero
  · have hlength : bytes.length ≠ 0 := fun hzero => hne (List.eq_nil_of_length_eq_zero hzero)
    rw [hvalue hne, sdnvReadGeneric_of_fits haccepts fun _ => by omega, if_neg hlength]

/-- A byte that does not fit is refused. -/
theorem refused_of_held {s : SdnvState × Nat} (hheld : Held width maxBytes maxValue bytes s)
    (hnot : ¬ Fits width maxBytes (bytes ++ [byte])) : Refused maxBytes maxValue s := by
  by_cases hfits : Fits width maxBytes bytes
  · intro haccepts
    rw [hheld.state hfits] at haccepts
    refine hnot ((h.fits_append_iff hlow bytes byte).mpr ?_)
    rcases haccepts with hlt | ⟨heq, hle⟩
    · exact .inl hlt
    · -- The value is not looked at before the first byte.
      have hne : bytes ≠ [] := by
        rintro rfl
        exact absurd heq (Nat.ne_of_lt h.bytes)
      exact .inr ⟨heq, hheld.value hfits hne ▸ hle⟩
  · exact hheld.refused hfits

theorem sdnvFeed_held (value : Nat) (hmarked : Marked bytes) :
    Held width maxBytes maxValue bytes (sdnvFeed width maxBytes maxValue value bytes) := by
  induction bytes using List.reverseRecOn with
  | nil => exact ⟨fun _ => rfl, fun _ hne => absurd rfl hne,
      fun hnot => absurd ⟨Nat.zero_le _, Nat.two_pow_pos width⟩ hnot⟩
  | append_singleton bytes byte ih =>
    obtain ⟨hfront, hlast⟩ := marked_append.mp hmarked
    have hheld := ih hfront
    have hbyte : ¬ byte.toNat < 2 ^ 7 :=
      Nat.not_lt.mpr (hlast byte (List.mem_singleton_self _))
    rw [sdnvFeed_append]
    by_cases hfits : Fits width maxBytes (bytes ++ [byte])
    · rw [hheld.state hfits.of_append,
        h.sdnvReadGeneric_of_append hlow hfits (hheld.value hfits.of_append), if_neg hbyte]
      exact ⟨fun _ => rfl, fun _ _ => rfl, fun hnot => absurd hfits hnot⟩
    · have hrefused := h.refused_of_held hlow hheld hfits
      rw [sdnvReadGeneric_of_refused hrefused]
      exact ⟨fun hfits' => absurd hfits' hfits, fun hfits' => absurd hfits' hfits,
        fun _ => hrefused⟩

/-- Bytes that fit are read, whether the last one ends the number or not. -/
theorem sdnvFeed_of_fits (value : Nat) (hcontinued : Continued (bytes ++ [byte]))
    (hfits : Fits width maxBytes (bytes ++ [byte])) :
    sdnvFeed width maxBytes maxValue value (bytes ++ [byte]) =
      (⟨if byte.toNat < 2 ^ 7 then .done else .inProgress, (bytes ++ [byte]).length⟩,
        sdnvNumber (bytes ++ [byte])) := by
  have hheld := h.sdnvFeed_held hlow value (continued_append.mp hcontinued)
  rw [sdnvFeed_append, hheld.state hfits.of_append,
    h.sdnvReadGeneric_of_append hlow hfits (hheld.value hfits.of_append)]

/-- Bytes that do not fit are an error. -/
theorem sdnvFeed_of_not_fits (value : Nat) (hcontinued : Continued (bytes ++ [byte]))
    (hnot : ¬ Fits width maxBytes (bytes ++ [byte])) :
    (sdnvFeed width maxBytes maxValue value (bytes ++ [byte])).1.status = .error := by
  have hheld := h.sdnvFeed_held hlow value (continued_append.mp hcontinued)
  rw [sdnvFeed_append, sdnvReadGeneric_of_refused (h.refused_of_held hlow hheld hnot)]

end SdnvFits

/-! ## What a writer leaves -/

theorem sdnvGetSizeU8_spec (h : value < 2 ^ 8) :
    value < 2 ^ (7 * sdnvGetSizeU8 value) ∧ 0 < sdnvGetSizeU8 value ∧
      sdnvGetSizeU8 value ≤ 2 := by
  unfold sdnvGetSizeU8
  split
  · rename_i hmask
    exact ⟨lt_of_and_eq_zero hmask h (by decide), by omega⟩
  · omega

theorem marked_sdnvGroups (size value : Nat) : Marked (sdnvGroups size value) := by
  induction size generalizing value with
  | zero => exact fun byte hbyte => absurd hbyte List.not_mem_nil
  | succ size ih =>
    rw [sdnvGroups_succ]
    refine marked_append.mpr ⟨ih _, fun byte hbyte => ?_⟩
    rw [List.mem_singleton.mp hbyte, UInt8.toNat_ofNat']
    omega

theorem sdnvNumber_sdnvGroups (h : value < 2 ^ (7 * size)) :
    sdnvNumber (sdnvGroups size value) = value := by
  induction size generalizing value with
  | zero => exact (Nat.lt_one_iff.mp h).symm
  | succ size ih =>
    have hdiv : value / 2 ^ 7 < 2 ^ (7 * size) := by
      rw [Nat.div_lt_iff_lt_mul (by decide), ← Nat.pow_add]
      exact h
    rw [sdnvGroups_succ, sdnvNumber_append, ih hdiv, UInt8.toNat_ofNat']
    omega

/-- What is written of a number in as many groups as it needs, or more. -/
structure Written (size value : Nat) (front : List UInt8) (last : UInt8) : Prop where
  bytes : sdnvWriteGeneric size value = front ++ [last]
  length : (front ++ [last]).length = size
  marked : Marked front
  ended : last.toNat < 2 ^ 7
  number : sdnvNumber (front ++ [last]) = value

theorem exists_written (hpos : 0 < size) (h : value < 2 ^ (7 * size)) :
    ∃ front last, Written size value front last := by
  obtain ⟨count, rfl⟩ := Nat.exists_eq_succ_of_ne_zero (Nat.ne_of_gt hpos)
  have hdiv : value / 2 ^ 7 < 2 ^ (7 * count) := by
    rw [Nat.div_lt_iff_lt_mul (by decide), ← Nat.pow_add]
    exact h
  have hlast : (UInt8.ofNat (value % 2 ^ 7)).toNat = value % 2 ^ 7 := by
    rw [UInt8.toNat_ofNat']
    omega
  refine ⟨sdnvGroups count (value / 2 ^ 7), .ofNat (value % 2 ^ 7),
    ⟨sdnvWriteGeneric_succ count value, ?_, marked_sdnvGroups _ _, ?_, ?_⟩⟩
  · rw [List.length_append, length_sdnvGroups, List.length_singleton]
  · rw [hlast]
    exact Nat.mod_lt _ (by decide)
  · rw [sdnvNumber_append, sdnvNumber_sdnvGroups hdiv, hlast]
    omega

end

/-! ## The four widths -/

/-- The widths that there are functions for. -/
inductive SdnvWidth where
  | u8
  | u16
  | u32
  | u64
  deriving DecidableEq

namespace SdnvWidth

/-- The width of the value. -/
def bits : SdnvWidth → Nat
  | .u8 => 8
  | .u16 => 16
  | .u32 => 32
  | .u64 => 64

/-- The bytes that stand before the last one of the largest value. -/
def maxBytes : SdnvWidth → Nat
  | .u8 => 1
  | .u16 => 2
  | .u32 => 4
  | .u64 => 9

/-- `sdnv_get_size_u8` and so on. -/
def getSize : SdnvWidth → Nat → Nat
  | .u8 => sdnvGetSizeU8
  | .u16 => sdnvGetSizeU16
  | .u32 => sdnvGetSizeU32
  | .u64 => sdnvGetSizeU64

/-- `sdnv_write_u8` and so on. -/
def write : SdnvWidth → Nat → List UInt8
  | .u8 => sdnvWriteU8
  | .u16 => sdnvWriteU16
  | .u32 => sdnvWriteU32
  | .u64 => sdnvWriteU64

/-- `sdnv_read_u8` and so on. -/
def read : SdnvWidth → SdnvState → Nat → UInt8 → SdnvState × Nat
  | .u8 => sdnvReadU8
  | .u16 => sdnvReadU16
  | .u32 => sdnvReadU32
  | .u64 => sdnvReadU64

/-- The reader for one byte after the other, from a state that was reset; `value` is what
the variable held before. -/
def feed (w : SdnvWidth) (value : Nat) (bytes : List UInt8) : SdnvState × Nat :=
  bytes.foldl (fun s byte => w.read s.1 s.2 byte) (SdnvState.reset, value)

/-- What is written of a value is read, and the number is complete with the last byte and
not before. -/
def RoundTrips (w : SdnvWidth) : Prop :=
  ∀ x < 2 ^ w.bits, ∀ value,
    (w.write x).length = w.getSize x ∧
      w.feed value (w.write x) = (⟨.done, w.getSize x⟩, x) ∧
      ∀ bytes, bytes <+: w.write x → bytes ≠ w.write x →
        (w.feed value bytes).1.status = .inProgress

/-- Bytes that could be an SDNV are read as what they denote, or are an error. -/
def ReadsExactly (w : SdnvWidth) : Prop :=
  ∀ bytes, bytes ≠ [] → Continued bytes → ∀ value,
    if Fits w.bits w.maxBytes bytes then
      w.feed value bytes =
        (⟨if Ended bytes then .done else .inProgress, bytes.length⟩, sdnvNumber bytes)
    else (w.feed value bytes).1.status = .error

/-- The values of a reader's check. -/
def maxValue : SdnvWidth → Nat
  | .u8 => 0x1
  | .u16 => 0x1FF
  | .u32 => 0x1FFFFFF
  | .u64 => 0x1FFFFFFFFFFFFFF

variable (w : SdnvWidth)

theorem sdnvFits : SdnvFits w.bits w.maxBytes w.maxValue := by
  cases w with
  | u8 => exact ⟨by decide, by decide, by decide⟩
  | u16 => exact sdnvFits_u16
  | u32 => exact sdnvFits_u32
  | u64 => exact sdnvFits_u64

theorem seven_mul_maxBytes_le : 7 * w.maxBytes ≤ w.bits := by
  cases w <;> decide

theorem feed_eq (value : Nat) (bytes : List UInt8) :
    w.feed value bytes = sdnvFeed w.bits w.maxBytes w.maxValue value bytes := by
  cases w <;> rfl

theorem write_eq (x : Nat) : w.write x = sdnvWriteGeneric (w.getSize x) x := by
  cases w <;> rfl

theorem getSize_spec {x : Nat} (h : x < 2 ^ w.bits) :
    x < 2 ^ (7 * w.getSize x) ∧ 0 < w.getSize x ∧ w.getSize x ≤ w.maxBytes + 1 := by
  cases w with
  | u8 => exact sdnvGetSizeU8_spec h
  | u16 => exact sdnvGetSizeU16_spec h
  | u32 => exact sdnvGetSizeU32_spec h
  | u64 => exact sdnvGetSizeU64_spec h

theorem roundTrips : w.RoundTrips := by
  intro x hx value
  obtain ⟨hlt, hpos, hle⟩ := w.getSize_spec hx
  obtain ⟨front, last, hwritten⟩ := exists_written hpos hlt
  have hfits : Fits w.bits w.maxBytes (front ++ [last]) := by
    refine ⟨?_, ?_⟩
    · rw [hwritten.length]
      exact hle
    · rw [hwritten.number]
      exact hx
  rw [w.write_eq, hwritten.bytes, w.feed_eq,
    w.sdnvFits.sdnvFeed_of_fits w.seven_mul_maxBytes_le value
      (continued_append.mpr hwritten.marked) hfits,
    if_pos hwritten.ended, hwritten.length, hwritten.number]
  refine ⟨rfl, rfl, fun bytes hprefix hne => ?_⟩
  -- What is left out is at least the last byte.
  have hfront : bytes <+: front := by
    rcases List.prefix_concat_iff.mp hprefix with heq | hfront
    · exact absurd heq hne
    · exact hfront
  obtain ⟨rest, rfl⟩ := hfront
  have hheld := w.sdnvFits.sdnvFeed_held w.seven_mul_maxBytes_le value
    (marked_append.mp hwritten.marked).1
  rw [List.append_assoc] at hfits
  rw [w.feed_eq, hheld.state hfits.of_append]

theorem readsExactly : w.ReadsExactly := by
  intro bytes hne hcontinued value
  obtain ⟨front, byte, rfl⟩ : ∃ front byte, bytes = front ++ [byte] :=
    ⟨_, _, (List.dropLast_append_getLast hne).symm⟩
  rw [w.feed_eq]
  split
  · rename_i hfits
    rw [w.sdnvFits.sdnvFeed_of_fits w.seven_mul_maxBytes_le value hcontinued hfits]
    simp only [ended_append]
  · rename_i hnot
    exact w.sdnvFits.sdnvFeed_of_not_fits w.seven_mul_maxBytes_le value hcontinued hnot

/-- The four codecs. -/
theorem sdnv_codec : w.RoundTrips ∧ w.ReadsExactly := ⟨w.roundTrips, w.readsExactly⟩

example : (SdnvWidth.u8.feed 0 [0x82, 0x00]).1.status = .error := by decide

end SdnvWidth

end Upcn.Bundle6
