import Upcn.Bundle7.Size
import Upcn.Lib.CborItems

/-!
# Endpoints in CBOR

The EID parser of `bundle7/eid.c`, over a CBOR decoder, and what it makes of what
`bundle7_eid_serialize_cbor` writes.

* `eidItem` is the data item of an EID and `eidRead` the EID that is read from it.
* `bundle7EidParseCbor_of_stands` says so for every decoder that follows the encoding.
* `length_le_of_survives` is the bound of `bundle7_eid_get_max_serialized_size`, for the
  EIDs that are read as they were.
-/

namespace Upcn.Bundle7

open Cbor

/-! ## The parser -/

/-- `decimal_digits`, which finds none in 0. -/
def decimalDigits (number : Nat) : Nat :=
  if number = 0 then 0 else decimalDigits (number / 10) + 1

/-- `PRIu64`. -/
def decimal (number : Nat) : List UInt8 :=
  if number < 10 then [.ofNat (48 + number)]
  else decimal (number / 10) ++ [.ofNat (48 + number % 10)]

/-- What is a string for the functions of C. -/
def cString (bytes : List UInt8) : List UInt8 := bytes.takeWhile (· ≠ 0)

/-- What `snprintf` writes for the two numbers into the memory of `eid_parse_ipn`. -/
def ipnText (node service : Nat) : List UInt8 :=
  let length := 4 + decimalDigits (node % 2 ^ 32) + 1 + decimalDigits (service % 2 ^ 32) + 1
  (ipnPrefix ++ decimal node ++ [46] ++ decimal service).take (length - 1)

variable (cbor : PullParser)

/-- `eid_parse_dtn`. -/
def eidParseDtn (it : cbor.Value) : Option (List UInt8 × cbor.Value) :=
  if cbor.isUnsignedInteger it then
    if cbor.getUint64 it ≠ 0 then none
    else some (dtnNone, (cbor.advanceFixed it).getD it)
  else if cbor.isTextString it then do
    let length ← cbor.getStringLength it
    guard (length ≤ cbor.remaining it)
    let (ssp, it) ← cbor.copyTextString it
    return (cString (dtnPrefix ++ ssp), it)
  else none

/-- `eid_parse_ipn`. -/
def eidParseIpn (it : cbor.Value) : Option (List UInt8 × cbor.Value) := do
  guard (cbor.isArray it && cbor.isLengthKnown it)
  let (entered, recursed) := cbor.enterContainer it
  guard entered
  guard (cbor.isUnsignedInteger recursed)
  let node := cbor.getUint64 recursed
  let recursed ← cbor.advanceFixed recursed
  guard (cbor.isUnsignedInteger recursed)
  let service := cbor.getUint64 recursed
  let recursed ← cbor.advanceFixed recursed
  guard (cbor.atEnd recursed)
  let it ← cbor.leaveContainer it recursed
  return (ipnText node.toNat service.toNat, it)

/-- The parsing function of the scheme. -/
def eidParseSsp (schema : UInt64) (it : cbor.Value) : Option (List UInt8 × cbor.Value) :=
  if schema = 1 then eidParseDtn cbor it
  else if schema = 2 then eidParseIpn cbor it
  else none

/-- `bundle7_eid_parse_cbor`. -/
def bundle7EidParseCbor (it : cbor.Value) : Option (List UInt8 × cbor.Value) := do
  guard (cbor.isArray it && cbor.isLengthKnown it)
  let length ← cbor.getArrayLength it
  guard (length = 2)
  let (entered, recursed) := cbor.enterContainer it
  guard entered
  guard (cbor.isUnsignedInteger recursed)
  let schema := cbor.getUint64 recursed
  let recursed ← cbor.advanceFixed recursed
  let (eid, recursed) ← eidParseSsp cbor schema recursed
  guard (cbor.atEnd recursed)
  let it ← cbor.leaveContainer it recursed
  return (eid, it)

/-- `bundle7_eid_parse`. -/
def bundle7EidParse (buffer : List UInt8) : Option (List UInt8) := do
  let it ← cbor.init buffer
  let (eid, _) ← bundle7EidParseCbor cbor it
  return eid

/-- `bundle7_eid_get_max_serialized_size`. -/
def eidMaxSerializedSize (eid : List UInt8) : Nat := eid.length + cborUintSizeof eid.length

/-- The EID can be encoded, and is read as it was. -/
def Survives (eid : List UInt8) : Prop :=
  ∃ bytes, eidSerializeCbor eid = some bytes ∧ bundle7EidParse cbor bytes = some eid

/-! ## The data item of an EID -/

/-- What `bundle7_eid_serialize_cbor` encodes. -/
def eidItem (eid : List UInt8) : Option Item :=
  if eid = dtnNone then some (.array true [.uint 1, .uint 0])
  else if dtnPrefix <+: eid then some (.array true [.uint 1, .text (eid.drop 4)])
  else if 4 < eid.length ∧ ipnPrefix <+: eid then
    (scanIpn eid).map fun numbers =>
      .array true [.uint 2, .array true [.uint numbers.1, .uint numbers.2]]
  else none

/-- The EID that is read from it. -/
def eidRead (eid : List UInt8) : List UInt8 :=
  if dtnPrefix <+: eid then cString eid
  else
    match scanIpn eid with
    | none => eid
    | some (node, service) => ipnText node service

variable {cbor} {eid bytes : List UInt8} {Stands : List UInt8 → cbor.Value → List (List Item) → Prop}
  {buffer : List UInt8} {it : cbor.Value} {rest : List Item} {outer : List (List Item)}

/-- The numbers of an `ipn` EID are 32-bit numbers. -/
theorem scanUnsigned_lt {s left : List UInt8} {value : Nat}
    (h : scanUnsigned s = some (value, left)) : value < 2 ^ 32 := by
  unfold scanUnsigned at h
  dsimp only at h
  split_ifs at h
  all_goals
    rw [← (Prod.mk.inj (Option.some.inj h)).1]
    exact Nat.mod_lt _ (by decide)

theorem scanIpn_lt {node service : Nat} (h : scanIpn eid = some (node, service)) :
    node < 2 ^ 32 ∧ service < 2 ^ 32 := by
  unfold scanIpn at h
  split at h
  · split at h
    · rename_i node' rest hnode
      obtain ⟨⟨service', left⟩, hservice, heq⟩ := Option.map_eq_some_iff.mp h
      cases heq
      exact ⟨scanUnsigned_lt hnode, scanUnsigned_lt hservice⟩
    · cases h
  · cases h

/-- What is written encodes the item. -/
theorem eidSerializeCbor_encodes (h : eidSerializeCbor eid = some bytes)
    (hlength : eid.length < 2 ^ 64) : ∃ item, eidItem eid = some item ∧ Encodes item bytes := by
  unfold eidSerializeCbor at h
  unfold eidItem
  split_ifs at h ⊢ with hnone hdtn hipn
  · cases h
    exact ⟨_, rfl, encodes_pair (encodes_uint (by decide)) (encodes_uint (by decide))⟩
  · cases h
    have htext : (eid.drop 4).length < 2 ^ 64 := by
      rw [List.length_drop]
      omega
    exact ⟨_, rfl, encodes_pair (encodes_uint (by decide)) (encodes_text htext)⟩
  · obtain ⟨⟨node, service⟩, hscan, heq⟩ := Option.map_eq_some_iff.mp h
    cases heq
    obtain ⟨hnode, hservice⟩ := scanIpn_lt hscan
    refine ⟨_, by rw [hscan]; rfl, ?_⟩
    exact encodes_pair (encodes_uint (by decide))
      (encodes_pair (encodes_uint (by omega)) (encodes_uint (by omega)))

/-! ## The EID that is read -/

theorem eidParseIpn_of_stands {node service : Nat} (hfollows : cbor.Follows Stands)
    (h : Stands buffer it ((.array true [.uint node, .uint service] :: rest) :: outer)) :
    ∃ it', eidParseIpn cbor it = some (ipnText node service, it') ∧
      Stands buffer it' (rest :: outer) := by
  obtain ⟨harray, hknown, -, inner, henter, hnode⟩ := hfollows.array _ _ _ _ _ _ h (by simp)
  obtain ⟨hisNode, hgetNode, next, hnext, hservice⟩ := hfollows.uint _ _ _ _ _ hnode
  obtain ⟨hisService, hgetService, last, hlast, hend⟩ := hfollows.uint _ _ _ _ _ hservice
  obtain ⟨it', hleave, hit'⟩ := hfollows.leave _ _ _ _ _ _ _ h hend
  have hatEnd : cbor.atEnd last = true := hfollows.atEnd _ _ _ _ hend
  refine ⟨it', ?_, hit'⟩
  simp [eidParseIpn, harray, hknown, henter, hisNode, hgetNode, hnext, hisService, hgetService,
    hlast, hatEnd, hleave]

theorem eidParseDtn_of_none (hfollows : cbor.Follows Stands)
    (h : Stands buffer it ((.uint 0 :: rest) :: outer)) :
    ∃ it', eidParseDtn cbor it = some (dtnNone, it') ∧ Stands buffer it' (rest :: outer) := by
  obtain ⟨hisNumber, hget, it', hadvance, hit'⟩ := hfollows.uint _ _ _ _ _ h
  have hzero : cbor.getUint64 it = 0 := UInt64.toNat_inj.mp hget
  refine ⟨it', ?_, hit'⟩
  simp [eidParseDtn, hisNumber, hzero, hadvance]

theorem eidParseDtn_of_text {ssp : List UInt8} (hfollows : cbor.Follows Stands)
    (h : Stands buffer it ((.text ssp :: rest) :: outer)) :
    ∃ it', eidParseDtn cbor it = some (cString (dtnPrefix ++ ssp), it') ∧
      Stands buffer it' (rest :: outer) := by
  obtain ⟨hnumber, htext, hlength, hremaining, it', hcopy, hit'⟩ := hfollows.text _ _ _ _ _ h
  refine ⟨it', ?_, hit'⟩
  simp [eidParseDtn, hnumber, htext, hlength, hremaining, hcopy]

/-- What is read of the item of an EID. -/
theorem bundle7EidParseCbor_of_stands {item : Item} (hfollows : cbor.Follows Stands)
    (hitem : eidItem eid = some item) (h : Stands buffer it ((item :: rest) :: outer)) :
    ∃ it', bundle7EidParseCbor cbor it = some (eidRead eid, it') ∧
      Stands buffer it' (rest :: outer) := by
  -- The scheme and what is read of the SSP.
  have hpair : ∀ {scheme : Nat} {ssp : Item},
      Stands buffer it ((.array true [.uint scheme, ssp] :: rest) :: outer) →
      (∀ next, Stands buffer next ([ssp] :: rest :: outer) →
        ∃ last, eidParseSsp cbor (.ofNat scheme) next = some (eidRead eid, last) ∧
          Stands buffer last ([] :: rest :: outer)) →
      ∃ it', bundle7EidParseCbor cbor it = some (eidRead eid, it') ∧
        Stands buffer it' (rest :: outer) := by
    intro scheme ssp h hssp
    obtain ⟨harray, hknown, hlength, inner, henter, hscheme⟩ :=
      hfollows.array _ _ _ _ _ _ h (by simp)
    obtain ⟨hisScheme, hgetScheme, next, hnext, hstands⟩ := hfollows.uint _ _ _ _ _ hscheme
    obtain ⟨last, hread, hend⟩ := hssp next hstands
    obtain ⟨it', hleave, hit'⟩ := hfollows.leave _ _ _ _ _ _ _ h hend
    have hatEnd : cbor.atEnd last = true := hfollows.atEnd _ _ _ _ hend
    have hschemeIs : cbor.getUint64 inner = .ofNat scheme := by
      rw [← hgetScheme, UInt64.ofNat_toNat]
    rw [← hschemeIs] at hread
    have htwo : cbor.getArrayLength it = some 2 := hlength rfl
    refine ⟨it', ?_, hit'⟩
    simp [bundle7EidParseCbor, harray, hknown, htwo, henter, hisScheme, hnext, hread, hatEnd,
      hleave]
  unfold eidItem at hitem
  split_ifs at hitem with hnone hdtn hipn
  · obtain rfl := Option.some.inj hitem
    have hread : eidRead eid = dtnNone := by
      rw [hnone]
      decide
    exact hpair h fun next hnext => hread ▸ eidParseDtn_of_none hfollows hnext
  · obtain rfl := Option.some.inj hitem
    have hread : eidRead eid = cString (dtnPrefix ++ eid.drop 4) := by
      obtain ⟨ssp, rfl⟩ := hdtn
      rw [eidRead, if_pos (List.prefix_append _ _)]
      rfl
    exact hpair h fun next hnext => hread ▸ eidParseDtn_of_text hfollows hnext
  · obtain ⟨numbers, hscan, rfl⟩ := Option.map_eq_some_iff.mp hitem
    have hread : eidRead eid = ipnText numbers.1 numbers.2 := by
      rw [eidRead, if_neg hdtn, hscan]
    exact hpair h fun next hnext => hread ▸ eidParseIpn_of_stands hfollows hnext

/-- An EID that survives is the one that is read. -/
theorem Survives.eidRead_eq (hcbor : cbor.FollowsEncoding) (h : Survives cbor eid)
    (hlength : eid.length < 2 ^ 64) : eidRead eid = eid := by
  obtain ⟨Stands, hfollows⟩ := hcbor
  obtain ⟨bytes, hbytes, hparse⟩ := h
  obtain ⟨item, hitem, hencodes⟩ := eidSerializeCbor_encodes hbytes hlength
  obtain ⟨it, hinit, hit⟩ := hfollows.init _ _ hencodes
  obtain ⟨it', hread, -⟩ := bundle7EidParseCbor_of_stands hfollows hitem hit
  rw [bundle7EidParse, hinit] at hparse
  simpa [hread] using hparse

/-! ## The size of an EID -/

theorem length_decimal_pos (number : Nat) : 0 < (decimal number).length := by
  unfold decimal
  split <;> simp

@[simp] theorem decimalDigits_zero : decimalDigits 0 = 0 := by
  rw [decimalDigits, if_pos rfl]

theorem decimalDigits_le_length_decimal (number : Nat) :
    decimalDigits number ≤ (decimal number).length := by
  induction number using decimalDigits.induct with
  | case1 => rw [decimalDigits_zero]; exact Nat.zero_le _
  | case2 number hne ih =>
    rw [decimalDigits, if_neg hne, decimal]
    split
    · rename_i hsmall
      rw [Nat.div_eq_of_lt hsmall, decimalDigits_zero]
      exact Nat.le_refl _
    · rw [List.length_append, List.length_singleton]
      omega

/-- A number below 10 ^ k is a number of at most `k` digits, and no smaller one has `k`. -/
theorem pow_lt_of_decimalDigits {digits number : Nat} (h : 10 ^ digits ≤ number) :
    digits < decimalDigits number := by
  induction digits generalizing number with
  | zero =>
    rw [decimalDigits, if_neg (by omega)]
    exact Nat.succ_pos _
  | succ digits ih =>
    have hpos : 0 < 10 ^ (digits + 1) := Nat.pow_pos (by decide)
    have hdiv : 10 ^ digits ≤ number / 10 := by
      rw [Nat.le_div_iff_mul_le (by decide), ← Nat.pow_succ]
      exact h
    rw [decimalDigits, if_neg (by omega)]
    have := ih hdiv
    omega

/-- The encoding of a 32-bit number is hardly longer than its digits. -/
theorem headSize_le_decimalDigits {number : Nat} (h : number < 2 ^ 32) :
    headSize number ≤ decimalDigits number + 1 := by
  have hone := @pow_lt_of_decimalDigits 0 number
  have htwo := @pow_lt_of_decimalDigits 1 number
  have hthree := @pow_lt_of_decimalDigits 2 number
  have hfive := @pow_lt_of_decimalDigits 4 number
  unfold headSize
  split_ifs <;> omega

theorem headSize_mono {m n : Nat} (h : m ≤ n) : headSize m ≤ headSize n := by
  unfold headSize
  split_ifs <;> omega

/-- The bound is one for the EIDs that are read as they were. -/
theorem length_le_of_survives (hcbor : cbor.FollowsEncoding) (h : Survives cbor eid)
    (hlength : eid.length < 2 ^ 64) (hbytes : eidSerializeCbor eid = some bytes) :
    bytes.length ≤ eidMaxSerializedSize eid := by
  have hread := h.eidRead_eq hcbor hlength
  have htwo : headSize 2 = 1 := rfl
  have hone : headSize 1 = 1 := rfl
  rw [eidMaxSerializedSize, cborUintSizeof_eq]
  unfold eidSerializeCbor at hbytes
  split_ifs at hbytes with hnone hdtn hipn
  · obtain rfl := Option.some.inj hbytes
    rw [hnone]
    decide
  · obtain rfl := Option.some.inj hbytes
    have hprefix : 4 ≤ eid.length := hdtn.length_le
    have hhead := headSize_mono (Nat.sub_le eid.length 4)
    rw [serializeDtn]
    simp only [List.length_append, length_array, length_uint, length_textString,
      List.length_drop]
    omega
  · obtain ⟨⟨node, service⟩, hscan, rfl⟩ := Option.map_eq_some_iff.mp hbytes
    obtain ⟨hnode, hservice⟩ := scanIpn_lt hscan
    have htext : ipnText node service = eid := by
      rw [← hread, eidRead, if_neg hdtn, hscan]
    -- All digits that there is memory for are written.
    have hdigits : 5 + decimalDigits node + decimalDigits service ≤ eid.length := by
      have hnodeDigits := decimalDigits_le_length_decimal node
      have hserviceDigits := decimalDigits_le_length_decimal service
      have hipn : ipnPrefix.length = 4 := rfl
      rw [← htext, ipnText, Nat.mod_eq_of_lt hnode, Nat.mod_eq_of_lt hservice,
        List.length_take]
      simp only [List.length_append, List.length_singleton, hipn]
      omega
    have hnodeHead := headSize_le_decimalDigits hnode
    have hserviceHead := headSize_le_decimalDigits hservice
    have hpos := headSize_pos eid.length
    simp only [List.length_append, length_array, length_uint]
    omega

end Upcn.Bundle7
