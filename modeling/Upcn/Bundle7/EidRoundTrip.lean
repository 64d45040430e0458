import Mathlib.Data.List.TakeWhile
import Upcn.Bundle7.EidParser

/-!
# The round trip of EIDs

Which EIDs are read as they were written, and which encodings are read into an EID that is
written and read again.

`eid_parse_ipn` counts the digits of the two numbers in 32 bits, and none for zero;
`serialize_ipn` reads 32-bit numbers.
-/

namespace Upcn.Bundle7

open Cbor

/-! ## Decimal numbers -/

/-- The number that a list of digits stands for. -/
def digitsValue (digits : List UInt8) : Nat :=
  digits.foldl (fun value digit => value * 10 + (digit.toNat - 48)) 0

theorem toNat_digit {k : Nat} (h : k < 10) : (UInt8.ofNat (48 + k)).toNat = 48 + k := by
  rw [UInt8.toNat_ofNat']
  exact Nat.mod_eq_of_lt (by omega)

theorem digitsValue_decimal (number : Nat) : digitsValue (decimal number) = number := by
  induction number using decimal.induct with
  | case1 number h =>
    rw [decimal, if_pos h, digitsValue, List.foldl_cons, List.foldl_nil, toNat_digit h]
    omega
  | case2 number h ih =>
    have hdigit : number % 10 < 10 := Nat.mod_lt _ (by decide)
    rw [decimal, if_neg h, digitsValue, List.foldl_append, ← digitsValue, ih, List.foldl_cons,
      List.foldl_nil, toNat_digit hdigit]
    omega

theorem decimal_injective {m n : Nat} (h : decimal m = decimal n) : m = n := by
  rw [← digitsValue_decimal m, h, digitsValue_decimal]

theorem mem_decimal {number : Nat} {c : UInt8} (h : c ∈ decimal number) : 48 ≤ c ∧ c ≤ 57 := by
  have hdigit : ∀ {k : Nat}, k < 10 → 48 ≤ UInt8.ofNat (48 + k) ∧ UInt8.ofNat (48 + k) ≤ 57 := by
    intro k hk
    rw [UInt8.le_iff_toNat_le, UInt8.le_iff_toNat_le, toNat_digit hk]
    exact ⟨Nat.le_add_right 48 k, show 48 + k ≤ 57 by omega⟩
  induction number using decimal.induct with
  | case1 number hsmall =>
    rw [decimal, if_pos hsmall, List.mem_singleton] at h
    exact h ▸ hdigit hsmall
  | case2 number hsmall ih =>
    rw [decimal, if_neg hsmall, List.mem_append, List.mem_singleton] at h
    rcases h with h | rfl
    · exact ih h
    · exact hdigit (Nat.mod_lt _ (by decide))

/-- A number other than zero has as many digits as are counted. -/
theorem length_decimal {number : Nat} (h : 0 < number) :
    (decimal number).length = decimalDigits number := by
  induction number using decimal.induct with
  | case1 number hsmall =>
    rw [decimal, if_pos hsmall, decimalDigits, if_neg (by omega), Nat.div_eq_of_lt hsmall,
      decimalDigits_zero]
    rfl
  | case2 number hsmall ih =>
    rw [decimal, if_neg hsmall, decimalDigits, if_neg (by omega), List.length_append,
      List.length_singleton, ih (by omega)]

theorem length_decimal_mono {m n : Nat} (h : m ≤ n) :
    (decimal m).length ≤ (decimal n).length := by
  induction n using decimal.induct generalizing m with
  | case1 n hsmall =>
    rw [decimal, if_pos (by omega), decimal, if_pos hsmall]
    exact Nat.le_refl 1
  | case2 n hsmall ih =>
    rw [decimal.eq_1 n, if_neg hsmall, List.length_append, List.length_singleton]
    by_cases hm : m < 10
    · rw [decimal, if_pos hm]
      exact Nat.le_add_left 1 _
    · rw [decimal, if_neg hm, List.length_append, List.length_singleton]
      have := ih (m := m / 10) (by omega)
      omega

/-- `%u` reads a decimal number up to what is no digit. -/
theorem scanUnsigned_decimal {number : Nat} {rest : List UInt8} (hnumber : number < 2 ^ 64)
    (hrest : ∀ c ∈ rest.head?, ¬ (48 ≤ c ∧ c ≤ 57)) :
    scanUnsigned (decimal number ++ rest) = some (number % 2 ^ 32, rest) := by
  obtain ⟨digit, digits, hdecimal⟩ :=
    List.exists_cons_of_length_pos (length_decimal_pos number)
  have hdigit : 48 ≤ digit ∧ digit ≤ 57 := mem_decimal (hdecimal ▸ List.mem_cons_self)
  have hspace : ¬ (digit = 32 ∨ (9 ≤ digit ∧ digit ≤ 13)) := by
    grind
  have hsign : ¬ (digit = 45 ∨ digit = 43) := by
    grind
  have htake : (decimal number ++ rest).takeWhile (fun c => 48 ≤ c ∧ c ≤ 57) =
      decimal number := by
    rw [List.takeWhile_append_of_pos fun c hc => by simpa using mem_decimal hc]
    cases rest with
    | nil => simp
    | cons c rest =>
      rw [List.takeWhile_cons_of_neg (by simpa using hrest c rfl), List.append_nil]
  have hdrop : (decimal number ++ rest).dropWhile (fun c => c = 32 ∨ (9 ≤ c ∧ c ≤ 13)) =
      decimal number ++ rest := by
    rw [hdecimal, List.cons_append, List.dropWhile_cons_of_neg (by simpa using hspace)]
  have hhead : (decimal number ++ rest).head? = some digit := by
    rw [hdecimal]
    rfl
  have hnil : decimal number ≠ [] := by
    rw [hdecimal]
    exact List.cons_ne_nil _ _
  have hvalue : unsignedOfDigits false (decimal number) = number % 2 ^ 32 := by
    have hdigits := digitsValue_decimal number
    rw [digitsValue] at hdigits
    simp only [unsignedOfDigits, hdigits, if_neg (Nat.not_le.mpr hnumber), Bool.false_eq_true,
      if_false]
  have hnegative : (some digit = some (45 : UInt8)) = False := eq_false fun h =>
    hsign (.inl (Option.some.inj h))
  have hpositive : (some digit = some (43 : UInt8)) = False := eq_false fun h =>
    hsign (.inr (Option.some.inj h))
  simp only [scanUnsigned, hdrop, hhead, hnegative, hpositive, or_self, if_false, htake, hnil,
    decide_false, hvalue, List.drop_left]

/-! ## The text of an EID -/

/-- The EIDs that BPv7 has. -/
inductive EidForm where
  | dtnNone
  | dtn (ssp : List UInt8)
  | ipn (node service : Nat)

namespace EidForm

/-- The whole text. -/
def text : EidForm → List UInt8
  | dtnNone => Bundle7.dtnNone
  | dtn ssp => dtnPrefix ++ ssp
  | ipn node service => ipnPrefix ++ decimal node ++ [46] ++ decimal service

/-- The SSP is a string, and the numbers are numbers of CBOR. -/
def Valid : EidForm → Prop
  | dtnNone => True
  | dtn ssp => 0 ∉ ssp ∧ ssp.length + 4 < 2 ^ 64
  | ipn node service => node < 2 ^ 64 ∧ service < 2 ^ 64

/-- The numbers are 32-bit numbers, and neither is zero. -/
def Small : EidForm → Prop
  | ipn node service => (0 < node ∧ node < 2 ^ 32) ∧ 0 < service ∧ service < 2 ^ 32
  | _ => True

end EidForm

theorem scanIpn_text {node service : Nat} (hnode : node < 2 ^ 64) (hservice : service < 2 ^ 64) :
    scanIpn (EidForm.ipn node service).text = some (node % 2 ^ 32, service % 2 ^ 32) := by
  have hprefix : ipnPrefix <+: (EidForm.ipn node service).text :=
    ⟨decimal node ++ [46] ++ decimal service, by simp [EidForm.text]⟩
  have hdrop : (EidForm.ipn node service).text.drop 4 = decimal node ++ 46 :: decimal service := by
    simp [EidForm.text, ipnPrefix]
  have hfirst : scanUnsigned (decimal node ++ 46 :: decimal service) =
      some (node % 2 ^ 32, 46 :: decimal service) :=
    scanUnsigned_decimal hnode fun c hc => by
      obtain rfl := Option.some.inj hc
      decide
  have hsecond : scanUnsigned (decimal service ++ []) = some (service % 2 ^ 32, []) :=
    scanUnsigned_decimal hservice fun _ hc => nomatch hc
  rw [List.append_nil] at hsecond
  rw [scanIpn, if_pos hprefix, hdrop, hfirst]
  simp only [hsecond, Option.map_some]

/-- The memory that `eid_parse_ipn` allocates is enough for numbers of these kinds only. -/
theorem ipnText_eq_iff (node service : Nat) :
    ipnText node service = (EidForm.ipn node service).text ↔
      decimalDigits (node % 2 ^ 32) + decimalDigits (service % 2 ^ 32) ≥
        (decimal node).length + (decimal service).length := by
  have hlength : (EidForm.ipn node service).text.length =
      5 + (decimal node).length + (decimal service).length := by
    simp [EidForm.text, ipnPrefix]
    omega
  have htake : ipnText node service = (EidForm.ipn node service).text.take
      (4 + decimalDigits (node % 2 ^ 32) + 1 + decimalDigits (service % 2 ^ 32)) := rfl
  rw [htake]
  constructor
  · intro h
    have hle := congrArg List.length h
    rw [List.length_take, hlength] at hle
    omega
  · intro h
    exact List.take_of_length_le (by omega)

/-- The digits of the 32-bit number are never more than those of the number. -/
theorem decimalDigits_mod_le (number : Nat) :
    decimalDigits (number % 2 ^ 32) ≤ (decimal number).length :=
  Nat.le_trans (decimalDigits_le_length_decimal _) (length_decimal_mono (Nat.mod_le _ _))

theorem ipnText_of_small {node service : Nat} (h : (EidForm.ipn node service).Small) :
    ipnText node service = (EidForm.ipn node service).text := by
  obtain ⟨⟨hnode, hnodeLt⟩, hservice, hserviceLt⟩ := h
  rw [ipnText_eq_iff, Nat.mod_eq_of_lt hnodeLt, Nat.mod_eq_of_lt hserviceLt,
    length_decimal hnode, length_decimal hservice]

/-- What is read of the 32-bit numbers is the text only for numbers of these kinds. -/
theorem small_of_ipnText {node service : Nat}
    (h : ipnText (node % 2 ^ 32) (service % 2 ^ 32) = (EidForm.ipn node service).text) :
    (EidForm.ipn node service).Small := by
  have hnode := decimalDigits_mod_le node
  have hservice := decimalDigits_mod_le service
  have hlength := congrArg List.length h
  have hprefix : ipnPrefix.length = 4 := rfl
  rw [ipnText, Nat.mod_mod, Nat.mod_mod, List.length_take] at hlength
  simp only [EidForm.text, List.length_append, List.length_singleton, hprefix] at hlength
  have hnode' := length_decimal_mono (Nat.mod_le node (2 ^ 32))
  have hservice' := length_decimal_mono (Nat.mod_le service (2 ^ 32))
  have hfull : ipnText (node % 2 ^ 32) (service % 2 ^ 32) =
      (EidForm.ipn (node % 2 ^ 32) (service % 2 ^ 32)).text := by
    rw [ipnText_eq_iff, Nat.mod_mod, Nat.mod_mod]
    omega
  have hwhole := hfull.symm.trans h
  simp only [EidForm.text, List.append_assoc] at hwhole
  obtain ⟨hnodeText, hrest⟩ := List.append_inj (List.append_cancel_left hwhole) (by omega)
  have hnodeEq := decimal_injective hnodeText
  have hserviceEq := decimal_injective (List.append_cancel_left hrest)
  have hnodePos := length_decimal_pos node
  have hservicePos := length_decimal_pos service
  have hzero := decimalDigits_zero
  have hpos : 0 < node ∧ 0 < service := by
    constructor
    · by_contra hnot
      obtain rfl : node = 0 := by omega
      rw [Nat.zero_mod, hzero] at hlength
      omega
    · by_contra hnot
      obtain rfl : service = 0 := by omega
      rw [Nat.zero_mod, hzero] at hlength
      omega
  exact ⟨⟨hpos.1, by omega⟩, hpos.2, by omega⟩

/-! ## The EIDs that survive -/

variable {cbor : PullParser}

/-- What is read of what is written. -/
theorem survives_iff_eidRead (hcbor : cbor.FollowsEncoding) {eid bytes : List UInt8}
    (hlength : eid.length < 2 ^ 64) (hbytes : eidSerializeCbor eid = some bytes) :
    Survives cbor eid ↔ eidRead eid = eid := by
  refine ⟨fun h => h.eidRead_eq hcbor hlength, fun h => ?_⟩
  obtain ⟨Stands, hfollows⟩ := hcbor
  obtain ⟨item, hitem, hencodes⟩ := eidSerializeCbor_encodes hbytes hlength
  obtain ⟨it, hinit, hit⟩ := hfollows.init _ _ hencodes
  obtain ⟨it', hread, -⟩ := bundle7EidParseCbor_of_stands hfollows hitem hit
  refine ⟨bytes, hbytes, ?_⟩
  rw [bundle7EidParse, hinit]
  simp [hread, h]

theorem cString_eq_self {bytes : List UInt8} (h : 0 ∉ bytes) : cString bytes = bytes :=
  List.takeWhile_eq_self_iff.mpr fun c hc => by
    have hne : c ≠ 0 := fun hzero => h (hzero ▸ hc)
    simpa using hne

/-- An EID of the scheme `dtn` survives. -/
theorem survives_dtn (hcbor : cbor.FollowsEncoding) {eid : List UInt8} (hdtn : dtnPrefix <+: eid)
    (hzero : 0 ∉ eid) (hlength : eid.length < 2 ^ 64) : Survives cbor eid := by
  have hbytes : ∃ bytes, eidSerializeCbor eid = some bytes := by
    by_cases hnone : eid = dtnNone
    · exact ⟨_, if_pos hnone⟩
    · exact ⟨serializeDtn eid, by rw [eidSerializeCbor, if_neg hnone, if_pos hdtn]⟩
  obtain ⟨bytes, hbytes⟩ := hbytes
  rw [survives_iff_eidRead hcbor hlength hbytes, eidRead, if_pos hdtn]
  exact cString_eq_self hzero

theorem survives_ipn_iff (hcbor : cbor.FollowsEncoding) {node service : Nat}
    (hnode : node < 2 ^ 64) (hservice : service < 2 ^ 64) :
    Survives cbor (EidForm.ipn node service).text ↔ (EidForm.ipn node service).Small := by
  have hdtn : ¬ dtnPrefix <+: (EidForm.ipn node service).text := by
    rintro ⟨rest, hrest⟩
    have hhead := congrArg List.head? hrest
    simp [dtnPrefix, EidForm.text, ipnPrefix] at hhead
  have hnone : (EidForm.ipn node service).text ≠ dtnNone := fun h =>
    hdtn (h ▸ (by decide : dtnPrefix <+: dtnNone))
  have hdigits : ∀ {number : Nat}, number < 2 ^ 64 → (decimal number).length ≤ 20 := by
    intro number hnumber
    have hmax : (decimal (2 ^ 64 - 1)).length = 20 := by
      simp [decimal]
    exact hmax ▸ length_decimal_mono (by omega)
  have hlength : (EidForm.ipn node service).text.length =
      5 + (decimal node).length + (decimal service).length := by
    simp [EidForm.text, ipnPrefix]
    omega
  have hnodeDigits := hdigits hnode
  have hserviceDigits := hdigits hservice
  have hipn : 4 < (EidForm.ipn node service).text.length ∧
      ipnPrefix <+: (EidForm.ipn node service).text :=
    ⟨by omega, ⟨decimal node ++ [46] ++ decimal service, by simp [EidForm.text]⟩⟩
  have hscan := scanIpn_text hnode hservice
  have hbytes : ∃ bytes, eidSerializeCbor (EidForm.ipn node service).text = some bytes := by
    rw [eidSerializeCbor, if_neg hnone, if_neg hdtn, if_pos hipn, serializeIpn, hscan]
    exact ⟨_, rfl⟩
  obtain ⟨bytes, hbytes⟩ := hbytes
  rw [survives_iff_eidRead hcbor (by omega) hbytes, eidRead, if_neg hdtn, hscan]
  constructor
  · exact small_of_ipnText
  · intro hsmall
    dsimp only
    rw [Nat.mod_eq_of_lt hsmall.1.2, Nat.mod_eq_of_lt hsmall.2.2]
    exact ipnText_of_small hsmall

theorem survives_iff (hcbor : cbor.FollowsEncoding) {form : EidForm} (hvalid : form.Valid) :
    Survives cbor form.text ↔ form.Small := by
  cases form with
  | dtnNone =>
    exact iff_of_true (survives_dtn hcbor (by decide) (by decide) (by decide)) trivial
  | dtn ssp =>
    refine iff_of_true (survives_dtn hcbor (List.prefix_append _ _) ?_ ?_) trivial
    · intro hzero
      rcases List.mem_append.mp hzero with hzero | hzero
      · exact absurd hzero (by decide)
      · exact hvalid.1 hzero
    · have hlength := hvalid.2
      simp only [EidForm.text, dtnPrefix, List.length_append, List.length_cons, List.length_nil]
      omega
  | ipn node service => exact survives_ipn_iff hcbor hvalid.1 hvalid.2

/-! ## The encodings that are accepted -/

variable (cbor) in
/-- The two numbers that `eid_parse_ipn` reads from an encoding of the scheme `ipn`. -/
def encodedNumbers (it : cbor.Value) : Option (Nat × Nat) := do
  let recursed := (cbor.enterContainer it).2
  guard (cbor.getUint64 recursed = 2)
  let recursed ← cbor.advanceFixed recursed
  let recursed := (cbor.enterContainer recursed).2
  let node := cbor.getUint64 recursed
  let recursed ← cbor.advanceFixed recursed
  return (node.toNat, (cbor.getUint64 recursed).toNat)

theorem eidParseDtn_text {it it' : cbor.Value} {eid : List UInt8}
    (h : eidParseDtn cbor it = some (eid, it')) : dtnPrefix <+: eid ∧ 0 ∉ eid := by
  unfold eidParseDtn at h
  split_ifs at h with hnumber hzero htext
  · obtain ⟨rfl, -⟩ := Prod.mk.inj (Option.some.inj h)
    decide
  · simp only [Option.bind_eq_bind, Option.bind_eq_some_iff] at h
    obtain ⟨length, -, -, -, ⟨ssp, next⟩, -, heq⟩ := h
    obtain ⟨rfl, -⟩ := Prod.mk.inj (Option.some.inj heq)
    constructor
    · refine ⟨cString ssp, ?_⟩
      have hprefix : ∀ a ∈ dtnPrefix, decide (a ≠ 0) = true := by simp [dtnPrefix]
      rw [cString, cString, List.takeWhile_append_of_pos hprefix]
    · intro hzero
      simpa using List.mem_takeWhile_imp hzero

/-- What is read from an encoding. -/
theorem bundle7EidParseCbor_cases {it it' : cbor.Value} {eid : List UInt8}
    (h : bundle7EidParseCbor cbor it = some (eid, it')) :
    (encodedNumbers cbor it = none ∧ dtnPrefix <+: eid ∧ 0 ∉ eid) ∨
      ∃ node service : UInt64, encodedNumbers cbor it = some (node.toNat, service.toNat) ∧
        eid = ipnText node.toNat service.toNat := by
  simp only [bundle7EidParseCbor, Option.bind_eq_bind, Option.bind_eq_some_iff] at h
  obtain ⟨-, -, _, -, -, -, -, -, -, -, recursed, hadvance, ⟨eid', last⟩, hssp, -, -, _, -,
    heq⟩ := h
  obtain ⟨rfl, -⟩ := Prod.mk.inj (Option.some.inj heq)
  unfold eidParseSsp at hssp
  split_ifs at hssp with hdtn hipn
  · refine .inl ⟨?_, eidParseDtn_text hssp⟩
    simp [encodedNumbers, hdtn]
  · right
    simp only [eidParseIpn, Option.bind_eq_bind, Option.bind_eq_some_iff] at hssp
    obtain ⟨-, -, -, -, -, -, next, hnext, -, -, _, -, -, -, _, -, heq⟩ := hssp
    obtain ⟨rfl, -⟩ := Prod.mk.inj (Option.some.inj heq)
    refine ⟨_, _, ?_, rfl⟩
    simp [encodedNumbers, hipn, hadvance, hnext]

/-- The EID that is read from an encoding is not cut off, and it is read again from what is
written of it. -/
def ReadsWhole (cbor : PullParser) (it : cbor.Value) (eid : List UInt8) : Prop :=
  Survives cbor eid ∧ ∀ node service, encodedNumbers cbor it = some (node, service) →
    eid = (EidForm.ipn node service).text

theorem readsWhole_iff (hcbor : cbor.FollowsEncoding) {it it' : cbor.Value} {eid : List UInt8}
    (h : bundle7EidParseCbor cbor it = some (eid, it')) (hlength : eid.length < 2 ^ 64) :
    ReadsWhole cbor it eid ↔ ∀ node service, encodedNumbers cbor it = some (node, service) →
      (EidForm.ipn node service).Small := by
  rcases bundle7EidParseCbor_cases h with ⟨hnone, hdtn, hzero⟩ | ⟨node, service, hsome, rfl⟩
  · refine iff_of_true ⟨survives_dtn hcbor hdtn hzero hlength, fun _ _ hsome => ?_⟩
      fun _ _ hsome => ?_
    · rw [hnone] at hsome
      cases hsome
    · rw [hnone] at hsome
      cases hsome
  · have hsurvives := survives_ipn_iff hcbor node.toNat_lt service.toNat_lt
    constructor
    · rintro ⟨hread, hwhole⟩ node' service' hsome'
      obtain ⟨rfl, rfl⟩ := Prod.mk.inj (Option.some.inj (hsome.symm.trans hsome'))
      exact hsurvives.mp (hwhole _ _ hsome ▸ hread)
    · intro hsmall
      have hnumbers := hsmall _ _ hsome
      have htext := ipnText_of_small hnumbers
      refine ⟨htext.symm ▸ hsurvives.mpr hnumbers, fun node' service' hsome' => ?_⟩
      obtain ⟨rfl, rfl⟩ := Prod.mk.inj (Option.some.inj (hsome.symm.trans hsome'))
      exact htext

/-- The EIDs and the encodings that make the round trip. -/
theorem eid_roundTrip_iff (cbor : PullParser) (hcbor : cbor.FollowsEncoding) :
    (∀ form : EidForm, form.Valid → (Survives cbor form.text ↔ form.Small)) ∧
      ∀ it it' eid, bundle7EidParseCbor cbor it = some (eid, it') → eid.length < 2 ^ 64 →
        (ReadsWhole cbor it eid ↔ ∀ node service,
          encodedNumbers cbor it = some (node, service) → (EidForm.ipn node service).Small) :=
  ⟨fun _ hvalid => survives_iff hcbor hvalid, fun _ _ _ h hlength => readsWhole_iff hcbor h hlength⟩

/-- A service number without digits. -/
theorem not_survives_ipn_zero :
    (EidForm.ipn 0 5).Valid ∧ ¬ Survives itemParser (EidForm.ipn 0 5).text :=
  ⟨⟨by decide, by decide⟩, fun h => absurd
    ((survives_ipn_iff itemParser_follows (by decide) (by decide)).mp h).1.1 (by decide)⟩

theorem eid_roundTrip_iff_one : Survives itemParser (EidForm.ipn 1 2).text :=
  ((eid_roundTrip_iff itemParser itemParser_follows).1 (.ipn 1 2) ⟨by decide, by decide⟩).mpr
    ⟨⟨by decide, by decide⟩, by decide, by decide⟩

end Upcn.Bundle7
