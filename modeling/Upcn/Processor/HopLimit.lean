import Upcn.Lib.CborItems
import Upcn.Processor.Settlement

/-!
# The hop limit

`hopcount.c` reads the hop limit and the hop count as 64-bit numbers and keeps 16 bits of
each.

* `bundle7HopCountParse` and `bundle7HopCountSerialize` are its two functions, over a CBOR
  decoder.
* `hopCountValidation_eq` says what `hop_count_validation` does with the 16 bits.
* `countsHops_iff` says for which numbers that is what it should do with the numbers.
-/

namespace Upcn

open Cbor Outcome

/-- `BUNDLE7_HOP_COUNT_MAX_ENCODED_SIZE`. -/
def hopCountMaxEncodedSize : Nat := 7

/-- `bundle7_hop_count_parse`. -/
def bundle7HopCountParse (cbor : PullParser) (buffer : List UInt8) : Option HopCount :=
  match cbor.init buffer with
  | none => none
  | some it =>
    if cbor.isArray it then
      let it := (cbor.enterContainer it).2
      if cbor.isUnsignedInteger it then
        let limit := (cbor.getUint64 it).toUInt16
        match cbor.advanceFixed it with
        | none => none
        | some it =>
          if cbor.isUnsignedInteger it then some ⟨limit, (cbor.getUint64 it).toUInt16⟩
          else none
      else none
    else none

/-- `bundle7_hop_count_serialize`: what it writes into a buffer of this length. -/
def bundle7HopCountSerialize (hopCount : HopCount) (length : Nat) : List UInt8 :=
  if length < hopCountMaxEncodedSize then []
  else array 2 ++ (uint hopCount.limit.toNat ++ uint hopCount.count.toNat)

/-- The surroundings with these two functions. -/
def Env.withHopCounts (env : Env) (cbor : PullParser) : Env :=
  { env with
    hopCountParse := bundle7HopCountParse cbor
    hopCountSerialize := fun hopCount => bundle7HopCountSerialize hopCount hopCountMaxEncodedSize }

/-- The data is an encoding of the array of the two numbers, of definite or indefinite
length. -/
def EncodesHopCount (limit count : Nat) (data : List UInt8) : Prop :=
  ∃ definite, Encodes (.array definite [.uint limit, .uint count]) data

section

variable {limit count : Nat} {data : List UInt8}

/-- Of each number 16 bits are kept. -/
theorem hopCountParse_of_encodes {cbor : PullParser} (hcbor : cbor.FollowsEncoding)
    (h : EncodesHopCount limit count data) :
    bundle7HopCountParse cbor data = some ⟨.ofNat limit, .ofNat count⟩ := by
  obtain ⟨Stands, hfollows⟩ := hcbor
  have hcut : ∀ (n : UInt64) (m : Nat), n.toNat = m → n.toUInt16 = .ofNat m := by
    rintro n _ rfl
    rfl
  obtain ⟨definite, h⟩ := h
  obtain ⟨it, hinit, hit⟩ := hfollows.init _ _ h
  obtain ⟨harray, -, -, inner, henter, hlimit⟩ := hfollows.array _ it _ _ _ _ hit (by simp)
  obtain ⟨hisLimit, hgetLimit, next, hadvance, hcount⟩ := hfollows.uint _ _ _ _ _ hlimit
  obtain ⟨hisCount, hgetCount, -⟩ := hfollows.uint _ _ _ _ _ hcount
  simp only [bundle7HopCountParse, hinit, harray, henter, hisLimit, hadvance, hisCount, if_true,
    hcut _ _ hgetLimit, hcut _ _ hgetCount]

theorem hopCountSerialize_encodes (hopCount : HopCount) :
    EncodesHopCount hopCount.limit.toNat hopCount.count.toNat
      (bundle7HopCountSerialize hopCount hopCountMaxEncodedSize) := by
  have hlimit := hopCount.limit.toNat_lt
  have hcount := hopCount.count.toNat_lt
  exact ⟨true, encodes_pair (encodes_uint (by omega)) (encodes_uint (by omega))⟩

/-- The buffer is large enough. -/
theorem length_hopCountSerialize (hopCount : HopCount) :
    (bundle7HopCountSerialize hopCount hopCountMaxEncodedSize).length ≤
      hopCountMaxEncodedSize := by
  have hsize : ∀ n : UInt16, headSize n.toNat ≤ 3 := by
    intro n
    have := n.toNat_lt
    unfold headSize
    split_ifs <;> omega
  have hlimit := hsize hopCount.limit
  have hcount := hsize hopCount.count
  have harray : headSize 2 = 1 := rfl
  rw [bundle7HopCountSerialize, if_neg (by decide), List.length_append, List.length_append,
    length_array, length_uint, length_uint, hopCountMaxEncodedSize]
  omega

end

namespace BundleProcessor

/-! ## The block that is counted -/

section

variable {front back : List BlockEntry} {block : Block} {type : Nat}

/-- The first block of the type is found. -/
theorem findBlockByType_first (hfront : findBlockByType type front = none)
    (htype : block.type = type) :
    findBlockByType type (front ++ .extension block :: back) = some block := by
  induction front with
  | nil => exact if_pos htype
  | cons entry rest ih =>
    cases entry with
    | payload => exact ih hfront
    | extension other =>
      rw [findBlockByType] at hfront
      rw [List.cons_append, findBlockByType]
      split at hfront
      · cases hfront
      · rename_i hother
        rw [if_neg hother]
        exact ih hfront

/-- The data of no other block is replaced. -/
theorem replaceBlockData_first (hfront : findBlockByType type front = none)
    (htype : block.type = type) (data : List UInt8) :
    replaceBlockData type data (front ++ .extension block :: back) =
      front ++ .extension { block with data := data } :: back := by
  induction front with
  | nil => exact if_pos htype
  | cons entry rest ih =>
    cases entry with
    | payload => exact congrArg _ (ih hfront)
    | extension other =>
      rw [findBlockByType] at hfront
      rw [List.cons_append, replaceBlockData]
      split at hfront
      · cases hfront
      · rename_i hother
        rw [if_neg hother]
        exact congrArg _ (ih hfront)

end

variable (env : Env) (o : Inputs)
  (forward : BundleProcessor → Addr → Except Fault BundleProcessor)

/-- What `hop_count_validation` should do with the bundle `b` at `a`, whose first hop count
block is `block` behind `front`: let it pass if and only if the limit is not reached,
replace the data of that block alone, and delete the bundle otherwise. -/
structure CountsHops (p : BundleProcessor) (a : Addr) (b : Bundle)
    (front : List BlockEntry) (block : Block) (back : List BlockEntry) (limit count : Nat) :
    Prop where
  passes_iff : (∃ q, p.hopCountValidationWith env o forward a = .ok (true, q)) ↔ count < limit
  counted : ∀ q, p.hopCountValidationWith env o forward a = .ok (true, q) →
    o.hopCountMem = true → ∃ data,
      q = p.setCell a
        (.live { b with blocks := front ++ .extension { block with data := data } :: back }) ∧
      data.length ≤ hopCountMaxEncodedSize ∧ EncodesHopCount limit (count + 1) data
  deleted : (¬ ∃ q, p.hopCountValidationWith env o forward a = .ok (true, q)) →
    p.hopCountValidationWith env o forward a =
      p.bundleDeleteWith env o forward a .hopLimitExceeded >>= fun q => .ok (false, q)

/-- The hop count block that is found. -/
structure FirstHopCount (b : Bundle) (front : List BlockEntry) (block : Block)
    (back : List BlockEntry) (limit count : Nat) : Prop where
  blocks : b.blocks = front ++ .extension block :: back
  first : findBlockByType BlockType.hopCount front = none
  type : block.type = BlockType.hopCount
  data : EncodesHopCount limit count block.data

variable {p : BundleProcessor} {a : Addr} {b : Bundle} {front back : List BlockEntry}
  {block : Block} {cbor : PullParser} {limit count : Nat}

/-- What it does with the 16 bits. -/
theorem hopCountValidation_eq (hcbor : cbor.FollowsEncoding) (hlive : p.cells a = .live b)
    (h : FirstHopCount b front block back limit count) :
    p.hopCountValidationWith (env.withHopCounts cbor) o forward a =
      if limit % 2 ^ 16 ≤ count % 2 ^ 16 then
        p.bundleDeleteWith (env.withHopCounts cbor) o forward a .hopLimitExceeded >>=
          fun q => .ok (false, q)
      else if o.hopCountMem then
        let data :=
          bundle7HopCountSerialize ⟨.ofNat limit, .ofNat count + 1⟩ hopCountMaxEncodedSize
        .ok (true, p.setCell a
          (.live { b with blocks := front ++ .extension { block with data := data } :: back }))
      else .ok (true, p) := by
  have hfind : findBlockByType BlockType.hopCount b.blocks = some block := by
    rw [h.blocks]
    exact findBlockByType_first h.first h.type
  have hparse : (env.withHopCounts cbor).hopCountParse block.data =
      some ⟨.ofNat limit, .ofNat count⟩ := hopCountParse_of_encodes hcbor h.data
  have hle : UInt16.ofNat limit ≤ UInt16.ofNat count ↔ limit % 2 ^ 16 ≤ count % 2 ^ 16 := by
    rw [UInt16.le_iff_toNat_le, UInt16.toNat_ofNat', UInt16.toNat_ofNat']
  rw [hopCountValidationWith, load_of_live hlive, ok_bind, hfind]
  dsimp only
  rw [hparse]
  dsimp only
  simp only [hle]
  split
  · rfl
  · split
    · rw [modify_of_live hlive, h.blocks]
      simp only [replaceBlockData_first h.first h.type]
      rfl
    · rfl

/-- The data that the cell holds. -/
theorem data_of_setCell {data data' : List UInt8}
    (h : p.setCell a
        (.live { b with blocks := front ++ .extension { block with data := data } :: back }) =
      p.setCell a
        (.live { b with blocks := front ++ .extension { block with data := data' } :: back })) :
    data = data' := by
  have hcell := congrArg (fun q : BundleProcessor => q.cells a) h
  simp only [cells_setCell_self] at hcell
  have hblocks := congrArg Bundle.blocks (Cell.live.inj hcell)
  have htail := List.append_cancel_left hblocks
  exact congrArg Block.data (BlockEntry.extension.inj (List.cons.inj htail).1)

/-- The limit is reached in 16 bits: the bundle is deleted. -/
theorem countsHops_of_stopped (hcbor : cbor.FollowsEncoding) (hlive : p.cells a = .live b)
    (h : FirstHopCount b front block back limit count)
    (hstop : limit % 2 ^ 16 ≤ count % 2 ^ 16) :
    CountsHops (env.withHopCounts cbor) o forward p a b front block back limit count ↔
      limit ≤ count := by
  have heq := hopCountValidation_eq env o forward hcbor hlive h
  rw [if_pos hstop] at heq
  have hnot : ¬ ∃ q, p.hopCountValidationWith (env.withHopCounts cbor) o forward a =
      .ok (true, q) := by
    rintro ⟨q, hq⟩
    rw [heq] at hq
    cases hdelete : p.bundleDeleteWith (env.withHopCounts cbor) o forward a .hopLimitExceeded with
    | error e =>
      rw [hdelete] at hq
      cases hq
    | ok r =>
      rw [hdelete] at hq
      cases hq
  constructor
  · intro hcounts
    have hge := mt hcounts.passes_iff.mpr hnot
    omega
  · intro hle
    exact ⟨iff_of_false hnot (by omega), fun q hq _ => absurd ⟨q, hq⟩ hnot, fun _ => heq⟩

/-- The bundle passes as it is, for want of a buffer. -/
theorem countsHops_of_no_memory (hcbor : cbor.FollowsEncoding) (hlive : p.cells a = .live b)
    (h : FirstHopCount b front block back limit count)
    (hpass : count % 2 ^ 16 < limit % 2 ^ 16) (hmem : o.hopCountMem = false) :
    CountsHops (env.withHopCounts cbor) o forward p a b front block back limit count ↔
      count < limit := by
  have heq := hopCountValidation_eq env o forward hcbor hlive h
  rw [if_neg (Nat.not_le.mpr hpass), hmem, if_neg Bool.false_ne_true] at heq
  constructor
  · intro hcounts
    exact hcounts.passes_iff.mp ⟨p, heq⟩
  · intro hlt
    refine ⟨iff_of_true ⟨p, heq⟩ hlt, fun q _ hq => ?_, fun hnot => absurd ⟨p, heq⟩ hnot⟩
    rw [hmem] at hq
    cases hq

/-- The bundle passes with what is counted in 16 bits. -/
theorem countsHops_of_counted (hcbor : cbor.FollowsEncoding) (hlive : p.cells a = .live b)
    (h : FirstHopCount b front block back limit count)
    (hpass : count % 2 ^ 16 < limit % 2 ^ 16) (hmem : o.hopCountMem = true) :
    CountsHops (env.withHopCounts cbor) o forward p a b front block back limit count ↔
      limit < 2 ^ 16 ∧ count < 2 ^ 16 := by
  have heq := hopCountValidation_eq env o forward hcbor hlive h
  rw [if_neg (Nat.not_le.mpr hpass), hmem, if_pos rfl] at heq
  have hencodes := hopCountSerialize_encodes ⟨.ofNat limit, .ofNat count + 1⟩
  have hlength := length_hopCountSerialize ⟨.ofNat limit, .ofNat count + 1⟩
  have hnext : (UInt16.ofNat count + 1).toNat = count % 2 ^ 16 + 1 := by
    rw [UInt16.toNat_add, UInt16.toNat_ofNat']
    exact Nat.mod_eq_of_lt (by change _ + 1 < _; omega)
  dsimp only at hencodes
  rw [hnext, UInt16.toNat_ofNat'] at hencodes
  constructor
  · intro hcounts
    have hlt := hcounts.passes_iff.mp ⟨_, heq⟩
    obtain ⟨data, hdata, -, hnew⟩ := hcounts.counted _ heq hmem
    obtain rfl := data_of_setCell hdata
    obtain ⟨definite, hold⟩ := hencodes
    obtain ⟨definite', hnew⟩ := hnew
    have hitem := hold.unique hnew
    simp only [Item.array.injEq, List.cons.injEq, Item.uint.injEq] at hitem
    omega
  · intro hsmall
    refine ⟨iff_of_true ⟨_, heq⟩ (by omega), fun q hq _ => ?_, fun hnot => absurd ⟨_, heq⟩ hnot⟩
    rw [heq] at hq
    cases hq
    have hlimit : limit % 2 ^ 16 = limit := by omega
    have hcount : count % 2 ^ 16 = count := by omega
    rw [hlimit, hcount] at hencodes
    exact ⟨_, rfl, hlength, hencodes⟩

/-- The 16 bits are enough, or what is lost makes no difference. -/
theorem countsHops_iff (hcbor : cbor.FollowsEncoding) (hlive : p.cells a = .live b)
    (h : FirstHopCount b front block back limit count) :
    CountsHops (env.withHopCounts cbor) o forward p a b front block back limit count ↔
      (limit < 2 ^ 16 ∧ count < 2 ^ 16) ∨
        (limit ≤ count ∧ limit % 2 ^ 16 ≤ count % 2 ^ 16) ∨
        (o.hopCountMem = false ∧ count < limit ∧ count % 2 ^ 16 < limit % 2 ^ 16) := by
  rcases Nat.lt_or_ge (count % 2 ^ 16) (limit % 2 ^ 16) with hpass | hstop
  · cases hmem : o.hopCountMem with
    | false =>
      rw [countsHops_of_no_memory env o forward hcbor hlive h hpass hmem]
      simp only [true_and]
      omega
    | true =>
      rw [countsHops_of_counted env o forward hcbor hlive h hpass hmem]
      simp only [Bool.true_eq_false, false_and, or_false]
      omega
  · rw [countsHops_of_stopped env o forward hcbor hlive h hstop]
    omega

end BundleProcessor

/-- A bundle with a hop count block. -/
def hopCountBundle (data : List UInt8) : Bundle :=
  { passingBundle 7 0 with blocks := [.extension ⟨BlockType.hopCount, 0, data⟩, .payload] }

theorem firstHopCount_hopCountBundle {limit count : Nat} {data : List UInt8}
    (h : EncodesHopCount limit count data) :
    BundleProcessor.FirstHopCount (hopCountBundle data) [] ⟨BlockType.hopCount, 0, data⟩
      [.payload] limit count :=
  ⟨rfl, rfl, rfl, h⟩

/-- Two hops of five are counted. -/
theorem countsHops_two_of_five :
    BundleProcessor.CountsHops (plainEnv.withHopCounts itemParser) (plainInputs 1002)
        BundleProcessor.forwardAccepted (.storingOne (hopCountBundle [0x82, 5, 2])) 1
        (hopCountBundle [0x82, 5, 2]) [] ⟨BlockType.hopCount, 0, [0x82, 5, 2]⟩ [.payload] 5 2 ↔
      (5 < 2 ^ 16 ∧ 2 < 2 ^ 16) ∨ (5 ≤ 2 ∧ 5 % 2 ^ 16 ≤ 2 % 2 ^ 16) ∨
        ((plainInputs 1002).hopCountMem = false ∧ 2 < 5 ∧ 2 % 2 ^ 16 < 5 % 2 ^ 16) :=
  BundleProcessor.countsHops_iff plainEnv (plainInputs 1002) BundleProcessor.forwardAccepted
    itemParser_follows rfl
    (firstHopCount_hopCountBundle
      ⟨true, encodes_pair (encodes_uint (by decide)) (encodes_uint (by decide))⟩)

/-- A limit of 2^16 counts as 0, so a bundle is deleted at its first hop. -/
theorem limit_not_countsHops :
    ¬ BundleProcessor.CountsHops (plainEnv.withHopCounts itemParser) (plainInputs 1002)
        BundleProcessor.forwardAccepted
        (.storingOne (hopCountBundle [0x82, 0x1a, 0, 1, 0, 0, 0])) 1
        (hopCountBundle [0x82, 0x1a, 0, 1, 0, 0, 0]) []
        ⟨BlockType.hopCount, 0, [0x82, 0x1a, 0, 1, 0, 0, 0]⟩ [.payload] (2 ^ 16) 0 := by
  have hencodes : EncodesHopCount (2 ^ 16) 0 [0x82, 0x1a, 0, 1, 0, 0, 0] :=
    ⟨true, encodes_pair (encodes_uint (by decide)) (encodes_uint (by decide))⟩
  have heq := BundleProcessor.hopCountValidation_eq plainEnv (plainInputs 1002)
    BundleProcessor.forwardAccepted (p := .storingOne (hopCountBundle [0x82, 0x1a, 0, 1, 0, 0, 0]))
    (a := 1) itemParser_follows rfl (firstHopCount_hopCountBundle hencodes)
  intro h
  obtain ⟨q, hq⟩ := h.passes_iff.mpr (by decide)
  rw [heq, if_pos (by decide)] at hq
  obtain ⟨r, -, hr⟩ := bind_eq_ok hq
  cases hr

end Upcn
