import Upcn.Bundle6.Size

/-!
# Fragments of BPv6 bundles

`bundle6_fragment_bundle` of `bundle6/fragment.c` with `replicate_blocks`.

* `Splits` says what two fragments of a bundle are: the blocks before the payload and those
  behind it, each with the replicated ones of the other side.
* `lastFlagged_filter` says which blocks can follow the payload of the first fragment.
* `dividesWell_iff` says when the result is as it should be.
-/

namespace Upcn.Bundle6

/-! ## The blocks -/

/-- `flags |= BUNDLE_V6_BLOCK_FLAG_LAST_BLOCK`. -/
def Block.setLast (block : Block) : Block := { block with flags := block.flags ||| 2 ^ 3 }

/-- `flags &= ~BUNDLE_V6_BLOCK_FLAG_LAST_BLOCK`. -/
def Block.clearLast (block : Block) : Block :=
  { block with flags := block.flags &&& (2 ^ 32 - 1 - 2 ^ 3) }

/-- The blocks that `replicate_blocks` copies. -/
def Block.isReplicated (block : Block) : Bool := block.mustBeReplicated && !block.isPayload

/-- `bundle_block_entry_dup`: each reference is put before those that are copied
already. -/
def Block.dup (block : Block) : Block := { block with eidRefs := block.eidRefs.reverse }

/-- Exactly the last block has the flag of it. -/
def lastFlagged : List Block → Bool
  | [] => true
  | block :: rest => block.isLast == rest.isEmpty && lastFlagged rest

/-- The copies of the replicated blocks. -/
def replicated (blocks : List Block) : List Block := (blocks.filter Block.isReplicated).map Block.dup

/-- `replicate_blocks`, for the blocks of the two fragments: `none` if it follows a null
pointer.  Before a copy is put in front of the second fragment, `item` points behind the
last one, where `(*item)->next` is to be written. -/
def replicateBlocks (first second : List Block) : Option (List Block × List Block) :=
  if replicated first ≠ [] then none
  else if replicated second = [] then some (first, second)
  else some (first.dropLast ++ (first.getLast?.map Block.clearLast).toList ++ replicated second,
    second)

/-! ## The fragmenter -/

/-- What `bundle6_fragment_bundle` returns. -/
inductive Fragmentation where
  /-- `NULL`. -/
  | null
  /-- The bundle itself. -/
  | input (b : Bundle)
  /-- The bundle, as it is changed, and the one that is returned. -/
  | fragments (first second : Bundle)
  /-- The assertion fails. -/
  | assertion
  | nullDeref
  deriving DecidableEq

/-- The payload with `length` bytes. -/
def Block.shortened (payload : Block) (length : Nat) : Block :=
  { payload with length := length, data := payload.data.take length }

/-- The payload block of the second fragment. -/
def Block.remaining (payload : Block) (length : Nat) : Block where
  type := 1
  flags := payload.flags
  eidRefs := []
  length := payload.length - length
  data := (payload.data.drop length).take (payload.length - length)

/-- `total_adu_length` of the fragments. -/
def Bundle.aduLength (b : Bundle) (payload : Block) : Nat :=
  if b.isFragmented then b.totalAduLength else payload.length

/-- `bundle6_fragment_bundle`.  `malloc` succeeds, and `emptyMem` says whether `realloc` to
no bytes returns a pointer.  The length of the first payload wraps around when the size is
too small. -/
def bundle6FragmentBundle (emptyMem : Bool) (b : Bundle) (firstMax : Nat) : Fragmentation :=
  let (firstMin, b) := b.bundle6GetFirstFragmentMinSize
  match b.payloadBlock with
  | none => .nullDeref
  | some index =>
    match b.blocks.drop index with
    | [] => .nullDeref
    | payload :: after =>
      let firstLength := (firstMax + 2 ^ 64 - firstMin) % 2 ^ 64 % 2 ^ 32
      if payload.length ≤ firstLength then .input b
      else if firstLength = 0 ∧ emptyMem = false then .assertion
      else
        match replicateBlocks
            (b.blocks.take index ++ [(payload.shortened firstLength).setLast])
            (payload.remaining firstLength :: after) with
        | none => .nullDeref
        | some (first, second) =>
          .fragments
            (Bundle.bundle6RecalculateHeaderLength
              { b with
                procFlags := b.procFlags ||| 1
                totalAduLength := b.aduLength payload
                blocks := first })
            (Bundle.bundle6RecalculateHeaderLength
              { b with
                procFlags := b.procFlags ||| 1
                fragmentOffset := (b.fragmentOffset + firstLength) % 2 ^ 32
                totalAduLength := b.aduLength payload
                blocks := second
                payloadBlock := some 0 })

/-! ## What is expected of it -/

/-- The payload block of `b` between the other blocks. -/
structure Bundle.Payload (b : Bundle) (front : List Block) (payload : Block)
    (back : List Block) : Prop where
  blocks : b.blocks = front ++ payload :: back
  payloadBlock : b.payloadBlock = some front.length
  type : payload.type = 1
  data : payload.data.length = payload.length

/-- `first` and `second` are two fragments of `b`.  The flag of the last block aside, their
blocks are those before the payload and those behind it, with the replicated ones of the
other side. -/
structure Splits (b : Bundle) (front : List Block) (payload : Block) (back : List Block)
    (first second : Bundle) : Prop where
  blocks : ∃ length p q,
    p.clearLast = (payload.shortened length).clearLast ∧ q.isPayload = true ∧
    p.data ++ q.data = payload.data ∧ p.data.length = p.length ∧ q.data.length = q.length ∧
    first.blocks.map Block.clearLast =
      (front ++ p :: back.filter Block.isReplicated).map Block.clearLast ∧
    second.blocks.map Block.clearLast =
      (front.filter Block.isReplicated ++ q :: back).map Block.clearLast ∧
    first.fragmentOffset = b.fragmentOffset ∧ second.fragmentOffset = b.fragmentOffset + p.length
  total : first.totalAduLength = b.aduLength payload ∧
    second.totalAduLength = b.aduLength payload
  lastFlagged : lastFlagged first.blocks = true ∧ lastFlagged second.blocks = true

/-- The result is as it should be: the bundle is unchanged or divided, and there is none if
the smallest first fragment is too large. -/
def DividesWell (emptyMem : Bool) (b : Bundle) (front : List Block) (payload : Block)
    (back : List Block) (firstMax : Nat) : Prop :=
  match bundle6FragmentBundle emptyMem b firstMax with
  | .null => True
  | .input b' => b.bundle6GetFirstFragmentMinSize.1 ≤ firstMax ∧ b' = b
  | .fragments first second =>
    b.bundle6GetFirstFragmentMinSize.1 ≤ firstMax ∧ Splits b front payload back first second
  | .assertion => False
  | .nullDeref => False

/-- When it is. -/
def Bundle.Divisible (emptyMem : Bool) (b : Bundle) (front : List Block) (payload : Block)
    (back : List Block) (firstMax : Nat) : Prop :=
  let length := (firstMax - b.bundle6GetFirstFragmentMinSize.1) % 2 ^ 32
  b.bundle6GetFirstFragmentMinSize.1 ≤ firstMax ∧
    if payload.length ≤ length then b.bundle6RecalculateHeaderLength = b
    else
      (length ≠ 0 ∨ emptyMem = true) ∧ b.fragmentOffset + length < 2 ^ 32 ∧
        (∀ block ∈ front, block.isReplicated = false) ∧
        (∀ block ∈ back, block.isReplicated = true → block.eidRefs.reverse = block.eidRefs) ∧
        lastFlagged b.blocks = true ∧
        (back.filter Block.isReplicated = [] ∨ back.getLast?.all Block.isReplicated = true)

variable {emptyMem : Bool} {b : Bundle} {front back blocks : List Block} {payload block : Block}
  {length firstMax : Nat}

/-! ## The flag of the last block -/

theorem isLast_setLast (block : Block) : block.setLast.isLast = true := by
  have hbit : Nat.testBit (2 ^ 3) 3 = true := by decide
  rw [Block.isLast, Block.setLast, Nat.testBit_or, hbit, Bool.or_true]

theorem isLast_clearLast (block : Block) : block.clearLast.isLast = false := by
  rw [Block.isLast, Block.clearLast, Nat.testBit_and]
  have hmask : Nat.testBit (2 ^ 32 - 1 - 2 ^ 3) 3 = false := by decide
  rw [hmask, Bool.and_false]

theorem clearLast_setLast (block : Block) : block.setLast.clearLast = block.clearLast := by
  have hmask : 2 ^ 3 &&& (2 ^ 32 - 1 - 2 ^ 3) = 0 := by decide
  rw [Block.clearLast, Block.clearLast, Block.setLast, Nat.and_or_distrib_right, hmask,
    Nat.or_zero]

theorem clearLast_clearLast (block : Block) : block.clearLast.clearLast = block.clearLast := by
  rw [Block.clearLast, Block.clearLast]
  dsimp only
  rw [Nat.and_assoc, Nat.and_self]

theorem lastFlagged_append :
    lastFlagged (front ++ block :: back) = true ↔
      (∀ other ∈ front, other.isLast = false) ∧ lastFlagged (block :: back) = true := by
  induction front with
  | nil => simp
  | cons other front ih =>
    have hrest : (front ++ block :: back).isEmpty = false := by cases front <;> rfl
    rw [List.cons_append, lastFlagged, Bool.and_eq_true, ih, hrest, beq_iff_eq,
      List.forall_mem_cons, and_assoc]

/-- The last of the remaining blocks has the flag if it is the last of all. -/
theorem lastFlagged_filter (p : Block → Bool) (h : lastFlagged blocks = true) :
    lastFlagged (blocks.filter p) = true ↔
      blocks.filter p = [] ∨ blocks.getLast?.all p = true := by
  induction blocks with
  | nil => simp [lastFlagged]
  | cons block rest ih =>
    rw [lastFlagged, Bool.and_eq_true, beq_iff_eq] at h
    obtain ⟨hblock, hrest⟩ := h
    have ih := ih hrest
    cases rest with
    | nil => cases hp : p block <;> simp [lastFlagged, hp, hblock]
    | cons next rest =>
      rw [List.getLast?_cons_cons]
      cases hp : p block with
      | false => rwa [List.filter_cons_of_neg (by rw [hp]; exact Bool.false_ne_true)]
      | true =>
        rw [List.filter_cons_of_pos hp, lastFlagged, Bool.and_eq_true, ih, hblock, beq_iff_eq]
        constructor
        · rintro ⟨hsome, hnone | hlast⟩
          · rw [hnone] at hsome
            cases hsome
          · exact .inr hlast
        · rintro (hnone | hlast)
          · cases hnone
          · refine ⟨?_, .inr hlast⟩
            rw [List.getLast?_eq_some_getLast (List.cons_ne_nil _ _), Option.all_some] at hlast
            have hmem := List.mem_filter.mpr ⟨List.getLast_mem (List.cons_ne_nil next rest), hlast⟩
            cases hfilter : (next :: rest).filter p with
            | nil =>
              rw [hfilter] at hmem
              cases hmem
            | cons _ _ => rfl

theorem replicated_eq_nil_iff : replicated blocks = [] ↔ blocks.filter Block.isReplicated = [] := by
  rw [replicated, List.map_eq_nil_iff]

theorem lastFlagged_map_dup (blocks : List Block) :
    lastFlagged (blocks.map Block.dup) = lastFlagged blocks := by
  induction blocks with
  | nil => rfl
  | cons block rest ih =>
    rw [List.map_cons, lastFlagged, lastFlagged, ih, List.isEmpty_map]
    rfl

/-! ## The result -/

/-- The blocks of the first fragment. -/
def fragmentBlocks (front : List Block) (payload : Block) (back : List Block) : List Block :=
  front ++ (if back.filter Block.isReplicated = [] then payload.setLast
    else payload.setLast.clearLast) :: replicated back

/-- The blocks of the two fragments. -/
theorem replicateBlocks_eq (hpayload : payload.type = 1) (length : Nat) :
    replicateBlocks (front ++ [(payload.shortened length).setLast])
        (payload.remaining length :: back) =
      if front.filter Block.isReplicated ≠ [] then none
      else some (fragmentBlocks front (payload.shortened length) back,
        payload.remaining length :: back) := by
  have hfirst : ((payload.shortened length).setLast).isReplicated = false := by
    have : (payload.shortened length).setLast.isPayload = true := decide_eq_true hpayload
    rw [Block.isReplicated, this, Bool.not_true, Bool.and_false]
  have hsecond : (payload.remaining length).isReplicated = false := by
    have : (payload.remaining length).isPayload = true := rfl
    rw [Block.isReplicated, this, Bool.not_true, Bool.and_false]
  have hfront : replicated (front ++ [(payload.shortened length).setLast]) = [] ↔
      front.filter Block.isReplicated = [] := by
    rw [replicated_eq_nil_iff, List.filter_append, List.filter_cons_of_neg (by rw [hfirst]; exact
      Bool.false_ne_true), List.filter_nil, List.append_nil]
  have hback : replicated (payload.remaining length :: back) = replicated back := by
    rw [replicated, replicated, List.filter_cons_of_neg (by rw [hsecond]; exact
      Bool.false_ne_true)]
  rw [replicateBlocks, hback, fragmentBlocks]
  simp only [ne_eq, hfront, replicated_eq_nil_iff, List.dropLast_concat, List.getLast?_concat,
    Option.map_some, Option.toList_some, List.append_assoc, List.singleton_append]
  split
  · rfl
  · split
    · rename_i hnone
      rw [replicated_eq_nil_iff.mpr hnone]
    · rfl

theorem map_clearLast_fragmentBlocks :
    (fragmentBlocks front payload back).map Block.clearLast =
      front.map Block.clearLast ++ payload.clearLast :: (replicated back).map Block.clearLast := by
  have hpayload : (if back.filter Block.isReplicated = [] then payload.setLast
      else payload.setLast.clearLast).clearLast = payload.clearLast := by
    split
    · exact clearLast_setLast payload
    · rw [clearLast_clearLast, clearLast_setLast]
  rw [fragmentBlocks, List.map_append, List.map_cons, hpayload]

/-- The copies are the replicated blocks if and only if their references read the same
backwards. -/
theorem map_clearLast_replicated_iff :
    (replicated back).map Block.clearLast =
        (back.filter Block.isReplicated).map Block.clearLast ↔
      ∀ block ∈ back, block.isReplicated = true → block.eidRefs.reverse = block.eidRefs := by
  rw [replicated, List.map_map, List.map_inj_left]
  constructor
  · intro h block hblock hreplicated
    exact congrArg Block.eidRefs (h block (List.mem_filter.mpr ⟨hblock, hreplicated⟩))
  · intro h block hblock
    obtain ⟨hmem, hreplicated⟩ := List.mem_filter.mp hblock
    simp only [Function.comp_apply, Block.dup, Block.clearLast, h block hmem hreplicated]

/-- The flags of both fragments. -/
theorem lastFlagged_fragments (front back : List Block) (payload : Block) (length : Nat) :
    (lastFlagged (fragmentBlocks front (payload.shortened length) back) = true ∧
        lastFlagged (payload.remaining length :: back) = true) ↔
      lastFlagged (front ++ payload :: back) = true ∧
        (back.filter Block.isReplicated = [] ∨
          back.getLast?.all Block.isReplicated = true) := by
  have hlast : (if back.filter Block.isReplicated = [] then (payload.shortened length).setLast
      else (payload.shortened length).setLast.clearLast).isLast =
        (replicated back).isEmpty := by
    split
    · rename_i hnone
      rw [isLast_setLast, replicated_eq_nil_iff.mpr hnone]
      rfl
    · rename_i hsome
      rw [isLast_clearLast]
      have := mt replicated_eq_nil_iff.mp hsome
      exact (Bool.eq_false_iff.mpr (mt List.isEmpty_iff.mp this)).symm
  have hsecond : lastFlagged (payload.remaining length :: back) =
      lastFlagged (payload :: back) := rfl
  rw [fragmentBlocks, lastFlagged_append, lastFlagged_append, hsecond, lastFlagged, hlast,
    Bool.and_eq_true, replicated, lastFlagged_map_dup]
  simp only [beq_self_eq_true, true_and]
  constructor
  · rintro ⟨⟨hfront, hcopies⟩, hback⟩
    have hrest := (Bool.and_eq_true_iff.mp hback).2
    exact ⟨⟨hfront, hback⟩, (lastFlagged_filter _ hrest).mp hcopies⟩
  · rintro ⟨⟨hfront, hback⟩, hcopies⟩
    have hrest := (Bool.and_eq_true_iff.mp hback).2
    exact ⟨⟨hfront, (lastFlagged_filter _ hrest).mpr hcopies⟩, hback⟩

/-- The bundle is cut off behind `length` bytes of payload. -/
theorem splits_iff (h : b.Payload front payload back) (hlength : length < payload.length)
    (hfront : front.filter Block.isReplicated = []) {first second : Bundle}
    (hfirst : first.blocks = fragmentBlocks front (payload.shortened length) back)
    (hsecond : second.blocks = payload.remaining length :: back)
    (hoffset : first.fragmentOffset = b.fragmentOffset)
    (hnext : second.fragmentOffset = (b.fragmentOffset + length) % 2 ^ 32)
    (htotal : first.totalAduLength = b.aduLength payload)
    (htotal' : second.totalAduLength = b.aduLength payload) :
    Splits b front payload back first second ↔
      b.fragmentOffset + length < 2 ^ 32 ∧
        (∀ block ∈ back, block.isReplicated = true → block.eidRefs.reverse = block.eidRefs) ∧
        lastFlagged b.blocks = true ∧
        (back.filter Block.isReplicated = [] ∨
          back.getLast?.all Block.isReplicated = true) := by
  have hflags := lastFlagged_fragments front back payload length
  rw [← h.blocks, ← hfirst, ← hsecond] at hflags
  have htake : (payload.data.take length).length = length := by
    rw [List.length_take, h.data]
    exact Nat.min_eq_left (Nat.le_of_lt hlength)
  have hdrop : (payload.data.drop length).take (payload.length - length) =
      payload.data.drop length :=
    List.take_of_length_le (by rw [List.length_drop, h.data])
  constructor
  · intro hsplit
    obtain ⟨length', p, q, hp, -, hdata, hplength, -, hblocks, -, -, hq⟩ := hsplit.blocks
    rw [hfirst, map_clearLast_fragmentBlocks, List.map_append, List.map_cons] at hblocks
    obtain ⟨hpayload, hcopies⟩ := List.cons.inj (List.append_cancel_left hblocks)
    have hpsize : p.length = length := (congrArg Block.length hpayload).symm
    rw [hnext, hpsize] at hq
    exact ⟨by omega, map_clearLast_replicated_iff.mp hcopies, hflags.mp hsplit.lastFlagged⟩
  · rintro ⟨hroom, hcopies, hlast⟩
    refine ⟨⟨length, payload.shortened length, payload.remaining length, rfl, rfl, ?_, htake, ?_,
      ?_, ?_, hoffset, ?_⟩, ⟨htotal, htotal'⟩, hflags.mpr hlast⟩
    · change _ ++ (payload.data.drop length).take (payload.length - length) = _
      rw [hdrop]
      exact List.take_append_drop length payload.data
    · change ((payload.data.drop length).take (payload.length - length)).length = _
      rw [hdrop, List.length_drop, h.data]
      rfl
    · rw [hfirst, map_clearLast_fragmentBlocks, map_clearLast_replicated_iff.mpr hcopies,
        List.map_append, List.map_cons]
    · rw [hsecond, hfront, List.nil_append]
    · rw [hnext]
      exact Nat.mod_eq_of_lt hroom

/-- That the size is too small is not reported. -/
theorem bundle6FragmentBundle_ne_null : bundle6FragmentBundle emptyMem b firstMax ≠ .null := by
  unfold bundle6FragmentBundle
  dsimp only
  intro hnull
  split at hnull
  · cases hnull
  · split at hnull
    · cases hnull
    · split at hnull
      · cases hnull
      · split at hnull
        · cases hnull
        · split at hnull <;> cases hnull

theorem DividesWell.min_le (h : DividesWell emptyMem b front payload back firstMax) :
    b.bundle6GetFirstFragmentMinSize.1 ≤ firstMax := by
  unfold DividesWell at h
  split at h
  · rename_i hnull
    exact absurd hnull bundle6FragmentBundle_ne_null
  · exact h.1
  · exact h.1
  · exact h.elim
  · exact h.elim

/-- The result of `bundle6_fragment_bundle` is as it should be if and only if the smallest
first fragment is not too large, and the bundle with its header length is not cut or can
be. -/
theorem dividesWell_iff (h : b.Payload front payload back) :
    DividesWell emptyMem b front payload back firstMax ↔
      b.Divisible emptyMem front payload back firstMax := by
  by_cases hle : b.bundle6GetFirstFragmentMinSize.1 ≤ firstMax
  case neg => exact iff_of_false (fun hwell => hle hwell.min_le) fun hdivisible => hle hdivisible.1
  have hfrontNone : front.filter Block.isReplicated = [] ↔
      ∀ block ∈ front, block.isReplicated = false := by
    simp only [List.filter_eq_nil_iff, Bool.not_eq_true]
  have hindex : b.bundle6GetFirstFragmentMinSize.2.payloadBlock = some front.length := h.payloadBlock
  have hblocks : b.bundle6GetFirstFragmentMinSize.2.blocks = front ++ payload :: back := h.blocks
  unfold DividesWell bundle6FragmentBundle Bundle.Divisible
  generalize hmin : b.bundle6GetFirstFragmentMinSize.1 = firstMin at hle ⊢
  dsimp only
  rw [hindex]
  dsimp only
  rw [hblocks, List.drop_left, List.take_left]
  dsimp only
  rw [replicateBlocks_eq h.type, hmin]
  have hwrap : (firstMax + 2 ^ 64 - firstMin) % 2 ^ 64 % 2 ^ 32 = (firstMax - firstMin) % 2 ^ 32 := by
    omega
  rw [hwrap]
  generalize (firstMax - firstMin) % 2 ^ 32 = length
  simp only [hle, true_and]
  by_cases hall : payload.length ≤ length
  · rw [if_pos hall, if_pos hall]
    simp only
    rfl
  · rw [if_neg hall, if_neg hall]
    by_cases hempty : length = 0 ∧ emptyMem = false
    · rw [if_pos hempty]
      refine iff_of_false not_false ?_
      rintro ⟨hsome | hmem, -⟩
      · exact hsome hempty.1
      · rw [hempty.2] at hmem
        cases hmem
    · have hsome : length ≠ 0 ∨ emptyMem = true := by
        rw [not_and_or, Bool.not_eq_false] at hempty
        exact hempty
      rw [if_neg hempty]
      simp only [hsome, true_and, ← hfrontNone]
      by_cases hfront : front.filter Block.isReplicated = []
      · simp only [hfront, ne_eq, not_true, if_false, true_and]
        exact splits_iff h (Nat.not_le.mp hall) hfront rfl rfl rfl rfl rfl rfl
      · simp only [hfront, ne_eq, not_false_iff, if_true, false_and, and_false]

/-- A bundle with two bytes of payload between two blocks, of which the last one is
replicated. -/
def dividedBundle : Bundle :=
  { smallBundle false with
    blocks := [⟨7, 0, [], 1, [1]⟩, ⟨1, 0, [], 2, [42, 43]⟩, ⟨8, 9, [], 1, [2]⟩]
    payloadBlock := some 1 }

theorem payload_dividedBundle : dividedBundle.Payload [⟨7, 0, [], 1, [1]⟩] ⟨1, 0, [], 2, [42, 43]⟩
    [⟨8, 9, [], 1, [2]⟩] :=
  ⟨rfl, rfl, rfl, rfl⟩

/-- It is cut between the two bytes of the payload. -/
theorem dividesWell_dividedBundle :
    (∃ first second, bundle6FragmentBundle true dividedBundle 57 = .fragments first second) ∧
      DividesWell true dividedBundle [⟨7, 0, [], 1, [1]⟩] ⟨1, 0, [], 2, [42, 43]⟩
        [⟨8, 9, [], 1, [2]⟩] 57 := by
  have hdivisible : dividedBundle.Divisible true [⟨7, 0, [], 1, [1]⟩] ⟨1, 0, [], 2, [42, 43]⟩
      [⟨8, 9, [], 1, [2]⟩] 57 := by
    rw [Bundle.Divisible]
    decide
  refine ⟨⟨_, _, rfl⟩, ?_⟩
  rw [dividesWell_iff payload_dividedBundle]
  exact hdivisible

/-- The bundle with a replicated block before the payload. -/
def brokenBundle : Bundle :=
  { smallBundle false with
    blocks := [⟨7, 1, [], 1, [1]⟩, ⟨1, 8, [], 2, [42, 43]⟩]
    payloadBlock := some 1 }

/-- The copy of the block before the payload is linked through a null pointer. -/
theorem brokenBundle_not_dividesWell :
    ¬ DividesWell true brokenBundle [⟨7, 1, [], 1, [1]⟩] ⟨1, 8, [], 2, [42, 43]⟩ []
      53 := by
  have hresult : bundle6FragmentBundle true brokenBundle 53 = .nullDeref := by decide
  rw [DividesWell, hresult]
  exact not_false

end Upcn.Bundle6
