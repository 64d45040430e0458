import Mathlib.Data.List.Basic
import Upcn.Bundle

/-!
# Copies of bundles and of block lists

`bundle_dup` and `bundle_block_list_dup` of `bundle.c`, with the addresses of what they
allocate: an allocation succeeds, and returns the next address that was not used.

The search of `bundle_dup` for the payload block does not advance, and the EID references
of a block are copied in reverse.
-/

namespace Upcn.Duplicate

/-- A string on the heap, at `addr`. -/
structure Str where
  addr : Nat
  text : Eid

/-- An element of the list of EID references of a block. -/
structure EidRef where
  addr : Nat
  eid : Str

/-- The data of a block. -/
structure Buffer where
  addr : Nat
  bytes : List UInt8

/-- `struct bundle_block`.  `length` is the number of bytes. -/
structure Block where
  addr : Nat
  type : Nat
  number : UInt8
  flags : UInt32
  data : Option Buffer
  eidRefs : List EidRef
  crcType : Nat
  crc : UInt32

/-- `struct bundle_block_list`. -/
structure Entry where
  addr : Nat
  data : Block

/-- The fields of `struct bundle` that are not pointers. -/
structure Header where
  id : Nat
  protocolVersion : UInt8
  procFlags : UInt32
  retConstraints : RetConstraints
  crcType : Nat
  creationTimestamp : UInt64
  sequenceNumber : UInt64
  lifetime : UInt64
  crc : UInt32
  fragmentOffset : UInt32
  totalAduLength : UInt32
  primaryBlockLength : UInt16
  deriving DecidableEq

/-- `struct bundle`.  `payload_block` is the address of a block. -/
structure Bundle where
  addr : Nat
  header : Header
  destination : Option Str
  source : Option Str
  reportTo : Option Str
  currentCustodian : Option Str
  blocks : List Entry
  payloadBlock : Option Nat

/-- The bytes of a block, none for `NULL`. -/
def Block.bytes (b : Block) : List UInt8 := b.data.elim [] Buffer.bytes

/-! ## Copying -/

/-- `strdup`. -/
def strdup (s : Str) (next : Nat) : Str × Nat := (⟨next, s.text⟩, next + 1)

/-- `strdup`, unless the field is `NULL`. -/
def strdupField : Option Str → Nat → Option Str × Nat
  | none, next => (none, next)
  | some s, next => (some (strdup s next).1, (strdup s next).2)

/-- The loop of `bundle_block_dup`, which prepends each reference to those copied. -/
def dupRefs : List EidRef → List EidRef → Nat → List EidRef × Nat
  | [], dup, next => (dup, next)
  | curRef :: rest, dup, next =>
    let (eid, next') := strdup curRef.eid (next + 1)
    dupRefs rest (⟨next, eid⟩ :: dup) next'

/-- `bundle_block_dup`. -/
def bundleBlockDup (b : Block) (next : Nat) : Block × Nat :=
  let (eidRefs, next') := dupRefs b.eidRefs [] (next + 1)
  ({ b with addr := next, eidRefs := eidRefs, data := some ⟨next', b.bytes⟩ }, next' + 1)

/-- `bundle_block_entry_dup`. -/
def bundleBlockEntryDup (e : Entry) (next : Nat) : Entry × Nat :=
  let (dup, next) := bundleBlockDup e.data next
  (⟨next, dup⟩, next + 1)

/-- `bundle_block_list_dup`. -/
def bundleBlockListDup : List Entry → Nat → List Entry × Nat
  | [], next => ([], next)
  | e :: rest, next =>
    let (dup, next) := bundleBlockEntryDup e next
    let (dups, next) := bundleBlockListDup rest next
    (dup :: dups, next)

/-- The loop of `bundle_dup` that searches for the payload block, with at most `fuel`
rounds.  A round leaves `cur_block` as it is. -/
def searchPayload : Nat → List Entry → Option (Option Nat)
  | 0, _ => none
  | _ + 1, [] => some none
  | fuel + 1, curBlock :: rest =>
    if curBlock.data.type = BlockType.payload then some (some curBlock.data.addr)
    else searchPayload fuel (curBlock :: rest)

/-- `bundle_dup`, up to the search for the payload block. -/
def bundleDupBlocks (bundle : Bundle) (next : Nat) : Bundle × Nat :=
  let (source, next₁) := strdupField bundle.source (next + 1)
  let (destination, next₂) := strdupField bundle.destination next₁
  let (reportTo, next₃) := strdupField bundle.reportTo next₂
  let (currentCustodian, next₄) := strdupField bundle.currentCustodian next₃
  let (blocks, next₅) := bundleBlockListDup bundle.blocks next₄
  ({ bundle with
      addr := next, source := source, destination := destination, reportTo := reportTo
      currentCustodian := currentCustodian, blocks := blocks }, next₅)

/-- `bundle_dup`, `none` if the search does not end within `fuel` rounds. -/
def bundleDup (fuel : Nat) (bundle : Bundle) (next : Nat) : Option (Bundle × Nat) :=
  let (dup, next) := bundleDupBlocks bundle next
  (searchPayload fuel dup.blocks).map fun found =>
    ({ dup with payloadBlock := found.or dup.payloadBlock }, next)

/-! ## Contents and addresses -/

/-- What a block holds, wherever it lies. -/
structure BlockContents where
  type : Nat
  number : UInt8
  flags : UInt32
  bytes : List UInt8
  eidRefs : List Eid
  crcType : Nat
  crc : UInt32
  deriving DecidableEq

def Block.contents (b : Block) : BlockContents where
  type := b.type
  number := b.number
  flags := b.flags
  bytes := b.bytes
  eidRefs := b.eidRefs.map fun ref => ref.eid.text
  crcType := b.crcType
  crc := b.crc

/-- What the blocks of a list hold. -/
def contents (list : List Entry) : List BlockContents := list.map fun e => e.data.contents

/-- What a bundle holds, wherever it lies. -/
structure BundleContents where
  header : Header
  destination : Option Eid
  source : Option Eid
  reportTo : Option Eid
  currentCustodian : Option Eid
  blocks : List BlockContents
  deriving DecidableEq

def Bundle.contents (b : Bundle) : BundleContents where
  header := b.header
  destination := b.destination.map Str.text
  source := b.source.map Str.text
  reportTo := b.reportTo.map Str.text
  currentCustodian := b.currentCustodian.map Str.text
  blocks := Duplicate.contents b.blocks

def EidRef.addresses (r : EidRef) : List Nat := [r.addr, r.eid.addr]

/-- The objects that a block owns, with itself. -/
def Block.addresses (b : Block) : List Nat :=
  b.addr :: (b.data.map Buffer.addr).toList ++ b.eidRefs.flatMap EidRef.addresses

def Entry.addresses (e : Entry) : List Nat := e.addr :: e.data.addresses

/-- The objects that a block list owns. -/
def addresses (list : List Entry) : List Nat := list.flatMap Entry.addresses

/-- The objects that a bundle owns, with itself. -/
def Bundle.addresses (b : Bundle) : List Nat :=
  b.addr :: (b.destination.toList ++ b.source.toList ++ b.reportTo.toList ++
    b.currentCustodian.toList).map Str.addr ++ Duplicate.addresses b.blocks

/-- The payload block of a list. -/
def payloadOf (list : List Entry) : Option Nat :=
  (list.find? fun e => e.data.type = BlockType.payload).map fun e => e.data.addr

/-! ## Blocks -/

theorem dupRefs_text (list dup : List EidRef) (next : Nat) :
    (dupRefs list dup next).1.map (fun ref => ref.eid.text) =
      (list.map fun ref => ref.eid.text).reverse ++ dup.map fun ref => ref.eid.text := by
  induction list generalizing dup next with
  | nil => rfl
  | cons curRef rest ih =>
    rw [dupRefs, ih, List.map_cons, List.map_cons, List.reverse_cons, List.append_assoc]
    rfl

theorem le_dupRefs (list dup : List EidRef) (next : Nat) :
    next ≤ (dupRefs list dup next).2 := by
  induction list generalizing dup next with
  | nil => exact Nat.le_refl next
  | cons curRef rest ih => exact Nat.le_trans (by omega) (ih (⟨next, _⟩ :: dup) (next + 1 + 1))

theorem dupRefs_addresses {base : Nat} (list dup : List EidRef) {next : Nat}
    (hbase : base ≤ next) (hdup : ∀ p ∈ dup.flatMap EidRef.addresses, base ≤ p) :
    ∀ p ∈ (dupRefs list dup next).1.flatMap EidRef.addresses, base ≤ p := by
  induction list generalizing dup next with
  | nil => exact hdup
  | cons curRef rest ih =>
    refine ih (⟨next, _⟩ :: dup) (show base ≤ next + 1 + 1 by omega) fun p hp => ?_
    simp only [List.flatMap_cons, EidRef.addresses, List.mem_append, List.mem_cons,
      List.not_mem_nil, or_false] at hp
    rcases hp with (rfl | rfl) | hp
    · exact hbase
    · omega
    · exact hdup p hp

/-- The copy of a block, with its EID references in reverse. -/
theorem bundleBlockDup_contents (b : Block) (next : Nat) :
    (bundleBlockDup b next).1.contents = { b.contents with eidRefs := b.contents.eidRefs.reverse } := by
  have hrefs := dupRefs_text b.eidRefs [] (next + 1)
  rw [List.map_nil, List.append_nil] at hrefs
  simp only [bundleBlockDup, Block.contents, hrefs]
  rfl

theorem lt_bundleBlockDup (b : Block) (next : Nat) : next < (bundleBlockDup b next).2 := by
  have hle := le_dupRefs b.eidRefs [] (next + 1)
  simp only [bundleBlockDup]
  omega

theorem bundleBlockDup_addresses (b : Block) (next : Nat) :
    ∀ p ∈ (bundleBlockDup b next).1.addresses, next ≤ p := by
  intro p hp
  have hle := le_dupRefs b.eidRefs [] (next + 1)
  simp only [bundleBlockDup, Block.addresses, Option.map_some, Option.toList_some,
    List.cons_append, List.nil_append, List.mem_cons] at hp
  rcases hp with rfl | rfl | hp
  · exact Nat.le_refl _
  · omega
  · exact dupRefs_addresses b.eidRefs [] (Nat.le_succ next) (fun _ h => nomatch h) p hp

/-! ## Block lists -/

theorem bundleBlockListDup_cons (e : Entry) (rest : List Entry) (next : Nat) :
    bundleBlockListDup (e :: rest) next =
      ((bundleBlockEntryDup e next).1 ::
          (bundleBlockListDup rest (bundleBlockEntryDup e next).2).1,
        (bundleBlockListDup rest (bundleBlockEntryDup e next).2).2) := rfl

theorem lt_bundleBlockEntryDup (e : Entry) (next : Nat) :
    next < (bundleBlockEntryDup e next).2 :=
  Nat.lt_succ_of_lt (lt_bundleBlockDup e.data next)

theorem bundleBlockEntryDup_addresses (e : Entry) (next : Nat) :
    ∀ p ∈ (bundleBlockEntryDup e next).1.addresses, next ≤ p := by
  intro p hp
  rcases List.mem_cons.mp hp with rfl | hp
  · exact Nat.le_of_lt (lt_bundleBlockDup e.data next)
  · exact bundleBlockDup_addresses e.data next p hp

theorem bundleBlockListDup_addresses (list : List Entry) (next : Nat) :
    ∀ p ∈ addresses (bundleBlockListDup list next).1, next ≤ p := by
  induction list generalizing next with
  | nil => exact fun _ h => nomatch h
  | cons e rest ih =>
    intro p hp
    rw [bundleBlockListDup_cons, addresses, List.flatMap_cons, List.mem_append] at hp
    rcases hp with hp | hp
    · exact bundleBlockEntryDup_addresses e next p hp
    · exact Nat.le_trans (Nat.le_of_lt (lt_bundleBlockEntryDup e next)) (ih _ p hp)

/-- The blocks in order, each with its EID references in reverse. -/
theorem bundleBlockListDup_contents (list : List Entry) (next : Nat) :
    contents (bundleBlockListDup list next).1 =
      (contents list).map fun b => { b with eidRefs := b.eidRefs.reverse } := by
  induction list generalizing next with
  | nil => rfl
  | cons e rest ih =>
    rw [bundleBlockListDup_cons, contents, List.map_cons, ← contents, ih]
    exact congrArg (· :: _) (bundleBlockDup_contents e.data next)

/-- The EID references of each block read the same from both ends. -/
def RefsSymmetric (list : List Entry) : Prop :=
  ∀ b ∈ contents list, b.eidRefs.reverse = b.eidRefs

instance (list : List Entry) : Decidable (RefsSymmetric list) :=
  inferInstanceAs (Decidable (∀ b ∈ contents list, _))

theorem bundleBlockListDup_contents_iff (list : List Entry) (next : Nat) :
    contents (bundleBlockListDup list next).1 = contents list ↔ RefsSymmetric list := by
  rw [bundleBlockListDup_contents, RefsSymmetric]
  generalize contents list = blocks
  induction blocks with
  | nil => simp
  | cons b rest ih =>
    rw [List.map_cons, List.cons.injEq, ih, List.forall_mem_cons]
    refine and_congr_left fun _ => ⟨fun h => congrArg BlockContents.eidRefs h, fun h => ?_⟩
    rw [h]

/-! ## The search for the payload block -/

theorem searchPayload_of_head {e : Entry} {rest : List Entry} (fuel : Nat)
    (h : e.data.type = BlockType.payload) :
    searchPayload (fuel + 1) (e :: rest) = some (some e.data.addr) := if_pos h

/-- Otherwise it goes on forever. -/
theorem searchPayload_of_not_head {e : Entry} {rest : List Entry} (fuel : Nat)
    (h : e.data.type ≠ BlockType.payload) : searchPayload fuel (e :: rest) = none := by
  induction fuel with
  | zero => rfl
  | succ fuel ih => rw [searchPayload, if_neg h, ih]

/-! ## Bundles -/

theorem strdupField_text (s : Option Str) (next : Nat) :
    (strdupField s next).1.map Str.text = s.map Str.text := by
  cases s <;> rfl

theorem le_strdupField (s : Option Str) (next : Nat) : next ≤ (strdupField s next).2 := by
  cases s with
  | none => exact Nat.le_refl next
  | some s => exact Nat.le_succ next

theorem strdupField_addr {s : Option Str} {next base : Nat} (hbase : base ≤ next) :
    ∀ x ∈ (strdupField s next).1.toList, base ≤ x.addr := by
  cases s with
  | none => exact fun _ h => nomatch h
  | some s =>
    intro x hx
    obtain rfl := List.mem_singleton.mp hx
    exact hbase

/-- What is copied before the search is new. -/
theorem bundleDupBlocks_addresses (bundle : Bundle) (next : Nat) :
    ∀ p ∈ (bundleDupBlocks bundle next).1.addresses, next ≤ p := by
  have h₁ := le_strdupField bundle.source (next + 1)
  have h₂ := le_strdupField bundle.destination (strdupField bundle.source (next + 1)).2
  have h₃ := le_strdupField bundle.reportTo
    (strdupField bundle.destination (strdupField bundle.source (next + 1)).2).2
  have h₄ := le_strdupField bundle.currentCustodian (strdupField bundle.reportTo
    (strdupField bundle.destination (strdupField bundle.source (next + 1)).2).2).2
  intro p hp
  simp only [bundleDupBlocks, Bundle.addresses, List.map_append, List.cons_append,
    List.mem_cons, List.mem_append, List.mem_map] at hp
  rcases hp with rfl | ((((⟨x, hx, rfl⟩ | ⟨x, hx, rfl⟩) | ⟨x, hx, rfl⟩) | ⟨x, hx, rfl⟩) | hp)
  · exact Nat.le_refl _
  · exact strdupField_addr (by omega) x hx
  · exact strdupField_addr (by omega) x hx
  · exact strdupField_addr (by omega) x hx
  · exact strdupField_addr (by omega) x hx
  · exact Nat.le_trans (by omega) (bundleBlockListDup_addresses bundle.blocks _ p hp)

/-- Apart from the EID references, the copy holds what the bundle holds. -/
theorem bundleDupBlocks_contents (bundle : Bundle) (next : Nat) :
    (bundleDupBlocks bundle next).1.contents = { bundle.contents with
      blocks := bundle.contents.blocks.map fun b => { b with eidRefs := b.eidRefs.reverse } } := by
  simp only [bundleDupBlocks, Bundle.contents, strdupField_text, bundleBlockListDup_contents]

theorem bundleDupBlocks_contents_iff (bundle : Bundle) (next : Nat) :
    (bundleDupBlocks bundle next).1.contents = bundle.contents ↔ RefsSymmetric bundle.blocks := by
  rw [← bundleBlockListDup_contents_iff bundle.blocks next, bundleBlockListDup_contents,
    bundleDupBlocks_contents]
  constructor
  · exact fun h => congrArg BundleContents.blocks h
  · intro h
    rw [Bundle.contents, h]

/-- `copy` holds what `list` holds, elsewhere. -/
structure ListCopied (list copy : List Entry) : Prop where
  contents : contents copy = contents list
  apart : ∀ p ∈ addresses copy, p ∉ addresses list

/-- `copy` holds what `bundle` holds, elsewhere, and points to its own payload block. -/
structure Copied (bundle copy : Bundle) : Prop where
  contents : copy.contents = bundle.contents
  apart : ∀ p ∈ copy.addresses, p ∉ bundle.addresses
  payloadBlock : copy.payloadBlock = payloadOf copy.blocks

/-- The search finds the payload block at once, or there is nothing to find. -/
def PayloadFirst (bundle : Bundle) : Prop :=
  match bundle.blocks with
  | [] => bundle.payloadBlock = none
  | e :: _ => e.data.type = BlockType.payload

/-- `bundle_dup` ends, and returns a copy. -/
def DupCopies (bundle : Bundle) (next : Nat) : Prop :=
  ∃ fuel copy next', bundleDup fuel bundle next = some (copy, next') ∧ Copied bundle copy

/-- `bundle_block_list_dup` returns a copy. -/
def ListDupCopies (list : List Entry) (next : Nat) : Prop :=
  ListCopied list (bundleBlockListDup list next).1

theorem listDupCopies_iff {list : List Entry} {next : Nat}
    (hlist : ∀ p ∈ addresses list, p < next) :
    ListDupCopies list next ↔ RefsSymmetric list := by
  rw [← bundleBlockListDup_contents_iff list next]
  refine ⟨fun h => h.contents, fun h => ⟨h, fun p hp hold => ?_⟩⟩
  exact absurd (hlist p hold) (Nat.not_lt.mpr (bundleBlockListDup_addresses list next p hp))

/-- With the pointer set, the copy is one if its EID references and the pointer are right. -/
theorem copied_iff {bundle : Bundle} {next : Nat} (payloadBlock : Option Nat)
    (hbundle : ∀ p ∈ bundle.addresses, p < next) :
    Copied bundle { (bundleDupBlocks bundle next).1 with payloadBlock := payloadBlock } ↔
      RefsSymmetric bundle.blocks ∧
        payloadBlock = payloadOf (bundleDupBlocks bundle next).1.blocks := by
  rw [← bundleDupBlocks_contents_iff bundle next]
  refine ⟨fun h => ⟨h.contents, h.payloadBlock⟩, fun h => ⟨h.1, fun p hp hold => ?_, h.2⟩⟩
  exact absurd (hbundle p hold) (Nat.not_lt.mpr (bundleDupBlocks_addresses bundle next p hp))

theorem dupCopies_iff_search {bundle : Bundle} {next : Nat}
    (hbundle : ∀ p ∈ bundle.addresses, p < next) :
    DupCopies bundle next ↔ RefsSymmetric bundle.blocks ∧
      ∃ fuel found, searchPayload fuel (bundleDupBlocks bundle next).1.blocks = some found ∧
        found.or bundle.payloadBlock = payloadOf (bundleDupBlocks bundle next).1.blocks := by
  constructor
  · rintro ⟨fuel, copy, next', hcopy, h⟩
    obtain ⟨found, hfound, heq⟩ := Option.map_eq_some_iff.mp hcopy
    obtain ⟨rfl, rfl⟩ := Prod.mk.inj heq
    have hcopied := (copied_iff (found.or bundle.payloadBlock) hbundle).mp h
    exact ⟨hcopied.1, fuel, found, hfound, hcopied.2⟩
  · rintro ⟨hrefs, fuel, found, hfound, hpayload⟩
    exact ⟨fuel, _, _, Option.map_eq_some_iff.mpr ⟨found, hfound, rfl⟩,
      (copied_iff (found.or bundle.payloadBlock) hbundle).mpr ⟨hrefs, hpayload⟩⟩

theorem dupCopies_iff {bundle : Bundle} {next : Nat}
    (hbundle : ∀ p ∈ bundle.addresses, p < next) :
    DupCopies bundle next ↔ PayloadFirst bundle ∧ RefsSymmetric bundle.blocks := by
  rw [dupCopies_iff_search hbundle, and_comm]
  refine and_congr_left fun _ => ?_
  -- By the first block: the search ends on it, goes on forever, or has nothing to search.
  cases hblocks : bundle.blocks with
  | nil =>
    have hdup : (bundleDupBlocks bundle next).1.blocks = [] := by
      simp only [bundleDupBlocks, hblocks, bundleBlockListDup]
    have hfirst : PayloadFirst bundle ↔ bundle.payloadBlock = none := by
      rw [PayloadFirst, hblocks]
    rw [hdup, hfirst]
    constructor
    · rintro ⟨fuel, found, hfound, hpayload⟩
      cases fuel with
      | zero => cases hfound
      | succ fuel =>
        obtain rfl := Option.some.inj hfound
        exact hpayload
    · exact fun hnone => ⟨1, none, rfl, hnone⟩
  | cons e rest =>
    obtain ⟨e', rest', hdup, htype⟩ : ∃ e' rest',
        (bundleDupBlocks bundle next).1.blocks = e' :: rest' ∧ e'.data.type = e.data.type := by
      simp only [bundleDupBlocks, hblocks, bundleBlockListDup_cons]
      exact ⟨_, _, rfl, rfl⟩
    have hfirst : PayloadFirst bundle ↔ e'.data.type = BlockType.payload := by
      rw [PayloadFirst, hblocks, htype]
    rw [hdup, hfirst]
    constructor
    · rintro ⟨fuel, found, hfound, -⟩
      by_contra hother
      rw [searchPayload_of_not_head fuel hother] at hfound
      cases hfound
    · intro hpayload
      refine ⟨1, _, searchPayload_of_head 0 hpayload, ?_⟩
      rw [payloadOf, List.find?_cons_of_pos (by simpa using hpayload)]
      rfl

/-- Both functions make copies on the bundles and lists of these kinds, and on no others. -/
theorem copies_iff (bundle : Bundle) (list : List Entry) (next : Nat)
    (hbundle : ∀ p ∈ bundle.addresses, p < next) (hlist : ∀ p ∈ addresses list, p < next) :
    (DupCopies bundle next ↔ PayloadFirst bundle ∧ RefsSymmetric bundle.blocks) ∧
      (ListDupCopies list next ↔ RefsSymmetric list) :=
  ⟨dupCopies_iff hbundle, listDupCopies_iff hlist⟩

/-! ## A bundle with two blocks -/

/-- A block of `type` at `addr`. -/
def blockAt (addr type : Nat) (eidRefs : List EidRef) : Entry where
  addr := addr
  data := {
    addr := addr + 1, type := type, number := 1, flags := 0
    data := some ⟨addr + 2, [1, 2, 3]⟩, eidRefs := eidRefs, crcType := 0, crc := 0 }

/-- A bundle with these blocks, at address 1. -/
def bundleWith (blocks : List Entry) (payloadBlock : Option Nat) : Bundle where
  addr := 1
  header := {
    id := 1, protocolVersion := 6, procFlags := 0
    retConstraints := RetConstraints.none, crcType := 0, creationTimestamp := 0
    sequenceNumber := 1, lifetime := 86400, crc := 0, fragmentOffset := 0, totalAduLength := 0
    primaryBlockLength := 0 }
  destination := some ⟨2, dtnNone⟩
  source := some ⟨3, dtnNone⟩
  reportTo := some ⟨4, dtnNone⟩
  currentCustodian := some ⟨5, dtnNone⟩
  blocks := blocks
  payloadBlock := payloadBlock

/-- The payload block stands behind another one. -/
theorem not_dupCopies_second :
    ∃ bundle : Bundle, (∀ p ∈ bundle.addresses, p < 100) ∧ ¬ DupCopies bundle 100 := by
  refine ⟨bundleWith [blockAt 10 BlockType.hopCount [], blockAt 20 BlockType.payload []]
    (some 21), by decide, fun h => ?_⟩
  exact absurd ((dupCopies_iff (by decide)).mp h).1 (show ¬ BlockType.hopCount = BlockType.payload
    by decide)

/-- References to `dtn:a`, to `dtn:b` and to `dtn:a` again. -/
def threeRefs (addr : Nat) : List EidRef :=
  [⟨addr, addr + 1, "dtn:a".toList⟩, ⟨addr + 2, addr + 3, "dtn:b".toList⟩,
    ⟨addr + 4, addr + 5, "dtn:a".toList⟩]

/-- The payload block is the first one, and the references are the same in both directions. -/
theorem copies_iff_threeRefs :
    DupCopies (bundleWith [blockAt 20 BlockType.payload [], blockAt 30 7 (threeRefs 40)]
        (some 21)) 100 ∧
      ListDupCopies [blockAt 30 7 (threeRefs 40), blockAt 60 BlockType.hopCount []] 100 := by
  obtain ⟨hbundle, hlist⟩ := copies_iff
    (bundleWith [blockAt 20 BlockType.payload [], blockAt 30 7 (threeRefs 40)] (some 21))
    [blockAt 30 7 (threeRefs 40), blockAt 60 BlockType.hopCount []] 100 (by decide) (by decide)
  exact ⟨hbundle.mpr ⟨rfl, by decide⟩, hlist.mpr (by decide)⟩

end Upcn.Duplicate
