import Upcn.Processor.Assembly

/-!
# The blocks of a received bundle

The loop of `bundle_receive` takes a block out of the list through the slot that points to
it, and steps on from that slot: the entry behind the block is not looked at.

* `examined` is the loop with the places of the blocks that it looks at.
* `toExamine` and `kept` say what the loop is to do: look at each block up to the first
  one that asks for the deletion of the bundle, and keep those that need not be discarded.
* `bundleReceive_blocks_iff` says when the loop does that.
-/

namespace Upcn

open Outcome BundleProcessor

/-! ## Entries of the block list -/

namespace BlockEntry

/-- The block of an entry, unless it is a payload block. -/
def unknown : BlockEntry → Option Block
  | .payload => none
  | .extension block => if block.type = BlockType.payload then none else some block

/-- The entry is a payload block. -/
def isPayload (e : BlockEntry) : Bool := e.unknown.isNone

/-- The entry asks for the deletion of the bundle. -/
def deletes (e : BlockEntry) : Bool :=
  e.unknown.any fun block => hasFlag block.flags BlockFlag.deleteBundleIfUnproc

/-- The entry is to be taken out of the list. -/
def discarded (e : BlockEntry) : Bool :=
  e.unknown.any fun block => hasFlag block.flags BlockFlag.discardIfUnproc

/-- An entry that stays, with `BUNDLE_V6_BLOCK_FLAG_FWD_UNPROC` unless it is a payload
block. -/
def marked : BlockEntry → BlockEntry
  | .payload => .payload
  | .extension block =>
    if block.type = BlockType.payload then .extension block
    else .extension { block with flags := block.flags ||| BlockFlag.fwdUnproc }

variable {block : Block}

@[simp] theorem unknown_payload : unknown .payload = none := rfl

theorem unknown_extension (h : ¬ block.type = BlockType.payload) :
    unknown (.extension block) = some block := if_neg h

theorem unknown_extension_payload (h : block.type = BlockType.payload) :
    unknown (.extension block) = none := if_pos h

end BlockEntry

/-! ## What the loop is to do -/

/-- The entries up to the first one that asks for the deletion of the bundle. -/
def reached : List BlockEntry → List BlockEntry
  | [] => []
  | e :: rest => if e.deletes then [e] else e :: reached rest

/-- The blocks among these that are not payload blocks, with their places from `i`
on. -/
def toExamine (i : Nat) (blocks : List BlockEntry) : List (Block × Nat) :=
  ((reached blocks).zipIdx i).filterMap fun x => x.1.unknown.map fun block => (block, x.2)

/-- The blocks of the dispatched bundle, if it is not deleted. -/
def kept (blocks : List BlockEntry) : Option (List BlockEntry) :=
  if blocks.any (·.deletes) then none
  else some ((blocks.filter fun e => !e.discarded).map (·.marked))

/-! ## What it does -/

/-- The blocks that the loop hands to `handle_unknown_block_flags`, with their places from
`i` on. -/
def examined (i : Nat) : List BlockEntry → List (Block × Nat)
  | [] => []
  | .payload :: rest => examined (i + 1) rest
  | .extension block :: rest =>
    if block.type = BlockType.payload then examined (i + 1) rest
    else match unknownBlockResult block.flags with
      | .ok => (block, i) :: examined (i + 1) rest
      | .deleted => [(block, i)]
      | .blockDiscarded =>
        match rest with
        | [] => [(block, i)]
        | _ :: rest => (block, i) :: examined (i + 2) rest

theorem examined_extension (i : Nat) (block : Block) (rest : List BlockEntry) :
    examined i (.extension block :: rest) =
      if block.type = BlockType.payload then examined (i + 1) rest
      else match unknownBlockResult block.flags with
        | .ok => (block, i) :: examined (i + 1) rest
        | .deleted => [(block, i)]
        | .blockDiscarded =>
          match rest with
          | [] => [(block, i)]
          | _ :: rest => (block, i) :: examined (i + 2) rest := by
  rw [examined.eq_def]

/-- The loop looks at each block that it is to look at, in order, and leaves the blocks
that are to be left. -/
structure HandlesBlocks (blocks : List BlockEntry) : Prop where
  examined : examined 0 blocks = toExamine 0 blocks
  left : blocksLeft blocks = kept blocks

/-- No block that is discarded stands directly before one that is not a payload block, as
far as the loop is to get. -/
def NoneSkipped (blocks : List BlockEntry) : Prop :=
  (reached blocks).IsChain fun e next => e.discarded = true → next.isPayload = true

instance (blocks : List BlockEntry) : Decidable (NoneSkipped blocks) :=
  inferInstanceAs (Decidable ((reached blocks).IsChain _))

variable {blocks rest : List BlockEntry} {block : Block} {e : BlockEntry} {i : Nat}

/-! ### One entry -/

theorem reached_cons (h : e.deletes = false) : reached (e :: rest) = e :: reached rest := by
  rw [reached, h]
  rfl

theorem head?_reached (blocks : List BlockEntry) : (reached blocks).head? = blocks.head? := by
  cases blocks with
  | nil => rfl
  | cons e rest =>
    rw [reached]
    split <;> rfl

theorem toExamine_payload (h : e.unknown = none) :
    toExamine i (e :: rest) = toExamine (i + 1) rest := by
  rw [toExamine, reached_cons (by rw [BlockEntry.deletes, h]; rfl), List.zipIdx_cons,
    List.filterMap_cons, h]
  rfl

theorem toExamine_cons (h : e.unknown = some block) (hdel : e.deletes = false) :
    toExamine i (e :: rest) = (block, i) :: toExamine (i + 1) rest := by
  rw [toExamine, reached_cons hdel, List.zipIdx_cons, List.filterMap_cons, h]
  rfl

theorem toExamine_deletes (h : e.unknown = some block) (hdel : e.deletes = true) :
    toExamine i (e :: rest) = [(block, i)] := by
  rw [toExamine, reached, hdel, if_pos rfl, List.zipIdx_cons, List.filterMap_cons, h]
  rfl

theorem kept_cons (hdel : e.deletes = false) : kept (e :: rest) =
    if e.discarded then kept rest else (kept rest).map (e.marked :: ·) := by
  unfold kept
  rw [List.any_cons, hdel, Bool.false_or, List.filter_cons]
  cases e.discarded <;> cases rest.any (·.deletes) <;> rfl

theorem kept_deletes (hdel : e.deletes = true) : kept (e :: rest) = none := by
  rw [kept, List.any_cons, hdel, Bool.true_or, if_pos rfl]

theorem noneSkipped_cons (hdel : e.deletes = false) : NoneSkipped (e :: rest) ↔
    (e.discarded = true → ∀ next ∈ rest.head?, next.isPayload = true) ∧
      NoneSkipped rest := by
  unfold NoneSkipped
  rw [reached_cons hdel, List.isChain_cons, head?_reached]
  constructor
  · intro h
    exact ⟨fun hdiscarded next hnext => h.1 next hnext hdiscarded, h.2⟩
  · intro h
    exact ⟨fun next hnext hdiscarded => h.1 hdiscarded next hnext, h.2⟩

theorem noneSkipped_payload (h : e.unknown = none) :
    NoneSkipped (e :: rest) ↔ NoneSkipped rest := by
  have hdiscarded : e.discarded = false := by rw [BlockEntry.discarded, h]; rfl
  rw [noneSkipped_cons (by rw [BlockEntry.deletes, h]; rfl), hdiscarded]
  simp

/-- What the flags of a block say, by the result of `handle_unknown_block_flags`. -/
theorem flags_of_unknownBlockResult (h : ¬ block.type = BlockType.payload) :
    (BlockEntry.extension block).deletes = (unknownBlockResult block.flags == .deleted) ∧
      ((BlockEntry.extension block).deletes = false →
        (BlockEntry.extension block).discarded
          = (unknownBlockResult block.flags == .blockDiscarded)) := by
  unfold BlockEntry.deletes BlockEntry.discarded unknownBlockResult
  rw [BlockEntry.unknown_extension h, Option.any_some, Option.any_some]
  cases hasFlag block.flags BlockFlag.deleteBundleIfUnproc with
  | true => exact ⟨rfl, fun hfalse => by cases hfalse⟩
  | false =>
    cases hasFlag block.flags BlockFlag.discardIfUnproc with
    | true => exact ⟨rfl, fun _ => rfl⟩
    | false => exact ⟨rfl, fun _ => rfl⟩

/-! ### The whole list -/

/-- Each place that the loop looks at is behind its start. -/
theorem le_of_mem_examined {x : Block × Nat} (h : x ∈ examined i blocks) : i ≤ x.2 := by
  induction blocks using blocksLeft.induct generalizing i with
  | case1 => cases h
  | case2 rest ih => exact Nat.le_of_succ_le (ih h)
  | case3 block rest htype ih =>
    rw [examined_extension, if_pos htype] at h
    exact Nat.le_of_succ_le (ih h)
  | case4 block rest htype hresult ih =>
    simp only [examined_extension, if_neg htype, hresult] at h
    rcases List.mem_cons.mp h with rfl | h
    · exact Nat.le_refl i
    · exact Nat.le_of_succ_le (ih h)
  | case5 block rest htype hresult =>
    simp only [examined_extension, if_neg htype, hresult] at h
    rw [List.mem_singleton.mp h]
  | case6 block htype hresult =>
    simp only [examined_extension, if_neg htype, hresult] at h
    rw [List.mem_singleton.mp h]
  | case7 block htype hresult next rest ih =>
    simp only [examined_extension, if_neg htype, hresult] at h
    rcases List.mem_cons.mp h with rfl | h
    · exact Nat.le_refl i
    · have hle := ih h
      omega

/-- An entry that is not a payload block is to be looked at. -/
theorem mem_toExamine_head (h : e.unknown = some block) :
    (block, i) ∈ toExamine i (e :: rest) := by
  cases hdel : e.deletes with
  | true =>
    rw [toExamine_deletes h hdel]
    exact List.mem_cons_self
  | false =>
    rw [toExamine_cons h hdel]
    exact List.mem_cons_self

theorem examined_eq_iff :
    examined i blocks = toExamine i blocks ↔ NoneSkipped blocks := by
  induction blocks using blocksLeft.induct generalizing i with
  | case1 => exact iff_of_true rfl List.isChain_nil
  | case2 rest ih =>
    rw [examined, toExamine_payload rfl, noneSkipped_payload rfl]
    exact ih
  | case3 block rest htype ih =>
    have hnone := BlockEntry.unknown_extension_payload htype
    rw [examined_extension, if_pos htype, toExamine_payload hnone, noneSkipped_payload hnone]
    exact ih
  | case4 block rest htype hresult ih =>
    have hflags := flags_of_unknownBlockResult htype
    rw [hresult] at hflags
    simp only [examined_extension, if_neg htype, hresult]
    rw [toExamine_cons (BlockEntry.unknown_extension htype) hflags.1,
      noneSkipped_cons hflags.1, hflags.2 hflags.1, List.cons.injEq, ih]
    simp
  | case5 block rest htype hresult =>
    have hflags := flags_of_unknownBlockResult htype
    rw [hresult] at hflags
    simp only [examined_extension, if_neg htype, hresult]
    rw [toExamine_deletes (BlockEntry.unknown_extension htype) hflags.1]
    refine iff_of_true rfl ?_
    rw [NoneSkipped, reached, hflags.1]
    exact List.isChain_singleton _
  | case6 block htype hresult =>
    have hflags := flags_of_unknownBlockResult htype
    rw [hresult] at hflags
    simp only [examined_extension, if_neg htype, hresult]
    rw [toExamine_cons (BlockEntry.unknown_extension htype) hflags.1]
    refine iff_of_true rfl ?_
    rw [noneSkipped_cons hflags.1]
    exact ⟨fun _ _ hnext => absurd hnext (Option.not_mem_none _), List.isChain_nil⟩
  | case7 block htype hresult next rest ih =>
    have hflags := flags_of_unknownBlockResult htype
    rw [hresult] at hflags
    simp only [examined_extension, if_neg htype, hresult]
    rw [toExamine_cons (BlockEntry.unknown_extension htype) hflags.1,
      noneSkipped_cons hflags.1, hflags.2 hflags.1, List.cons.injEq]
    cases hnext : next.unknown with
    | none =>
      -- a payload block may be skipped
      rw [toExamine_payload hnext, noneSkipped_payload hnext, ih]
      simp [BlockEntry.isPayload, hnext]
    | some b =>
      refine iff_of_false (fun h => ?_) fun h => ?_
      · have hmem : (b, i + 1) ∈ examined (i + 2) rest := by
          rw [h.2]
          exact mem_toExamine_head hnext
        have hle := le_of_mem_examined hmem
        omega
      · have hpayload := h.1 rfl next rfl
        rw [BlockEntry.isPayload, hnext] at hpayload
        cases hpayload

theorem blocksLeft_eq (h : NoneSkipped blocks) : blocksLeft blocks = kept blocks := by
  induction blocks using blocksLeft.induct with
  | case1 => rfl
  | case2 rest ih =>
    rw [blocksLeft, ih ((noneSkipped_payload rfl).mp h)]
    exact (kept_cons (e := .payload) rfl).symm
  | case3 block rest htype ih =>
    have hnone := BlockEntry.unknown_extension_payload htype
    rw [blocksLeft_extension, if_pos htype, ih ((noneSkipped_payload hnone).mp h),
      kept_cons (by rw [BlockEntry.deletes, hnone]; rfl), BlockEntry.discarded, hnone,
      BlockEntry.marked, if_pos htype]
    rfl
  | case4 block rest htype hresult ih =>
    have hflags := flags_of_unknownBlockResult htype
    rw [hresult] at hflags
    simp only [blocksLeft_extension, if_neg htype, hresult]
    rw [ih ((noneSkipped_cons hflags.1).mp h).2, kept_cons hflags.1, hflags.2 hflags.1,
      BlockEntry.marked, if_neg htype]
    rfl
  | case5 block rest htype hresult =>
    have hflags := flags_of_unknownBlockResult htype
    rw [hresult] at hflags
    simp only [blocksLeft_extension, if_neg htype, hresult]
    exact (kept_deletes hflags.1).symm
  | case6 block htype hresult =>
    have hflags := flags_of_unknownBlockResult htype
    rw [hresult] at hflags
    simp only [blocksLeft_extension, if_neg htype, hresult]
    rw [kept_cons hflags.1, hflags.2 hflags.1]
    rfl
  | case7 block htype hresult next rest ih =>
    have hflags := flags_of_unknownBlockResult htype
    rw [hresult] at hflags
    have hdiscarded := hflags.2 hflags.1
    obtain ⟨hhead, htail⟩ := (noneSkipped_cons hflags.1).mp h
    have hpayload := hhead hdiscarded next rfl
    have hnext : next.unknown = none := Option.isNone_iff_eq_none.mp hpayload
    simp only [blocksLeft_extension, if_neg htype, hresult]
    rw [ih ((noneSkipped_payload hnext).mp htail), kept_cons hflags.1, hdiscarded,
      kept_cons (by rw [BlockEntry.deletes, hnext]; rfl), BlockEntry.discarded, hnext]
    have hmarked : next.marked = next := by
      cases next with
      | payload => rfl
      | extension b =>
        have htype : b.type = BlockType.payload := by
          by_contra hnot
          rw [BlockEntry.unknown_extension hnot] at hnext
          cases hnext
        exact if_pos htype
    rw [hmarked]
    rfl

theorem handlesBlocks_iff : HandlesBlocks blocks ↔ NoneSkipped blocks := by
  constructor
  · intro h
    exact examined_eq_iff.mp h.examined
  · intro h
    exact ⟨examined_eq_iff.mpr h, blocksLeft_eq h⟩

/-! ## The reception -/

namespace BundleProcessor

variable (env : Env) (o : Inputs)

/-- The report for a block that was looked at. -/
def reportBlock (a : Addr) (p : BundleProcessor) (x : Block × Nat) :
    Except Fault BundleProcessor :=
  p.onlyIf (hasFlag x.1.flags BlockFlag.reportIfUnproc)
    (·.sendStatusReport env o a .bundleReceived .blockUnintelligible)

/-- `bundle_receive` behind the loop, which has left the blocks. -/
def leaveBlocks (a : Addr) (left : Option (List BlockEntry)) (p : BundleProcessor) :
    Except Fault BundleProcessor :=
  match left with
  | none => p.bundleDelete env o a .blockUnintelligible
  | some blocks => do
    let p ← p.modify a fun b => { b with blocks := blocks }
    p.receiveAccepted env o a

variable {env o} {p : BundleProcessor} {a : Addr} {b : Bundle}

theorem handleUnknownBlockFlags_eq (i : Nat) :
    p.handleUnknownBlockFlags env o a block.flags =
      (reportBlock env o a p (block, i) >>= fun p =>
        pure (unknownBlockResult block.flags, p)) := rfl

/-- The loop reports on the blocks that it looks at, in order. -/
theorem handleBlocks_examined (i : Nat) : handleBlocks env o a p blocks =
    ((examined i blocks).foldlM (reportBlock env o a) p >>= fun p =>
      pure (blocksLeft blocks, p)) := by
  induction blocks using blocksLeft.induct generalizing p i with
  | case1 => rfl
  | case2 rest ih =>
    rw [handleBlocks, ih (i + 1), bind_assoc]
    rfl
  | case3 block rest htype ih =>
    rw [handleBlocks, if_pos htype, ih (i + 1), bind_assoc, blocksLeft_extension,
      if_pos htype, examined_extension, if_pos htype]
    rfl
  | case4 block rest htype hresult ih =>
    simp only [handleBlocks, blocksLeft_extension, examined_extension, if_neg htype, hresult,
      handleUnknownBlockFlags_eq i, List.foldlM_cons, bind_assoc]
    refine bind_congr fun q => ?_
    rw [pure_bind]
    dsimp only
    rw [ih (i + 1), bind_assoc]
    rfl
  | case5 block rest htype hresult =>
    simp only [handleBlocks, blocksLeft_extension, examined_extension, if_neg htype, hresult,
      handleUnknownBlockFlags_eq i, List.foldlM_cons, bind_assoc]
    rfl
  | case6 block htype hresult =>
    simp only [handleBlocks, blocksLeft_extension, examined_extension, if_neg htype, hresult,
      handleUnknownBlockFlags_eq i, List.foldlM_cons, bind_assoc]
    rfl
  | case7 block htype hresult next rest ih =>
    simp only [handleBlocks, blocksLeft_extension, examined_extension, if_neg htype, hresult,
      handleUnknownBlockFlags_eq i, List.foldlM_cons, bind_assoc]
    refine bind_congr fun q => ?_
    rw [pure_bind]
    dsimp only
    rw [ih (i + 2), bind_assoc]
    rfl

/-- Past the lifetime check `bundle_receive` reports on the blocks that its loop looks at,
and deletes the bundle or goes on with the blocks that are left.  These are the right
blocks if and only if none is skipped. -/
theorem bundleReceive_blocks_iff (h : p.cells a = .live b)
    (hlifetime : ¬ (b.creationTimestamp ≠ 0 ∧
      b.bundleGetExpirationTime 0 < o.receiveTime)) :
    p.bundleReceive env o a = (do
      let p ← p.bundleAddRc a .addDispatchPending
      let p ← p.onlyIf (b.hasProcFlag ProcFlag.reportReception)
        (·.sendStatusReport env o a .bundleReceived .noInfo)
      let p ← (examined 0 b.blocks).foldlM (reportBlock env o a) p
      p.leaveBlocks env o a (blocksLeft b.blocks)) ∧
    (HandlesBlocks b.blocks ↔ NoneSkipped b.blocks) := by
  refine ⟨?_, handlesBlocks_iff⟩
  rw [bundleReceive, bundleAddRc_of_live h, ok_bind, ok_bind,
    load_of_live (cells_setCell_self _), ok_bind]
  refine bind_congr fun q => ?_
  refine (if_neg hlifetime).trans ?_
  rw [handleBlocks_examined 0, bind_assoc]
  rfl

/-! ## Blocks that ask to be discarded -/

/-- A block of an unknown type that is discarded if it cannot be processed. -/
def discardable (type : Nat) : BlockEntry :=
  .extension ⟨type, BlockFlag.discardIfUnproc, []⟩

/-- A bundle with these blocks has just arrived. -/
def arrivedWith (blocks : List BlockEntry) : BundleProcessor :=
  { BundleProcessor.initial with
    cells := fun a =>
      if a = 1 then .live { plainFragment 1 0 2 ⟨[1, 2], length_oneTwo⟩ with blocks := blocks }
      else .unused }

/-- One block is discarded before the payload block. -/
theorem handlesBlocks_one : HandlesBlocks [discardable 192, .payload] :=
  (@bundleReceive_blocks_iff plainEnv (plainInputs 1002)
    (arrivedWith [discardable 192, .payload]) 1 _ rfl (by decide)).2.mpr (by decide)

/-- Of two blocks that are to be discarded the second one stays. -/
theorem handlesBlocks_two_fails :
    blocksLeft [discardable 192, discardable 193, .payload]
        = some [discardable 193, .payload] ∧
      ¬ HandlesBlocks [discardable 192, discardable 193, .payload] := by
  refine ⟨by decide, fun h => ?_⟩
  have hleft := h.left
  exact absurd hleft (by decide)

end BundleProcessor

end Upcn
