import Upcn.Processor.AdminBundles
import Upcn.Router.Task

/-!
# Fragments of bundles

`bundlefragmenter_fragment_bundle` with `bundle6_fragment_bundle`,
`replicate_blocks` and `bundle7_fragment_bundle`, and what routing does to the
administrative bundles.

A fragment takes the flags and the retention constraints of its bundle: the
fragments of a silent bundle are silent.  `routeBundle_guarded` says so for
`ROUTER_SIGNAL_ROUTE_BUNDLE` as a whole.

* `fragmentBundle_splits` is about one call of the fragmenter.
* `createFragments_guarded`, `addFragments_guarded` and `discardFragments_guarded`
  are about the loops of `apply_fragmentation`.
-/

namespace Upcn

open Outcome Store

/-! ## The blocks -/

/-- `bundle_block_must_be_replicated`, for a block that is not the payload. -/
def BlockEntry.mustBeReplicated : BlockEntry → Bool
  | .payload => false
  | .extension block =>
    hasFlag block.flags BlockFlag.mustBeReplicated && block.type != BlockType.payload

/-- The blocks up to the payload, which is the last of them. -/
def Bundle.firstBlocks (b : Bundle) : List BlockEntry :=
  b.blocks.takeWhile (· != .payload) ++ (b.blocks.dropWhile (· != .payload)).take 1

/-- The blocks behind the payload. -/
def Bundle.blocksBehind (b : Bundle) : List BlockEntry :=
  (b.blocks.dropWhile (· != .payload)).drop 1

/-- `total_adu_length` of the fragments of a bundle. -/
def Bundle.aduLength (b : Bundle) : UInt32 :=
  if b.bundleIsFragmented then b.totalAduLength else b.payloadLength

/-- The first `n` bytes. -/
def Payload.first (data : Payload) (n : Nat) : Payload :=
  ⟨data.val.take n, lt_of_le_of_lt (List.length_take_le' n data.val) data.property⟩

/-- The bytes behind the first `n`. -/
def Payload.behind (data : Payload) (n : Nat) : Payload :=
  ⟨data.val.drop n, by
    rw [List.length_drop]
    exact lt_of_le_of_lt (Nat.sub_le _ n) data.property⟩

/-- `replicate_blocks`: the blocks of the two fragments afterwards.  When blocks
before the payload are replicated, `item` points behind the last copy at the end of
the loop, and `(*item)->next` follows a null pointer. -/
def replicateBlocks (replicateMem : Bool) (first second : List BlockEntry) :
    Except Fault (List BlockEntry × List BlockEntry) :=
  if first.any BlockEntry.mustBeReplicated then
    if replicateMem then .error .nullDeref else .ok (first, second)
  else if replicateMem then
    .ok (first ++ second.filter BlockEntry.mustBeReplicated, second)
  else .ok (first, second)

/-! ## The fragmenter -/

/-- The allocations of one call of `bundlefragmenter_fragment_bundle`. -/
structure SplitMemory where
  /-- The second fragment. -/
  bundleMem : Option Addr
  /-- Its payload block, and the entry of it. -/
  payloadMem : Bool
  /-- The data of its payload block. -/
  dataMem : Bool
  /-- The copies of the replicated blocks. -/
  replicateMem : Bool
  /-- `realloc` returns the shortened payload of the first fragment. -/
  shrinkMem : Bool

namespace BundleProcessor

variable (minSize : Bundle → Nat) (m : SplitMemory)

/-- `bundle6_fragment_bundle`.  The length of the first payload wraps around when the
size is too small. -/
def bundle6FragmentBundle (p : BundleProcessor) (a : Addr) (firstMax : Nat) :
    Except Fault (Option Addr × BundleProcessor) := do
  let b ← p.load a
  let firstLength := UInt32.ofNat (subSize firstMax (minSize b))
  if b.payloadLength ≤ firstLength then return (some a, p)
  else match m.bundleMem with
    | none => return (none, p)
    | some c => do
      let p ← p.allocate c
        { createNewFragment b with blocks := [.payload], payload := .empty }
      if !m.payloadMem then do
        let p ← p.bundleFree c
        return (none, p)
      else do
        let p ← p.modify a fun b => { b with totalAduLength := b.aduLength }
        if !m.dataMem then do
          let p ← p.bundleFree c
          return (none, p)
        else if !m.shrinkMem then throw .assertion
        else do
          let (first, second) ← replicateBlocks m.replicateMem b.firstBlocks
            (.payload :: b.blocksBehind)
          let p ← p.modify a fun b => { b with
            payload := b.payload.first firstLength.toNat
            blocks := first
            procFlags := b.procFlags ||| ProcFlag.isFragment }
          let p ← p.modify c fun x => { x with
            payload := b.payload.behind firstLength.toNat
            fragmentOffset := b.fragmentOffset + firstLength
            blocks := second }
          return (some c, p)

/-- `bundle7_fragment_bundle`. -/
def bundle7FragmentBundle (p : BundleProcessor) (a : Addr) (firstMax : Nat) :
    Except Fault (Option Addr × BundleProcessor) := do
  let b ← p.load a
  let firstLength := UInt32.ofNat (firstMax - minSize b)
  if firstMax < minSize b then return (none, p)
  else if b.payloadLength ≤ firstLength then return (some a, p)
  else match m.bundleMem with
    | none => return (none, p)
    | some c => do
      let replicated := b.blocks.filter BlockEntry.mustBeReplicated
      let p ← p.allocate c
        { createNewFragment b with blocks := [], payload := .empty }
      if !((m.replicateMem || replicated.isEmpty) && m.payloadMem && m.dataMem) then do
        let p ← p.bundleFree c
        return (none, p)
      else if !m.shrinkMem then throw .assertion
      else do
        let p ← p.modify a fun b => { b with
          totalAduLength := b.aduLength
          payload := b.payload.first firstLength.toNat
          procFlags := b.procFlags ||| ProcFlag.isFragment }
        let p ← p.modify c fun x => { x with
          payload := b.payload.behind firstLength.toNat
          fragmentOffset := b.fragmentOffset + firstLength
          totalAduLength := b.aduLength
          procFlags := x.procFlags ||| ProcFlag.isFragment
          blocks := replicated ++ [.payload] }
        return (some c, p)

/-- `bundlefragmenter_fragment_bundle`.  `minSize` is
`bundle_get_first_fragment_min_size`, and `memory` gives the allocations of the call
for a bundle. -/
def fragmentBundle (memory : Addr → SplitMemory) (p : BundleProcessor) (a : Addr)
    (firstMax : Nat) : Except Fault (Option Addr × BundleProcessor) := do
  let b ← p.load a
  if b.protocolVersion = 6 then
    p.bundle6FragmentBundle minSize (memory a) a firstMax
  else if b.protocolVersion = 7 then
    p.bundle7FragmentBundle minSize (memory a) a firstMax
  else return (none, p)

end BundleProcessor

/-! ## Silent fragments -/

variable {b c x : Bundle}

/-- The flag of a fragment is none of those that ask for a notice. -/
theorem hasFlag_or_isFragment {flags flag : UInt32} (h : flag ∈ noticeFlags) :
    hasFlag (flags ||| ProcFlag.isFragment) flag = hasFlag flags flag := by
  have hnone : (noticeFlags.all fun flag => ProcFlag.isFragment &&& flag == 0) = true := by
    decide
  have hflag := List.all_eq_true.mp hnone flag h
  rw [beq_iff_eq] at hflag
  have hor : (flags ||| ProcFlag.isFragment) &&& flag = flags &&& flag := by
    have hdistrib : (flags ||| ProcFlag.isFragment) &&& flag
        = (flags &&& flag) ||| (ProcFlag.isFragment &&& flag) :=
      UInt32.toBitVec_inj.1 BitVec.and_or_distrib_right
    rw [hdistrib, hflag, UInt32.or_zero]
  rw [hasFlag, hasFlag, hor]

namespace Bundle.Silent

/-- A bundle with the flag of a fragment. -/
theorem fragment (h : b.Silent) (hflags : c.procFlags = b.procFlags ||| ProcFlag.isFragment)
    (hret : c.retConstraints = b.retConstraints) : c.Silent where
  flags flag hflag := by
    have hb := h.flags flag hflag
    unfold Bundle.hasProcFlag at hb ⊢
    rw [hflags, hasFlag_or_isFragment hflag, hb]
  dispatch := by rw [hret, h.dispatch]
  custody := by rw [hret, h.custody]
  reassembly := by rw [hret, h.reassembly]

/-- A bundle with other headers. -/
theorem headers (h : b.Silent) (hflags : c.procFlags = b.procFlags)
    (hret : c.retConstraints = b.retConstraints) : c.Silent :=
  h.of_flags hflags (by rw [hret, h.dispatch]) (by rw [hret, h.custody])
    (by rw [hret, h.reassembly])

end Bundle.Silent

namespace BundleProcessor

variable {kind : Prop} {own made : Addr → Prop} {p q : BundleProcessor} {a : Addr}

/-! ## One call of the fragmenter -/

/-- What a step of the fragmenter leaves: no bundle is stored or removed. -/
structure Apart (kind : Prop) (own made : Addr → Prop) (p q : BundleProcessor) :
    Prop where
  guarded : Guarded kind own made q
  store : q.store = p.store

theorem Apart.refl (h : Guarded kind own made p) : Apart kind own made p p := ⟨h, rfl⟩

theorem Apart.bind {α : Type} {step : Except Fault BundleProcessor}
    {f : BundleProcessor → Except Fault (α × BundleProcessor)}
    {Q : α → Prop} (h : Ends AnyFault step (Apart kind own made p))
    (hf : ∀ q, Apart kind own made p q →
      Ends AnyFault (f q) fun r => Apart kind own made q r.2 ∧ Q r.1) :
    Ends AnyFault (step >>= f) fun r => Apart kind own made p r.2 ∧ Q r.1 := by
  refine h.bind fun q hq => (hf q hq).imp fun r hr => ?_
  exact ⟨⟨hr.1.guarded, hr.1.store.trans hq.store⟩, hr.2⟩

theorem modify_apart (h : Guarded kind own made p) (a : Addr) {f : Bundle → Bundle}
    (hf : ∀ b : Bundle, b.Silent → (f b).Silent) (hid : ∀ b : Bundle, (f b).id = b.id) :
    Ends AnyFault (p.modify a f) (Apart kind own made p) := by
  refine (load_any p a).bind fun b hb => ?_
  exact ⟨h.setCell hb fun _ hsilent => ⟨hf b hsilent, hid b⟩, rfl⟩

theorem bundleFree_apart (h : Guarded kind own made p) (a : Addr) :
    Ends AnyFault (p.bundleFree a) (Apart kind own made p) := by
  refine (load_any p a).bind fun _ _ => ?_
  exact ⟨h.freed rfl fun _ _ hid => hid, rfl⟩

/-- A new bundle is silent if it is one of the node's own. -/
theorem allocate_apart (h : Guarded kind own made p) (c : Addr)
    (hx : kind → x.Silent) :
    Ends AnyFault (p.allocate c x) fun q =>
      Apart kind own made p q ∧ p.cells c = .unused := by
  refine (allocate_ends x).mono (fun _ _ => trivial) fun q hq => ?_
  obtain ⟨hc, rfl⟩ := hq
  have hkind := (h.fresh c hc).2
  exact ⟨⟨h.created hc (fun hown => hx (hkind.mp hown)) rfl (.inl rfl), rfl⟩, hc⟩

/-- A bundle is written to, and the split goes on. -/
theorem modify_bind_apart {f : Bundle → Bundle} {c : Addr}
    {g : BundleProcessor → Except Fault (Option Addr × BundleProcessor)}
    (h : Guarded kind own made p) (y : Addr) (hf : ∀ b : Bundle, b.Silent → (f b).Silent)
    (hid : ∀ b : Bundle, (f b).id = b.id)
    (hg : ∀ q, Guarded kind own made q →
      Ends AnyFault (g q) fun r => Apart kind own made q r.2 ∧ ∀ e ∈ r.1, e = c) :
    Ends AnyFault (p.modify y f >>= g) fun r =>
      Apart kind own made p r.2 ∧ ∀ e ∈ r.1, e = c :=
  Apart.bind (Q := fun d : Option Addr => ∀ e ∈ d, e = c) (modify_apart h y hf hid)
    fun q hq => hg q hq.guarded

/-- What a call of the fragmenter leaves: the bundle it returns is the one that it was
given, or a new one. -/
def Splits (kind : Prop) (own made : Addr → Prop) (p : BundleProcessor) (a : Addr)
    (r : Option Addr × BundleProcessor) : Prop :=
  Apart kind own made p r.2 ∧ ∀ c ∈ r.1, c = a ∨ p.cells c = .unused

/-- The second fragment is given up. -/
theorem giveUp_apart (h : Guarded kind own made p) (c : Addr) :
    Ends AnyFault (p.bundleFree c >>= fun p => pure (none, p)) fun r =>
      Apart kind own made p r.2 ∧ ∀ e ∈ (r.1 : Option Addr), e = c := by
  refine Apart.bind (Q := fun d : Option Addr => ∀ e ∈ d, e = c) (bundleFree_apart h c)
    fun q hq => ?_
  exact ends_ok ⟨Apart.refl hq.guarded, by simp⟩

/-- The end of a call that has allocated the second fragment at `c`. -/
theorem splits_of_allocated {r : Option Addr × BundleProcessor} {c : Addr}
    (hq : Apart kind own made p q) (hc : p.cells c = .unused)
    (hr : Apart kind own made q r.2 ∧ ∀ e ∈ r.1, e = c) :
    Splits kind own made p a r := by
  refine ⟨⟨hr.1.guarded, hr.1.store.trans hq.store⟩, fun e he => ?_⟩
  right
  rw [hr.2 e he, hc]

theorem bundle6FragmentBundle_splits (minSize : Bundle → Nat) (m : SplitMemory)
    (h : Guarded kind own made p) (ha : kind → own a) (size : Nat) :
    Ends AnyFault (p.bundle6FragmentBundle minSize m a size)
      (Splits kind own made p a) := by
  unfold bundle6FragmentBundle
  refine (load_any p a).bind fun b hb => ?_
  dsimp only
  split
  · exact ends_ok ⟨Apart.refl h, by simp⟩
  · split
    · exact ends_ok ⟨Apart.refl h, by simp⟩
    · rename_i c _
      have hsilent : kind → b.Silent := fun hk => h.silent a b (ha hk) hb
      refine Ends.bind (allocate_apart h c fun hk =>
        (hsilent hk).fragment rfl rfl) fun q hq => ?_
      obtain ⟨hq, hc⟩ := hq
      refine Ends.imp ?_ fun r hr => splits_of_allocated hq hc hr
      split
      · exact giveUp_apart hq.guarded c
      · refine modify_bind_apart hq.guarded a (fun e he => he.headers rfl rfl)
          (fun _ => rfl) fun s hs => ?_
        split
        · exact giveUp_apart hs c
        · split
          · exact ends_error (E := AnyFault) trivial
          · refine (ends_any _).bind fun blocks _ => ?_
            refine modify_bind_apart hs a (fun e he => he.fragment rfl rfl)
              (fun _ => rfl) fun t ht => ?_
            refine modify_bind_apart ht c (fun e he => he.headers rfl rfl)
              (fun _ => rfl) fun u hu => ?_
            exact ends_ok ⟨Apart.refl hu, by simp⟩

theorem bundle7FragmentBundle_splits (minSize : Bundle → Nat) (m : SplitMemory)
    (h : Guarded kind own made p) (ha : kind → own a) (size : Nat) :
    Ends AnyFault (p.bundle7FragmentBundle minSize m a size)
      (Splits kind own made p a) := by
  unfold bundle7FragmentBundle
  refine (load_any p a).bind fun b hb => ?_
  dsimp only
  split
  · exact ends_ok ⟨Apart.refl h, by simp⟩
  · split
    · exact ends_ok ⟨Apart.refl h, by simp⟩
    · split
      · exact ends_ok ⟨Apart.refl h, by simp⟩
      · rename_i c _
        have hsilent : kind → b.Silent := fun hk => h.silent a b (ha hk) hb
        refine Ends.bind (allocate_apart h c fun hk =>
          (hsilent hk).fragment rfl rfl) fun q hq => ?_
        obtain ⟨hq, hc⟩ := hq
        refine Ends.imp ?_ fun r hr => splits_of_allocated hq hc hr
        split
        · exact giveUp_apart hq.guarded c
        · split
          · exact ends_error (E := AnyFault) trivial
          · refine modify_bind_apart hq.guarded a (fun e he => he.fragment rfl rfl)
              (fun _ => rfl) fun t ht => ?_
            refine modify_bind_apart ht c (fun e he => he.fragment rfl rfl)
              (fun _ => rfl) fun u hu => ?_
            exact ends_ok ⟨Apart.refl hu, by simp⟩

theorem fragmentBundle_splits (minSize : Bundle → Nat) (memory : Addr → SplitMemory)
    (h : Guarded kind own made p) (ha : kind → own a) (size : Nat) :
    Ends AnyFault (p.fragmentBundle minSize memory a size)
      (Splits kind own made p a) := by
  unfold fragmentBundle
  refine (load_any p a).bind fun b _ => ?_
  split
  · exact bundle6FragmentBundle_splits minSize _ h ha size
  · split
    · exact bundle7FragmentBundle_splits minSize _ h ha size
    · exact ends_ok ⟨Apart.refl h, by simp⟩

theorem initializeFirstFragment_splits (m : FragmentMemory)
    (h : Guarded kind own made p) (ha : kind → own a) :
    Ends AnyFault (p.initializeFirstFragment m a) fun r =>
      Apart kind own made p r.2 ∧ ∀ c ∈ r.1, p.cells c = .unused := by
  unfold initializeFirstFragment
  refine (load_any p a).bind fun b hb => ?_
  split
  · exact ends_ok ⟨Apart.refl h, by simp⟩
  · rename_i c _
    have hsilent : kind → b.Silent := fun hk => h.silent a b (ha hk) hb
    refine Ends.bind (allocate_apart h c fun hk =>
      (hsilent hk).fragment rfl rfl) fun q hq => ?_
    obtain ⟨hq, hc⟩ := hq
    split
    · split
      · exact ends_ok ⟨hq, by simp [hc]⟩
      · exact ends_ok ⟨hq, by simp⟩
    · refine (bundleFree_apart hq.guarded c).bind fun s hs => ?_
      exact ends_ok ⟨⟨hs.guarded, hs.store.trans hq.store⟩, by simp⟩

/-! ## The store -/

/-- A bundle that was not in the store is stored. -/
theorem Guarded.stored (h : Guarded kind own made p) (hb : p.cells a = .live b)
    (hfree : own a → ∀ id, p.store.bundles id ≠ some a) {i : Nat}
    (hcells : q.cells = Function.update p.cells a (.live { b with id := i }))
    (hstore : q.store.bundles = Function.update p.store.bundles i (some a)) :
    Guarded kind own made q := by
  have hstored : ∀ id y, q.store.bundles id = some y →
      id = i ∧ y = a ∨ p.store.bundles id = some y := by
    intro id y hid
    rw [hstore] at hid
    by_cases hi : id = i
    · rw [hi, Function.update_self] at hid
      exact .inl ⟨hi, (Option.some.inj hid).symm⟩
    · rw [Function.update_of_ne hi] at hid
      exact .inr hid
  refine h.written (x := { b with id := i })
    (fun hown => (h.silent a b hown hb).headers rfl rfl) hcells
    (fun id y hya hid => ?_) fun hown id hid => ?_
  · rcases hstored id y hid with hnew | hold
    · exact absurd hnew.2 hya
    · exact hold
  · rcases hstored id a hid with hnew | hold
    · exact hnew.1.symm
    · exact absurd hold (hfree hown id)

/-- The bundle is not in the store, or it has an id, and the assertion of
`bundle_storage_add` keeps it from being added again. -/
def AddedOnce (p : BundleProcessor) (c : Addr) : Prop :=
  (∀ id, p.store.bundles id ≠ some c) ∨
    ∃ b, p.cells c = .live b ∧ b.id ≠ bundleInvalidId

theorem bundleStorageAdd_guarded (h : Guarded kind own made p)
    (hfree : own a → AddedOnce p a) (nodeMem : Bool) :
    Ends AnyFault (p.bundleStorageAdd a nodeMem) fun r => Guarded kind own made r.2 ∧
      ∀ c, AddedOnce p c → AddedOnce r.2 c := by
  cases hload : p.load a with
  | error e =>
    rw [bundleStorageAdd, hload, error_bind]
    exact ends_error (E := AnyFault) trivial
  | ok b =>
    have hb := live_of_load hload
    by_cases hid : b.id = bundleInvalidId
    · have hnot : own a → ∀ id, p.store.bundles id ≠ some a := by
        intro hown
        rcases hfree hown with hnot | ⟨x, hx, hne⟩
        · exact hnot
        · rw [hb] at hx
          rw [← Cell.live.inj hx, hid] at hne
          exact absurd rfl hne
      refine (bundleStorageAdd_ends hb hid nodeMem).mono (fun _ _ => trivial)
        fun r hr => ?_
      rcases hr with ⟨hvalid, -, s, hstore, hr⟩ | ⟨-, s, hstore, hr⟩
      · have hbundles : r.2.store.bundles
            = Function.update p.store.bundles r.1 (some a) := by rw [hr, ← hstore]; rfl
        have hcells : r.2.cells = Function.update p.cells a (.live { b with id := r.1 }) := by
          rw [hr]
          rfl
        refine ⟨h.stored hb hnot hcells hbundles, fun c hc => ?_⟩
        by_cases hca : c = a
        · right
          refine ⟨{ b with id := r.1 }, ?_, hvalid⟩
          rw [hca, hcells, Function.update_self]
        · rcases hc with hnone | ⟨x, hx, hne⟩
          · left
            intro id hc
            rw [hbundles] at hc
            by_cases hi : id = r.1
            · rw [hi, Function.update_self] at hc
              exact hca (Option.some.inj hc).symm
            · rw [Function.update_of_ne hi] at hc
              exact hnone id hc
          · right
            refine ⟨x, ?_, hne⟩
            rw [hcells, Function.update_of_ne hca, hx]
      · have hbundles : r.2.store.bundles = p.store.bundles := by rw [hr, ← hstore]
        have hcells : r.2.cells = p.cells := by rw [hr]
        refine ⟨h.of_fewer hcells fun id c hc => ?_, fun c hc => ?_⟩
        · rwa [← hbundles]
        · rwa [AddedOnce, hbundles, hcells]
    · have hthrow : p.store.bundleStorageAdd nodeMem a b.id (some b.payload.val.length)
          = .error .alreadyStored := by
        rw [BundleStore.bundleStorageAdd, if_pos]
        · rfl
        · exact hid
      rw [bundleStorageAdd_of_live hb, hthrow]
      exact ends_error (E := AnyFault) trivial

theorem bundleStorageDelete_guarded (h : Guarded kind own made p) (id : Nat) :
    Ends AnyFault (p.bundleStorageDelete id) (Guarded kind own made) :=
  (bundleStorageDelete_fewer p id).imp fun _ hq => h.of_fewer hq.1 hq.2.2

theorem storageDeleteAll_guarded (h : Guarded kind own made p) (ids : List Nat) :
    Ends AnyFault (ids.foldlM (fun p id => p.bundleStorageDelete id) p)
      (Guarded kind own made) := by
  induction ids generalizing p with
  | nil => exact ends_ok h
  | cons id rest ih =>
    rw [List.foldlM_cons]
    exact (bundleStorageDelete_guarded h id).bind fun q hq => ih hq

theorem freeAll_apart (h : Guarded kind own made p) (frags : List Addr) :
    Ends AnyFault (frags.foldlM (fun p c => p.bundleFree c) p)
      (Apart kind own made p) := by
  induction frags generalizing p with
  | nil => exact ends_ok (Apart.refl h)
  | cons c rest ih =>
    rw [List.foldlM_cons]
    refine (bundleFree_apart h c).bind fun q hq => ?_
    refine (ih hq.guarded).imp fun r hr => ?_
    exact ⟨hr.guarded, hr.store.trans hq.store⟩

end BundleProcessor

/-! ## The loops of `apply_fragmentation` -/

namespace RouterTask

variable {σ : Type} {r : Routing σ} {m : FragmentMemory} {kind : Prop}
  {own made : Addr → Prop} {p : BundleProcessor} {t : RouterTask σ} {a : Addr}

open BundleProcessor

/-- The fragmenter that a routing calls is the one of `bundle_fragmenter.c`. -/
def FragmentsBundles (r : Routing σ) : Prop :=
  ∃ memory, r.fragmentBundle = fragmentBundle r.firstFragmentMinSize memory

/-- A fragment that is not in the store, which matters for the node's own ones. -/
def Unstored (kind : Prop) (own : Addr → Prop) (p : BundleProcessor) (c : Addr) : Prop :=
  (own c ↔ kind) ∧ (kind → ∀ id, p.store.bundles id ≠ some c)

theorem createFragments_guarded (hr : FragmentsBundles r) (route : RouterResult)
    (n : Nat) {frags : List Addr} (hne : frags ≠ []) (h : Guarded kind own made p)
    (hfrags : ∀ c ∈ frags, Unstored kind own p c) :
    Ends AnyFault (createFragments r b route n frags p) fun x =>
      Apart kind own made p x.2 ∧ ∀ l ∈ x.1, ∀ c ∈ l, Unstored kind own p c := by
  obtain ⟨memory, hmemory⟩ := hr
  induction n generalizing frags p with
  | zero =>
    refine ends_ok ⟨Apart.refl h, fun l hl c hc => ?_⟩
    obtain rfl := Option.mem_some_iff.mp hl
    exact hfrags c (List.mem_reverse.mp hc)
  | succ n ih =>
    rw [createFragments, hmemory]
    have hhead : frags.headD 0 ∈ frags := by
      cases frags with
      | nil => exact absurd rfl hne
      | cons c rest => exact List.mem_cons_self
    have hworking := (hfrags _ hhead).1
    refine (fragmentBundle_splits _ memory h hworking.mpr _).bind fun x hx => ?_
    obtain ⟨next, q⟩ := x
    obtain ⟨hq, hnext⟩ := hx
    have hsame : ∀ c, Unstored kind own q c ↔ Unstored kind own p c := by
      intro c
      rw [Unstored, Unstored, hq.store]
    cases next with
    | some c =>
      have hc : Unstored kind own p c := by
        rcases hnext c rfl with heq | hunused
        · rw [heq]
          exact hfrags _ hhead
        · exact ⟨(h.fresh c hunused).2, fun _ id => h.unstored c id hunused⟩
      refine Ends.imp (ih (List.cons_ne_nil c frags) hq.guarded fun d hd => ?_)
        fun y hy => ?_
      · rw [hsame]
        rcases List.mem_cons.mp hd with rfl | hd
        · exact hc
        · exact hfrags d hd
      · refine ⟨⟨hy.1.guarded, hy.1.store.trans hq.store⟩, fun l hl d hd => ?_⟩
        rw [← hsame]
        exact hy.2 l hl d hd
    | none =>
      refine (freeAll_apart hq.guarded frags).bind fun s hs => ?_
      exact ends_ok ⟨⟨hs.guarded, hs.store.trans hq.store⟩, by simp⟩

theorem discardFragments_guarded (h : Guarded kind own made t.processor)
    (route : RouterResult) (f : Nat) (frags : List Addr) :
    Ends AnyFault (t.discardFragments r route f frags) fun t' =>
      Guarded kind own made t'.processor := by
  unfold discardFragments
  refine (ends_any _).bind fun ids _ => ?_
  refine (storageDeleteAll_guarded h ids).bind fun p hp => ?_
  refine (freeAll_apart hp frags).bind fun q hq => ?_
  exact ends_ok hq.guarded

/-- The fragmenter may return the bundle that it was given, which is then twice among
the fragments: it is stored once, or `bundle_storage_add` stops. -/
theorem addFragments_guarded (route : RouterResult) (frags : List Addr) (f : Nat)
    {rest : List Addr} (h : Guarded kind own made t.processor)
    (hown : ∀ c ∈ rest, own c ↔ kind)
    (honce : kind → ∀ c ∈ rest, AddedOnce t.processor c) :
    Ends AnyFault (addFragments r m route frags f rest t) fun x =>
      Guarded kind own made x.2.processor := by
  induction rest generalizing f t with
  | nil => exact ends_ok h
  | cons c rest ih =>
    rw [addFragments]
    have hc := hown c List.mem_cons_self
    refine (bundleStorageAdd_guarded h (fun hthis =>
      honce (hc.mp hthis) c List.mem_cons_self) (m.nodeMem f)).bind fun x hx => ?_
    obtain ⟨id, q⟩ := x
    obtain ⟨hq, hstays⟩ := hx
    refine (load_any q c).bind fun b _ => ?_
    dsimp only
    split
    · refine ih (f + 1) hq (fun d hd => hown d (List.mem_cons_of_mem c hd))
        fun hk d hd => ?_
      exact hstays d (honce hk d (List.mem_cons_of_mem c hd))
    · refine (discardFragments_guarded hq route f frags).bind fun t' ht' => ?_
      exact ends_ok ht'

/-! ## Routing -/

theorem applyFragmentation_guarded (hr : FragmentsBundles r)
    (h : Guarded kind own made t.processor) (ha : own a ↔ kind)
    (hb : t.processor.cells a = .live b) :
    Ends AnyFault (t.applyFragmentation r m a (r.getFirstRoute t.routing b)) fun x =>
      Guarded kind own made x.2.processor := by
  rw [applyFragmentation, load_of_live hb, ok_bind]
  have hfirst := initializeFirstFragment_splits m h ha.mpr
  cases hinit : t.processor.initializeFirstFragment m a with
  | error e => exact ends_error (E := AnyFault) trivial
  | ok x =>
    obtain ⟨hq, hunused⟩ := hfirst.ok hinit
    obtain ⟨first, q⟩ := x
    rw [ok_bind]
    cases first with
    | none => exact ends_ok hq.guarded
    | some c =>
      dsimp only
      have hc : Unstored kind own q c := by
        have hfresh := hunused c rfl
        refine ⟨(h.fresh c hfresh).2, fun _ id => ?_⟩
        have hnot := h.unstored c id hfresh
        rwa [← hq.store] at hnot
      have hcreated := createFragments_guarded (b := b) hr (r.getFirstRoute t.routing b)
        ((r.getFirstRoute t.routing b).fragments.toNat - 1) (List.cons_ne_nil c [])
        hq.guarded fun d hd => by rwa [List.mem_singleton.mp hd]
      cases hloop : createFragments r b (r.getFirstRoute t.routing b)
          ((r.getFirstRoute t.routing b).fragments.toNat - 1) [c] q with
      | error e => exact ends_error (E := AnyFault) trivial
      | ok y =>
        obtain ⟨hs, hfrags⟩ := hcreated.ok hloop
        obtain ⟨frags, s⟩ := y
        rw [ok_bind]
        cases frags with
        | none => exact ends_ok hs.guarded
        | some frags =>
          dsimp only
          have hunstored : ∀ d ∈ frags.take (r.getFirstRoute t.routing b).fragments.toNat,
              Unstored kind own s d := by
            intro d hd
            have hold := hfrags frags rfl d (List.mem_of_mem_take hd)
            rwa [Unstored, hs.store]
          refine Ends.bind (addFragments_guarded (t := { t with processor := s })
            (r.getFirstRoute t.routing b) _ 0 hs.guarded (fun d hd => (hunstored d hd).1)
            fun hk d hd => .inl ((hunstored d hd).2 hk)) fun x hx => ?_
          split
          · refine (bundleStorageDelete_guarded hx b.id).bind fun u hu => ?_
            refine (bundleFree_apart hu a).bind fun v hv => ?_
            refine (ends_any _).bind fun ids _ => ?_
            exact ends_ok hv.guarded
          · exact ends_ok hx

theorem informProcessor_processor (t : RouterTask σ) (id : Nat)
    (result : ProcessingResult) :
    (t.informProcessor id result).processor = t.processor := by
  have hall : ∀ (ids : List Nat) (t : RouterTask σ),
      (ids.foldl (fun t id => t.inform ⟨.bundleRouted, .noInfo, id⟩) t).processor
        = t.processor := by
    intro ids
    induction ids with
    | nil => exact fun _ => rfl
    | cons id rest ih =>
      intro t
      rw [List.foldl_cons, ih]
      rfl
  unfold informProcessor
  split
  · rfl
  · exact hall _ t

/-- The invariant is kept when a bundle is routed, also when it is fragmented. -/
theorem routeBundle_guarded (hr : FragmentsBundles r)
    (h : Guarded kind own made t.processor) {id : Nat}
    (hstored : t.processor.bundleStorageGet id = some a) (ha : own a ↔ kind) :
    Ends AnyFault (t.routeBundle r m id) fun t' =>
      Guarded kind own made t'.processor := by
  rw [routeBundle, hstored]
  dsimp only
  refine Ends.bind (Q := fun x : ProcessingResult × RouterTask σ =>
    Guarded kind own made x.2.processor) ?_ fun x hx => ?_
  · unfold processBundle
    cases hload : t.processor.load a with
    | error e => exact ends_error (E := AnyFault) trivial
    | ok b =>
      have hb := live_of_load hload
      rw [ok_bind]
      dsimp only
      split
      · split
        · exact ends_ok h
        · exact ends_ok h
      · exact applyFragmentation_guarded hr h ha hb
  · refine ends_ok ?_
    rwa [informProcessor_processor]

end RouterTask

end Upcn
