import Upcn.Processor.Settlement

/-!
# Routing a bundle

`ROUTER_SIGNAL_ROUTE_BUNDLE` in `router_task.c`, with `process_bundle`,
`apply_fragmentation` and `bundlefragmenter_initialize_first_fragment`.

The router task shares the memory of the bundles and the store with the bundle
processor, so its state holds the one of the processor.  `Routing` stands for
`router.c` and for the sizes and the split of a bundle in the fragmenter: what
is proved here holds for all of them.
-/

namespace Upcn

/-- `struct fragment_route`, as far as this file reads it. -/
structure FragmentRoute where
  contacts : List Nat
  payloadSize : Nat
  deriving DecidableEq

/-- `struct router_result`. -/
structure RouterResult where
  fragments : UInt8
  fragmentResults : Nat → FragmentRoute

/-- The code that `router_task.c` calls, over routing states `σ`. -/
structure Routing (σ : Type) where
  /-- `router_get_first_route`. -/
  getFirstRoute : σ → Bundle → RouterResult
  /-- `router_add_bundle_to_route`. -/
  addBundleToRoute : σ → FragmentRoute → Bundle → Bool × σ
  /-- `router_remove_bundle_from_route`. -/
  removeBundleFromRoute : σ → FragmentRoute → Nat → σ
  /-- `bundle_get_first_fragment_min_size`. -/
  firstFragmentMinSize : Bundle → Nat
  /-- `bundle_get_mid_fragment_min_size`. -/
  midFragmentMinSize : Bundle → Nat
  /-- `bundle_get_last_fragment_min_size`. -/
  lastFragmentMinSize : Bundle → Nat
  /-- `bundlefragmenter_fragment_bundle`. -/
  fragmentBundle : BundleProcessor → Addr → Nat →
    Except Fault (Option Addr × BundleProcessor)

/-- The allocations of `bundlefragmenter_initialize_first_fragment`, and those of
the nodes of the store. -/
structure FragmentMemory where
  bundleMem : Option Addr
  blocksMem : Bool
  nodeMem : Nat → Bool

/-- What the router task works on, and the signals it has sent to the bundle
processor. -/
structure RouterTask (σ : Type) where
  processor : BundleProcessor
  routing : σ
  signals : List BundleProcessorSignal

/-- `status_or_fragments` of `struct bundle_processing_result`. -/
inductive ProcessingStatus where
  | fragments (n : UInt8)
  | noMemory
  | invalid
  deriving DecidableEq

/-- `struct bundle_processing_result`. -/
structure ProcessingResult where
  status : ProcessingStatus
  fragmentIds : List Nat

/-- `get_reason`. -/
def ProcessingStatus.getReason : ProcessingStatus → StatusReportReason
  | .fragments n => if n = 0 then .noKnownRoute else .noTimelyContact
  | .noMemory => .depletedStorage
  | .invalid => .noTimelyContact

/-- `proc_result.status_or_fragments < 1`. -/
def ProcessingStatus.failed : ProcessingStatus → Bool
  | .fragments n => n == 0
  | .noMemory | .invalid => true

namespace BundleProcessor

/-- `bundle_recalculate_header_length` knows the version. -/
def knownVersion (b : Bundle) : Bool :=
  b.protocolVersion == 6 || b.protocolVersion == 7

/-- The headers that `bundlefragmenter_create_new_fragment` fills in. -/
def createNewFragment (prototype : Bundle) : Bundle :=
  { prototype with
    id := bundleInvalidId
    totalAduLength := if prototype.bundleIsFragmented then prototype.totalAduLength
      else prototype.payloadLength
    procFlags := prototype.procFlags ||| ProcFlag.isFragment }

/-- `bundlefragmenter_initialize_first_fragment`.  When the version is unknown,
the new bundle is neither returned nor freed. -/
def initializeFirstFragment (m : FragmentMemory) (p : BundleProcessor) (a : Addr) :
    Except Fault (Option Addr × BundleProcessor) := do
  let b ← p.load a
  match m.bundleMem with
  | none => return (none, p)
  | some c =>
    let p ← p.allocate c (createNewFragment b)
    if m.blocksMem && decide (BlockEntry.payload ∈ b.blocks) then
      if knownVersion b then return (some c, p) else return (none, p)
    else
      let p ← p.bundleFree c
      return (none, p)

end BundleProcessor

/-- `bundlefragmenter_initialize_first_fragment` returns a bundle. -/
def FragmentMemory.copies (m : FragmentMemory) (b : Bundle) : Bool :=
  m.bundleMem.isSome && m.blocksMem && decide (BlockEntry.payload ∈ b.blocks) &&
    BundleProcessor.knownVersion b

namespace RouterTask

variable {σ : Type} (r : Routing σ) (m : FragmentMemory)

/-- The size that `apply_fragmentation` gives to `bundlefragmenter_fragment_bundle`
for the fragment `f`. -/
def fragmentSize (b : Bundle) (route : RouterResult) (f : Nat) : Nat :=
  let size := if f = 0 then r.firstFragmentMinSize b
    else if f + 1 = route.fragments.toNat then r.lastFragmentMinSize b
    else r.midFragmentMinSize b
  size + (route.fragmentResults f).payloadSize

/-- The loop of `apply_fragmentation` that creates the fragments: `n` of them are
left to create, and `frags` are there, the last one first.  When one cannot be
created, all are freed. -/
def createFragments (b : Bundle) (route : RouterResult) :
    Nat → List Addr → BundleProcessor → Except Fault (Option (List Addr) × BundleProcessor)
  | 0, frags, p => .ok (some frags.reverse, p)
  | n + 1, frags, p => do
    let f := frags.length - 1
    let (next, p) ← r.fragmentBundle p (frags.headD 0) (fragmentSize r b route f)
    match next with
    | some c => createFragments b route n (c :: frags) p
    | none =>
      let p ← frags.foldlM (fun p c => p.bundleFree c) p
      return (none, p)

/-- The end of `apply_fragmentation` when the fragment at `f` could not be added
to its route: the fragments before it leave their routes, those in the store
leave it, and all are freed. -/
def discardFragments (t : RouterTask σ) (route : RouterResult) (f : Nat)
    (frags : List Addr) : Except Fault (RouterTask σ) := do
  let ids ← (frags.take (f + 1)).mapM fun c => do return (← t.processor.load c).id
  let routing := (ids.take f).zipIdx.foldl
    (fun s (id, g) => r.removeBundleFromRoute s (route.fragmentResults g) id) t.routing
  let p ← ids.foldlM (fun p id => p.bundleStorageDelete id) t.processor
  let p ← frags.foldlM (fun p c => p.bundleFree c) p
  return { t with processor := p, routing := routing }

/-- The loop of `apply_fragmentation` that stores the fragments and adds them to
their routes; `f` of `frags` are done. -/
def addFragments (route : RouterResult) (frags : List Addr) :
    Nat → List Addr → RouterTask σ → Except Fault (Bool × RouterTask σ)
  | _, [], t => .ok (true, t)
  | f, c :: rest, t => do
    let (_, p) ← t.processor.bundleStorageAdd c (m.nodeMem f)
    let b ← p.load c
    let (added, routing) := r.addBundleToRoute t.routing (route.fragmentResults f) b
    let t := { t with processor := p, routing := routing }
    if added then addFragments route frags (f + 1) rest t
    else do
      let t ← t.discardFragments r route f frags
      return (false, t)

/-- `apply_fragmentation`. -/
def applyFragmentation (t : RouterTask σ) (a : Addr) (route : RouterResult) :
    Except Fault (ProcessingResult × RouterTask σ) := do
  let b ← t.processor.load a
  let (first, p) ← t.processor.initializeFirstFragment m a
  let t := { t with processor := p }
  match first with
  | none => return (⟨.noMemory, []⟩, t)
  | some c =>
    let (frags, p) ← createFragments r b route (route.fragments.toNat - 1) [c]
      t.processor
    let t := { t with processor := p }
    match frags with
    | none => return (⟨.noMemory, []⟩, t)
    | some frags =>
      let frags := frags.take route.fragments.toNat
      let (added, t) ← addFragments r m route frags 0 frags t
      if added then
        let p ← t.processor.bundleStorageDelete b.id
        let p ← p.bundleFree a
        let ids ← frags.mapM fun c => do return (← p.load c).id
        return (⟨.fragments route.fragments, ids⟩, { t with processor := p })
      else return (⟨.noMemory, []⟩, t)

/-- `process_bundle`. -/
def processBundle (t : RouterTask σ) (a : Addr) :
    Except Fault (ProcessingResult × RouterTask σ) := do
  let b ← t.processor.load a
  let route := r.getFirstRoute t.routing b
  if route.fragments = 1 then
    let (added, routing) := r.addBundleToRoute t.routing (route.fragmentResults 0) b
    let t := { t with routing := routing }
    if added then return (⟨.fragments 1, [b.id]⟩, t) else return (⟨.noMemory, [b.id]⟩, t)
  else t.applyFragmentation r m a route

/-- `bundle_processor_inform`. -/
def inform (t : RouterTask σ) (signal : BundleProcessorSignal) : RouterTask σ :=
  { t with signals := t.signals ++ [signal] }

/-- The end of the branch: the signals to the bundle processor. -/
def informProcessor (t : RouterTask σ) (id : Nat) (result : ProcessingResult) :
    RouterTask σ :=
  if result.status.failed then
    t.inform ⟨.forwardingContraindicated, result.status.getReason, id⟩
  else result.fragmentIds.foldl (fun t id => t.inform ⟨.bundleRouted, .noInfo, id⟩) t

/-- `process_signal` for `ROUTER_SIGNAL_ROUTE_BUNDLE`. -/
def routeBundle (t : RouterTask σ) (id : Nat) : Except Fault (RouterTask σ) :=
  match t.processor.bundleStorageGet id with
  | none => .ok (t.informProcessor id ⟨.invalid, []⟩)
  | some a => do
    let (result, t) ← t.processBundle r m a
    return t.informProcessor id result

end RouterTask

end Upcn
