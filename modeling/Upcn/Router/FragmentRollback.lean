import Upcn.Router.Fragmenter
import Upcn.Router.RouteRollback

/-!
# Fragmentation that fails

`apply_fragmentation` over the queues of the contacts, when it returns
`BUNDLE_RESULT_NO_MEMORY`: what the cleanup of a fragmentation leaves.

* `tableRouting` puts `router_add_bundle_to_route` and `router_remove_bundle_from_route`
  under the code of `router_task.c`.
* `Adding` is the invariant of the loop that stores the fragments and adds them to their
  routes, `Rolled` that of the queues.
* `applyFragmentation_restored_iff` says when everything is as it was.
-/

namespace Upcn

open Outcome Store BundleProcessor Queueing
open Queueing.RoutingState (Added FreedLast)

/-! ## The surroundings -/

/-- The contacts, and the number of calls of `router_add_bundle_to_route`. -/
structure RouteTables where
  state : RoutingState
  calls : Nat

/-- What the router task calls, and the allocations of the calls. -/
structure RouteEnv where
  getFirstRoute : Bundle → RouterResult
  /-- `bundle_get_first_fragment_min_size`. -/
  firstFragmentMinSize : Bundle → Nat
  /-- `bundle_get_mid_fragment_min_size`. -/
  midFragmentMinSize : Bundle → Nat
  /-- `bundle_get_last_fragment_min_size`. -/
  lastFragmentMinSize : Bundle → Nat
  /-- `bundle_get_routing_priority`. -/
  routingPriority : Bundle → Priority
  /-- `bundle_get_serialized_size`. -/
  serializedSize : Bundle → Nat
  splitMem : Addr → SplitMemory
  routeMem : Nat → RouteMemory

/-- The functions of `router.c` over the queues of the contacts.  After a fault nothing is
done any more. -/
def tableRouting (x : RouteEnv) : Routing (Except Queueing.Fault RouteTables) where
  getFirstRoute _ := x.getFirstRoute
  addBundleToRoute outcome route b :=
    match outcome with
    | .error e => (false, .error e)
    | .ok t =>
      match t.state.routerAddBundleToRoute (x.routeMem t.calls) route.contacts b.id
          (x.routingPriority b) (x.serializedSize b) with
      | .error e => (false, .error e)
      | .ok (added, state) => (added, .ok ⟨state, t.calls + 1⟩)
  removeBundleFromRoute outcome route id := do
    let t ← outcome
    let state ← t.state.routerRemoveBundleFromRoute route.contacts id true
    return ⟨state, t.calls⟩
  firstFragmentMinSize := x.firstFragmentMinSize
  midFragmentMinSize := x.midFragmentMinSize
  lastFragmentMinSize := x.lastFragmentMinSize
  fragmentBundle := fragmentBundle x.firstFragmentMinSize x.splitMem

instance (mem : RouteMemory) (contacts : List ContactPtr) : Decidable (mem.Places contacts) :=
  inferInstanceAs (Decidable (_ ∧ _ ∧ _ ∧ _))

/-- `malloc` returns a new record each time. -/
structure RouteEnv.Fresh (x : RouteEnv) (s : RoutingState) : Prop where
  unused : ∀ f r, (x.routeMem f).routedMem = some r → s.routed r = .unused
  distinct : ∀ f g r, (x.routeMem f).routedMem = some r → (x.routeMem g).routedMem = some r → f = g

/-- The fragments, from the one at `f` on, that are added to their routes before one is
not: with the ids that `bundle_storage_add` returns for them. -/
def addedBefore (x : RouteEnv) (m : FragmentMemory) (route : RouterResult) :
    Nat → List Addr → BundleProcessor → List Added
  | _, [], _ => []
  | f, c :: rest, p =>
    match p.bundleStorageAdd c (m.nodeMem f) with
    | .error _ => []
    | .ok (id, p) =>
      let contacts := (route.fragmentResults f).contacts
      if (x.routeMem f).Places contacts then
        ⟨(x.routeMem f).routedMem.getD 0, id, contacts, (x.routeMem f).placed contacts⟩ ::
          addedBefore x m route (f + 1) rest p
      else []

/-- The fragments that `apply_fragmentation` adds to their routes before one is not. -/
def AddedFragments (x : RouteEnv) (m : FragmentMemory) (p : BundleProcessor) (a : Addr)
    (b : Bundle) (route : RouterResult) (added : List Added) : Prop :=
  ∃ c q frags p', p.initializeFirstFragment m a = .ok (some c, q) ∧
    RouterTask.createFragments (tableRouting x) b route (route.fragments.toNat - 1) [c] q =
      .ok (some frags, p') ∧
    added = addedBefore x m route 0 (frags.take route.fragments.toNat) p'

/-- Where a fragment is added before another one is not, no bundle with its id is queued. -/
def NoStaleEntry (x : RouteEnv) (m : FragmentMemory) (p : BundleProcessor) (a : Addr)
    (b : Bundle) (route : RouterResult) (s : RoutingState) : Prop :=
  ∀ added, AddedFragments x m p a b route added → ∀ y ∈ added, ∀ k ∈ y.contacts, s.NoEntry k y.id

/-- When these fragments are taken back, the record that is found last for one of them is on
no list any more. -/
def NoEarlyFree (x : RouteEnv) (m : FragmentMemory) (p : BundleProcessor) (a : Addr)
    (b : Bundle) (route : RouterResult) : Prop :=
  ∀ added, AddedFragments x m p a b route added → FreedLast added

/-- A state of the store and of the queues: no bundle is stored under the id 0, the bundles
that are stored are there, and so are the records of those that are queued. -/
structure WellStored (p : BundleProcessor) (s : RoutingState) : Prop where
  invalid : p.store.bundles bundleInvalidId = none
  usage : p.store.bundleBytes < bytesCount
  stored : ∀ id c, p.store.bundles id = some c → p.cells c ≠ .unused
  queued : s.QueuedLive

/-- Everything is as it was, and what is stored or queued was there before. -/
structure Restored (p p' : BundleProcessor) (s s' : RoutingState) : Prop where
  bundles : p'.store.bundles = p.store.bundles
  usage : p'.store.bundleBytes = p.store.bundleBytes
  memory : ∀ c, p.cells c ≠ .unused → p'.cells c = p.cells c
  contacts : s'.contacts = s.contacts
  records : ∀ r, s.routed r ≠ .unused → s'.routed r = s.routed r
  stored : ∀ id c, p'.store.bundles id = some c → p.cells c ≠ .unused
  queued : ∀ c, ∀ r ∈ (s'.contacts c).contactBundles, s.routed r ≠ .unused

/-! ## Memory that was there before -/

namespace BundleProcessor

variable {p₀ p q : BundleProcessor} {a c : Addr} {b : Bundle}

/-- What was allocated in `p₀` is as it was. -/
def Untouched (p₀ q : BundleProcessor) : Prop :=
  ∀ c, p₀.cells c ≠ .unused → q.cells c = p₀.cells c

/-- A step from `p` that leaves the store and the memory of `p₀`. -/
structure Advances (p₀ p q : BundleProcessor) : Prop where
  untouched : Untouched p₀ q
  store : q.store = p.store

theorem Advances.refl (h : Untouched p₀ p) : Advances p₀ p p := ⟨h, rfl⟩

theorem Advances.trans {r : BundleProcessor} (h : Advances p₀ p q) (h' : Advances p₀ q r) :
    Advances p₀ p r := ⟨h'.untouched, h'.store.trans h.store⟩

theorem Untouched.setCell (h : Untouched p₀ p) (ha : p₀.cells a = .unused) (x : Cell) :
    Untouched p₀ (p.setCell a x) := by
  intro c hc
  have hne : c ≠ a := by
    rintro rfl
    exact hc ha
  rw [cells_setCell_of_ne hne]
  exact h c hc

/-- An address that is not in use was not before. -/
theorem Untouched.made (h : Untouched p₀ p) (hc : p.cells c = .unused) : p₀.cells c = .unused := by
  by_contra hne
  exact hne ((h c hne).symm.trans hc)

theorem modify_advances (h : Untouched p₀ p) (ha : p₀.cells a = .unused) (f : Bundle → Bundle) :
    Ends AnyFault (p.modify a f) (Advances p₀ p) :=
  (load_any p a).bind fun _ _ => ends_ok ⟨h.setCell ha _, rfl⟩

theorem bundleFree_advances (h : Untouched p₀ p) (ha : p₀.cells a = .unused) :
    Ends AnyFault (p.bundleFree a) (Advances p₀ p) :=
  (load_any p a).bind fun _ _ => ends_ok ⟨h.setCell ha _, rfl⟩

theorem allocate_advances (h : Untouched p₀ p) (c : Addr) (b : Bundle) :
    Ends AnyFault (p.allocate c b) fun q => Advances p₀ p q ∧ p₀.cells c = .unused := by
  refine (allocate_ends b).mono (fun _ _ => trivial) fun q hq => ?_
  obtain ⟨hc, rfl⟩ := hq
  exact ⟨⟨h.setCell (h.made hc) _, rfl⟩, h.made hc⟩

/-- What a call of the fragmenter leaves. -/
def Makes (p₀ p : BundleProcessor) (r : Option Addr × BundleProcessor) : Prop :=
  Advances p₀ p r.2 ∧ ∀ c ∈ r.1, p₀.cells c = .unused

theorem Makes.none (h : Advances p₀ p q) : Makes p₀ p (none, q) := ⟨h, by simp⟩

theorem Makes.some (h : Advances p₀ p q) (hc : p₀.cells c = .unused) : Makes p₀ p (some c, q) := by
  refine ⟨h, fun d hd => ?_⟩
  obtain rfl := Option.mem_some_iff.mp hd
  exact hc

theorem giveUp_makes (hq : Advances p₀ p q) (hc : p₀.cells c = .unused) :
    Ends AnyFault (q.bundleFree c >>= fun p => pure (none, p)) (Makes p₀ p) :=
  (bundleFree_advances hq.untouched hc).bind fun _ hs => ends_ok (Makes.none (hq.trans hs))

theorem bundle6FragmentBundle_makes (minSize : Bundle → Nat) (m : SplitMemory)
    (h : Untouched p₀ p) (ha : p₀.cells a = .unused) (size : Nat) :
    Ends AnyFault (p.bundle6FragmentBundle minSize m a size) (Makes p₀ p) := by
  unfold bundle6FragmentBundle
  refine (load_any p a).bind fun b _ => ?_
  dsimp only
  split
  · exact ends_ok (Makes.some (Advances.refl h) ha)
  · split
    · exact ends_ok (Makes.none (Advances.refl h))
    · rename_i c _
      refine (allocate_advances h c _).bind fun q ⟨hq, hc⟩ => ?_
      split
      · exact giveUp_makes hq hc
      · refine (modify_advances hq.untouched ha _).bind fun s hs => ?_
        split
        · exact giveUp_makes (hq.trans hs) hc
        · split
          · exact ends_error (E := AnyFault) trivial
          · refine (ends_any _).bind fun blocks _ => ?_
            refine (modify_advances hs.untouched ha _).bind fun u hu => ?_
            refine (modify_advances hu.untouched hc _).bind fun v hv => ?_
            exact ends_ok (Makes.some (((hq.trans hs).trans hu).trans hv) hc)

theorem bundle7FragmentBundle_makes (minSize : Bundle → Nat) (m : SplitMemory)
    (h : Untouched p₀ p) (ha : p₀.cells a = .unused) (size : Nat) :
    Ends AnyFault (p.bundle7FragmentBundle minSize m a size) (Makes p₀ p) := by
  unfold bundle7FragmentBundle
  refine (load_any p a).bind fun b _ => ?_
  dsimp only
  split
  · exact ends_ok (Makes.none (Advances.refl h))
  · split
    · exact ends_ok (Makes.some (Advances.refl h) ha)
    · split
      · exact ends_ok (Makes.none (Advances.refl h))
      · rename_i c _
        refine (allocate_advances h c _).bind fun q ⟨hq, hc⟩ => ?_
        split
        · exact giveUp_makes hq hc
        · split
          · exact ends_error (E := AnyFault) trivial
          · refine (modify_advances hq.untouched ha _).bind fun s hs => ?_
            refine (modify_advances hs.untouched hc _).bind fun u hu => ?_
            exact ends_ok (Makes.some ((hq.trans hs).trans hu) hc)

theorem fragmentBundle_makes (minSize : Bundle → Nat) (memory : Addr → SplitMemory)
    (h : Untouched p₀ p) (ha : p₀.cells a = .unused) (size : Nat) :
    Ends AnyFault (p.fragmentBundle minSize memory a size) (Makes p₀ p) := by
  unfold fragmentBundle
  refine (load_any p a).bind fun b _ => ?_
  split
  · exact bundle6FragmentBundle_makes minSize _ h ha size
  · split
    · exact bundle7FragmentBundle_makes minSize _ h ha size
    · exact ends_ok (Makes.none (Advances.refl h))

theorem initializeFirstFragment_makes (m : FragmentMemory) (h : Untouched p₀ p) :
    Ends AnyFault (p.initializeFirstFragment m a) (Makes p₀ p) := by
  unfold initializeFirstFragment
  refine (load_any p a).bind fun b _ => ?_
  split
  · exact ends_ok (Makes.none (Advances.refl h))
  · rename_i c _
    refine (allocate_advances h c _).bind fun q ⟨hq, hc⟩ => ?_
    split
    · split
      · exact ends_ok (Makes.some hq hc)
      · exact ends_ok (Makes.none hq)
    · exact giveUp_makes hq hc

/-- When all are freed, they are different ones. -/
theorem freeAll_advances (h : Untouched p₀ p) {frags : List Addr}
    (hmade : ∀ c ∈ frags, p₀.cells c = .unused) :
    Ends AnyFault (frags.foldlM (fun p c => p.bundleFree c) p) fun q =>
      Advances p₀ p q ∧ frags.Nodup ∧ ∀ c ∈ frags, ∃ b, p.cells c = .live b := by
  induction frags generalizing p with
  | nil => exact ends_ok ⟨Advances.refl h, List.nodup_nil, by simp⟩
  | cons c rest ih =>
    rw [List.foldlM_cons]
    have hc := hmade c List.mem_cons_self
    cases hload : p.load c with
    | error e =>
      rw [bundleFree, hload]
      exact ends_error (E := AnyFault) trivial
    | ok b =>
      have hlive := live_of_load hload
      rw [bundleFree, hload, ok_bind]
      refine (ih (h.setCell hc .freed) fun d hd => hmade d (List.mem_cons_of_mem c hd)).imp
        fun q hq => ?_
      obtain ⟨hadvances, hnodup, hrest⟩ := hq
      have hnot : c ∉ rest := by
        intro hmem
        obtain ⟨b, hb⟩ := hrest c hmem
        rw [cells_setCell_self] at hb
        cases hb
      refine ⟨⟨hadvances.untouched, hadvances.store⟩, List.nodup_cons.mpr ⟨hnot, hnodup⟩, ?_⟩
      refine List.forall_mem_cons.mpr ⟨⟨b, hlive⟩, fun d hd => ?_⟩
      obtain ⟨y, hy⟩ := hrest d hd
      have hne : d ≠ c := by
        rintro rfl
        exact hnot hd
      rw [cells_setCell_of_ne hne] at hy
      exact ⟨y, hy⟩

end BundleProcessor

namespace RouterTask

variable {p₀ p : BundleProcessor} {x : RouteEnv} {b : Bundle}

theorem createFragments_makes (route : RouterResult) (n : Nat) {frags : List Addr}
    (hne : frags ≠ []) (h : Untouched p₀ p) (hmade : ∀ c ∈ frags, p₀.cells c = .unused) :
    Ends AnyFault (createFragments (tableRouting x) b route n frags p) fun r =>
      Advances p₀ p r.2 ∧ ∀ l ∈ r.1, ∀ c ∈ l, p₀.cells c = .unused := by
  induction n generalizing frags p with
  | zero =>
    refine ends_ok ⟨Advances.refl h, fun l hl c hc => ?_⟩
    obtain rfl := Option.mem_some_iff.mp hl
    exact hmade c (List.mem_reverse.mp hc)
  | succ n ih =>
    rw [createFragments]
    have hworking : p₀.cells (frags.headD 0) = .unused := by
      cases frags with
      | nil => exact absurd rfl hne
      | cons c rest => exact hmade c List.mem_cons_self
    refine Ends.bind (fragmentBundle_makes _ x.splitMem h hworking _) fun r hr => ?_
    obtain ⟨next, q⟩ := r
    obtain ⟨hq, hnext⟩ := hr
    cases next with
    | some c =>
      refine Ends.imp (ih (List.cons_ne_nil c frags) hq.untouched
        (List.forall_mem_cons.mpr ⟨hnext c rfl, hmade⟩)) fun y hy => ?_
      exact ⟨hq.trans hy.1, hy.2⟩
    | none =>
      refine Ends.bind (freeAll_advances hq.untouched hmade) fun s hs => ?_
      exact ends_ok ⟨hq.trans hs.1, by simp⟩

end RouterTask

/-! ## The store -/

namespace BundleProcessor

variable {p₀ p q : BundleProcessor} {a c : Addr} {b : Bundle} {l done : List Addr}

/-- What `bundle_storage_add` does, with the usage. -/
theorem bundleStorageAdd_ok {nodeMem : Bool} {id : Nat}
    (h : p.bundleStorageAdd c nodeMem = .ok (id, q)) :
    ∃ b, p.cells c = .live b ∧ b.id = bundleInvalidId ∧
      (id ≠ bundleInvalidId ∧ p.store.bundles id = none ∧
          q.cells = Function.update p.cells c (.live { b with id := id }) ∧
          q.store.bundles = Function.update p.store.bundles id (some c) ∧
          q.store.bundleBytes = (p.store.bundleBytes + b.payload.val.length) % bytesCount ∨
        id = bundleInvalidId ∧ q.cells = p.cells ∧ q.store.bundles = p.store.bundles ∧
          q.store.bundleBytes = p.store.bundleBytes) := by
  unfold bundleStorageAdd at h
  obtain ⟨b, hload, h⟩ := bind_eq_ok h
  refine ⟨b, live_of_load hload, ?_⟩
  cases hstore : p.store.bundleStorageAdd nodeMem c b.id (some b.payload.val.length) with
  | error e =>
    rw [hstore] at h
    cases h
  | ok r =>
    obtain ⟨id', store⟩ := r
    rw [hstore] at h
    have hid : b.id = invalidId := by
      by_contra hne
      rw [BundleStore.bundleStorageAdd, if_pos hne] at hstore
      cases hstore
    rw [hid] at hstore
    refine ⟨hid, ?_⟩
    rcases (p.store.bundleStorageAdd_ends nodeMem c (some b.payload.val.length)).ok hstore with
      ⟨rfl, hne, hfree, hr⟩ | ⟨rfl, hinv, hr⟩
    · cases h
      refine .inl ⟨hne, hfree, rfl, ?_, ?_⟩
      · exact congrArg BundleStore.bundles hr
      · exact congrArg BundleStore.bundleBytes hr
    · cases h
      have hbundles := congrArg BundleStore.bundles hr
      have hbytes := congrArg BundleStore.bundleBytes hr
      exact .inr ⟨hinv, rfl, hbundles, hbytes⟩

/-- What a bundle takes of the store. -/
def storedSize (p : BundleProcessor) (c : Addr) : Nat :=
  match p.cells c with
  | .live b => if b.id = bundleInvalidId then 0 else b.payload.val.length
  | _ => 0

/-- The bundle is a new one that is in the store, if it has an id. -/
structure Stored (p₀ p : BundleProcessor) (c : Addr) (b : Bundle) : Prop where
  live : p.cells c = .live b
  free : p₀.store.bundles b.id = none
  stored : b.id ≠ bundleInvalidId → p.store.bundles b.id = some c

/-- Since `p₀` the bundles `done` were put into the store, as far as it could take them. -/
structure Adding (p₀ p : BundleProcessor) (done : List Addr) : Prop where
  untouched : Untouched p₀ p
  stored : ∀ c ∈ done, ∃ b, Stored p₀ p c b
  others : ∀ id, p.store.bundles id = p₀.store.bundles id ∨
    id ≠ bundleInvalidId ∧ ∃ c ∈ done, ∃ b, p.cells c = .live b ∧ b.id = id
  usage : p.store.bundleBytes =
    (p₀.store.bundleBytes + (done.map p.storedSize).sum) % bytesCount

theorem Advances.adding (h : Advances p₀ p₀ p) (husage : p₀.store.bundleBytes < bytesCount) :
    Adding p₀ p [] where
  untouched := h.untouched
  stored := by simp
  others id := .inl (by rw [h.store])
  usage := by
    rw [h.store]
    exact (Nat.mod_eq_of_lt husage).symm

/-- One more bundle is stored. -/
theorem Adding.next (h : Adding p₀ p done) (hinvalid : p₀.store.bundles bundleInvalidId = none)
    (hmade : p₀.cells c = .unused) (hc : c ∉ done) {nodeMem : Bool} {id : Nat}
    (hadd : p.bundleStorageAdd c nodeMem = .ok (id, q)) :
    Adding p₀ q (done ++ [c]) ∧ (∃ b, q.cells c = .live b ∧ b.id = id) ∧
      ∀ d ∈ done, q.cells d = p.cells d := by
  obtain ⟨b, hb, hid, hq⟩ := bundleStorageAdd_ok hadd
  have hsum : ∀ {q : BundleProcessor}, (∀ d ∈ done, q.cells d = p.cells d) →
      ((done ++ [c]).map q.storedSize).sum = (done.map p.storedSize).sum + q.storedSize c := by
    intro q hsame
    have hmap : done.map q.storedSize = done.map p.storedSize :=
      List.map_congr_left fun d hd => by rw [storedSize, storedSize, hsame d hd]
    rw [List.map_append, List.sum_append, hmap, List.map_singleton, List.sum_singleton]
  rcases hq with ⟨hne, hfree, hcells, hbundles, hbytes⟩ | ⟨rfl, hcells, hbundles, hbytes⟩
  · have hother : ∀ d, d ≠ c → q.cells d = p.cells d := fun d hd => by
      rw [hcells, Function.update_of_ne hd]
    have hself : q.cells c = .live { b with id := id } := by rw [hcells, Function.update_self]
    have hsame : ∀ d ∈ done, q.cells d = p.cells d := fun d hd => hother d fun heq =>
      hc (heq ▸ hd)
    -- The id was free in `p₀` too: a bundle of `p₀` is still stored under its id.
    have hfree₀ : p₀.store.bundles id = none := by
      rcases h.others id with heq | ⟨-, d, hd, y, hy, rfl⟩
      · rw [← heq, hfree]
      · obtain ⟨z, hz⟩ := h.stored d hd
        rw [hz.live] at hy
        cases hy
        exact hz.free
    refine ⟨⟨fun d hd => ?_, fun d hd => ?_, fun i => ?_, ?_⟩, ⟨_, hself, rfl⟩, hsame⟩
    · rw [hother d fun heq => hd (heq ▸ hmade)]
      exact h.untouched d hd
    · rcases List.mem_append.mp hd with hd | hd
      · obtain ⟨y, hy⟩ := h.stored d hd
        refine ⟨y, (hsame d hd).trans hy.live, hy.free, fun hyid => ?_⟩
        have hstored := hy.stored hyid
        rw [hbundles, Function.update_of_ne, hstored]
        intro heq
        rw [heq, hfree] at hstored
        cases hstored
      · obtain rfl := List.mem_singleton.mp hd
        exact ⟨_, hself, hfree₀, fun _ => by rw [hbundles, Function.update_self]⟩
    · by_cases hi : i = id
      · exact .inr ⟨hi ▸ hne, c, by simp, _, hself, hi.symm⟩
      · rw [hbundles, Function.update_of_ne hi]
        rcases h.others i with heq | ⟨hi, d, hd, y, hy, hyid⟩
        · exact .inl heq
        · exact .inr ⟨hi, d, List.mem_append_left _ hd, y, (hsame d hd).trans hy, hyid⟩
    · have hsize : q.storedSize c = b.payload.val.length := by
        rw [storedSize, hself]
        exact if_neg hne
      rw [hsum hsame, hsize, hbytes, h.usage, Nat.mod_add_mod, Nat.add_assoc]
  · have hsize : q.storedSize c = 0 := by
      rw [storedSize, hcells, hb]
      exact if_pos hid
    refine ⟨⟨fun d hd => ?_, fun d hd => ?_, fun i => ?_, ?_⟩, ⟨b, by rw [hcells, hb], hid⟩,
      fun d _ => by rw [hcells]⟩
    · rw [hcells]
      exact h.untouched d hd
    · rcases List.mem_append.mp hd with hd | hd
      · obtain ⟨y, hy⟩ := h.stored d hd
        exact ⟨y, by rw [hcells, hy.live], hy.free, fun hyid => by rw [hbundles, hy.stored hyid]⟩
      · obtain rfl := List.mem_singleton.mp hd
        exact ⟨b, by rw [hcells, hb], by rw [hid, hinvalid], fun hne => absurd hid hne⟩
    · rw [hbundles]
      rcases h.others i with heq | ⟨hi, d, hd, y, hy, hyid⟩
      · exact .inl heq
      · exact .inr ⟨hi, d, List.mem_append_left _ hd, y, by rw [hcells, hy], hyid⟩
    · rw [hsum fun d _ => by rw [hcells], hsize, hbytes, h.usage, Nat.add_zero]

/-- One bundle is removed from the store. -/
theorem bundleStorageDelete_ok {id : Nat} (hstored : p.store.bundles id = some c)
    (hb : p.cells c = .live b) (h : p.bundleStorageDelete id = .ok q) :
    q.cells = p.cells ∧ q.store.bundles = Function.update p.store.bundles id none ∧
      q.store.bundleBytes + b.payload.val.length = p.store.bundleBytes := by
  have hget : p.store.bundleStorageGet id = some c := hstored
  rw [bundleStorageDelete, hget] at h
  dsimp only at h
  rw [load_of_live hb, ok_bind, BundleStore.bundleStorageDelete, hstored] at h
  dsimp only at h
  split at h
  · cases h
  · rename_i hsize
    cases h
    refine ⟨rfl, rfl, ?_⟩
    show p.store.bundleBytes - b.payload.val.length + b.payload.val.length = _
    have : ¬ p.store.bundleBytes < b.payload.val.length := hsize
    omega

/-- All of the bundles are removed from the store. -/
theorem storageDeleteAll_ok {ids : List Nat} (hnodup : l.Nodup)
    (hinvalid : p.store.bundles bundleInvalidId = none)
    (hids : List.Forall₂ (fun c id => ∃ b, p.cells c = .live b ∧ b.id = id) l ids)
    (hstored : ∀ c ∈ l, ∀ b, p.cells c = .live b → b.id ≠ bundleInvalidId →
      p.store.bundles b.id = some c)
    (h : ids.foldlM (fun p id => p.bundleStorageDelete id) p = .ok q) :
    q.cells = p.cells ∧
      (∀ id, q.store.bundles id = if id ∈ ids then none else p.store.bundles id) ∧
      q.store.bundleBytes + (l.map p.storedSize).sum = p.store.bundleBytes := by
  induction l generalizing p ids with
  | nil =>
    cases hids
    cases h
    exact ⟨rfl, by simp, by simp⟩
  | cons c rest ih =>
    cases ids with
    | nil => cases hids
    | cons id ids =>
    obtain ⟨hc, hrest⟩ := List.forall₂_cons.mp hids
    rw [List.foldlM_cons] at h
    obtain ⟨s, hfirst, hlater⟩ := bind_eq_ok h
    obtain ⟨hnot, hnodup⟩ := List.nodup_cons.mp hnodup
    obtain ⟨b, hb, rfl⟩ := hc
    have hsize : p.storedSize c = if b.id = bundleInvalidId then 0 else b.payload.val.length := by
      rw [storedSize, hb]
    by_cases hzero : b.id = bundleInvalidId
    · have hget : p.store.bundleStorageGet b.id = none := by
        rw [hzero]
        exact hinvalid
      rw [bundleStorageDelete, hget] at hfirst
      cases hfirst
      obtain ⟨hcells, hbundles, hbytes⟩ := ih hnodup hinvalid hrest
        (fun d hd => hstored d (List.mem_cons_of_mem c hd)) hlater
      refine ⟨hcells, fun i => ?_, ?_⟩
      · rw [hbundles]
        by_cases hi : i = b.id
        · rw [hi, hzero, hinvalid]
          simp
        · simp [hi]
      · rw [List.map_cons, List.sum_cons, hsize, if_pos hzero, Nat.zero_add, hbytes]
    · have hown := hstored c List.mem_cons_self b hb hzero
      obtain ⟨hcells, hbundles, hbytes⟩ := bundleStorageDelete_ok hown hb hfirst
      have hrest' : List.Forall₂ (fun c id => ∃ b, s.cells c = .live b ∧ b.id = id) rest ids := by
        rwa [hcells]
      have hstored' : ∀ d ∈ rest, ∀ y, s.cells d = .live y → y.id ≠ bundleInvalidId →
          s.store.bundles y.id = some d := by
        intro d hd y hy hne
        rw [hcells] at hy
        have hds := hstored d (List.mem_cons_of_mem c hd) y hy hne
        rw [hbundles, Function.update_of_ne, hds]
        intro heq
        rw [heq, hown] at hds
        cases hds
        exact hnot hd
      have hinvalid' : s.store.bundles bundleInvalidId = none := by
        rw [hbundles, Function.update_of_ne (Ne.symm hzero), hinvalid]
      obtain ⟨hcells', hbundles', hbytes'⟩ := ih hnodup hinvalid' hrest' hstored' hlater
      refine ⟨hcells'.trans hcells, fun i => ?_, ?_⟩
      · rw [hbundles', hbundles]
        by_cases hi : i = b.id
        · rw [hi, Function.update_self, if_pos List.mem_cons_self]
          simp
        · rw [Function.update_of_ne hi]
          simp [hi]
      · have hmap : rest.map s.storedSize = rest.map p.storedSize :=
          List.map_congr_left fun d _ => by rw [storedSize, storedSize, hcells]
        rw [hmap] at hbytes'
        rw [List.map_cons, List.sum_cons, hsize, if_neg hzero]
        omega

end BundleProcessor

/-! ## The cleanup -/

namespace BundleProcessor

variable {p : BundleProcessor} {l : List Addr} {ids : List Nat}

/-- `frags[g]->id`. -/
def idOf (p : BundleProcessor) (c : Addr) : Nat :=
  match p.cells c with
  | .live b => b.id
  | _ => bundleInvalidId

theorem idOf_of_live {c : Addr} {b : Bundle} (h : p.cells c = .live b) : p.idOf c = b.id := by
  rw [idOf, h]

theorem loadIds_ok (h : (l.mapM fun c => do return (← p.load c).id : Except Fault (List Nat)) =
    .ok ids) : ids = l.map p.idOf ∧ ∀ c ∈ l, ∃ b, p.cells c = .live b := by
  induction l generalizing ids with
  | nil =>
    cases h
    simp
  | cons c rest ih =>
    rw [List.mapM_cons] at h
    obtain ⟨id, hid, h⟩ := bind_eq_ok h
    obtain ⟨b, hload, hid⟩ := bind_eq_ok hid
    obtain ⟨later, hlater, h⟩ := bind_eq_ok h
    cases hid
    cases h
    have hb := live_of_load hload
    obtain ⟨rfl, hlive⟩ := ih hlater
    refine ⟨?_, List.forall_mem_cons.mpr ⟨⟨b, hb⟩, hlive⟩⟩
    rw [List.map_cons, idOf_of_live hb]

theorem storageDeleteAll_stored {p₀ q : BundleProcessor} {done : List Addr}
    (hsound : p₀.store.bundles bundleInvalidId = none)
    (husage : p₀.store.bundleBytes < bytesCount) (h : Adding p₀ p done) (hnodup : done.Nodup)
    (hdelete : (done.map p.idOf).foldlM (fun p id => p.bundleStorageDelete id) p = .ok q) :
    q.cells = p.cells ∧ q.store.bundles = p₀.store.bundles ∧
      q.store.bundleBytes = p₀.store.bundleBytes := by
  have hids : List.Forall₂ (fun c id => ∃ b, p.cells c = .live b ∧ b.id = id) done
      (done.map p.idOf) := by
    rw [List.forall₂_map_right_iff, List.forall₂_same]
    intro c hc
    obtain ⟨b, hb⟩ := h.stored c hc
    exact ⟨b, hb.live, (idOf_of_live hb.live).symm⟩
  have hinvalid : p.store.bundles bundleInvalidId = none := by
    rcases h.others bundleInvalidId with heq | ⟨hne, -⟩
    · rw [heq, hsound]
    · exact absurd rfl hne
  obtain ⟨hcells, hbundles, hbytes⟩ := storageDeleteAll_ok hnodup hinvalid hids
    (fun c hc b hb hne => by
      obtain ⟨y, hy⟩ := h.stored c hc
      rw [hy.live] at hb
      cases hb
      exact hy.stored hne) hdelete
  refine ⟨hcells, funext fun id => ?_, ?_⟩
  · rw [hbundles]
    split
    · rename_i hmem
      obtain ⟨c, hc, rfl⟩ := List.mem_map.mp hmem
      obtain ⟨b, hb⟩ := h.stored c hc
      rw [idOf_of_live hb.live, hb.free]
    · rename_i hmem
      rcases h.others id with heq | ⟨-, c, hc, b, hb, rfl⟩
      · exact heq
      · exact absurd (List.mem_map.mpr ⟨c, hc, idOf_of_live hb⟩) hmem
  · have husage' := h.usage
    unfold bytesCount at husage husage'
    omega

end BundleProcessor

namespace RouterTask

variable {x : RouteEnv} {route : RouterResult} {s s' s₀ : RoutingState} {n n' : Nat}

/-- The ids with the contacts of their routes. -/
def routesOf (route : RouterResult) (ids : List Nat) : List (Nat × List ContactPtr) :=
  ids.zipIdx.map fun y => (y.1, (route.fragmentResults y.2).contacts)

theorem routesOf_append (route : RouterResult) (ids : List Nat) (id : Nat) :
    routesOf route (ids ++ [id]) =
      routesOf route ids ++ [(id, (route.fragmentResults ids.length).contacts)] := by
  simp [routesOf, List.zipIdx_append]

/-- After a fault nothing is done any more. -/
theorem removeFragments_error (ids : List (Nat × Nat)) (e : Queueing.Fault) :
    ids.foldl (fun s y => (tableRouting x).removeBundleFromRoute s
      (route.fragmentResults y.2) y.1) (.error e) = .error e := by
  induction ids with
  | nil => rfl
  | cons y rest ih => exact ih

/-- The fragments leave their routes. -/
theorem removeFragments_eq (ids : List (Nat × Nat)) {added : List Added}
    (hadded : added.map (fun y => (y.id, y.contacts)) =
      ids.map fun y => (y.1, (route.fragmentResults y.2).contacts)) :
    ids.foldl (fun s y => (tableRouting x).removeBundleFromRoute s
      (route.fragmentResults y.2) y.1) (.ok ⟨s, n⟩) =
        (RoutingState.removeAll added s).map fun s => ⟨s, n⟩ := by
  induction ids generalizing added s with
  | nil =>
    obtain rfl := List.map_eq_nil_iff.mp hadded
    rfl
  | cons z rest ih =>
    obtain ⟨y, later, rfl, hy, hlater⟩ := List.map_eq_cons_iff.mp hadded
    obtain ⟨hid, hcontacts⟩ := Prod.mk.inj hy
    have hremove : (tableRouting x).removeBundleFromRoute (.ok ⟨s, n⟩)
        (route.fragmentResults z.2) z.1 =
          (s.routerRemoveBundleFromRoute y.contacts y.id true).map fun s => ⟨s, n⟩ := by
      rw [hid, hcontacts]
      simp only [tableRouting, ok_bind]
      cases s.routerRemoveBundleFromRoute (route.fragmentResults z.2).contacts z.1 true <;> rfl
    rw [List.foldl_cons, hremove, RoutingState.removeAll, List.foldlM_cons]
    cases s.routerRemoveBundleFromRoute y.contacts y.id true with
    | error e => exact removeFragments_error rest e
    | ok s₁ => exact ih hlater

/-- What the loop that stores the fragments and adds them to their routes leaves, when one
of them could not be added.  `added` are those that were. -/
structure Cleanup (p₀ p' : BundleProcessor) (s₀ : RoutingState)
    (outcome : Except Queueing.Fault RouteTables) (added : List Added) : Prop where
  untouched : Untouched p₀ p'
  bundles : p'.store.bundles = p₀.store.bundles
  usage : p'.store.bundleBytes = p₀.store.bundleBytes
  removed : ∃ s N, RoutingState.Rolled s₀ s N ∧ RoutingState.Lines added [] N ∧ s.QueuedLive ∧
    (∀ y ∈ added, y.placed.Sublist y.contacts) ∧
    ∃ n, outcome = (RoutingState.removeAll added s).map fun s => ⟨s, n⟩

variable {m : FragmentMemory} {p₀ : BundleProcessor} {frags : List Addr}
  {t t' : RouterTask (Except Queueing.Fault RouteTables)}

theorem discardFragments_nodup (hmade : ∀ c ∈ frags, p₀.cells c = .unused)
    (h : Untouched p₀ t.processor) {f : Nat}
    (hdiscard : t.discardFragments (tableRouting x) route f frags = .ok t') : frags.Nodup := by
  unfold discardFragments at hdiscard
  obtain ⟨ids, -, hdiscard⟩ := bind_eq_ok hdiscard
  obtain ⟨p, hdelete, hdiscard⟩ := bind_eq_ok hdiscard
  obtain ⟨q, hfree, -⟩ := bind_eq_ok hdiscard
  have hcells : Untouched p₀ p := by
    have hall : ∀ (ids : List Nat) (p p' : BundleProcessor),
        ids.foldlM (fun p id => p.bundleStorageDelete id) p = .ok p' → p'.cells = p.cells := by
      intro ids
      induction ids with
      | nil =>
        intro p p' h
        cases h
        rfl
      | cons id rest ih =>
        intro p p' h
        rw [List.foldlM_cons] at h
        obtain ⟨s, hfirst, h⟩ := bind_eq_ok h
        exact (ih s p' h).trans ((bundleStorageDelete_ends p id).ok hfirst).1
    intro c hc
    rw [hall ids _ p hdelete]
    exact h c hc
  exact ((freeAll_advances hcells hmade).ok hfree).2.1

/-- The cleanup itself. -/
theorem discardFragments_cleanup (hsound : p₀.store.bundles bundleInvalidId = none)
    (husage : p₀.store.bundleBytes < bytesCount) (hmade : ∀ c ∈ frags, p₀.cells c = .unused)
    {done rest : List Addr} {c : Addr} (hfrags : frags = done ++ c :: rest)
    (hadding : Adding p₀ t.processor (done ++ [c]))
    (hdiscard : t.discardFragments (tableRouting x) route done.length frags = .ok t') :
    t'.routing = (done.map t.processor.idOf).zipIdx.foldl (fun s y =>
        (tableRouting x).removeBundleFromRoute s (route.fragmentResults y.2) y.1) t.routing ∧
      Untouched p₀ t'.processor ∧ t'.processor.store.bundles = p₀.store.bundles ∧
      t'.processor.store.bundleBytes = p₀.store.bundleBytes := by
  have hnodup := discardFragments_nodup hmade hadding.untouched hdiscard
  have htake : frags.take (done.length + 1) = done ++ [c] := by
    rw [hfrags, List.take_append]
    simp
  unfold discardFragments at hdiscard
  rw [htake] at hdiscard
  obtain ⟨ids, hids, hdiscard⟩ := bind_eq_ok hdiscard
  obtain ⟨p, hdelete, hdiscard⟩ := bind_eq_ok hdiscard
  obtain ⟨q, hfree, hdiscard⟩ := bind_eq_ok hdiscard
  cases hdiscard
  obtain ⟨rfl, -⟩ := loadIds_ok hids
  have hstored : (done ++ [c]).Nodup := by
    rw [hfrags, List.append_cons] at hnodup
    exact (List.nodup_append.mp hnodup).1
  obtain ⟨hcells, hbundles, hbytes⟩ :=
    storageDeleteAll_stored hsound husage hadding hstored hdelete
  have huntouched : Untouched p₀ p := fun d hd => by rw [hcells, hadding.untouched d hd]
  obtain ⟨hadvances, -⟩ := (freeAll_advances huntouched hmade).ok hfree
  have hfirst : ((done ++ [c]).map t.processor.idOf).take done.length =
      done.map t.processor.idOf := by
    rw [List.map_append, List.take_left' (List.length_map _)]
  exact ⟨by rw [← hfirst], hadvances.untouched, by rw [hadvances.store, hbundles],
    by rw [hadvances.store, hbytes]⟩

end RouterTask

namespace RouterTask

variable {x : RouteEnv} {m : FragmentMemory} {route : RouterResult} {p₀ : BundleProcessor}
  {s₀ s s' : RoutingState} {n n' : Nat} {frags : List Addr}
  {t t' : RouterTask (Except Queueing.Fault RouteTables)}

/-- The bundle at `c` is added to its route, or an `ASSERT` fails. -/
theorem addBundleToRoute_ok {route : FragmentRoute} {b : Bundle} {added : Bool}
    {outcome : Except Queueing.Fault RouteTables} {t : RouteTables}
    (hunused : ∀ r, (x.routeMem t.calls).routedMem = some r → t.state.routed r = .unused)
    (h : (tableRouting x).addBundleToRoute (.ok t) route b = (added, outcome)) :
    outcome = .error .assertion ∨ ∃ state,
      t.state.routerAddBundleToRoute (x.routeMem t.calls) route.contacts b.id
        (x.routingPriority b) (x.serializedSize b) = .ok (added, state) ∧
      outcome = .ok ⟨state, t.calls + 1⟩ := by
  simp only [tableRouting] at h
  split at h
  · rename_i e hadd
    rw [RoutingState.routerAddBundleToRoute_error hunused hadd] at h
    exact .inl (Prod.mk.inj h).2.symm
  · rename_i added' state hadd
    obtain ⟨rfl, rfl⟩ := Prod.mk.inj h
    exact .inr ⟨state, hadd, rfl⟩

theorem addFragments_error {f : Nat} {rest : List Addr} {e : Queueing.Fault} {added : Bool}
    (h : addFragments (tableRouting x) m route frags f rest t = .ok (added, t'))
    (ht : t.routing = .error e) : t'.routing = .error e := by
  cases rest with
  | nil =>
    cases h
    exact ht
  | cons c rest =>
    rw [addFragments] at h
    obtain ⟨⟨id, q⟩, -, h⟩ := bind_eq_ok h
    obtain ⟨b, -, h⟩ := bind_eq_ok h
    rw [ht] at h
    obtain ⟨u, hdiscard, h⟩ := bind_eq_ok h
    cases h
    unfold discardFragments at hdiscard
    obtain ⟨ids, -, hdiscard⟩ := bind_eq_ok hdiscard
    obtain ⟨p, -, hdiscard⟩ := bind_eq_ok hdiscard
    obtain ⟨q, -, hdiscard⟩ := bind_eq_ok hdiscard
    cases hdiscard
    exact removeFragments_error _ e

theorem addFragments_nodup {all rest : List Addr} {f : Nat}
    (hmade : ∀ c ∈ all, p₀.cells c = .unused) (hrest : ∀ c ∈ rest, c ∈ all)
    (huntouched : Untouched p₀ t.processor)
    (h : addFragments (tableRouting x) m route all f rest t = .ok (false, t')) : all.Nodup := by
  induction rest generalizing f t with
  | nil => cases h
  | cons c rest ih =>
    rw [addFragments] at h
    obtain ⟨⟨id, q⟩, hadd, h⟩ := bind_eq_ok h
    obtain ⟨b, -, h⟩ := bind_eq_ok h
    have hq : Untouched p₀ q := by
      intro d hd
      have hne : d ≠ c := by
        rintro rfl
        exact hd (hmade d (hrest d List.mem_cons_self))
      obtain ⟨b, -, -, hq⟩ := bundleStorageAdd_ok hadd
      rcases hq with ⟨-, -, hcells, -⟩ | ⟨-, hcells, -⟩
      · rw [hcells, Function.update_of_ne hne, huntouched d hd]
      · rw [hcells, huntouched d hd]
    dsimp only at h
    split at h
    · exact ih (fun d hd => hrest d (List.mem_cons_of_mem c hd)) hq h
    · obtain ⟨u, hdiscard, -⟩ := bind_eq_ok h
      exact discardFragments_nodup hmade hq hdiscard

/-- The loop, from the fragment `c` on, when one of them cannot be added. -/
theorem addFragments_cleanup (hsound : p₀.store.bundles bundleInvalidId = none)
    (husage : p₀.store.bundleBytes < bytesCount) (hmade : ∀ c ∈ frags, p₀.cells c = .unused)
    (hnodup : frags.Nodup) {done rest : List Addr} (hfrags : frags = done ++ rest)
    (hadding : Adding p₀ t.processor done) (ht : t.routing = .ok ⟨s, done.length⟩)
    (hfresh : ∀ f r, done.length ≤ f → (x.routeMem f).routedMem = some r → s.routed r = .unused)
    (hdistinct : ∀ f g r, (x.routeMem f).routedMem = some r →
      (x.routeMem g).routedMem = some r → f = g)
    {N : ContactPtr → List Entry} (hrolled : RoutingState.Rolled s₀ s N) (added : List Added)
    (hlines : RoutingState.Lines added [] N) (hqueued : s.QueuedLive)
    (hplaced : ∀ y ∈ added, y.placed.Sublist y.contacts)
    (hadded : added.map (fun y => (y.id, y.contacts)) =
      routesOf route (done.map t.processor.idOf))
    (h : addFragments (tableRouting x) m route frags done.length rest t = .ok (false, t'))
    (hassert : t'.routing ≠ .error .assertion) :
    Cleanup p₀ t'.processor s₀ t'.routing
      (added ++ addedBefore x m route done.length rest t.processor) := by
  induction rest generalizing t done s N added with
  | nil => cases h
  | cons c rest ih =>
    rw [addFragments] at h
    obtain ⟨⟨id, q⟩, hadd, h⟩ := bind_eq_ok h
    obtain ⟨b, hload, h⟩ := bind_eq_ok h
    have hc : c ∉ done := by
      intro hmem
      rw [hfrags] at hnodup
      exact (List.nodup_append.mp hnodup).2.2 c hmem c List.mem_cons_self rfl
    have hunused : p₀.cells c = .unused :=
      hmade c (by rw [hfrags]; exact List.mem_append_right _ List.mem_cons_self)
    obtain ⟨hnext, ⟨b', hb', hid⟩, hsame⟩ := hadding.next hsound hunused hc hadd
    have hb := live_of_load hload
    rw [hb'] at hb
    cases hb
    have hdoneIds : done.map q.idOf = done.map t.processor.idOf :=
      List.map_congr_left fun d hd => by rw [idOf, idOf, hsame d hd]
    have hids : (done ++ [c]).map q.idOf = done.map t.processor.idOf ++ [id] := by
      rw [List.map_append, hdoneIds, List.map_singleton, idOf_of_live hb', hid]
    cases hroute : (tableRouting x).addBundleToRoute (.ok ⟨s, done.length⟩)
        (route.fragmentResults done.length) b with
    | mk success outcome =>
    rw [ht, hroute] at h
    dsimp only at h
    simp only [addedBefore, hadd]
    rcases addBundleToRoute_ok (fun r => hfresh _ r (Nat.le_refl _)) hroute with
      rfl | ⟨state, hstate, rfl⟩
    · -- The run ends at an `ASSERT`.
      split at h
      · exact absurd (addFragments_error h rfl) hassert
      · obtain ⟨u, hdiscard, h⟩ := bind_eq_ok h
        cases h
        obtain ⟨hrouting, -⟩ := discardFragments_cleanup hsound husage hmade hfrags hnext hdiscard
        rw [removeFragments_error] at hrouting
        exact absurd hrouting hassert
    · obtain ⟨hplaces, hfailed, hsucceeded⟩ := RoutingState.routerAddBundleToRoute_ok hstate
      cases success with
      | true =>
        rw [if_pos (hplaces.mp rfl)]
        obtain ⟨r, hsome, hr, hrouted, hcontacts⟩ := hsucceeded rfl
        rw [hsome, Option.getD_some]
        have hlength : (done ++ [c]).length = done.length + 1 := by simp
        have hpairs : routesOf route ((done ++ [c]).map q.idOf) =
            routesOf route (done.map t.processor.idOf) ++
              [(id, (route.fragmentResults done.length).contacts)] := by
          rw [hids, routesOf_append, List.length_map]
        have hlater := ih (t := ⟨q, .ok ⟨state, done.length + 1⟩, t.signals⟩)
          (by rw [hfrags, List.append_cons]) hnext (by rw [hlength]) ?_
          (hrolled.next hr hrouted hcontacts)
          (added ++ [⟨r, id, (route.fragmentResults done.length).contacts,
            (x.routeMem done.length).placed (route.fragmentResults done.length).contacts⟩])
          (hlines.concat hid)
          (hqueued.next hr hrouted hcontacts) ?_ (by rw [List.map_append, hadded, hpairs]; rfl)
          (by rw [hlength]; exact h)
        · rwa [hlength, List.append_assoc] at hlater
        · intro f q' hf hq'
          have hne : q' ≠ r := by
            rintro rfl
            have heq : done.length = f := hdistinct _ _ _ hsome hq'
            omega
          rw [hrouted, Function.update_of_ne hne]
          exact hfresh f q' (by omega) hq'
        · refine List.forall_mem_append.mpr ⟨hplaced, List.forall_mem_singleton.mpr ?_⟩
          exact placedFrom_sublist _ _ _
      | false =>
        have hnot : ¬ (x.routeMem done.length).Places
            (route.fragmentResults done.length).contacts := by
          rw [← hplaces]
          exact Bool.false_ne_true
        rw [if_neg hnot, List.append_nil]
        obtain ⟨hcontacts, hrouted⟩ := hfailed rfl
        obtain ⟨u, hdiscard, h⟩ := bind_eq_ok h
        cases h
        obtain ⟨hrouting, huntouched, hbundles, hbytes⟩ :=
          discardFragments_cleanup hsound husage hmade hfrags hnext hdiscard
        refine ⟨huntouched, hbundles, hbytes, state, N, hrolled.failed hcontacts hrouted, hlines,
          hqueued.failed hcontacts hrouted, hplaced, done.length + 1, ?_⟩
        rw [hrouting]
        refine removeFragments_eq _ ?_
        show _ = routesOf route (done.map q.idOf)
        rw [hadded, hdoneIds]

end RouterTask

/-! ## The whole of `apply_fragmentation` -/

namespace RouterTask

variable {x : RouteEnv} {m : FragmentMemory} {route : RouterResult} {a : Addr} {b : Bundle}
  {s s' : RoutingState} {n : Nat} {t t' : RouterTask (Except Queueing.Fault RouteTables)}

/-- A state without changes. -/
theorem restored_of_untouched {p q : BundleProcessor} (hsound : WellStored p s)
    (huntouched : Untouched p q) (hbundles : q.store.bundles = p.store.bundles)
    (husage : q.store.bundleBytes = p.store.bundleBytes) (hcontacts : s'.contacts = s.contacts)
    (hrecords : ∀ r, s.routed r ≠ .unused → s'.routed r = s.routed r) : Restored p q s s' where
  bundles := hbundles
  usage := husage
  memory := huntouched
  contacts := hcontacts
  records := hrecords
  stored id c hc := hsound.stored id c (hbundles ▸ hc)
  queued c r hr := by
    rw [hcontacts] at hr
    obtain ⟨rb, hrb⟩ := hsound.queued c r hr
    rw [hrb]
    simp

/-- After the loop has failed, everything is as it was if and only if no entry has one of
the ids of the fragments that were added, and none of their records is freed too early. -/
theorem Cleanup.restored_iff {added : List Added} (hsound : WellStored t.processor s)
    (h : Cleanup t.processor t'.processor s t'.routing added) :
    (∃ s' n, t'.routing = .ok ⟨s', n⟩ ∧ Restored t.processor t'.processor s s') ↔
      (∀ y ∈ added, ∀ k ∈ y.contacts, s.NoEntry k y.id) ∧ FreedLast added := by
  obtain ⟨s₁, N, hrolled, hlines, hqueued, hplaced, n, hrouting⟩ := h.removed
  rw [← RoutingState.removeAll_restores_iff hsound.queued hrolled hlines hqueued hplaced, hrouting]
  constructor
  · rintro ⟨s', n', houtcome, hrestored⟩
    cases hremoved : RoutingState.removeAll added s₁ with
    | error e =>
      rw [hremoved] at houtcome
      cases houtcome
    | ok s₂ =>
      rw [hremoved] at houtcome
      cases houtcome
      exact ⟨_, rfl, hrestored.contacts, hrestored.records⟩
  · rintro ⟨s', hremoved, hcontacts, hrecords⟩
    exact ⟨s', n, by rw [hremoved]; rfl,
      restored_of_untouched hsound h.untouched h.bundles h.usage hcontacts hrecords⟩

/-- What `apply_fragmentation` has done when it returns `BUNDLE_RESULT_NO_MEMORY`: nothing
that is left, or the loop that adds the fragments has failed. -/
theorem applyFragmentation_noMemory (hsound : WellStored t.processor s)
    (hb : t.processor.cells a = .live b) (ht : t.routing = .ok ⟨s, 0⟩) (hfresh : x.Fresh s)
    {ids : List Nat}
    (h : t.applyFragmentation (tableRouting x) m a route = .ok (⟨.noMemory, ids⟩, t'))
    (hassert : t'.routing ≠ .error .assertion) :
    (t'.routing = .ok ⟨s, 0⟩ ∧ Restored t.processor t'.processor s s ∧
        ∀ added, ¬ AddedFragments x m t.processor a b route added) ∨
      ∃ added, AddedFragments x m t.processor a b route added ∧
        (∀ other, AddedFragments x m t.processor a b route other → other = added) ∧
        Cleanup t.processor t'.processor s t'.routing added := by
  have huntouched : Untouched t.processor t.processor := fun _ _ => rfl
  have hunchanged : ∀ {q : BundleProcessor}, Advances t.processor t.processor q →
      Restored t.processor q s s := fun hq =>
    restored_of_untouched hsound hq.untouched (by rw [hq.store])
      (by rw [hq.store]) rfl fun _ _ => rfl
  rw [applyFragmentation, load_of_live hb, ok_bind] at h
  unfold AddedFragments
  cases hfirst : t.processor.initializeFirstFragment m a with
  | error e =>
    rw [hfirst] at h
    cases h
  | ok y =>
    obtain ⟨first, q⟩ := y
    obtain ⟨hq, hmade⟩ := (initializeFirstFragment_makes m huntouched).ok hfirst
    rw [hfirst, ok_bind] at h
    cases first with
    | none =>
      cases h
      refine .inl ⟨ht, hunchanged hq, ?_⟩
      rintro added ⟨c, q', frags, p, hfirst', -⟩
      cases hfirst'
    | some c =>
      dsimp only at h
      have hcreated := createFragments_makes (x := x) (b := b) route
        (route.fragments.toNat - 1) (List.cons_ne_nil c []) hq.untouched
        (List.forall_mem_singleton.mpr (hmade c rfl))
      cases hloop : createFragments (tableRouting x) b route (route.fragments.toNat - 1) [c] q with
      | error e =>
        rw [hloop] at h
        cases h
      | ok z =>
        obtain ⟨frags, p⟩ := z
        obtain ⟨hp, hfrags⟩ := hcreated.ok hloop
        rw [hloop, ok_bind] at h
        cases frags with
        | none =>
          cases h
          refine .inl ⟨ht, hunchanged (hq.trans hp), ?_⟩
          rintro added ⟨c', q', frags, p', hfirst', hloop', -⟩
          cases hfirst'
          rw [hloop] at hloop'
          cases hloop'
        | some frags =>
          refine .inr ⟨_, ⟨c, q, frags, p, rfl, hloop, rfl⟩, ?_, ?_⟩
          · rintro other ⟨c', q', frags', p', hfirst', hloop', rfl⟩
            cases hfirst'
            rw [hloop] at hloop'
            cases hloop'
            rfl
          dsimp only at h
          obtain ⟨⟨added, u⟩, hadd, h⟩ := bind_eq_ok h
          have hmadeAll : ∀ d ∈ frags.take route.fragments.toNat,
              t.processor.cells d = .unused := fun d hd =>
            hfrags frags rfl d (List.mem_of_mem_take hd)
          cases added with
          | true =>
            obtain ⟨v, -, h⟩ := bind_eq_ok h
            obtain ⟨w, -, h⟩ := bind_eq_ok h
            obtain ⟨ids', -, h⟩ := bind_eq_ok h
            cases h
          | false =>
            cases h
            have hnil : frags.take route.fragments.toNat =
                [] ++ frags.take route.fragments.toNat := rfl
            exact addFragments_cleanup (t := { t with processor := p }) hsound.invalid
              hsound.usage hmadeAll
              (addFragments_nodup hmadeAll (fun _ hd => hd) (hq.trans hp).untouched hadd) hnil
              ((hq.trans hp).adding hsound.usage) ht (fun f r _ => hfresh.unused f r)
              hfresh.distinct (RoutingState.Rolled.refl s) [] (fun _ _ => rfl) hsound.queued (by simp)
              rfl hadd hassert

end RouterTask

/-! ## An entry without a bundle -/

namespace RouterTask

theorem length_oneToFour : ([1, 2, 3, 4] : List UInt8).length < 2 ^ 32 := by decide

/-- A BPv7 bundle with a payload of four bytes. -/
def storedBundle : Bundle where
  id := 7
  protocolVersion := 7
  procFlags := 0
  retConstraints := .none
  destination := "dtn:b".toList
  source := "dtn:a".toList
  reportTo := "dtn:a".toList
  currentCustodian := dtnNone
  creationTimestamp := 1000
  sequenceNumber := 1
  lifetime := 60
  fragmentOffset := 0
  totalAduLength := 0
  blocks := [.payload]
  payload := ⟨[1, 2, 3, 4], length_oneToFour⟩

/-- One contact, on which a bundle with this id is queued. -/
def queuedState (id : Nat) : RoutingState where
  contacts c := if c = 1 then ⟨true, [5], 1, fun _ => 90⟩ else ⟨true, [], 0, fun _ => 100⟩
  routed r := if r = 5 then .live ⟨id, .low, 10, [1]⟩ else .unused
  handed := []
  informed := []

/-- The bundle is in the store. -/
def storedTask (id : Nat) : RouterTask (Except Queueing.Fault RouteTables) where
  processor := { BundleProcessor.initial with
    cells := fun c => if c = 1 then .live storedBundle else .unused
    store := ⟨fun i => if i = 7 then some 1 else none, 8, 4⟩ }
  routing := .ok ⟨queuedState id, 0⟩
  signals := []

/-- Three fragments, the first two of them for both contacts. -/
def threeFragments : RouterResult where
  fragments := 3
  fragmentResults f :=
    if f = 0 then ⟨[1, 2], 2⟩ else if f = 1 then ⟨[1, 2], 1⟩ else ⟨[1], 1⟩

/-- The first fragment gets an entry on the first contact only, and the record of the third
one cannot be allocated. -/
def scarceEnv : RouteEnv where
  getFirstRoute _ := threeFragments
  firstFragmentMinSize _ := 0
  midFragmentMinSize _ := 0
  lastFragmentMinSize _ := 0
  routingPriority _ := .low
  serializedSize _ := 10
  splitMem a := ⟨some (a + 1), true, true, true, true⟩
  routeMem call := ⟨if call = 0 then some 6 else if call = 1 then some 7 else none, true, true,
    fun i => decide (call ≠ 0 ∨ i = 0)⟩

/-- The nodes for the first fragments cannot be allocated either. -/
def scarceMemory (without : Nat) : FragmentMemory where
  bundleMem := some 2
  blocksMem := true
  nodeMem f := decide (without ≤ f)

theorem scarceEnv_fresh (id : Nat) : scarceEnv.Fresh (queuedState id) where
  unused f r h := by
    simp only [scarceEnv] at h
    split_ifs at h <;> cases h <;> rfl
  distinct f g r hf hg := by
    simp only [scarceEnv] at hf hg
    split_ifs at hf <;> cases hf <;> split_ifs at hg <;> cases hg <;> simp_all

theorem storedTask_wellStored (id : Nat) :
    WellStored (storedTask id).processor (queuedState id) where
  invalid := rfl
  usage := by
    show 4 < 2 ^ 32
    decide
  stored i c h := by
    simp only [storedTask] at h ⊢
    split at h
    · cases h
      simp
    · cases h
  queued c r h := by
    simp only [queuedState] at h ⊢
    split at h
    · rw [List.mem_singleton.mp h]
      exact ⟨_, rfl⟩
    · cases h

/-- The first two fragments, when there is no node for the first one. -/
theorem addedFragments_scarce {id : Nat} {added : List Added}
    (h : AddedFragments scarceEnv (scarceMemory 1) (storedTask id).processor 1 storedBundle
      threeFragments added) :
    added = [⟨6, 0, [1, 2], [1]⟩, ⟨7, 9, [1, 2], [1, 2]⟩] := by
  obtain ⟨c, q, frags, p', hfirst, hloop, rfl⟩ := h
  cases hfirst
  cases hloop
  rfl

/-- The first two fragments are in no store: the removal of the first one finds the record of
the second one last, and frees it while it is still on the first contact. -/
theorem earlyFree_useAfterFree : ∃ t',
    (storedTask 5).applyFragmentation (tableRouting scarceEnv) (scarceMemory 2) 1
      threeFragments = .ok (⟨.noMemory, []⟩, t') ∧ t'.routing = .error .useAfterFree :=
  ⟨_, rfl, rfl⟩

end RouterTask

end Upcn
