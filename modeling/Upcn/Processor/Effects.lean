import Upcn.Processor.Handlers

/-!
# What the functions do to the state

One lemma for each function that the handlers are made of.

* The memory: `load_of_live`, `modify_of_live` and the equations of
  `setCell`.
* `Registered` relates the store and the memory: a stored pointer points to
  a live bundle with that id, and a live bundle with an id is stored under
  it.  Under it, `bundleDiscard_of_live` says what `bundle_discard` does.
* `Grows` is all that the generation of a report does: it adds bundles.
* The functions around reports follow from these two.
-/

namespace Upcn

open Outcome Store

/-- A crash or an endless loop while a bundle of the processor itself is
made or stored. -/
def Fault.ReportFails (e : Fault) : Prop :=
  e = .notFresh ∨ e = .recordFreedTwice ∨ ∃ s, e = .store s ∧ s ≠ .accounting

/-- The failures of a function that also discards bundles: a failed report,
or the `ASSERT` of `bundle_storage_delete`. -/
def Fault.DiscardFails (e : Fault) : Prop :=
  e.ReportFails ∨ e = .store .accounting

/-- A bundle without retention constraints. -/
def Bundle.unretained (b : Bundle) : Bundle :=
  { b with retConstraints := .none }

/-- A bundle after the steps 5.4-1 and 5.4-2 of `bundle_forward`. -/
def Bundle.forwardPending (b : Bundle) : Bundle :=
  { b with
    retConstraints := b.retConstraints.addForwardPending.remDispatchPending }

namespace BundleProcessor

variable {env : Env} {o : Inputs} {p q : BundleProcessor} {a c : Addr}
  {b : Bundle}

/-! ## The memory -/

theorem load_of_live (h : p.cells a = .live b) : p.load a = .ok b := by
  rw [load, h]

theorem live_of_load (h : p.load a = .ok b) : p.cells a = .live b := by
  unfold load at h
  split at h
  · next b' hb =>
    cases h
    exact hb
  · cases h
  · cases h

@[simp] theorem cells_setCell_self (c : Cell) :
    (p.setCell a c).cells a = c := by
  simp [setCell]

theorem cells_setCell_of_ne {x : Addr} (hx : x ≠ a) (c : Cell) :
    (p.setCell a c).cells x = p.cells x := by
  simp [setCell, hx]

@[simp] theorem setCell_setCell (c c' : Cell) :
    (p.setCell a c).setCell a c' = p.setCell a c' := by
  simp [setCell]

theorem setCell_eq_self (h : p.cells a = .live b) :
    p.setCell a (.live b) = p := by
  have hc : Function.update p.cells a (.live b) = p.cells := by
    rw [← h]
    exact Function.update_eq_self a p.cells
  rw [setCell, hc]

@[simp] theorem store_setCell (c : Cell) : (p.setCell a c).store = p.store := rfl

@[simp] theorem reassemblyList_setCell (c : Cell) :
    (p.setCell a c).reassemblyList = p.reassemblyList := rfl

@[simp] theorem knownBundleList_setCell (c : Cell) :
    (p.setCell a c).knownBundleList = p.knownBundleList := rfl

@[simp] theorem acceptedBundles_setCell (c : Cell) :
    (p.setCell a c).acceptedBundles = p.acceptedBundles := rfl

@[simp] theorem acceptedBundleCount_setCell (c : Cell) :
    (p.setCell a c).acceptedBundleCount = p.acceptedBundleCount := rfl

@[simp] theorem delivered_setCell (c : Cell) :
    (p.setCell a c).delivered = p.delivered := rfl

@[simp] theorem outQueue_setCell (c : Cell) :
    (p.setCell a c).outQueue = p.outQueue := rfl

theorem modify_of_live (h : p.cells a = .live b) (f : Bundle → Bundle) :
    p.modify a f = .ok (p.setCell a (.live (f b))) := by
  rw [modify, load_of_live h]
  rfl

/-- `bundle_rem_rc` without the discard. -/
theorem bundleRemRc_keep (h : p.cells a = .live b)
    (clear : RetConstraints → RetConstraints) :
    p.bundleRemRc a clear false
      = .ok (p.setCell a (.live
          { b with retConstraints := clear b.retConstraints })) := by
  rw [bundleRemRc, modify_of_live h, ok_bind, load_of_live (cells_setCell_self _)]
  rfl

theorem bundleAddRc_of_live (h : p.cells a = .live b)
    (f : RetConstraints → RetConstraints) :
    p.bundleAddRc a f
      = .ok (p.setCell a (.live
          { b with retConstraints := f b.retConstraints })) :=
  modify_of_live h _

theorem bundleDrop_of_live (h : p.cells a = .live b)
    (hret : b.retConstraints = .none) :
    p.bundleDrop a = .ok (p.setCell a .freed) := by
  rw [bundleDrop, load_of_live h, ok_bind, if_neg (by simp [hret]), bundleFree,
    load_of_live h]
  rfl

theorem allocate_ends (b : Bundle) :
    Ends (fun e => e = .notFresh) (p.allocate a b)
      (fun q => p.cells a = .unused ∧ q = p.setCell a (.live b)) := by
  unfold allocate
  split
  · next h => exact ⟨h, rfl⟩
  · exact rfl

/-! ## The store and the memory -/

/-- The store holds the live bundles that have an id, each under its own. -/
structure Registered (p : BundleProcessor) : Prop where
  stored : ∀ id a, p.store.bundles id = some a →
    id ≠ bundleInvalidId ∧ ∃ b, p.cells a = .live b ∧ b.id = id
  live : ∀ a b, p.cells a = .live b → b.id ≠ bundleInvalidId →
    p.store.bundles b.id = some a

/-- The bundle at `a` is taken out of the store and freed. -/
def removed (p : BundleProcessor) (a : Addr) (b : Bundle) : BundleProcessor :=
  { p with
    cells := Function.update p.cells a .freed
    store := ⟨Function.update p.store.bundles b.id none, p.store.nextId,
      if (p.store.bundles b.id).isSome
      then p.store.bundleBytes - b.payload.val.length
      else p.store.bundleBytes⟩ }

@[simp] theorem cells_removed_self : (p.removed a b).cells a = .freed := by
  simp [removed]

theorem cells_removed_of_ne {x : Addr} (hx : x ≠ a) :
    (p.removed a b).cells x = p.cells x := by
  simp [removed, hx]

@[simp] theorem bundles_removed : (p.removed a b).store.bundles
    = Function.update p.store.bundles b.id none := rfl

/-- `bundle_discard` takes a bundle without retention constraints out of the
store and frees it. -/
theorem bundleDiscard_of_live (hreg : p.Registered) (h : p.cells a = .live b)
    (hret : b.retConstraints = .none) :
    p.bundleDiscard a
      = if (p.store.bundles b.id).isSome ∧
          p.store.bundleBytes < b.payload.val.length
        then .error (.store .accounting) else .ok (p.removed a b) := by
  rw [bundleDiscard, load_of_live h, ok_bind, bundleStorageDelete,
    BundleStore.bundleStorageGet]
  cases hs : p.store.bundles b.id with
  | none =>
    have hnone : Function.update p.store.bundles b.id none = p.store.bundles := by
      rw [← hs]
      exact Function.update_eq_self _ _
    rw [if_neg (by simp), removed, hs, hnone]
    exact bundleDrop_of_live h hret
  | some a' =>
    obtain ⟨hid, b', hb', hbid⟩ := hreg.stored b.id a' hs
    have ha : a' = a := by
      have hstored := hreg.live a b h hid
      rw [hs] at hstored
      exact Option.some.inj hstored
    subst ha
    obtain rfl : b' = b := by
      rw [h] at hb'
      exact (Cell.live.inj hb').symm
    simp only [load_of_live h, ok_bind, BundleStore.bundleStorageDelete, hs,
      Option.getD_some, Option.isSome_some, true_and]
    by_cases hlt : p.store.bundleBytes < b'.payload.val.length
    · rw [if_pos hlt, if_pos hlt]
      rfl
    · rw [if_neg hlt, if_neg hlt]
      rw [removed, hs]
      exact bundleDrop_of_live (b := b') h hret

theorem Registered.removed (hreg : p.Registered) (h : p.cells a = .live b) :
    (p.removed a b).Registered := by
  refine ⟨fun id x hx => ?_, fun x c hc hid => ?_⟩
  · have hne : id ≠ b.id := by
      rintro rfl
      simp at hx
    have hx' : p.store.bundles id = some x := by
      rwa [bundles_removed, Function.update_of_ne hne] at hx
    obtain ⟨hid, b', hb', hbid⟩ := hreg.stored id x hx'
    refine ⟨hid, b', ?_, hbid⟩
    rw [cells_removed_of_ne, hb']
    rintro rfl
    rw [h] at hb'
    exact hne (by rw [← hbid, ← Cell.live.inj hb'])
  · have hxa : x ≠ a := by
      rintro rfl
      simp at hc
    rw [cells_removed_of_ne hxa] at hc
    have hs := hreg.live x c hc hid
    have hne : c.id ≠ b.id := by
      intro he
      have hsb := hreg.live a b h (he ▸ hid)
      rw [← he, hs] at hsb
      exact hxa (Option.some.inj hsb)
    rw [bundles_removed, Function.update_of_ne hne, hs]

theorem Registered.setCell (hreg : p.Registered) (h : p.cells a = .live b)
    {b' : Bundle} (hid : b'.id = b.id) : (p.setCell a (.live b')).Registered := by
  refine ⟨fun id x hx => ?_, fun x c hc hid' => ?_⟩
  · obtain ⟨hne, c, hc, hcid⟩ := hreg.stored id x hx
    by_cases hxa : x = a
    · subst hxa
      rw [h] at hc
      obtain rfl := Cell.live.inj hc
      exact ⟨hne, b', cells_setCell_self _, hid.trans hcid⟩
    · exact ⟨hne, c, by rw [cells_setCell_of_ne hxa, hc], hcid⟩
  · by_cases hxa : x = a
    · subst hxa
      rw [cells_setCell_self] at hc
      obtain rfl := Cell.live.inj hc
      rw [store_setCell, hid]
      exact hreg.live x b h (hid ▸ hid')
    · rw [cells_setCell_of_ne hxa] at hc
      exact hreg.live x c hc hid'

/-! ## What the generation of a report does -/

/-- `q` is `p` with more bundles, some of them in the store, and more signals
to the router task. -/
structure Grows (p q : BundleProcessor) : Prop where
  old : ∀ x, p.cells x ≠ .unused → q.cells x = p.cells x
  stored : ∀ id x, p.store.bundles id = some x → q.store.bundles id = some x
  added : ∀ id x, q.store.bundles id = some x → p.store.bundles id = some x ∨
    id ≠ bundleInvalidId ∧ p.cells x = .unused ∧
      ∃ b, q.cells x = .live b ∧ b.id = id
  new : ∀ x b, p.cells x = .unused → q.cells x = .live b →
    b.id ≠ bundleInvalidId → q.store.bundles b.id = some x
  reassemblyList : q.reassemblyList = p.reassemblyList
  knownBundleList : q.knownBundleList = p.knownBundleList
  acceptedBundles : q.acceptedBundles = p.acceptedBundles
  acceptedBundleCount : q.acceptedBundleCount = p.acceptedBundleCount
  delivered : q.delivered = p.delivered
  outQueue : p.outQueue <+: q.outQueue

namespace Grows

theorem refl (p : BundleProcessor) : Grows p p where
  old _ _ := rfl
  stored _ _ h := h
  added _ _ h := .inl h
  new _ _ h h' := by
    rw [h] at h'
    cases h'
  reassemblyList := rfl
  knownBundleList := rfl
  acceptedBundles := rfl
  acceptedBundleCount := rfl
  delivered := rfl
  outQueue := List.prefix_rfl

theorem live (h : Grows p q) (hb : p.cells a = .live b) : q.cells a = .live b := by
  rw [h.old a (by simp [hb]), hb]

theorem accepted (h : Grows p q) : q.accepted = p.accepted := by
  rw [BundleProcessor.accepted, BundleProcessor.accepted, h.acceptedBundles,
    h.acceptedBundleCount]

theorem trans {r : BundleProcessor} (h : Grows p q) (h' : Grows q r) :
    Grows p r where
  old x hx := by rw [h'.old x (by rwa [h.old x hx]), h.old x hx]
  stored id x hx := h'.stored id x (h.stored id x hx)
  added id x hx := by
    rcases h'.added id x hx with hq | ⟨hid, hxq, c, hc, hcid⟩
    · rcases h.added id x hq with hp | ⟨hid, hxp, c, hc, hcid⟩
      · exact .inl hp
      · exact .inr ⟨hid, hxp, c, h'.live hc, hcid⟩
    · by_cases hxp : p.cells x = .unused
      · exact .inr ⟨hid, hxp, c, hc, hcid⟩
      · exact absurd hxq (by rwa [h.old x hxp])
  new x c hx hc hid := by
    by_cases hxq : q.cells x = .unused
    · exact h'.new x c hxq hc hid
    · rw [h'.old x hxq] at hc
      exact h'.stored _ _ (h.new x c hx hc hid)
  reassemblyList := h'.reassemblyList.trans h.reassemblyList
  knownBundleList := h'.knownBundleList.trans h.knownBundleList
  acceptedBundles := h'.acceptedBundles.trans h.acceptedBundles
  acceptedBundleCount := h'.acceptedBundleCount.trans h.acceptedBundleCount
  delivered := h'.delivered.trans h.delivered
  outQueue := h.outQueue.trans h'.outQueue

theorem registered (h : Grows p q) (hreg : p.Registered) : q.Registered := by
  refine ⟨fun id x hx => ?_, fun x c hc hid => ?_⟩
  · rcases h.added id x hx with hp | ⟨hid, -, c, hc, hcid⟩
    · obtain ⟨hid, c, hc, hcid⟩ := hreg.stored id x hp
      exact ⟨hid, c, h.live hc, hcid⟩
    · exact ⟨hid, c, hc, hcid⟩
  · by_cases hxp : p.cells x = .unused
    · exact h.new x c hxp hc hid
    · rw [h.old x hxp] at hc
      exact h.stored _ _ (hreg.live x c hc hid)

/-- A write to a bundle that is there commutes with the growth. -/
theorem setCell (h : Grows p q) (ha : p.cells a ≠ .unused) {c : Cell}
    (hc : c ≠ .unused) : Grows (p.setCell a c) (q.setCell a c) where
  old x hx := by
    by_cases hxa : x = a
    · rw [hxa, cells_setCell_self, cells_setCell_self]
    · rw [cells_setCell_of_ne hxa] at hx ⊢
      rw [cells_setCell_of_ne hxa, h.old x hx]
  stored := h.stored
  added id x hx := by
    rcases h.added id x hx with hp | ⟨hid, hxp, b, hb, hbid⟩
    · exact .inl hp
    · have hxa : x ≠ a := by
        rintro rfl
        exact ha hxp
      refine .inr ⟨hid, ?_, b, ?_, hbid⟩
      · rw [cells_setCell_of_ne hxa, hxp]
      · rw [cells_setCell_of_ne hxa, hb]
  new x b hx hb hid := by
    have hxa : x ≠ a := by
      rintro rfl
      rw [cells_setCell_self] at hx
      exact hc hx
    rw [cells_setCell_of_ne hxa] at hx hb
    exact h.new x b hx hb hid
  reassemblyList := h.reassemblyList
  knownBundleList := h.knownBundleList
  acceptedBundles := h.acceptedBundles
  acceptedBundleCount := h.acceptedBundleCount
  delivered := h.delivered
  outQueue := h.outQueue

end Grows

/-- `p` with more bundles, and with `b` as the bundle at `a`: the state in
the middle of a handler that works on `a`. -/
def Keeps (p : BundleProcessor) (a : Addr) (b : Bundle) (q : BundleProcessor) :
    Prop :=
  Grows (p.setCell a (.live b)) q

theorem keeps_refl (h : p.cells a = .live b) : Keeps p a b p := by
  rw [Keeps, setCell_eq_self h]
  exact .refl p

theorem Keeps.live (h : Keeps p a b q) : q.cells a = .live b :=
  Grows.live h (cells_setCell_self _)

theorem Keeps.of_ne {x : Addr} (h : Keeps p a b q) (hx : x ≠ a)
    (hp : p.cells x ≠ .unused) : q.cells x = p.cells x := by
  have hold := Grows.old h x
  rw [cells_setCell_of_ne hx] at hold
  exact hold hp

theorem Keeps.accepted (h : Keeps p a b q) : q.accepted = p.accepted := by
  have hacc := Grows.accepted h
  exact hacc

theorem Keeps.acceptedBundleCount (h : Keeps p a b q) :
    q.acceptedBundleCount = p.acceptedBundleCount := by
  have hcount := Grows.acceptedBundleCount h
  exact hcount

theorem Keeps.reassemblyList (h : Keeps p a b q) :
    q.reassemblyList = p.reassemblyList := by
  have hlist := Grows.reassemblyList h
  exact hlist

theorem Keeps.knownBundleList (h : Keeps p a b q) :
    q.knownBundleList = p.knownBundleList := by
  have hlist := Grows.knownBundleList h
  exact hlist

theorem Keeps.delivered (h : Keeps p a b q) : q.delivered = p.delivered := by
  have hlog := Grows.delivered h
  exact hlog

theorem Keeps.grow {r : BundleProcessor} (h : Keeps p a b q) (h' : Grows q r) :
    Keeps p a b r :=
  Grows.trans h h'

theorem Keeps.trans {b' : Bundle} {r : BundleProcessor} (h : Keeps p a b q)
    (h' : Keeps q a b' r) : Keeps p a b' r := by
  have hset := Grows.setCell (a := a) (c := .live b') h (by simp) (by simp)
  rw [setCell_setCell] at hset
  exact Grows.trans hset h'

theorem Keeps.write (h : Keeps p a b q) (b' : Bundle) :
    Keeps p a b' (q.setCell a (.live b')) := by
  have hset := Grows.setCell (a := a) (c := .live b') h (by simp) (by simp)
  rw [setCell_setCell] at hset
  exact hset

/-! ## Bundles of the processor itself -/

theorem forwardAccepted_of_live (h : p.cells a = .live b) :
    p.forwardAccepted a
      = .ok ((p.setCell a (.live b.forwardPending)).sendBundle b.id) := by
  rw [forwardAccepted, bundleAddRc_of_live h, ok_bind,
    bundleRemRc_keep (cells_setCell_self _), ok_bind,
    load_of_live (cells_setCell_self _), setCell_setCell]
  rfl

/-- The effect of `bundle_storage_add` on the state. -/
def stored (p : BundleProcessor) (a : Addr) (b : Bundle) (nodeMem : Bool)
    (id : Nat) (s : BundleStore Addr) : BundleProcessor :=
  if nodeMem then ({ p with store := s }).setCell a (.live { b with id := id })
  else { p with store := s }

theorem bundleStorageAdd_of_live (h : p.cells a = .live b) (nodeMem : Bool) :
    p.bundleStorageAdd a nodeMem
      = (Except.mapError Fault.store (p.store.bundleStorageAdd nodeMem a b.id
          (some b.payload.val.length)) >>= fun r =>
        .ok (r.1, p.stored a b nodeMem r.1 r.2)) := by
  rw [bundleStorageAdd, load_of_live h, ok_bind]
  cases p.store.bundleStorageAdd nodeMem a b.id (some b.payload.val.length) with
  | error e => rfl
  | ok r => cases nodeMem <;> rfl

theorem bundleStorageAdd_ends (h : p.cells a = .live b)
    (hid : b.id = bundleInvalidId) (nodeMem : Bool) :
    Ends Fault.ReportFails (p.bundleStorageAdd a nodeMem) fun r =>
      (r.1 ≠ bundleInvalidId ∧ p.store.bundles r.1 = none ∧
        ∃ s, s.bundles = Function.update p.store.bundles r.1 (some a) ∧
          r.2 = ({ p with store := s }).setCell a (.live { b with id := r.1 })) ∨
      (r.1 = bundleInvalidId ∧ ∃ s, s.bundles = p.store.bundles ∧
        r.2 = { p with store := s }) := by
  rw [bundleStorageAdd_of_live h, hid]
  have hadd := p.store.bundleStorageAdd_ends nodeMem a
    (some b.payload.val.length)
  rw [bundleInvalidId, ← invalidId]
  cases hs : p.store.bundleStorageAdd nodeMem a invalidId
      (some b.payload.val.length) with
  | error e =>
    exact .inr (.inr ⟨e, rfl, hadd.error hs⟩)
  | ok r =>
    rcases hadd.ok hs with ⟨hmem, hne, hfree, heq⟩ | ⟨hmem, hr, heq⟩
    · refine .inl ⟨hne, hfree, r.2, by rw [heq], ?_⟩
      rw [stored, hmem, if_pos rfl]
    · refine .inr ⟨hr, r.2, by rw [heq], ?_⟩
      rw [stored, hmem, if_neg (by simp)]

/-- A new bundle at `a`, stored under its id or without one. -/
theorem grows_of_new (ha : p.cells a = .unused)
    (hcells : q.cells = Function.update p.cells a (.live b))
    (hs : q.store.bundles = p.store.bundles ∧ b.id = bundleInvalidId ∨
      q.store.bundles = Function.update p.store.bundles b.id (some a) ∧
        b.id ≠ bundleInvalidId ∧ p.store.bundles b.id = none)
    (hqueue : p.outQueue <+: q.outQueue)
    (hrest : q.reassemblyList = p.reassemblyList ∧
      q.knownBundleList = p.knownBundleList ∧
      q.acceptedBundles = p.acceptedBundles ∧
      q.acceptedBundleCount = p.acceptedBundleCount ∧
      q.delivered = p.delivered) : Grows p q where
  old x hx := by
    have hxa : x ≠ a := by
      rintro rfl
      exact hx ha
    rw [hcells, Function.update_of_ne hxa]
  stored id x hx := by
    rcases hs with ⟨hs, -⟩ | ⟨hs, -, hfree⟩
    · rwa [hs]
    · have hne : id ≠ b.id := by
        rintro rfl
        rw [hfree] at hx
        cases hx
      rw [hs, Function.update_of_ne hne, hx]
  added id x hx := by
    rcases hs with ⟨hs, -⟩ | ⟨hs, hid, -⟩
    · rw [hs] at hx
      exact .inl hx
    · rw [hs] at hx
      by_cases hne : id = b.id
      · subst hne
        rw [Function.update_self] at hx
        obtain rfl := Option.some.inj hx
        exact .inr ⟨hid, ha, b, by rw [hcells, Function.update_self], rfl⟩
      · rw [Function.update_of_ne hne] at hx
        exact .inl hx
  new x c hx hc hid := by
    rw [hcells] at hc
    by_cases hxa : x = a
    · subst hxa
      rw [Function.update_self] at hc
      obtain rfl := Cell.live.inj hc
      rcases hs with ⟨-, hid'⟩ | ⟨hs, -, -⟩
      · exact absurd hid' hid
      · rw [hs, Function.update_self]
    · rw [Function.update_of_ne hxa, hx] at hc
      cases hc
  reassemblyList := hrest.1
  knownBundleList := hrest.2.1
  acceptedBundles := hrest.2.2.1
  acceptedBundleCount := hrest.2.2.2.1
  delivered := hrest.2.2.2.2
  outQueue := hqueue

theorem storeAndForward_ends (ha : p.cells a = .unused)
    (hid : b.id = bundleInvalidId) (nodeMem : Bool) :
    Ends Fault.ReportFails
      ((p.setCell a (.live b)).bundleStorageAdd a nodeMem >>= fun r =>
        r.2.forwardAccepted a)
      (Grows p) := by
  refine (bundleStorageAdd_ends (cells_setCell_self _) hid nodeMem).bind ?_
  rintro ⟨id, q⟩ hq
  dsimp only at hq
  rcases hq with ⟨hne, hfree, s, hs, rfl⟩ | ⟨rfl, s, hs, rfl⟩
  · rw [forwardAccepted_of_live (cells_setCell_self _), setCell_setCell]
    refine grows_of_new (b := Bundle.forwardPending { b with id := id }) ha ?_
      (.inr ⟨hs, hne, hfree⟩) (List.prefix_append _ _)
      ⟨rfl, rfl, rfl, rfl, rfl⟩
    simp [sendBundle, setCell]
  · have hlive : ({ p.setCell a (.live b) with store := s } :
        BundleProcessor).cells a = .live b := cells_setCell_self _
    rw [forwardAccepted_of_live hlive]
    refine grows_of_new (b := b.forwardPending) ha ?_ (.inl ⟨hs, hid⟩)
      (List.prefix_append _ _) ⟨rfl, rfl, rfl, rfl, rfl⟩
    simp [sendBundle, setCell]

/-- A bundle that the processor has made goes to the router task. -/
theorem dispatchReport_ends (ha : p.cells a = .unused)
    (hid : b.id = bundleInvalidId) (r : ReportInput) :
    Ends Fault.ReportFails
      (dispatchReport forwardAccepted (p.setCell a (.live b)) a r)
      (Grows p) := by
  rw [dispatchReport, bundleAddRc_of_live (cells_setCell_self _), ok_bind,
    setCell_setCell]
  exact storeAndForward_ends
    (b := { b with retConstraints := b.retConstraints.addDispatchPending })
    ha hid r.nodeMem

/-- A bundle without extension blocks passes the hop count validation. -/
theorem bundleForwardN_of_payload (h : p.cells a = .live b)
    (hb : b.blocks = [.payload]) (depth : Nat) :
    bundleForwardN env o (depth + 1) p a = p.forwardAccepted a := by
  rw [bundleForwardN, hopCountValidationWith, load_of_live h, ok_bind, hb]
  rfl

theorem dispatchReport_forwardN (h : p.cells a = .live b)
    (hb : b.blocks = [.payload]) (depth : Nat) (r : ReportInput) :
    dispatchReport (bundleForwardN env o (depth + 1)) p a r
      = dispatchReport forwardAccepted p a r := by
  rw [dispatchReport, dispatchReport, bundleAddRc_of_live h, ok_bind, ok_bind,
    bundleStorageAdd_of_live (cells_setCell_self _)]
  cases Except.mapError Fault.store _ with
  | error e => rfl
  | ok s =>
    rw [ok_bind]
    refine bundleForwardN_of_payload (b := ?_) ?_ ?_ depth
    · exact if r.nodeMem then { b with
          retConstraints := b.retConstraints.addDispatchPending, id := s.1 }
        else { b with retConstraints := b.retConstraints.addDispatchPending }
    · cases hmem : r.nodeMem <;> simp [stored, setCell]
    · cases r.nodeMem <;> exact hb

/-- The bundles that `generate_status_report` and `generate_custody_signal`
make have no id yet and no extension blocks. -/
def Fresh (b : Bundle) : Prop := b.id = bundleInvalidId ∧ b.blocks = [.payload]

theorem encapsulateRecord_ends (b : Bundle) (destination : Eid)
    (r : ReportInput) (payload : Payload) :
    Ends Fault.ReportFails (encapsulateRecord env b destination r payload)
      fun report => ∀ x ∈ report, Fresh x.2 := by
  unfold encapsulateRecord
  dsimp only
  split
  · exact ends_ok (by simp)
  · split
    · exact ends_error (.inr (.inl rfl))
    · split
      · exact ends_ok (by simp [Fresh, createLocal])
      · exact ends_error (.inr (.inl rfl))

theorem generateStatusReport_ends (env : Env) (b : Bundle) (status : StatusReportStatus)
    (reason : StatusReportReason) (r : ReportInput) :
    Ends Fault.ReportFails (generateStatusReport env b status reason r)
      fun report => ∀ x ∈ report, Fresh x.2 := by
  unfold generateStatusReport
  split
  · split
    · exact encapsulateRecord_ends _ _ _ _
    · split
      · dsimp only
        split
        · exact ends_ok (by simp)
        · exact ends_ok (by simp [Fresh, createLocal])
      · exact ends_ok (by simp)
  · exact ends_ok (by simp)

theorem generateCustodySignal_ends (env : Env) (b : Bundle) (signal : CustodySignal)
    (r : ReportInput) :
    Ends Fault.ReportFails (generateCustodySignal env b signal r)
      fun report => ∀ x ∈ report, Fresh x.2 := by
  unfold generateCustodySignal
  split
  · exact encapsulateRecord_ends _ _ _ _
  · exact ends_ok (by simp)

theorem grows_nextReport (p : BundleProcessor) : Grows p (p.nextReport o).2 :=
  { Grows.refl p with }

/-- `send_status_report` after the record is made. -/
theorem dispatchNew_forwardN (depth : Nat) (p : BundleProcessor) (c : Addr)
    {report : Bundle} (hreport : Fresh report) (r : ReportInput) :
    (p.allocate c report >>= fun p =>
        dispatchReport (bundleForwardN env o (depth + 1)) p c r)
      = p.allocate c report >>= fun p => dispatchReport forwardAccepted p c r := by
  cases h : p.allocate c report with
  | error e => rfl
  | ok q =>
    obtain ⟨-, rfl⟩ := (allocate_ends report).ok h
    exact dispatchReport_forwardN (cells_setCell_self _) hreport.2 depth r

/-- The recursion of `send_status_report` is one report deep. -/
theorem sendStatusReportWith_forwardN (depth : Nat) :
    sendStatusReportWith env o (bundleForwardN env o (depth + 1))
      = sendStatusReportWith env o forwardAccepted := by
  funext p a status reason
  unfold sendStatusReportWith
  split
  · rfl
  · cases p.load a with
    | error e => rfl
    | ok b =>
      rw [ok_bind, ok_bind]
      split
      · rfl
      · dsimp only
        have hends := generateStatusReport_ends env b status reason
          (p.nextReport o).1
        cases h : generateStatusReport env b status reason (p.nextReport o).1 with
        | error e => rfl
        | ok report =>
          have hfresh := hends.ok h
          rw [ok_bind, ok_bind]
          cases report with
          | none => rfl
          | some x => exact dispatchNew_forwardN depth _ x.1 (hfresh x rfl) _

theorem sendCustodySignalWith_forwardN (depth : Nat) :
    sendCustodySignalWith env o (bundleForwardN env o (depth + 1))
      = sendCustodySignalWith env o forwardAccepted := by
  funext p a signal
  unfold sendCustodySignalWith
  cases p.load a with
  | error e => rfl
  | ok b =>
    rw [ok_bind, ok_bind]
    dsimp only
    have hends := generateCustodySignal_ends env b signal
      (p.nextReport o).1
    cases h : generateCustodySignal env b signal (p.nextReport o).1 with
    | error e => rfl
    | ok report =>
      have hfresh := hends.ok h
      rw [ok_bind, ok_bind]
      cases report with
      | none => rfl
      | some x =>
        cases (p.nextReport o).1.listMem with
        | false => rfl
        | true => exact dispatchNew_forwardN depth _ x.1 (hfresh x rfl) _

theorem bundleDeleteWith_forwardN (depth : Nat) :
    bundleDeleteWith env o (bundleForwardN env o (depth + 1))
      = bundleDeleteWith env o forwardAccepted := by
  funext p a reason
  rw [bundleDeleteWith, bundleDeleteWith, sendStatusReportWith_forwardN]

/-- `bundle_forward` without the recursion. -/
theorem bundleForward_eq (p : BundleProcessor) (a : Addr) :
    p.bundleForward env o a
      = p.hopCountValidationWith env o forwardAccepted a >>= fun r =>
        if r.1 then r.2.forwardAccepted a else .ok r.2 := by
  rw [bundleForward, bundleForwardN, hopCountValidationWith,
    hopCountValidationWith, bundleDeleteWith_forwardN]
  rfl

theorem bundleDelete_eq :
    bundleDelete env o = bundleDeleteWith env o forwardAccepted :=
  bundleDeleteWith_forwardN 1

/-- What `send_status_report` and `send_custody_signal` do with the bundle
they have made. -/
theorem dispatchNew_ends (c : Addr) {report : Bundle} (hreport : Fresh report)
    (r : ReportInput) :
    Ends Fault.ReportFails
      (p.allocate c report >>= fun p => dispatchReport forwardAccepted p c r)
      (Grows p) := by
  refine ((allocate_ends report).mono (fun e he => .inl he) fun _ h => h).bind ?_
  rintro q ⟨hc, rfl⟩
  exact dispatchReport_ends hc hreport.1 r

/-- The only effect of a status report is a new bundle. -/
theorem sendStatusReport_ends (h : p.cells a = .live b)
    (status : StatusReportStatus) (reason : StatusReportReason) :
    Ends Fault.ReportFails
      (p.sendStatusReportWith env o forwardAccepted a status reason)
      (Grows p) := by
  unfold sendStatusReportWith
  split
  · exact Grows.refl p
  · rw [load_of_live h, ok_bind]
    split
    · exact Grows.refl p
    · dsimp only
      refine (generateStatusReport_ends env b status reason _).bind ?_
      intro report hfresh
      cases report with
      | none => exact grows_nextReport p
      | some x =>
        refine (dispatchNew_ends x.1 (hfresh x rfl) _).imp ?_
        intro q hq
        exact (grows_nextReport p).trans hq

/-- A custody signal whose list entry cannot be allocated is a bundle that
nothing refers to any more. -/
theorem grows_allocate (hc : p.cells a = .unused) (hid : b.id = bundleInvalidId) :
    Grows p (p.setCell a (.live b)) :=
  grows_of_new hc rfl (.inl ⟨rfl, hid⟩) List.prefix_rfl ⟨rfl, rfl, rfl, rfl, rfl⟩

/-- The only effect of a custody signal is a new bundle. -/
theorem sendCustodySignal_ends (h : p.cells a = .live b)
    (signal : CustodySignal) :
    Ends Fault.ReportFails
      (p.sendCustodySignalWith env o forwardAccepted a signal) (Grows p) := by
  unfold sendCustodySignalWith
  rw [load_of_live h, ok_bind]
  dsimp only
  refine (generateCustodySignal_ends env b signal _).bind ?_
  intro report hfresh
  cases report with
  | none => exact grows_nextReport p
  | some x =>
    have hx := hfresh x rfl
    cases (p.nextReport o).1.listMem with
    | true =>
      refine (dispatchNew_ends x.1 hx _).imp ?_
      intro q hq
      exact (grows_nextReport p).trans hq
    | false =>
      refine ((allocate_ends x.2).mono (fun e he => .inl he) fun _ h => h).bind ?_
      rintro q ⟨hc, rfl⟩
      exact (grows_nextReport p).trans (grows_allocate hc hx.1)

theorem sendStatusReport_eq :
    sendStatusReport env o = sendStatusReportWith env o forwardAccepted :=
  sendStatusReportWith_forwardN 1

theorem sendCustodySignal_eq :
    sendCustodySignal env o = sendCustodySignalWith env o forwardAccepted :=
  sendCustodySignalWith_forwardN 1

/-! ## Release of custody and deletion -/

/-- `p` after the entry of `a` is taken out of the custody list. -/
def withoutEntry (p : BundleProcessor) (a : Addr) : BundleProcessor :=
  match p.getIndex a with
  | none => p
  | some index =>
    { p with
      acceptedBundles := p.removeSlot index
      acceptedBundleCount := p.acceptedBundleCount - 1 }

@[simp] theorem cells_withoutEntry : (p.withoutEntry a).cells = p.cells := by
  unfold withoutEntry
  split <;> rfl

@[simp] theorem store_withoutEntry : (p.withoutEntry a).store = p.store := by
  unfold withoutEntry
  split <;> rfl

@[simp] theorem reassemblyList_withoutEntry :
    (p.withoutEntry a).reassemblyList = p.reassemblyList := by
  unfold withoutEntry
  split <;> rfl

@[simp] theorem knownBundleList_withoutEntry :
    (p.withoutEntry a).knownBundleList = p.knownBundleList := by
  unfold withoutEntry
  split <;> rfl

@[simp] theorem delivered_withoutEntry :
    (p.withoutEntry a).delivered = p.delivered := by
  unfold withoutEntry
  split <;> rfl

@[simp] theorem outQueue_withoutEntry :
    (p.withoutEntry a).outQueue = p.outQueue := by
  unfold withoutEntry
  split <;> rfl

theorem Registered.withoutEntry (hreg : p.Registered) :
    (p.withoutEntry a).Registered := by
  refine ⟨fun id x hx => ?_, fun x c hc hid => ?_⟩
  · rw [store_withoutEntry] at hx
    rw [cells_withoutEntry]
    exact hreg.stored id x hx
  · rw [cells_withoutEntry] at hc
    rw [store_withoutEntry]
    exact hreg.live x c hc hid

/-- `custody_manager_release` discards the bundle when custody was the only
thing that retained it. -/
theorem custodyManagerRelease_of_live (h : p.cells a = .live b) :
    p.custodyManagerRelease a
      = if (p.getIndex a).isNone then .ok p
        else
          let q := (p.withoutEntry a).setCell a (.live
            { b with retConstraints := b.retConstraints.remCustodyAccepted })
          if b.retConstraints.remCustodyAccepted = .none then q.bundleDiscard a
          else .ok q := by
  unfold custodyManagerRelease withoutEntry
  cases p.getIndex a with
  | none => rfl
  | some index =>
    dsimp only [Option.isNone_some]
    set q : BundleProcessor := { p with
      acceptedBundles := p.removeSlot index
      acceptedBundleCount := p.acceptedBundleCount - 1 }
    have hq : q.cells a = .live b := h
    rw [if_neg (by simp), modify_of_live hq, ok_bind,
      load_of_live (cells_setCell_self _), ok_bind]
    dsimp only
    split
    · rw [bundleDiscard, load_of_live (cells_setCell_self _), ok_bind]
    · rfl

theorem onlyIf_ends {E : Fault → Prop} {f : BundleProcessor → Except Fault BundleProcessor}
    (condition : Bool) (h : Ends E (f p) (Grows p)) :
    Ends E (p.onlyIf condition f) (Grows p) := by
  unfold onlyIf
  split
  · exact h
  · exact Grows.refl p

/-- What the deletion of a bundle that is in custody starts from. -/
def releasedFor (p : BundleProcessor) (a : Addr) (b : Bundle) :
    BundleProcessor :=
  if b.retConstraints.custodyAccepted then p.withoutEntry a else p

/-- `bundle_delete` does not free the bundle before it is done with it. -/
def Deletable (p : BundleProcessor) (a : Addr) (b : Bundle) : Prop :=
  b.retConstraints.custodyAccepted = true → p.getIndex a ≠ none →
    b.retConstraints.remCustodyAccepted ≠ .none

/-- The part of `bundle_delete` before the report. -/
theorem release_continues (h : p.cells a = .live b) (hdel : p.Deletable a b) :
    ∃ b', b'.unretained = b.unretained ∧
      p.onlyIf b.retConstraints.custodyAccepted (·.custodyManagerRelease a)
        = .ok ((p.releasedFor a b).setCell a (.live b')) := by
  unfold releasedFor onlyIf
  cases hcust : b.retConstraints.custodyAccepted with
  | false => exact ⟨b, rfl, by simp [setCell_eq_self h]⟩
  | true =>
    rw [if_pos rfl, if_pos rfl]
    dsimp only
    rw [custodyManagerRelease_of_live h]
    cases hindex : p.getIndex a with
    | none =>
      have hw : p.withoutEntry a = p := by rw [withoutEntry, hindex]
      exact ⟨b, rfl, by simp [hw, setCell_eq_self h]⟩
    | some index =>
      have hne := hdel hcust (by simp [hindex])
      refine ⟨{ b with
        retConstraints := b.retConstraints.remCustodyAccepted }, rfl, ?_⟩
      simp [hne]

theorem bundleDelete_continues (h : p.cells a = .live b)
    (hdel : p.Deletable a b) (reason : StatusReportReason) :
    Continues Fault.ReportFails
      (p.bundleDeleteWith env o forwardAccepted a reason)
      ((p.releasedFor a b).Keeps a b.unretained) (·.bundleDiscard a) := by
  obtain ⟨b', hb', hrel⟩ := release_continues h hdel
  unfold bundleDeleteWith
  rw [load_of_live h, ok_bind, hrel, ok_bind]
  dsimp only
  set q := (p.releasedFor a b).setCell a (.live b') with hq
  have hlive : q.cells a = .live b' := cells_setCell_self _
  refine (onlyIf_ends _
    (sendStatusReport_ends hlive _ _)).continues.trans fun r hr => ?_
  rw [modify_of_live (hr.live hlive), ok_bind]
  have hk : (p.releasedFor a b).Keeps a b' r := hr
  have hw := hk.write b'.unretained
  rw [hb'] at hw
  exact continues_of_eq hw (by rw [← hb']; rfl)

theorem Registered.releasedFor (hreg : p.Registered) :
    (p.releasedFor a b).Registered := by
  unfold BundleProcessor.releasedFor
  split
  · exact hreg.withoutEntry
  · exact hreg

@[simp] theorem cells_releasedFor : (p.releasedFor a b).cells = p.cells := by
  unfold releasedFor
  split <;> simp

@[simp] theorem store_releasedFor : (p.releasedFor a b).store = p.store := by
  unfold releasedFor
  split <;> simp

theorem Keeps.registered (h : p.Keeps a b q) (hreg : p.Registered)
    {b₀ : Bundle} (hb : p.cells a = .live b₀) (hid : b.id = b₀.id) :
    q.Registered :=
  Grows.registered h (hreg.setCell hb hid)

theorem bundleDiscard_ends (hreg : p.Registered) (h : p.cells a = .live b)
    (hret : b.retConstraints = .none) :
    Ends Fault.DiscardFails (p.bundleDiscard a) (· = p.removed a b) := by
  rw [bundleDiscard_of_live hreg h hret]
  split
  · exact ends_error (.inr rfl)
  · exact ends_ok rfl

/-- `bundle_delete` removes the bundle, and reports are all else it does. -/
theorem bundleDelete_ends (hreg : p.Registered) (h : p.cells a = .live b)
    (hdel : p.Deletable a b) (reason : StatusReportReason) :
    Ends Fault.DiscardFails (p.bundleDelete env o a reason) fun p' =>
      ∃ q, (p.releasedFor a b).Keeps a b.unretained q ∧
        p' = q.removed a b.unretained := by
  rw [bundleDelete_eq]
  refine (bundleDelete_continues h hdel reason).ends (fun e he => .inl he) ?_
  intro q hq
  have hb : (p.releasedFor a b).cells a = .live b := by rwa [cells_releasedFor]
  have hq' := hq.registered hreg.releasedFor hb rfl
  exact (bundleDiscard_ends hq' hq.live rfl).imp fun p' hp' => ⟨q, hq, hp'⟩

/-! ## Forwarding -/

/-- The hop count block of `b`, if it has one that can be parsed. -/
def hopCountOf (env : Env) (b : Bundle) : Option HopCount :=
  (findBlockByType BlockType.hopCount b.blocks).bind
    fun block => env.hopCountParse block.data

/-- The hop limit of `b` is reached. -/
def hopLimitReached (env : Env) (b : Bundle) : Bool :=
  (hopCountOf env b).any fun hopCount => hopCount.limit ≤ hopCount.count

/-- `b` with its hop count increased, if there is one and memory for it. -/
def hopCounted (env : Env) (o : Inputs) (b : Bundle) : Bundle :=
  match hopCountOf env b with
  | some hopCount =>
    let next := { hopCount with count := hopCount.count + 1 }
    let data := env.hopCountSerialize next
    if o.hopCountMem then
      { b with blocks := replaceBlockData BlockType.hopCount data b.blocks }
    else b
  | none => b

theorem hopCountValidation_of_live (h : p.cells a = .live b) :
    p.hopCountValidationWith env o forwardAccepted a
      = if hopLimitReached env b then
          p.bundleDelete env o a .hopLimitExceeded >>= fun q => .ok (false, q)
        else .ok (true, p.setCell a (.live (hopCounted env o b))) := by
  rw [hopCountValidationWith, load_of_live h, ok_bind, bundleDelete_eq]
  cases hblock : findBlockByType BlockType.hopCount b.blocks with
  | none =>
    have hcount : hopCountOf env b = none := by rw [hopCountOf, hblock]; rfl
    simp [hopLimitReached, hopCounted, hcount, setCell_eq_self h, pure,
      Except.pure]
  | some block =>
    have hcount : hopCountOf env b = env.hopCountParse block.data := by
      rw [hopCountOf, hblock]
      rfl
    dsimp only
    cases hparse : env.hopCountParse block.data with
    | none =>
      rw [hparse] at hcount
      simp [hopLimitReached, hopCounted, hcount, setCell_eq_self h, pure,
        Except.pure]
    | some hopCount =>
      rw [hparse] at hcount
      rw [hopLimitReached, hopCounted, hcount]
      dsimp only [Option.any_some]
      by_cases hle : hopCount.limit ≤ hopCount.count
      · rw [if_pos hle, if_pos (by simpa using hle)]
        rfl
      · have hdec : decide (hopCount.limit ≤ hopCount.count) = false :=
          decide_eq_false hle
        simp only [if_neg hle, hdec, Bool.false_eq_true, if_false]
        cases o.hopCountMem with
        | false => simp [setCell_eq_self h, pure, Except.pure]
        | true =>
          rw [modify_of_live h]
          rfl

/-- The bundle that `bundle_forward` leaves when the hop limit is not
reached. -/
def forwarded (env : Env) (o : Inputs) (b : Bundle) : Bundle :=
  (hopCounted env o b).forwardPending

theorem id_hopCounted : (hopCounted env o b).id = b.id := by
  unfold hopCounted
  split
  · split <;> rfl
  · rfl

/-- `bundle_forward` deletes the bundle, or passes it to the router task. -/
theorem bundleForward_of_live (h : p.cells a = .live b) :
    p.bundleForward env o a
      = if hopLimitReached env b then p.bundleDelete env o a .hopLimitExceeded
        else .ok ((p.setCell a (.live (forwarded env o b))).sendBundle b.id) := by
  rw [bundleForward_eq, hopCountValidation_of_live h]
  split
  · cases p.bundleDelete env o a .hopLimitExceeded <;> rfl
  · rw [ok_bind]
    dsimp only
    rw [if_pos rfl, forwardAccepted_of_live (cells_setCell_self _),
      setCell_setCell, id_hopCounted, forwarded]

/-! ## Extension blocks -/

/-- The blocks that `bundle_receive` leaves, or `none` when one of them asks
for the deletion of the bundle. -/
def blocksLeft : List BlockEntry → Option (List BlockEntry)
  | [] => some []
  | .payload :: rest => (blocksLeft rest).map (.payload :: ·)
  | .extension block :: rest =>
    if block.type = BlockType.payload then
      (blocksLeft rest).map (.extension block :: ·)
    else match unknownBlockResult block.flags with
      | .ok => (blocksLeft rest).map
          (.extension { block with flags := block.flags ||| BlockFlag.fwdUnproc } :: ·)
      | .deleted => none
      | .blockDiscarded =>
        match rest with
        | [] => some []
        | next :: rest => (blocksLeft rest).map (next :: ·)

theorem blocksLeft_extension (block : Block) (rest : List BlockEntry) :
    blocksLeft (.extension block :: rest)
      = if block.type = BlockType.payload then
          (blocksLeft rest).map (.extension block :: ·)
        else match unknownBlockResult block.flags with
          | .ok => (blocksLeft rest).map
              (.extension { block with flags := block.flags ||| BlockFlag.fwdUnproc } :: ·)
          | .deleted => none
          | .blockDiscarded =>
            match rest with
            | [] => some []
            | next :: rest => (blocksLeft rest).map (next :: ·) := by
  rw [blocksLeft.eq_def]

theorem handleUnknownBlockFlags_ends (h : p.cells a = .live b) (flags : UInt32) :
    Ends Fault.ReportFails (p.handleUnknownBlockFlags env o a flags) fun r =>
      r.1 = unknownBlockResult flags ∧ Grows p r.2 := by
  rw [handleUnknownBlockFlags, sendStatusReport_eq]
  refine (onlyIf_ends _ (sendStatusReport_ends h _ _)).bind fun q hq => ?_
  exact ⟨rfl, hq⟩

theorem handleBlocks_ends (h : p.cells a = .live b) (blocks : List BlockEntry) :
    Ends Fault.ReportFails (handleBlocks env o a p blocks) fun r =>
      r.1 = blocksLeft blocks ∧ Grows p r.2 := by
  induction blocks using blocksLeft.induct generalizing p with
  | case1 => exact ⟨rfl, Grows.refl p⟩
  | case2 rest ih =>
    rw [handleBlocks, blocksLeft]
    refine (ih h).bind fun r hr => ?_
    exact ⟨congrArg (Option.map _) hr.1, hr.2⟩
  | case3 block rest htype ih =>
    simp only [handleBlocks, blocksLeft_extension, if_pos htype]
    refine (ih h).bind fun r hr => ?_
    exact ⟨congrArg (Option.map _) hr.1, hr.2⟩
  | case4 block rest htype hresult ih =>
    simp only [handleBlocks, blocksLeft_extension, if_neg htype, hresult]
    refine (handleUnknownBlockFlags_ends h _).bind fun r hr => ?_
    obtain ⟨hr1, hgrow⟩ := hr
    simp only [hr1, hresult]
    refine (ih (hgrow.live h)).bind fun r' hr' => ?_
    exact ⟨congrArg (Option.map _) hr'.1, hgrow.trans hr'.2⟩
  | case5 block rest htype hresult =>
    simp only [handleBlocks, blocksLeft_extension, if_neg htype, hresult]
    refine (handleUnknownBlockFlags_ends h _).bind fun r hr => ?_
    obtain ⟨hr1, hgrow⟩ := hr
    simp only [hr1, hresult]
    exact ⟨rfl, hgrow⟩
  | case6 block htype hresult =>
    simp only [handleBlocks, blocksLeft_extension, if_neg htype, hresult]
    refine (handleUnknownBlockFlags_ends h _).bind fun r hr => ?_
    obtain ⟨hr1, hgrow⟩ := hr
    simp only [hr1, hresult]
    exact ⟨rfl, hgrow⟩
  | case7 block htype hresult next rest ih =>
    simp only [handleBlocks, blocksLeft_extension, if_neg htype, hresult]
    refine (handleUnknownBlockFlags_ends h _).bind fun r hr => ?_
    obtain ⟨hr1, hgrow⟩ := hr
    simp only [hr1, hresult]
    refine (ih (hgrow.live h)).bind fun r' hr' => ?_
    exact ⟨congrArg (Option.map _) hr'.1, hgrow.trans hr'.2⟩

end BundleProcessor

end Upcn
