import Upcn.Processor.CustodySignals

/-!
# The administrative bundles of the node

A status report or a custody signal has no flag set that asks for a report or for
a transfer of custody, and the processor has not accepted custody of it: no handler
makes another bundle for it.

* `Bundle.Silent` says that of a bundle, and `Guarded` of all bundles at the
  addresses `own`.
* `Spares` is `Guarded` with a bound on the bundles that a handler has made.  There
  is one lemma for each function that works on a bundle of somebody else.
* `handleOwn_ends` is about the signals for an administrative bundle.
-/

namespace Upcn

open Outcome Store

/-- The flags of a bundle for which an administrative bundle is made. -/
def noticeFlags : List UInt32 :=
  [ProcFlag.custodyTransferRequested, ProcFlag.reportReception,
    ProcFlag.reportCustodyAcceptance, ProcFlag.reportForwarding,
    ProcFlag.reportDelivery, ProcFlag.reportDeletion]

/-- No handler makes another bundle for `b`, and its transmission leaves no
retention constraint. -/
structure Bundle.Silent (b : Bundle) : Prop where
  flags : ∀ flag ∈ noticeFlags, b.hasProcFlag flag = false
  dispatch : b.retConstraints.dispatchPending = false
  custody : b.retConstraints.custodyAccepted = false
  reassembly : b.retConstraints.reassemblyPending = false

variable {b c x : Bundle}

namespace Bundle.Silent

theorem custodyRequest (h : b.Silent) :
    b.hasProcFlag ProcFlag.custodyTransferRequested = false :=
  h.flags _ (by simp [noticeFlags])

theorem forwarding (h : b.Silent) :
    b.hasProcFlag ProcFlag.reportForwarding = false :=
  h.flags _ (by simp [noticeFlags])

theorem deletion (h : b.Silent) : b.hasProcFlag ProcFlag.reportDeletion = false :=
  h.flags _ (by simp [noticeFlags])

/-- What a write to a silent bundle may change. -/
theorem of_flags (h : b.Silent) (hflags : c.procFlags = b.procFlags)
    (hdispatch : c.retConstraints.dispatchPending = false)
    (hcustody : c.retConstraints.custodyAccepted = false)
    (hreassembly : c.retConstraints.reassemblyPending = false) : c.Silent where
  flags flag hflag := by
    have hb := h.flags flag hflag
    unfold Bundle.hasProcFlag at hb ⊢
    rw [hflags, hb]
  dispatch := hdispatch
  custody := hcustody
  reassembly := hreassembly

theorem forwardPending (h : b.Silent) : b.forwardPending.Silent :=
  h.of_flags rfl rfl h.custody h.reassembly

end Bundle.Silent

/-- A bundle that `bundle6_create_local` or `bundle7_create_local` has just made
for an administrative record. -/
def Drafted (b : Bundle) : Prop := BundleProcessor.Fresh b ∧ b.Silent

/-- The signals that end the life of a bundle. -/
def BundleProcessorSignalType.final : BundleProcessorSignalType → Bool
  | .forwardingContraindicated | .bundleExpired | .transmissionSuccess
  | .transmissionFailure => true
  | _ => false

/-- The signals that announce a bundle which has just been put into the store. -/
def BundleProcessorSignalType.announces : BundleProcessorSignalType → Bool
  | .bundleIncoming | .bundleLocalDispatch => true
  | _ => false

namespace BundleProcessor

variable {env : Env} {o : Inputs}

theorem flags_of_all {flags : UInt32}
    (h : (noticeFlags.all fun flag => !hasFlag flags flag) = true) :
    ∀ flag ∈ noticeFlags, hasFlag flags flag = false := by
  intro flag hflag
  have hnot := List.all_eq_true.mp h flag hflag
  rwa [Bool.not_eq_true'] at hnot

theorem silent_record6 (destination source : Eid) (r : ReportInput)
    (lifetime : UInt64) (payload : Payload) :
    (createLocal 6 (ProcFlag.administrativeRecord ||| ProcFlag.singletonEndpoint)
      { RetConstraints.none with flagOwn := true } destination source r lifetime
      payload).Silent where
  flags := @flags_of_all (ProcFlag.administrativeRecord ||| ProcFlag.singletonEndpoint)
    (by decide)
  dispatch := rfl
  custody := rfl
  reassembly := rfl

theorem silent_record7 (destination source : Eid) (r : ReportInput)
    (lifetime : UInt64) (payload : Payload) :
    (createLocal 7 ProcFlag.administrativeRecord .none destination source r lifetime
      payload).Silent where
  flags := @flags_of_all ProcFlag.administrativeRecord (by decide)
  dispatch := rfl
  custody := rfl
  reassembly := rfl

theorem encapsulateRecord_drafts (b : Bundle) (destination : Eid) (r : ReportInput)
    (payload : Payload) :
    Ends AnyFault (encapsulateRecord env b destination r payload)
      fun report => ∀ x ∈ report, Drafted x.2 := by
  unfold encapsulateRecord
  dsimp only
  split
  · exact ends_ok (by simp)
  · split
    · exact ends_error (E := AnyFault) trivial
    · split
      · refine ends_ok fun x hx => ?_
        obtain rfl := Option.mem_some_iff.mp hx
        exact ⟨⟨rfl, rfl⟩, silent_record6 _ _ _ _ _⟩
      · exact ends_error (E := AnyFault) trivial

theorem generateStatusReport_drafts (b : Bundle) (status : StatusReportStatus)
    (reason : StatusReportReason) (r : ReportInput) :
    Ends AnyFault (generateStatusReport env b status reason r)
      fun report => ∀ x ∈ report, Drafted x.2 := by
  unfold generateStatusReport
  split
  · split
    · exact encapsulateRecord_drafts _ _ _ _
    · split
      · dsimp only
        split
        · exact ends_ok (by simp)
        · refine ends_ok fun x hx => ?_
          obtain ⟨c, -, rfl⟩ := Option.map_eq_some_iff.mp hx
          exact ⟨⟨rfl, rfl⟩, silent_record7 _ _ _ _ _⟩
      · exact ends_ok (by simp)
  · exact ends_ok (by simp)

theorem generateCustodySignal_drafts (b : Bundle) (signal : CustodySignal)
    (r : ReportInput) :
    Ends AnyFault (generateCustodySignal env b signal r)
      fun report => ∀ x ∈ report, Drafted x.2 := by
  unfold generateCustodySignal
  split
  · exact encapsulateRecord_drafts _ _ _ _
  · exact ends_ok (by simp)

/-! ## The invariant of the memory -/

/-- The bundles at `own` are silent and stored under their own ids only.  `made` are
the addresses that were unused at first; one that is unused belongs to `own` if and
only if `kind` holds. -/
structure Guarded (kind : Prop) (own made : Addr → Prop) (p : BundleProcessor) :
    Prop where
  silent : ∀ c b, own c → p.cells c = .live b → b.Silent
  linked : ∀ c b id, own c → p.cells c = .live b →
    p.store.bundles id = some c → b.id = id
  unstored : ∀ c id, p.cells c = .unused → p.store.bundles id ≠ some c
  fresh : ∀ c, p.cells c = .unused → made c ∧ (own c ↔ kind)

variable {kind : Prop} {own made : Addr → Prop} {p q : BundleProcessor} {a : Addr}

namespace Guarded

/-- The bundles stay as they are, and the store holds no more of them. -/
theorem of_fewer (h : Guarded kind own made p) (hcells : q.cells = p.cells)
    (hstore : ∀ id c, q.store.bundles id = some c → p.store.bundles id = some c) :
    Guarded kind own made q where
  silent c b hc hb := h.silent c b hc (by rwa [← hcells])
  linked c b id hc hb hid := h.linked c b id hc (by rwa [← hcells]) (hstore id c hid)
  unstored c id hc hid := h.unstored c id (by rwa [← hcells]) (hstore id c hid)
  fresh c hc := h.fresh c (by rwa [← hcells])

theorem of_same (h : Guarded kind own made p) (hcells : q.cells = p.cells)
    (hstore : q.store = p.store) : Guarded kind own made q :=
  h.of_fewer hcells fun id c hid => by rwa [← hstore]

/-- The bundle at `a` becomes `x`, and nothing but `x` comes into the store. -/
theorem written (h : Guarded kind own made p) (hx : own a → x.Silent)
    (hcells : q.cells = Function.update p.cells a (.live x))
    (hstore : ∀ id c, c ≠ a → q.store.bundles id = some c →
      p.store.bundles id = some c)
    (hid : own a → ∀ id, q.store.bundles id = some a → x.id = id) :
    Guarded kind own made q := by
  have hat : q.cells a = .live x := by rw [hcells, Function.update_self]
  have hother : ∀ y, y ≠ a → q.cells y = p.cells y := by
    intro y hy
    rw [hcells, Function.update_of_ne hy]
  have hne : ∀ y, q.cells y = .unused → y ≠ a := fun y hy =>
    ne_of_apply_ne q.cells (by simp [hy, hat])
  exact {
    silent := fun y e hy he => by
      by_cases hya : y = a
      · subst hya
        rw [hat] at he
        rw [← Cell.live.inj he]
        exact hx hy
      · exact h.silent y e hy (by rw [← hother y hya, he])
    linked := fun y e id hy he hstored => by
      by_cases hya : y = a
      · subst hya
        rw [hat] at he
        rw [← Cell.live.inj he]
        exact hid hy id hstored
      · exact h.linked y e id hy (by rw [← hother y hya, he]) (hstore id y hya hstored)
    unstored := fun y id hy hstored => by
      have hya := hne y hy
      exact h.unstored y id (by rw [← hother y hya, hy]) (hstore id y hya hstored)
    fresh := fun y hy => h.fresh y (by rw [← hother y (hne y hy), hy]) }

/-- A bundle is written to. -/
theorem setCell (h : Guarded kind own made p) (hb : p.cells a = .live b)
    (hsilent : own a → b.Silent → c.Silent ∧ c.id = b.id) :
    Guarded kind own made (p.setCell a (.live c)) := by
  have hc : own a → c.Silent ∧ c.id = b.id := fun hown =>
    hsilent hown (h.silent a b hown hb)
  refine h.written (fun hown => (hc hown).1) rfl (fun _ _ _ hid => hid) ?_
  intro hown id hid
  rw [(hc hown).2]
  exact h.linked a b id hown hb hid

/-- A bundle is freed. -/
theorem freed (h : Guarded kind own made p)
    (hcells : q.cells = Function.update p.cells a .freed)
    (hstore : ∀ id c, q.store.bundles id = some c → p.store.bundles id = some c) :
    Guarded kind own made q := by
  have hother : ∀ y, q.cells y ≠ .freed → q.cells y = p.cells y := by
    intro y hy
    rw [hcells] at hy ⊢
    refine Function.update_of_ne (fun hya => hy ?_) _ _
    rw [hya, Function.update_self]
  exact {
    silent := fun y e hy he => h.silent y e hy (by rw [← hother y (by simp [he]), he])
    linked := fun y e id hy he hid =>
      h.linked y e id hy (by rw [← hother y (by simp [he]), he]) (hstore id y hid)
    unstored := fun y id hy hid =>
      h.unstored y id (by rw [← hother y (by simp [hy]), hy]) (hstore id y hid)
    fresh := fun y hy => h.fresh y (by rw [← hother y (by simp [hy]), hy]) }

/-- A bundle is allocated, and stored under its id or not at all. -/
theorem created (h : Guarded kind own made p) (ha : p.cells a = .unused)
    (hx : own a → x.Silent) (hcells : q.cells = Function.update p.cells a (.live x))
    (hstore : q.store.bundles = p.store.bundles ∨
      q.store.bundles = Function.update p.store.bundles x.id (some a)) :
    Guarded kind own made q := by
  have hstored : ∀ id y, q.store.bundles id = some y →
      p.store.bundles id = some y ∨ id = x.id ∧ y = a := by
    intro id y hid
    rcases hstore with hsame | hadded
    · left
      rwa [← hsame]
    · rw [hadded] at hid
      by_cases hx : id = x.id
      · rw [hx, Function.update_self] at hid
        exact .inr ⟨hx, (Option.some.inj hid).symm⟩
      · rw [Function.update_of_ne hx] at hid
        exact .inl hid
  refine h.written hx hcells (fun id y hya hid => ?_) fun _ id hid => ?_
  · rcases hstored id y hid with hold | hnew
    · exact hold
    · exact absurd hnew.2 hya
  · rcases hstored id a hid with hold | hnew
    · exact absurd hold (h.unstored a id ha)
    · exact hnew.1.symm

end Guarded

/-! ## What a handler makes for other bundles -/

/-- At most `n` of the bundles at `made` are there, and they are all the node's
own. -/
structure Spares (own made : Addr → Prop) (n : Nat) (p : BundleProcessor) : Prop where
  guarded : Guarded True own made p
  few : ∃ l : List Addr, l.length ≤ n ∧ ∀ c, made c → p.cells c ≠ .unused → c ∈ l

variable {n k : Nat}

namespace Spares

theorem mono (h : Spares own made n p) (hn : n ≤ k) : Spares own made k p where
  guarded := h.guarded
  few := by
    obtain ⟨l, hl, hmem⟩ := h.few
    exact ⟨l, hl.trans hn, hmem⟩

/-- No address is taken. -/
theorem of_guarded (h : Spares own made n p) (hq : Guarded True own made q)
    (hused : ∀ c, p.cells c = .unused → q.cells c = .unused) :
    Spares own made n q where
  guarded := hq
  few := by
    obtain ⟨l, hl, hmem⟩ := h.few
    exact ⟨l, hl, fun c hc hq => hmem c hc fun hp => hq (hused c hp)⟩

theorem of_same (h : Spares own made n p) (hcells : q.cells = p.cells)
    (hstore : q.store = p.store) : Spares own made n q :=
  h.of_guarded (h.guarded.of_same hcells hstore) fun c hc => by rwa [hcells]

theorem of_fewer (h : Spares own made n p) (hcells : q.cells = p.cells)
    (hstore : ∀ id c, q.store.bundles id = some c → p.store.bundles id = some c) :
    Spares own made n q :=
  h.of_guarded (h.guarded.of_fewer hcells hstore) fun c hc => by rwa [hcells]

theorem setCell (h : Spares own made n p) (hb : p.cells a = .live b)
    (hsilent : own a → b.Silent → c.Silent ∧ c.id = b.id) :
    Spares own made n (p.setCell a (.live c)) := by
  refine h.of_guarded (h.guarded.setCell hb hsilent) fun y hy => ?_
  have hya : y ≠ a := ne_of_apply_ne p.cells (by simp [hy, hb])
  rw [cells_setCell_of_ne hya, hy]

theorem freed (h : Spares own made n p) (hb : p.cells a = .live b)
    (hcells : q.cells = Function.update p.cells a .freed)
    (hstore : ∀ id c, q.store.bundles id = some c → p.store.bundles id = some c) :
    Spares own made n q := by
  refine h.of_guarded (h.guarded.freed hcells hstore) fun y hy => ?_
  have hya : y ≠ a := ne_of_apply_ne p.cells (by simp [hy, hb])
  rw [hcells, Function.update_of_ne hya, hy]

theorem created (h : Spares own made n p) (ha : p.cells a = .unused) (hx : x.Silent)
    (hcells : q.cells = Function.update p.cells a (.live x))
    (hstore : q.store.bundles = p.store.bundles ∨
      q.store.bundles = Function.update p.store.bundles x.id (some a)) :
    Spares own made (n + 1) q where
  guarded := h.guarded.created ha (fun _ => hx) hcells hstore
  few := by
    obtain ⟨l, hl, hmem⟩ := h.few
    refine ⟨a :: l, Nat.succ_le_succ hl, fun c hc hq => ?_⟩
    by_cases hca : c = a
    · rw [hca]
      exact List.mem_cons_self
    · rw [hcells, Function.update_of_ne hca] at hq
      exact List.mem_cons_of_mem a (hmem c hc hq)

end Spares

/-! ## The memory and the store -/

theorem modify_spares (h : Spares own made n p) (a : Addr) {f : Bundle → Bundle}
    (hf : ∀ b : Bundle, own a → b.Silent → (f b).Silent ∧ (f b).id = b.id) :
    Ends AnyFault (p.modify a f) (Spares own made n) := by
  refine (load_any p a).bind fun b hb => ?_
  exact h.setCell hb (hf b)

/-- A bundle of somebody else may be written to at will. -/
theorem modify_other (h : Spares own made n p) (ha : ¬ own a) (f : Bundle → Bundle) :
    Ends AnyFault (p.modify a f) (Spares own made n) :=
  modify_spares h a fun _ hown => absurd hown ha

/-- What `bundle_storage_delete` leaves of the store. -/
theorem bundleStorageDelete_fewer (p : BundleProcessor) (id : Nat) :
    Ends AnyFault (p.bundleStorageDelete id) fun q =>
      q.cells = p.cells ∧ q.store.bundles id = none ∧
        ∀ id' c, q.store.bundles id' = some c → p.store.bundles id' = some c := by
  unfold bundleStorageDelete
  split
  · rename_i hnone
    exact ends_ok ⟨rfl, hnone, fun _ _ h => h⟩
  · rename_i a ha
    refine (load_any p a).bind fun b _ => ?_
    have hdelete : p.store.bundleStorageDelete (fun _ => some b.payload.val.length) id
        = if p.store.bundleBytes < b.payload.val.length then .error .accounting
          else .ok (true, ⟨Function.update p.store.bundles id none, p.store.nextId,
            p.store.bundleBytes - b.payload.val.length⟩) := by
      have hstored : p.store.bundles id = some a := ha
      rw [BundleStore.bundleStorageDelete, hstored]
      rfl
    rw [hdelete]
    split
    · exact ends_error (E := AnyFault) trivial
    · refine ends_ok ⟨rfl, Function.update_self _ _ _, fun id' c hc => ?_⟩
      have hupdate : Function.update p.store.bundles id none id' = some c := hc
      by_cases hid : id' = id
      · rw [hid, Function.update_self] at hupdate
        cases hupdate
      · rwa [Function.update_of_ne hid] at hupdate

theorem bundleStorageDelete_spares (h : Spares own made n p) (id : Nat) :
    Ends AnyFault (p.bundleStorageDelete id) (Spares own made n) :=
  (bundleStorageDelete_fewer p id).imp fun _ hq => h.of_fewer hq.1 hq.2.2

/-- What `bundle_discard` leaves. -/
theorem bundleDiscard_removes (p : BundleProcessor) (a : Addr) :
    Ends AnyFault (p.bundleDiscard a) fun q => ∃ b, p.cells a = .live b ∧
      q.cells = Function.update p.cells a .freed ∧ q.store.bundles b.id = none ∧
        ∀ id c, q.store.bundles id = some c → p.store.bundles id = some c := by
  refine (load_any p a).bind fun b hb => ?_
  refine (bundleStorageDelete_fewer p b.id).bind fun q hq => ?_
  obtain ⟨hcells, hnone, hfewer⟩ := hq
  refine (bundleDrop_freed q a).imp fun r hr => ?_
  rw [hr]
  exact ⟨b, hb, by rw [setCell, hcells], hnone, hfewer⟩

theorem bundleDiscard_spares (h : Spares own made n p) (a : Addr) :
    Ends AnyFault (p.bundleDiscard a) (Spares own made n) := by
  refine (bundleDiscard_removes p a).imp fun q hq => ?_
  obtain ⟨b, hb, hcells, -, hfewer⟩ := hq
  exact h.freed hb hcells hfewer

theorem bundleDrop_spares (h : Spares own made n p) (a : Addr) :
    Ends AnyFault (p.bundleDrop a) (Spares own made n) := by
  refine (load_any p a).bind fun b hb => ?_
  split
  · exact ends_error (E := AnyFault) trivial
  · refine (load_any p a).bind fun _ _ => ?_
    exact h.freed hb rfl fun _ _ hid => hid

/-- A retention constraint is cleared. -/
theorem bundleRemRc_spares (h : Spares own made n p) (a : Addr)
    {clear : RetConstraints → RetConstraints} (discard : Bool)
    (hclear : ∀ b : Bundle, own a → b.Silent →
      ({ b with retConstraints := clear b.retConstraints } : Bundle).Silent) :
    Ends AnyFault (p.bundleRemRc a clear discard) (Spares own made n) := by
  refine Ends.bind (modify_spares h a fun b hown hb => ⟨hclear b hown hb, rfl⟩)
    fun q hq => ?_
  refine (load_any q a).bind fun b _ => ?_
  split
  · exact bundleDiscard_spares hq a
  · exact ends_ok hq

theorem bundleRemRc_other (h : Spares own made n p) (ha : ¬ own a)
    (clear : RetConstraints → RetConstraints) (discard : Bool) :
    Ends AnyFault (p.bundleRemRc a clear discard) (Spares own made n) :=
  bundleRemRc_spares h a discard fun _ hown => absurd hown ha

theorem onlyIf_spares {f : BundleProcessor → Except Fault BundleProcessor}
    (h : Spares own made n p) (hn : n ≤ k) (condition : Bool)
    (hf : Ends AnyFault (f p) (Spares own made k)) :
    Ends AnyFault (p.onlyIf condition f) (Spares own made k) := by
  unfold onlyIf
  split
  · exact hf
  · exact ends_ok (h.mono hn)

/-! ## The custody manager -/

theorem remCustodyAccepted_silent (h : b.Silent) :
    ({ b with retConstraints := b.retConstraints.remCustodyAccepted } :
      Bundle).Silent :=
  h.of_flags rfl h.dispatch rfl h.reassembly

theorem custodyManagerRelease_spares (h : Spares own made n p) (a : Addr) :
    Ends AnyFault (p.custodyManagerRelease a) (Spares own made n) := by
  unfold custodyManagerRelease
  split
  · exact ends_ok h
  · rename_i index _
    have hlist : Spares own made n { p with
        acceptedBundles := p.removeSlot index
        acceptedBundleCount := p.acceptedBundleCount - 1 } := h.of_same rfl rfl
    refine Ends.bind (modify_spares hlist a fun b _ hb =>
      ⟨remCustodyAccepted_silent hb, rfl⟩) fun q hq => ?_
    refine (load_any q a).bind fun b _ => ?_
    split
    · refine (bundleStorageDelete_spares hq b.id).bind fun r hr => ?_
      exact bundleDrop_spares hr a
    · exact ends_ok hq

theorem custodyManagerAccept_spares (h : Spares own made n p) (ha : ¬ own a) :
    Ends AnyFault (p.custodyManagerAccept env a) fun r => Spares own made n r.2 := by
  unfold custodyManagerAccept
  refine (ends_any _).bind fun redundant _ => ?_
  split
  · exact ends_error (E := AnyFault) trivial
  · refine (ends_any _).bind fun acceptable _ => ?_
    split
    · exact ends_error (E := AnyFault) trivial
    · have hlist : Spares own made n { p with
          acceptedBundles := p.acceptedBundles.set p.acceptedBundleCount a
          acceptedBundleCount := p.acceptedBundleCount + 1 } := h.of_same rfl rfl
      refine Ends.bind (modify_other hlist ha _) fun q hq => ?_
      refine (load_any q a).bind fun b _ => ?_
      split
      · exact (modify_other hq ha _).bind fun r hr => hr
      · exact ends_ok hq

theorem bundleHandleCustodySignal_spares (h : Spares own made n p)
    (record : AdministrativeRecord) :
    Ends AnyFault (p.bundleHandleCustodySignal record) (Spares own made n) := by
  unfold bundleHandleCustodySignal
  refine (ends_any _).bind fun found _ => ?_
  split
  · exact ends_ok h
  · exact custodyManagerRelease_spares h _

/-! ## The administrative bundles -/

/-- The bundle is stored, and passed to the router task. -/
theorem dispatchReport_spares (h : Spares own made n p) (ha : p.cells a = .unused)
    (hx : Drafted x) (r : ReportInput) :
    Ends AnyFault (dispatchReport forwardAccepted (p.setCell a (.live x)) a r)
      (Spares own made (n + 1)) := by
  rw [dispatchReport, bundleAddRc_of_live (cells_setCell_self _), ok_bind,
    setCell_setCell]
  refine Ends.bind ((bundleStorageAdd_ends
    (b := { x with retConstraints := x.retConstraints.addDispatchPending })
    (cells_setCell_self _) hx.1.1 r.nodeMem).mono (fun _ _ => trivial) fun _ h => h)
    fun s hs => ?_
  obtain ⟨id, q⟩ := s
  dsimp only at hs ⊢
  rcases hs with ⟨-, -, s, hstore, rfl⟩ | ⟨-, s, hstore, rfl⟩
  · rw [forwardAccepted_of_live (cells_setCell_self _), setCell_setCell]
    refine ends_ok (h.created (x := Bundle.forwardPending { x with id := id }) ha ?_ ?_
      (.inr hstore))
    · exact hx.2.forwardPending.of_flags rfl rfl hx.2.custody hx.2.reassembly
    · simp [sendBundle, BundleProcessor.setCell, Bundle.forwardPending,
        RetConstraints.addForwardPending, RetConstraints.remDispatchPending,
        RetConstraints.addDispatchPending]
  · have hlive : ({ p.setCell a (.live { x with
        retConstraints := x.retConstraints.addDispatchPending }) with store := s } :
          BundleProcessor).cells a = .live { x with
        retConstraints := x.retConstraints.addDispatchPending } := cells_setCell_self _
    rw [forwardAccepted_of_live hlive]
    refine ends_ok (h.created (x := x.forwardPending) ha hx.2.forwardPending ?_
      (.inl hstore))
    simp [sendBundle, BundleProcessor.setCell, Bundle.forwardPending,
      RetConstraints.addForwardPending, RetConstraints.remDispatchPending,
      RetConstraints.addDispatchPending]

theorem dispatchNew_spares (h : Spares own made n p) (hx : Drafted x) (c : Addr)
    (r : ReportInput) :
    Ends AnyFault
      (p.allocate c x >>= fun p => dispatchReport forwardAccepted p c r)
      (Spares own made (n + 1)) := by
  refine ((allocate_ends x).mono (fun _ _ => trivial) fun _ h => h).bind fun q hq => ?_
  obtain ⟨hc, rfl⟩ := hq
  exact dispatchReport_spares h hc hx r

theorem nextReport_spares (h : Spares own made n p) (o : Inputs) :
    Spares own made n (p.nextReport o).2 :=
  h.of_same rfl rfl

theorem sendStatusReport_spares (h : Spares own made n p) (a : Addr)
    (status : StatusReportStatus) (reason : StatusReportReason) :
    Ends AnyFault (p.sendStatusReport env o a status reason)
      (Spares own made (n + 1)) := by
  rw [sendStatusReport_eq]
  have hmore : Spares own made (n + 1) p := h.mono (Nat.le_succ n)
  unfold sendStatusReportWith
  split
  · exact ends_ok hmore
  · refine (load_any p a).bind fun b _ => ?_
    split
    · exact ends_ok hmore
    · dsimp only
      refine (generateStatusReport_drafts b status reason _).bind fun report hreport => ?_
      cases report with
      | none => exact nextReport_spares hmore o
      | some x => exact dispatchNew_spares (nextReport_spares h o) (hreport x rfl) x.1 _

theorem sendCustodySignal_spares (h : Spares own made n p) (a : Addr)
    (signal : CustodySignal) :
    Ends AnyFault (p.sendCustodySignal env o a signal) (Spares own made (n + 1)) := by
  rw [sendCustodySignal_eq]
  unfold sendCustodySignalWith
  refine (load_any p a).bind fun b _ => ?_
  dsimp only
  have hnext := nextReport_spares h o
  refine (generateCustodySignal_drafts b signal _).bind fun report hreport => ?_
  cases report with
  | none => exact hnext.mono (Nat.le_succ n)
  | some x =>
    have hx : Drafted x.2 := hreport x rfl
    cases (p.nextReport o).1.listMem with
    | true => exact dispatchNew_spares hnext hx x.1 _
    | false =>
      refine Ends.bind ((allocate_ends x.2).mono (fun _ _ => trivial) fun _ h => h)
        fun q hq => ?_
      obtain ⟨hc, rfl⟩ := hq
      exact hnext.created hc hx.2 rfl (.inl rfl)

/-! ## Deletion and forwarding -/

theorem bundleDelete_spares (h : Spares own made n p) (ha : ¬ own a)
    (reason : StatusReportReason) :
    Ends AnyFault (p.bundleDelete env o a reason) (Spares own made (n + 1)) := by
  unfold bundleDelete bundleDeleteWith
  refine (load_any p a).bind fun b _ => ?_
  refine Ends.bind (onlyIf_spares h le_rfl _ (custodyManagerRelease_spares h a))
    fun q hq => ?_
  refine Ends.bind (onlyIf_spares hq (Nat.le_succ n) _
    (sendStatusReport_spares hq a .bundleDeleted reason)) fun r hr => ?_
  refine Ends.bind (modify_other hr ha _) fun s hs => ?_
  exact bundleDiscard_spares hs a

theorem bundleForward_spares (h : Spares own made n p) (ha : ¬ own a) :
    Ends AnyFault (p.bundleForward env o a) (Spares own made (n + 1)) := by
  have hmore : Spares own made (n + 1) p := h.mono (Nat.le_succ n)
  have hvalid : Ends AnyFault (p.hopCountValidationWith env o (bundleForward env o) a)
      fun r => Spares own made (n + 1) r.2 := by
    unfold hopCountValidationWith
    refine (load_any p a).bind fun b _ => ?_
    split
    · exact ends_ok hmore
    · split
      · exact ends_ok hmore
      · split
        · exact (bundleDelete_spares h ha _).bind fun q hq => hq
        · split
          · exact (modify_other hmore ha _).bind fun q hq => hq
          · exact ends_ok hmore
  rw [bundleForward_eq]
  have hsame : p.hopCountValidationWith env o forwardAccepted a
      = p.hopCountValidationWith env o (bundleForward env o) a := by
    rw [hopCountValidationWith, hopCountValidationWith]
    have hdelete : bundleDeleteWith env o (bundleForward env o)
        = bundleDeleteWith env o forwardAccepted := bundleDelete_eq
    rw [hdelete]
  rw [hsame]
  refine hvalid.bind fun r hr => ?_
  split
  · unfold forwardAccepted
    refine Ends.bind (modify_other hr ha _) fun q hq => ?_
    refine (bundleRemRc_other hq ha _ false).bind fun s hs => ?_
    refine (load_any s a).bind fun b _ => ?_
    exact hs.of_same rfl rfl
  · exact ends_ok hr

/-! ## Reassembly and delivery -/

theorem bundleDeliverAdu_spares (h : Spares own made n p) (b : Bundle)
    (adu : BundleAdu) :
    Ends AnyFault (p.bundleDeliverAdu env b adu) (Spares own made n) := by
  have hlog : Spares own made n { p with delivered := p.delivered ++
      [⟨adu, b.creationTimestamp, b.sequenceNumber⟩] } := h.of_same rfl rfl
  unfold bundleDeliverAdu
  dsimp only
  split
  · split
    · split
      · exact bundleHandleCustodySignal_spares hlog _
      · exact ends_ok hlog
    · exact ends_ok hlog
  · split
    · exact ends_ok hlog
    · exact ends_error (E := AnyFault) trivial

theorem remReassemblyPending_silent (h : b.Silent) :
    ({ b with retConstraints := b.retConstraints.remReassemblyPending } :
      Bundle).Silent :=
  h.of_flags rfl h.dispatch h.custody rfl

/-- A fragment is taken out of the reassembly and freed. -/
theorem dropFragment_spares (h : Spares own made n p) (a : Addr) :
    Ends AnyFault (p.bundleRemRc a .remReassemblyPending false >>= fun p =>
      p.bundleDiscard a) (Spares own made n) := by
  refine Ends.bind (bundleRemRc_spares h a false fun b _ hb =>
    remReassemblyPending_silent hb) fun q hq => ?_
  exact bundleDiscard_spares hq a

theorem copyFragments_spares (h : Spares own made n p) (aduLength : Nat)
    (entries : List Addr) (addedAsKnown : Bool) (payload : List (Option UInt8))
    (pos : Nat) :
    Ends AnyFault (copyFragments o aduLength p entries addedAsKnown payload pos)
      fun r => Spares own made n r.2 := by
  induction entries generalizing p payload pos addedAsKnown with
  | nil => exact ends_ok h
  | cons a rest ih =>
    unfold copyFragments
    refine (load_any p a).bind fun b _ => ?_
    dsimp only
    have hknown : Spares own made n (if addedAsKnown then p
        else p.bundleAddReassembledAsKnown o b) := by
      unfold bundleAddReassembledAsKnown
      split
      · exact h
      · split
        · exact h.of_same rfl rfl
        · exact h
    refine (ends_any _).bind fun copied _ => ?_
    refine Ends.bind (bundleRemRc_spares hknown a false fun b _ hb =>
      remReassemblyPending_silent hb) fun q hq => ?_
    refine (bundleDiscard_spares hq a).bind fun r hr => ?_
    exact ih hr true _ _

theorem tryReassemble_spares (h : Spares own made n p) (index : Nat) :
    Ends AnyFault (p.tryReassemble env o index) (Spares own made n) := by
  unfold tryReassemble
  dsimp only
  refine (ends_any _).bind fun covered _ => ?_
  split
  · exact ends_ok h
  · split
    · exact ends_ok h
    · refine (load_any p _).bind fun b _ => ?_
      split
      · exact ends_ok h
      · refine (copyFragments_spares h _ _ _ _ _).bind fun r hr => ?_
        have herase : Spares own made n { r.2 with
            reassemblyList := r.2.reassemblyList.eraseIdx index } := hr.of_same rfl rfl
        exact bundleDeliverAdu_spares herase b _

theorem addToReassemblyBundleList_spares (h : Spares own made n p) (ha : ¬ own a)
    (entries : List Addr) :
    Ends AnyFault (p.addToReassemblyBundleList env o entries a) fun r =>
      Spares own made (n + 1) r.2 := by
  unfold addToReassemblyBundleList
  refine (ends_any _).bind fun inserted _ => ?_
  split
  · exact ends_ok (h.mono (Nat.le_succ n))
  · exact (bundleDelete_spares h ha _).bind fun q hq => hq

theorem joinReassembly_spares (h : Spares own made n p) (ha : ¬ own a) :
    Ends AnyFault (p.joinReassembly env o a) (Spares own made (n + 1)) := by
  unfold joinReassembly
  refine (ends_any _).bind fun found _ => ?_
  cases found with
  | some index =>
    refine (addToReassemblyBundleList_spares h ha _).bind fun r hr => ?_
    have hset : Spares own made (n + 1) { r.2 with
        reassemblyList := r.2.reassemblyList.set index r.1 } := hr.of_same rfl rfl
    exact tryReassemble_spares hset index
  | none =>
    dsimp only
    split
    · exact bundleDelete_spares h ha _
    · refine (addToReassemblyBundleList_spares h ha _).bind fun r hr => ?_
      have happend : Spares own made (n + 1) { r.2 with
          reassemblyList := r.2.reassemblyList ++ [r.1] } := hr.of_same rfl rfl
      exact tryReassemble_spares happend _

theorem bundleAttemptReassembly_spares (h : Spares own made n p) (ha : ¬ own a) :
    Ends AnyFault (p.bundleAttemptReassembly env o a) (Spares own made (n + 1)) := by
  unfold bundleAttemptReassembly
  refine (load_any p a).bind fun b _ => ?_
  refine Ends.bind (onlyIf_spares h le_rfl _ (dropFragment_spares h a)) fun q hq => ?_
  exact joinReassembly_spares hq ha

/-! ## The handlers of a bundle of somebody else -/

theorem deliverNew_spares (h : Spares own made n p) (ha : ¬ own a) :
    Ends AnyFault (p.deliverNew env o a) (Spares own made (n + 1)) := by
  unfold deliverNew
  refine (load_any p a).bind fun b hb => ?_
  split
  · exact bundleDelete_spares h ha _
  · split
    · refine Ends.bind (modify_other h ha _) fun q hq => ?_
      exact bundleAttemptReassembly_spares hq ha
    · dsimp only
      have hset := h.setCell (c := b.bundleToAdu.2) hb fun hown => absurd hown ha
      refine (bundleDiscard_spares hset a).bind fun q hq => ?_
      exact bundleDeliverAdu_spares (hq.mono (Nat.le_succ n)) b _

theorem bundleDeliverLocal_spares (h : Spares own made n p) (ha : ¬ own a) :
    Ends AnyFault (p.bundleDeliverLocal env o a) (Spares own made (n + 2)) := by
  unfold bundleDeliverLocal
  refine (bundleRemRc_other h ha _ false).bind fun q hq => ?_
  refine (load_any q a).bind fun b _ => ?_
  dsimp only
  have hrecord : Spares own made n { q with knownBundleList :=
      (bundleRecordAddAndCheckKnown o b q.knownBundleList).2 } := hq.of_same rfl rfl
  split
  · exact bundleDiscard_spares (hrecord.mono (Nat.le_add_right n 2)) a
  · refine Ends.bind (onlyIf_spares hrecord (Nat.le_succ n) _
      (sendStatusReport_spares hrecord a _ _)) fun r hr => ?_
    exact deliverNew_spares hr ha

theorem bundleDispatch_spares (h : Spares own made n p) (ha : ¬ own a) :
    Ends AnyFault (p.bundleDispatch env o a) (Spares own made (n + 2)) := by
  unfold bundleDispatch
  refine (load_any p a).bind fun b _ => ?_
  split
  · exact bundleDeliverLocal_spares h ha
  · exact (bundleForward_spares h ha).imp fun q hq => hq.mono (Nat.le_succ _)

theorem bundleForwardingScheduled_spares (h : Spares own made n p) (ha : ¬ own a) :
    Ends AnyFault (p.bundleForwardingScheduled env o a) (Spares own made (n + 2)) := by
  unfold bundleForwardingScheduled
  refine (load_any p a).bind fun b _ => ?_
  split
  · unfold bundleCustodyAccept
    refine (custodyManagerAccept_spares h ha).bind fun r hr => ?_
    dsimp only
    split
    · exact ends_ok (hr.mono (Nat.le_add_right n 2))
    · refine (load_any r.2 a).bind fun e _ => ?_
      refine Ends.bind (onlyIf_spares hr (Nat.le_succ n) _
        (sendStatusReport_spares hr a _ _)) fun q hq => ?_
      exact sendCustodySignal_spares hq a _
  · exact ends_ok (h.mono (Nat.le_add_right n 2))

theorem bundleForwardingSuccess_spares (h : Spares own made n p) (ha : ¬ own a) :
    Ends AnyFault (p.bundleForwardingSuccess env o a) (Spares own made (n + 1)) := by
  unfold bundleForwardingSuccess
  refine (load_any p a).bind fun b _ => ?_
  refine Ends.bind (onlyIf_spares h (Nat.le_succ n) _
    (sendStatusReport_spares h a _ _)) fun q hq => ?_
  refine (bundleRemRc_other hq ha _ false).bind fun r hr => ?_
  exact bundleRemRc_other hr ha _ true

theorem bundleForwardingFailed_spares (h : Spares own made n p) (ha : ¬ own a)
    (reason : StatusReportReason) :
    Ends AnyFault (p.bundleForwardingFailed env o a reason)
      (Spares own made (n + 2)) := by
  unfold bundleForwardingFailed
  refine (load_any p a).bind fun b _ => ?_
  refine Ends.bind (onlyIf_spares h (Nat.le_succ n) _
    (sendCustodySignal_spares h a _)) fun q hq => ?_
  exact bundleDelete_spares hq ha reason

theorem bundleDangling_spares (h : Spares own made n p) (ha : ¬ own a) :
    Ends AnyFault (p.bundleDangling env o a) (Spares own made (n + 1)) := by
  unfold bundleDangling
  refine (load_any p a).bind fun b _ => ?_
  dsimp only
  split
  · exact ends_ok ((h.mono (Nat.le_succ n)).of_same rfl rfl)
  · exact bundleDelete_spares h ha _

/-! ## The reception of a bundle -/

theorem handleUnknownBlockFlags_spares (h : Spares own made n p) (a : Addr)
    (flags : UInt32) :
    Ends AnyFault (p.handleUnknownBlockFlags env o a flags) fun r =>
      r.1 = unknownBlockResult flags ∧ Spares own made (n + 1) r.2 := by
  unfold handleUnknownBlockFlags
  refine Ends.bind (onlyIf_spares h (Nat.le_succ n) _
    (sendStatusReport_spares h a _ _)) fun q hq => ?_
  exact ends_ok ⟨rfl, hq⟩

/-- At most one report is made for each block. -/
theorem handleBlocks_spares (h : Spares own made n p) (a : Addr)
    (blocks : List BlockEntry) :
    Ends AnyFault (handleBlocks env o a p blocks) fun r =>
      Spares own made (n + blocks.length) r.2 :=
  handleBlocks_run (I := Spares own made) (fun hn hp => hp.mono hn)
    (fun flags hp => handleUnknownBlockFlags_spares hp a flags) blocks h

theorem receiveAccepted_spares (h : Spares own made n p) (ha : ¬ own a) :
    Ends AnyFault (p.receiveAccepted env o a) (Spares own made (n + 2)) := by
  unfold receiveAccepted
  refine (load_any p a).bind fun b _ => ?_
  split
  · refine (ends_any _).bind fun redundant _ => ?_
    split
    · refine (sendCustodySignal_spares h a _).bind fun q hq => ?_
      exact bundleRemRc_other (hq.mono (Nat.le_succ _)) ha _ true
    · refine (ends_any _).bind fun acceptable _ => ?_
      split
      · refine (sendCustodySignal_spares h a _).bind fun q hq => ?_
        exact bundleDelete_spares hq ha _
      · exact ends_ok (h.mono (Nat.le_add_right n 2))
  · exact bundleDispatch_spares h ha

/-- The bundles that the reception of `b` may lead to: a report of the reception,
one for each block, and two for what follows. -/
def noticeLimit (b : Bundle) : Nat := b.blocks.length + 3

theorem bundleReceive_spares (h : Spares own made n p) (ha : ¬ own a)
    (hb : p.cells a = .live b) :
    Ends AnyFault (p.bundleReceive env o a) (Spares own made (n + noticeLimit b)) := by
  unfold bundleReceive noticeLimit
  rw [bundleAddRc_of_live hb, ok_bind, load_of_live (cells_setCell_self _), ok_bind]
  dsimp only
  have hadd := h.setCell (c := { b with
    retConstraints := b.retConstraints.addDispatchPending }) hb fun hown => absurd hown ha
  refine Ends.bind (onlyIf_spares hadd (Nat.le_succ n) _
    (sendStatusReport_spares hadd a _ _)) fun q hq => ?_
  split
  · refine (bundleDelete_spares hq ha _).imp fun r hr => hr.mono ?_
    omega
  · refine (handleBlocks_spares hq a b.blocks).bind fun r hr => ?_
    split
    · refine (bundleDelete_spares hr ha _).imp fun s hs => hs.mono ?_
      omega
    · refine Ends.bind (modify_other hr ha _) fun s hs => ?_
      refine (receiveAccepted_spares hs ha).imp fun t ht => ht.mono ?_
      omega

/-- What any signal for a bundle of somebody else leads to. -/
theorem handleOther_spares (h : Spares own made n p) (ha : ¬ own a)
    (hb : p.cells a = .live b) (signal : BundleProcessorSignal) :
    Ends AnyFault (p.handleType env o a signal)
      (Spares own made (n + noticeLimit b)) := by
  have hlimit : n + 2 ≤ n + noticeLimit b := by
    unfold noticeLimit
    omega
  unfold handleType
  split
  · exact bundleReceive_spares h ha hb
  · exact (bundleForwardingScheduled_spares h ha).imp fun q hq => hq.mono hlimit
  · exact (bundleForwardingFailed_spares h ha _).imp fun q hq => hq.mono hlimit
  · exact (bundleDelete_spares h ha _).imp fun q hq => hq.mono (by omega)
  · exact (bundleDangling_spares h ha).imp fun q hq => hq.mono (by omega)
  · exact (bundleForwardingSuccess_spares h ha).imp fun q hq => hq.mono (by omega)
  · exact (bundleForwardingFailed_spares h ha _).imp fun q hq => hq.mono hlimit
  · exact (bundleDispatch_spares h ha).imp fun q hq => hq.mono hlimit
  · exact ends_ok (h.mono (by omega))

/-! ## The handlers of an administrative bundle -/

/-- The bundle at `a` is freed and the store holds nothing under its id. -/
structure Discarded (a : Addr) (b : Bundle) (p q : BundleProcessor) : Prop where
  cells : q.cells = Function.update p.cells a .freed
  gone : q.store.bundles b.id = none
  fewer : ∀ id c, q.store.bundles id = some c → p.store.bundles id = some c

theorem discarded_of_discard (a : Addr) (hid : c.id = b.id) :
    Ends AnyFault ((p.setCell a (.live c)).bundleDiscard a) (Discarded a b p) := by
  refine (bundleDiscard_removes _ a).imp fun q hq => ?_
  obtain ⟨e, he, hcells, hgone, hfewer⟩ := hq
  rw [cells_setCell_self] at he
  obtain rfl := Cell.live.inj he
  refine ⟨?_, by rw [← hid, hgone], hfewer⟩
  rw [hcells, BundleProcessor.setCell, Function.update_idem]

/-- Nothing reports the deletion of a silent bundle. -/
theorem bundleDelete_silent (hb : p.cells a = .live b) (hsilent : b.Silent)
    (reason : StatusReportReason) :
    Ends AnyFault (p.bundleDelete env o a reason) (Discarded a b p) := by
  rw [bundleDelete, bundleDeleteWith, load_of_live hb, ok_bind]
  simp only [hsilent.custody, hsilent.deletion, onlyIf, Bool.or_self,
    Bool.false_eq_true, if_false, ok_bind]
  rw [modify_of_live hb, ok_bind]
  exact discarded_of_discard a rfl

theorem bundleForwardingFailed_silent (hb : p.cells a = .live b) (hsilent : b.Silent)
    (reason : StatusReportReason) :
    Ends AnyFault (p.bundleForwardingFailed env o a reason) (Discarded a b p) := by
  rw [bundleForwardingFailed, load_of_live hb, ok_bind]
  simp only [hsilent.custodyRequest, onlyIf, Bool.false_and, Bool.false_eq_true,
    if_false, ok_bind]
  exact bundleDelete_silent hb hsilent reason

/-- The only retention constraints of a silent bundle are those that its transmission
clears. -/
theorem bundleForwardingSuccess_silent (hb : p.cells a = .live b)
    (hsilent : b.Silent) :
    Ends AnyFault (p.bundleForwardingSuccess env o a) (Discarded a b p) := by
  rw [bundleForwardingSuccess, load_of_live hb, ok_bind]
  simp only [hsilent.forwarding, onlyIf, Bool.false_eq_true, if_false, ok_bind]
  rw [bundleRemRc_keep hb, ok_bind, bundleRemRc, modify_of_live (cells_setCell_self _),
    ok_bind, load_of_live (cells_setCell_self _), ok_bind, setCell_setCell]
  have hnone : b.retConstraints.remForwardPending.remFlagOwn = .none := by
    have hdispatch := hsilent.dispatch
    have hcustody := hsilent.custody
    have hreassembly := hsilent.reassembly
    cases hret : b.retConstraints with
    | mk dispatch forward custody reassembly flagOwn =>
      rw [hret] at hdispatch hcustody hreassembly
      dsimp only at hdispatch hcustody hreassembly
      rw [hdispatch, hcustody, hreassembly]
      rfl
  simp only [hnone, Bool.true_and, beq_self_eq_true, if_true]
  exact discarded_of_discard a rfl

/-- What a signal for an administrative bundle leads to: nothing, another attempt to
route it, or its removal. -/
theorem handleOwn_ends (hb : p.cells a = .live b) (hsilent : b.Silent)
    {signal : BundleProcessorSignal} (hannounces : signal.type.announces = false) :
    Ends AnyFault (p.handleType env o a signal) fun q =>
      Discarded a b p q ∨
        signal.type.final = false ∧ q.cells = p.cells ∧ q.store = p.store := by
  unfold handleType
  cases htype : signal.type with
  | bundleIncoming =>
    rw [htype] at hannounces
    cases hannounces
  | bundleLocalDispatch =>
    rw [htype] at hannounces
    cases hannounces
  | bundleRouted =>
    rw [show p.bundleForwardingScheduled env o a = .ok p from
      bundleForwardingScheduled_idle hb fun hc => by
        rw [hsilent.custodyRequest] at hc
        cases hc.1]
    exact ends_ok (.inr ⟨rfl, rfl, rfl⟩)
  | forwardingContraindicated =>
    exact (bundleForwardingFailed_silent hb hsilent _).imp fun q hq => .inl hq
  | bundleExpired => exact (bundleDelete_silent hb hsilent _).imp fun q hq => .inl hq
  | rescheduleBundle =>
    dsimp only
    rw [bundleDangling, load_of_live hb, ok_bind]
    dsimp only
    split
    · exact ends_ok (.inr ⟨rfl, rfl, rfl⟩)
    · exact (bundleDelete_silent hb hsilent _).imp fun q hq => .inl hq
  | transmissionSuccess =>
    exact (bundleForwardingSuccess_silent hb hsilent).imp fun q hq => .inl hq
  | transmissionFailure =>
    exact (bundleForwardingFailed_silent hb hsilent _).imp fun q hq => .inl hq
  | invalid => exact ends_ok (.inr ⟨rfl, rfl, rfl⟩)

end BundleProcessor

end Upcn
