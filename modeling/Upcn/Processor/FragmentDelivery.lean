import Mathlib.Algebra.Order.BigOperators.Group.List
import Upcn.Processor.Completeness
import Upcn.Processor.LocalDelivery
import Upcn.Processor.Notices

/-!
# Which orders of fragments are delivered

The fragments of one original bundle are delivered locally one after the other
(`deliverAll`).  `bundle_deliver_local` drops those that it takes for known, and hands the
others to `bundle_attempt_reassembly` (`admitted`).

* `Gathering` is the state between two of them, and there is one lemma for each of the ways
  that a fragment goes: `deliverLocal_dropped`, `deliverLocal_claimed`, `deliverLocal_joins`.
* `reassembly_iff` is about the run: the ADU is delivered with the last fragment that is
  needed just if no fragment finds the original in the list of known bundles, and those that
  are admitted have no gap between neighbours.
-/

namespace Upcn

open Outcome Store

/-! ## The fragments that are not dropped -/

/-- `bundle_record_add_and_check_known` for an arrival. -/
def Arrival.record (r : Arrival) (known : List KnownBundle) : Bool × List KnownBundle :=
  bundleRecordAddAndCheckKnown r.inputs r.bundle known

/-- The arrivals that `bundle_record_add_and_check_known` does not find, one after the
other, from this list of known bundles on. -/
def admitted : List KnownBundle → List Arrival → List Arrival
  | _, [] => []
  | known, r :: rest =>
    let record := r.record known
    if record.1 then admitted record.2 rest else r :: admitted record.2 rest

/-- `bundle_reassembled_is_known` finds the original for none of them. -/
def unclaimed : List KnownBundle → List Arrival → Bool
  | _, [] => true
  | known, r :: rest =>
    let record := r.record known
    (record.1 || !reassembledSearch r.bundle.isReassembledAs
      (r.bundle.bundleGetExpirationTime r.inputs.reassembledTime) record.2) &&
      unclaimed record.2 rest

theorem mem_of_admitted {known : List KnownBundle} {arrivals : List Arrival} {r : Arrival}
    (h : r ∈ admitted known arrivals) : r ∈ arrivals := by
  induction arrivals generalizing known with
  | nil => cases h
  | cons s rest ih =>
    rw [admitted] at h
    split at h
    · exact List.mem_cons_of_mem _ (ih h)
    · rcases List.mem_cons.mp h with rfl | h
      · exact List.mem_cons_self
      · exact List.mem_cons_of_mem _ (ih h)

theorem reassembledSearch_append {isEqual : BundleUniqueIdentifier → Bool} {deadline : UInt64}
    {before slot : List KnownBundle} {e : KnownBundle} (hequal : isEqual e.id = true)
    (hbefore : ∀ x ∈ before, ¬ deadline < x.deadline) :
    reassembledSearch isEqual deadline (before ++ e :: slot) = true := by
  induction before with
  | nil => rw [List.nil_append, reassembledSearch, if_pos hequal]
  | cons x rest ih =>
    rw [List.cons_append, reassembledSearch]
    split
    · rfl
    · rw [if_neg (hbefore x List.mem_cons_self)]
      exact ih fun y hy => hbefore y (List.mem_cons_of_mem _ hy)

theorem before_of_recordSearch {isEqual : BundleUniqueIdentifier → Bool}
    {curTime deadline : UInt64} {list before slot : List KnownBundle}
    (h : recordSearch isEqual curTime deadline list = some (before, slot)) :
    ∀ x ∈ before, ¬ deadline < x.deadline := by
  induction list generalizing before with
  | nil =>
    obtain ⟨rfl, -⟩ := Prod.mk.inj (Option.some.inj h)
    exact fun x hx => absurd hx List.not_mem_nil
  | cons e rest ih =>
    rw [recordSearch] at h
    split at h
    · cases h
    · split at h
      · exact ih h
      · split at h
        · obtain ⟨rfl, -⟩ := Prod.mk.inj (Option.some.inj h)
          exact fun x hx => absurd hx List.not_mem_nil
        · rename_i hle
          obtain ⟨⟨before', slot'⟩, hr, heq⟩ := Option.map_eq_some_iff.mp h
          obtain ⟨rfl, rfl⟩ := Prod.mk.inj heq
          intro x hx
          rcases List.mem_cons.mp hx with rfl | hx
          · exact hle
          · exact ih hr x hx

/-- A fragment that is the whole payload finds itself: `bundle_deliver_local` has recorded it
under the identity of the original. -/
theorem unclaimed_whole {known : List KnownBundle} {r : Arrival} {rest : List Arrival}
    (hoffset : r.bundle.fragmentOffset = 0)
    (hlength : r.bundle.payloadLength = r.bundle.totalAduLength)
    (hnew : (r.record known).1 = false) (hmem : r.inputs.recordMem = true)
    (htime : r.bundle.bundleGetExpirationTime r.inputs.reassembledTime =
      r.bundle.bundleGetExpirationTime r.inputs.deadlineTime) :
    unclaimed known (r :: rest) = false := by
  have hself : r.bundle.isReassembledAs r.bundle.bundleGetUniqueIdentifier = true := by
    simp [Bundle.isReassembledAs, Bundle.bundleIsEqualParent, Bundle.bundleGetUniqueIdentifier,
      hoffset, hlength]
  have hfound : reassembledSearch r.bundle.isReassembledAs
      (r.bundle.bundleGetExpirationTime r.inputs.reassembledTime) (r.record known).2 = true := by
    unfold Arrival.record bundleRecordAddAndCheckKnown at hnew ⊢
    dsimp only at hnew ⊢
    by_cases hexpired : r.bundle.bundleGetExpirationTime r.inputs.deadlineTime < r.inputs.recordTime
    · rw [if_pos hexpired] at hnew
      cases hnew
    rw [if_neg hexpired] at hnew ⊢
    cases hsearch : recordSearch r.bundle.bundleIsEqual r.inputs.recordTime
        (r.bundle.bundleGetExpirationTime r.inputs.deadlineTime) known with
    | none =>
      rw [hsearch] at hnew
      cases hnew
    | some found =>
      dsimp only
      rw [if_pos hmem, htime]
      exact reassembledSearch_append hself (before_of_recordSearch hsearch)
  rw [unclaimed, hnew, hfound]
  rfl

/-- The arrival when it waits for the others. -/
def Arrival.waiting (r : Arrival) : Arrival := { r with bundle := r.bundle.awaitingFragment }

theorem Bundle.FragmentOf.awaiting {whole b : Bundle} (h : whole.FragmentOf b) :
    whole.FragmentOf b.awaitingFragment :=
  ⟨h.origin, h.total, h.inside, h.bytes⟩

theorem orderedInsert_waiting (r : Arrival) (l : List Arrival) :
    (l.map Arrival.waiting).orderedInsert Arrival.Before r.waiting =
      (l.orderedInsert Arrival.Before r).map Arrival.waiting := by
  induction l with
  | nil => rfl
  | cons s rest ih =>
    rw [List.map_cons, List.orderedInsert_cons, List.orderedInsert_cons, ih]
    by_cases hbefore : r.Before s
    · rw [if_pos hbefore, if_pos (show r.waiting.Before s.waiting from hbefore)]
      rfl
    · rw [if_neg hbefore, if_neg (show ¬ r.waiting.Before s.waiting from hbefore)]
      rfl

theorem covers_waiting (l : List Arrival) (pos : Nat) :
    covers ((l.map Arrival.waiting).map (·.bundle)) pos = covers (l.map (·.bundle)) pos := by
  induction l generalizing pos with
  | nil => rfl
  | cons s rest ih =>
    rw [List.map_cons, List.map_cons, List.map_cons, covers, covers]
    simp only [ih]
    rfl

/-! ## What the run starts from -/

/-- The fragments of `whole` that are to be delivered locally, and what their deliveries find:
all allocations succeed, and a status report is no longer than `size` bytes.  The addresses
that `malloc` returns for the reports are different. -/
structure Expected (env : Env) (whole : Bundle) (size : Nat) (arrivals : List Arrival) : Prop where
  fragments : ∀ r ∈ arrivals, whole.FragmentOf r.bundle
  flagged : ∀ r ∈ arrivals, r.bundle.hasProcFlag ProcFlag.isFragment = true
  deliverable : ∀ r ∈ arrivals, env.Deliverable r.bundle.procFlags r.bundle.destination
  constraints : ∀ r ∈ arrivals, r.bundle.retConstraints.remDispatchPending = .none
  distinct : (arrivals.map (·.addr)).Nodup
  memory : ∀ r ∈ arrivals, r.inputs.entryMem = true ∧ r.inputs.listMem = true ∧
    r.inputs.aduMem = true ∧ ∀ k, (r.inputs.reports k).bundleMem.isSome
  colons : ∀ r ∈ arrivals, ':' ∈ env.localEid ∧ ':' ∈ r.bundle.reportTo
  once : arrivals.Pairwise fun r s => ∀ j k c, (r.inputs.reports j).bundleMem = some c →
    (s.inputs.reports k).bundleMem ≠ some c
  size : ∀ b status reason time payload,
    env.statusReportRecord b status reason time = some payload → payload.val.length ≤ size

theorem Expected.tail {env : Env} {whole : Bundle} {size : Nat} {r : Arrival}
    {rest : List Arrival} (h : Expected env whole size (r :: rest)) : Expected env whole size rest where
  fragments t ht := h.fragments t (List.mem_cons_of_mem _ ht)
  flagged t ht := h.flagged t (List.mem_cons_of_mem _ ht)
  deliverable t ht := h.deliverable t (List.mem_cons_of_mem _ ht)
  constraints t ht := h.constraints t (List.mem_cons_of_mem _ ht)
  distinct := (List.nodup_cons.mp h.distinct).2
  memory t ht := h.memory t (List.mem_cons_of_mem _ ht)
  colons t ht := h.colons t (List.mem_cons_of_mem _ ht)
  once := (List.pairwise_cons.mp h.once).2
  size := h.size

namespace BundleProcessor

/-- The calls of `bundle_deliver_local` for the arrivals. -/
def deliverAll (env : Env) (p : BundleProcessor) (arrivals : List Arrival) :
    Except Fault BundleProcessor :=
  arrivals.foldlM (fun p r => p.bundleDeliverLocal env r.inputs r.addr) p

/-- Between two arrivals: `waiting` wait in the order of their offsets, and `rest` are still to
be delivered.  The store accounts for all of them and has room for a report on each of `rest`. -/
structure Gathering (p : BundleProcessor) (whole : Bundle) (size : Nat)
    (waiting rest : List Arrival) (s : BundleProcessor) : Prop where
  coherent : s.Coherent
  lists : s.reassemblyList = (p.collecting waiting).reassemblyList
  others : ∀ l ∈ p.reassemblyList, ∃ c t e, l = c :: t ∧ s.cells c = .live e ∧
    e.mayReassemble whole = false
  distinct : ((waiting ++ rest).map (·.addr)).Nodup
  parts : ∀ r ∈ waiting, whole.FragmentOf r.bundle
  waits : ∀ r ∈ waiting, s.cells r.addr = .live r.bundle.awaitingFragment
  comes : ∀ r ∈ rest, s.cells r.addr = .live r.bundle
  delivered : s.delivered = p.delivered
  accounted : ((waiting ++ rest).map (·.bundle.payload.val.length)).sum ≤ s.store.bundleBytes
  bounded : s.store.bundleBytes + rest.length * size < 2 ^ 32
  nextId : s.store.nextId < idCount
  room : s.store.Room rest.length
  unused : ∀ r ∈ rest, ∀ k c, (r.inputs.reports k).bundleMem = some c → s.cells c = .unused

variable {env : Env} {o : Inputs} {p q s : BundleProcessor} {a : Addr} {b whole : Bundle}
  {size k : Nat} {arrivals waiting rest : List Arrival} {r : Arrival}

/-! ## The delivery report -/

/-- A state after a report that nothing has prevented. -/
structure Reported (size k : Nat) (r : ReportInput) (p q : BundleProcessor) : Prop where
  grows : Grows p q
  bytes : p.store.bundleBytes ≤ q.store.bundleBytes
  bounded : q.store.bundleBytes ≤ p.store.bundleBytes + size
  nextId : q.store.nextId < idCount
  room : q.store.Room k
  unused : ∀ c, p.cells c = .unused → r.bundleMem ≠ some c → q.cells c = .unused

theorem Reported.refl (hnext : p.store.nextId < idCount) (hroom : p.store.Room (k + 1))
    (r : ReportInput) : Reported size k r p p :=
  ⟨.refl p, Nat.le_refl _, Nat.le_add_right _ _, hnext,
    BundleStore.room_le (Nat.le_succ k) hroom, fun _ hc _ => hc⟩

theorem generateStatusReport_returns (status : StatusReportStatus) (reason : StatusReportReason)
    {r : ReportInput} (hcolons : ':' ∈ env.localEid ∧ ':' ∈ b.reportTo)
    (hmem : r.bundleMem.isSome) : ∃ made, generateStatusReport env b status reason r = .ok made := by
  obtain ⟨c, hc⟩ := Option.isSome_iff_exists.mp hmem
  unfold generateStatusReport
  split
  · split
    · unfold encapsulateRecord
      dsimp only
      split
      · exact ⟨none, rfl⟩
      · rw [hc]
        exact ⟨_, rfl⟩
    · split
      · dsimp only
        split <;> exact ⟨_, rfl⟩
      · exact ⟨none, rfl⟩
  · exact ⟨none, rfl⟩

/-- A report on the delivery, if one is asked for. -/
theorem report_returns (h : p.cells a = .live b)
    (hcolons : ':' ∈ env.localEid ∧ ':' ∈ b.reportTo)
    (hmem : ∃ c, (o.reports p.reports).bundleMem = some c ∧ p.cells c = .unused)
    (hsize : ∀ b status reason time payload,
      env.statusReportRecord b status reason time = some payload → payload.val.length ≤ size)
    (hbytes : p.store.bundleBytes + size < 2 ^ 32) (hnext : p.store.nextId < idCount)
    (hroom : p.store.Room (k + 1)) (flag : Bool) :
    ∃ q, p.onlyIf flag (·.sendStatusReport env o a .bundleDelivered .noInfo) = .ok q ∧
      Reported size k (o.reports p.reports) p q := by
  have hrefl : Reported size k (o.reports p.reports) p p := .refl hnext hroom _
  obtain ⟨c, hc, hunused⟩ := hmem
  unfold onlyIf
  split
  swap
  · exact ⟨p, rfl, hrefl⟩
  dsimp only
  rw [sendStatusReport_eq, sendStatusReportWith]
  split
  · exact ⟨p, rfl, hrefl⟩
  rw [load_of_live h, ok_bind]
  split
  · exact ⟨p, rfl, hrefl⟩
  dsimp only
  have hreport : (p.nextReport o).1 = o.reports p.reports := rfl
  have hc' : (p.nextReport o).1.bundleMem = some c := hc
  obtain ⟨made, hmade⟩ := generateStatusReport_returns .bundleDelivered .noInfo
    hcolons (Option.isSome_of_mem hc')
  rw [hmade, ok_bind]
  cases made with
  | none => exact ⟨(p.nextReport o).2, rfl, { hrefl with grows := grows_nextReport p }⟩
  | some y =>
    obtain ⟨-, -, hrecord, -, hy⟩ := generateStatusReport_some hmade
    have hfresh := (generateStatusReport_ends env b .bundleDelivered .noInfo _).ok hmade y rfl
    obtain ⟨c', x⟩ := y
    obtain rfl : c = c' := Option.some.inj (hc'.symm.trans hy)
    have hle := hsize _ _ _ _ _ hrecord
    dsimp only at hle
    obtain ⟨id, store, hadd, hnext', hroom', hmore, hmost⟩ :=
      BundleStore.bundleStorageAdd_returns hnext hroom
        (show p.store.bundleBytes + x.payload.val.length < bytesCount by
          unfold bytesCount
          omega) (p.nextReport o).1.nodeMem c
    have hdispatch : dispatchReport forwardAccepted ((p.nextReport o).2.setCell c (.live x)) c
        (p.nextReport o).1 = .ok ((p.nextReport o).2.withNotice c x id store) := by
      have hadd' : (p.nextReport o).2.store.bundleStorageAdd (p.nextReport o).1.nodeMem c
        bundleInvalidId (some x.payload.val.length) = .ok (id, store) := hadd
      rw [dispatchReport_new hfresh.1, hadd']
      rfl
    have hallocate : (p.nextReport o).2.allocate c x =
        .ok ((p.nextReport o).2.setCell c (.live x)) := by
      have hcell : (p.nextReport o).2.cells c = .unused := hunused
      rw [allocate, hcell]
    have hgrows := (dispatchReport_ends (p := (p.nextReport o).2) (r := (p.nextReport o).1)
      hunused hfresh.1).ok hdispatch
    refine ⟨_, by dsimp only; rw [hallocate, ok_bind]; exact hdispatch,
      (grows_nextReport p).trans hgrows, hmore, hmost.trans (Nat.add_le_add_left hle _), hnext',
      hroom', fun c' hc' hne => ?_⟩
    have hother : c' ≠ c := by
      rintro rfl
      exact hne hc
    show Function.update p.cells c _ c' = .unused
    rw [Function.update_of_ne hother, hc']

/-! ## One delivery -/

theorem mayReassemble_symm (h : b.mayReassemble whole = false) : whole.mayReassemble b = false := by
  by_contra hnot
  rw [Bool.not_eq_false] at hnot
  have hself : b.mayReassemble whole = true := by
    simp only [Bundle.mayReassemble, Bool.and_eq_true, beq_iff_eq] at hnot ⊢
    exact ⟨⟨hnot.1.1.symm, hnot.1.2.symm⟩, hnot.2.symm⟩
  rw [hself] at h
  cases h

theorem Gathering.head_ne (h : Gathering p whole size waiting (r :: rest) s) :
    (∀ t ∈ waiting, t.addr ≠ r.addr) ∧ (∀ t ∈ rest, t.addr ≠ r.addr) ∧
      ((waiting ++ rest).map (·.addr)).Nodup := by
  have hperm : ((waiting ++ r :: rest).map (·.addr)).Perm
      (r.addr :: (waiting ++ rest).map (·.addr)) := List.perm_middle.map _
  obtain ⟨hnot, hnodup⟩ := List.nodup_cons.mp (hperm.nodup_iff.mp h.distinct)
  refine ⟨fun t ht heq => hnot ?_, fun t ht heq => hnot ?_, hnodup⟩
  · rw [← heq]
    exact List.mem_map_of_mem (List.mem_append_left _ ht)
  · rw [← heq]
    exact List.mem_map_of_mem (List.mem_append_right _ ht)

theorem Gathering.sum_eq (waiting rest : List Arrival) (r : Arrival) :
    ((waiting ++ r :: rest).map (·.bundle.payload.val.length)).sum =
      r.bundle.payload.val.length + ((waiting ++ rest).map (·.bundle.payload.val.length)).sum := by
  have hperm : ((waiting ++ r :: rest).map (·.bundle.payload.val.length)).Perm
      (r.bundle.payload.val.length :: (waiting ++ rest).map (·.bundle.payload.val.length)) :=
    List.perm_middle.map _
  rw [hperm.sum_eq, List.sum_cons]

/-- `bundle_deliver_local` up to the search for the bundle in the list of known ones. -/
def checked (s : BundleProcessor) (r : Arrival) : BundleProcessor :=
  { s.setCell r.addr (.live { r.bundle with
      retConstraints := r.bundle.retConstraints.remDispatchPending }) with
    knownBundleList := (r.record s.knownBundleList).2 }

theorem bundleDeliverLocal_checked (h : s.cells r.addr = .live r.bundle) :
    s.bundleDeliverLocal env r.inputs r.addr =
      if (r.record s.knownBundleList).1 then (s.checked r).bundleDiscard r.addr
      else (do
        let q ← (s.checked r).onlyIf (r.bundle.hasProcFlag ProcFlag.reportDelivery)
          (·.sendStatusReport env r.inputs r.addr .bundleDelivered .noInfo)
        q.deliverNew env r.inputs r.addr) := by
  rw [bundleDeliverLocal, bundleRemRc_keep h, ok_bind, load_of_live (cells_setCell_self _),
    ok_bind]
  rfl

/-- A change of one bundle that is not in custody. -/
theorem CustodyFlagged.change (h : p.CustodyFlagged) (ha : p.cells a = .live b)
    (hflag : b.retConstraints.custodyAccepted = false) (haccepted : q.accepted = p.accepted)
    (hcells : ∀ c, c ≠ a → p.cells c ≠ .unused → q.cells c = p.cells c) : q.CustodyFlagged := by
  intro c hc
  rw [haccepted] at hc
  obtain ⟨e, he, heflag⟩ := h c hc
  have hne : c ≠ a := by
    rintro rfl
    rw [ha] at he
    rw [Cell.live.inj he, heflag] at hflag
    cases hflag
  exact ⟨e, by rw [hcells c hne (by simp [he]), he], heflag⟩

theorem custodyAccepted_of_remDispatchPending (h : b.retConstraints.remDispatchPending = .none) :
    b.retConstraints.custodyAccepted = false :=
  congrArg RetConstraints.custodyAccepted h

/-- What the check leaves of the state. -/
theorem Gathering.checked (h : Gathering p whole size waiting (r :: rest) s)
    (hfrag : whole.FragmentOf r.bundle) :
    (s.checked r).Registered ∧
      (s.checked r).cells r.addr = .live { r.bundle with
        retConstraints := r.bundle.retConstraints.remDispatchPending } ∧
      (∀ c, c ≠ r.addr → (s.checked r).cells c = s.cells c) ∧
      ∀ l ∈ p.reassemblyList, ∃ c t e, l = c :: t ∧ s.cells c = .live e ∧
        e.mayReassemble whole = false ∧ c ≠ r.addr := by
  have hlive := h.comes r List.mem_cons_self
  have hreg := h.coherent.registered.setCell hlive
    (rfl : ({ r.bundle with retConstraints := r.bundle.retConstraints.remDispatchPending } :
      Bundle).id = r.bundle.id)
  refine ⟨⟨hreg.stored, hreg.live⟩, cells_setCell_self _, fun c hc => cells_setCell_of_ne hc _,
    fun l hl => ?_⟩
  obtain ⟨c, t, e, hcons, he, hmay⟩ := h.others l hl
  refine ⟨c, t, e, hcons, he, hmay, ?_⟩
  rintro rfl
  rw [hlive] at he
  obtain rfl := Cell.live.inj he
  have hnot := mayReassemble_symm hmay
  rw [hfrag.origin] at hnot
  cases hnot

/-- A fragment that is taken for known is dropped. -/
theorem deliverLocal_dropped (h : Gathering p whole size waiting (r :: rest) s)
    (hfrag : whole.FragmentOf r.bundle)
    (hret : r.bundle.retConstraints.remDispatchPending = .none)
    (hknown : (r.record s.knownBundleList).1 = true) :
    ∃ s', s.bundleDeliverLocal env r.inputs r.addr = .ok s' ∧
      s'.knownBundleList = (r.record s.knownBundleList).2 ∧
      Gathering p whole size waiting rest s' := by
  obtain ⟨hreg, hlive, hcells, hothers⟩ := h.checked hfrag
  obtain ⟨hwaiting, hrest, hdistinct⟩ := h.head_ne
  have hsum := h.accounted
  rw [Gathering.sum_eq] at hsum
  have hbounded := h.bounded
  rw [List.length_cons, Nat.add_one_mul] at hbounded
  set b : Bundle := { r.bundle with
    retConstraints := r.bundle.retConstraints.remDispatchPending } with hb
  have hstore : (s.checked r).store = s.store := rfl
  have hother : ∀ c, c ≠ r.addr → ((s.checked r).removed r.addr b).cells c = s.cells c :=
    fun c hc => (cells_removed_of_ne hc).trans (hcells c hc)
  have hbytes : s.store.bundleBytes - r.bundle.payload.val.length ≤
        ((s.checked r).removed r.addr b).store.bundleBytes ∧
      ((s.checked r).removed r.addr b).store.bundleBytes ≤ s.store.bundleBytes := by
    unfold removed
    dsimp only
    rw [hstore]
    split
    · exact ⟨Nat.le_refl _, Nat.sub_le _ _⟩
    · exact ⟨Nat.sub_le _ _, Nat.le_refl _⟩
  refine ⟨(s.checked r).removed r.addr b, ?_, rfl, ?_⟩
  · rw [bundleDeliverLocal_checked (h.comes r List.mem_cons_self), if_pos hknown,
      bundleDiscard_of_live hreg hlive hret, if_neg]
    rintro ⟨-, hlow⟩
    rw [hstore] at hlow
    change s.store.bundleBytes < r.bundle.payload.val.length at hlow
    omega
  · exact {
      coherent := ⟨hreg.removed hlive, h.coherent.custody.change (h.comes r List.mem_cons_self)
        (custodyAccepted_of_remDispatchPending hret) rfl fun c hc _ => hother c hc⟩
      lists := h.lists
      others := fun l hl => by
        obtain ⟨c, t, e, hcons, he, hmay, hne⟩ := hothers l hl
        exact ⟨c, t, e, hcons, by rw [hother c hne, he], hmay⟩
      distinct := hdistinct
      parts := h.parts
      waits := fun t ht => by rw [hother _ (hwaiting t ht), h.waits t ht]
      comes := fun t ht => by rw [hother _ (hrest t ht), h.comes t (List.mem_cons_of_mem _ ht)]
      delivered := h.delivered
      accounted := by omega
      bounded := by omega
      nextId := h.nextId
      room := by
        refine BundleStore.room_mono (BundleStore.room_le (Nat.le_succ _) h.room) fun id hid => ?_
        rw [BundleStore.idTaken, Bool.or_eq_false_iff] at hid ⊢
        refine ⟨hid.1, ?_⟩
        show (Function.update s.store.bundles b.id none id).isSome = false
        by_cases hsame : id = b.id
        · rw [hsame, Function.update_self]
          rfl
        · rw [Function.update_of_ne hsame]
          exact hid.2
      unused := fun t ht k c hc => by
        have hunused := h.unused t (List.mem_cons_of_mem _ ht) k c hc
        have hne : c ≠ r.addr := by
          rintro rfl
          rw [h.comes r List.mem_cons_self] at hunused
          cases hunused
        rw [hother c hne, hunused] }

/-- A state with these lists, seen from one without the list of `waiting`. -/
theorem eq_collecting (h : q.reassemblyList = (p.collecting waiting).reassemblyList) :
    q = { q with reassemblyList := p.reassemblyList }.collecting
      (waiting.map Arrival.waiting) := by
  unfold collecting at h ⊢
  cases waiting with
  | nil =>
    rw [if_pos rfl] at h
    rw [List.map_nil, if_pos rfl, ← h]
  | cons t rest =>
    rw [if_neg (List.cons_ne_nil t rest)] at h
    have haddr : ((t :: rest).map Arrival.waiting).map (·.addr) = (t :: rest).map (·.addr) := by
      rw [List.map_map]
      rfl
    rw [if_neg (by simp), haddr]
    dsimp only at h ⊢
    rw [← h]

theorem lists_collecting (h : q.reassemblyList = p.reassemblyList) :
    (q.collecting (waiting.map Arrival.waiting)).reassemblyList =
      (p.collecting waiting).reassemblyList := by
  have haddr : (waiting.map Arrival.waiting).map (·.addr) = waiting.map (·.addr) := by
    rw [List.map_map]
    rfl
  unfold collecting
  by_cases hnil : waiting = []
  · rw [if_pos hnil, if_pos (by rw [hnil]; rfl), h]
  · rw [if_neg hnil, if_neg (by simpa using hnil), haddr, h]

/-- A fragment that is not dropped is handed to `bundle_attempt_reassembly`. -/
theorem deliverLocal_admitted (h : Gathering p whole size waiting (r :: rest) s)
    (hx : Expected env whole size (r :: rest)) (hnew : (r.record s.knownBundleList).1 = false) :
    ∃ base : BundleProcessor,
      s.bundleDeliverLocal env r.inputs r.addr =
        (base.collecting (waiting.map Arrival.waiting)).bundleAttemptReassembly env r.inputs
          r.addr ∧
      base.reassemblyList = p.reassemblyList ∧
      base.knownBundleList = (r.record s.knownBundleList).2 ∧
      base.Awaiting whole ((r :: waiting).map Arrival.waiting) ∧
      Gathering p whole size (waiting.orderedInsert Arrival.Before r) rest
        (base.collecting ((waiting.orderedInsert Arrival.Before r).map Arrival.waiting)) := by
  have hfrag := hx.fragments r List.mem_cons_self
  have hret := hx.constraints r List.mem_cons_self
  obtain ⟨hreg, hlive, hcells, hothers⟩ := h.checked hfrag
  obtain ⟨hwaiting, hrest, hdistinct⟩ := h.head_ne
  have hsum := h.accounted
  rw [Gathering.sum_eq] at hsum
  have hbounded := h.bounded
  rw [List.length_cons, Nat.add_one_mul] at hbounded
  have hstore : (s.checked r).store = s.store := rfl
  -- the report
  obtain ⟨-, -, -, hmem⟩ := hx.memory r List.mem_cons_self
  obtain ⟨c, hc⟩ := Option.isSome_iff_exists.mp (hmem (s.checked r).reports)
  have hunused : ∀ {x}, s.cells x = .unused → x ≠ r.addr := by
    rintro x hunused rfl
    rw [h.comes r List.mem_cons_self] at hunused
    cases hunused
  have hcell := h.unused r List.mem_cons_self _ c hc
  obtain ⟨q, hreport, hq⟩ := report_returns (o := r.inputs) (k := rest.length) hlive
    (hx.colons r List.mem_cons_self) ⟨c, hc, by rw [hcells c (hunused hcell), hcell]⟩ hx.size
    (by rw [hstore]; omega) h.nextId h.room (r.bundle.hasProcFlag ProcFlag.reportDelivery)
  have hqlive := hq.grows.live hlive
  have hqcells : ∀ x, x ≠ r.addr → s.cells x ≠ .unused → q.cells x = s.cells x := by
    intro x hx hused
    rw [hq.grows.old x (by rwa [hcells x hx]), hcells x hx]
  -- the fragment waits
  set b := r.bundle.awaitingFragment with hb
  have hdeliver : s.bundleDeliverLocal env r.inputs r.addr =
      (q.setCell r.addr (.live b)).bundleAttemptReassembly env r.inputs r.addr := by
    rw [bundleDeliverLocal_checked (h.comes r List.mem_cons_self), if_neg (by simp [hnew]),
      hreport, ok_bind, deliverNew, load_of_live hqlive, ok_bind]
    have hagent : (!hasFlag r.bundle.procFlags ProcFlag.administrativeRecord &&
        (env.getAgentId r.bundle.destination).isNone) = false := by
      rcases hx.deliverable r List.mem_cons_self with hadmin | hagent
      · rw [hadmin]
        rfl
      · rw [← Option.not_isSome, hagent]
        simp
    have hflag := hx.flagged r List.mem_cons_self
    unfold Bundle.hasProcFlag at hflag ⊢
    dsimp only
    rw [hagent, if_neg Bool.false_ne_true, hflag, if_pos rfl, bundleAddRc_of_live hqlive, ok_bind,
      hb, Bundle.awaitingFragment]
    dsimp only
    rw [hret]
  have hsub : ∀ l ∈ p.reassemblyList, ∃ c t e, l = c :: t ∧
      (q.setCell r.addr (.live b)).cells c = .live e ∧ e.mayReassemble whole = false := by
    intro l hl
    obtain ⟨c, t, e, hcons, he, hmay, hne⟩ := hothers l hl
    exact ⟨c, t, e, hcons,
      by rw [cells_setCell_of_ne hne, hqcells c hne (by simp [he]), he], hmay⟩
  have hwaits : ∀ t ∈ r :: waiting,
      (q.setCell r.addr (.live b)).cells t.addr = .live t.bundle.awaitingFragment := by
    intro t ht
    rcases List.mem_cons.mp ht with rfl | ht
    · exact cells_setCell_self _
    · have hw := h.waits t ht
      rw [cells_setCell_of_ne (hwaiting t ht), hqcells _ (hwaiting t ht) (by simp [hw]), hw]
  have hparts : ∀ t ∈ r :: waiting, whole.FragmentOf t.bundle := by
    intro t ht
    rcases List.mem_cons.mp ht with rfl | ht
    · exact hfrag
    · exact h.parts t ht
  have hlists : (q.setCell r.addr (.live b)).reassemblyList =
      (p.collecting waiting).reassemblyList :=
    hq.grows.reassemblyList.trans h.lists
  have hregq : (q.setCell r.addr (.live b)).Registered :=
    (hq.grows.registered hreg).setCell hqlive rfl
  have haccepted : (q.setCell r.addr (.live b)).accepted = s.accepted := by
    show q.acceptedBundles.take q.acceptedBundleCount = _
    rw [hq.grows.acceptedBundles, hq.grows.acceptedBundleCount]
    rfl
  have hbase : ({ q.setCell r.addr (.live b) with reassemblyList := p.reassemblyList } :
      BundleProcessor).Coherent :=
    ⟨⟨hregq.stored, hregq.live⟩, h.coherent.custody.change (h.comes r List.mem_cons_self)
      (custodyAccepted_of_remDispatchPending hret) haccepted fun c hc hused =>
        (cells_setCell_of_ne hc _).trans (hqcells c hc hused)⟩
  refine ⟨{ q.setCell r.addr (.live b) with reassemblyList := p.reassemblyList }, ?_, rfl,
    hq.grows.knownBundleList, ?_, ?_⟩
  · rw [hdeliver]
    exact congrArg (·.bundleAttemptReassembly env r.inputs r.addr) (eq_collecting hlists)
  · exact {
      coherent := hbase
      others := hsub
      live := fun t ht => by
        obtain ⟨t', ht', rfl⟩ := List.mem_map.mp ht
        exact hwaits t' ht'
      fragments := fun t ht => by
        obtain ⟨t', ht', rfl⟩ := List.mem_map.mp ht
        exact (hparts t' ht').awaiting
      constraints := fun t ht => by
        obtain ⟨t', -, rfl⟩ := List.mem_map.mp ht
        rfl }
  · have hmem' : ∀ t ∈ waiting.orderedInsert Arrival.Before r, t ∈ r :: waiting := fun t ht =>
      List.mem_cons.mpr ((List.mem_orderedInsert Arrival.Before).mp ht)
    have hperm : (waiting.orderedInsert Arrival.Before r ++ rest).Perm
        (waiting ++ r :: rest) :=
      ((List.perm_orderedInsert Arrival.Before r waiting).append_right rest).trans
        List.perm_middle.symm
    have hbytes := hq.bytes
    have hmost := hq.bounded
    rw [hstore] at hbytes hmost
    exact {
      coherent := hbase.collecting
      lists := lists_collecting rfl
      others := by
        rw [cells_collecting]
        exact hsub
      distinct := (hperm.map _).nodup_iff.mpr h.distinct
      parts := fun t ht => hparts t (hmem' t ht)
      waits := fun t ht => by
        rw [cells_collecting]
        exact hwaits t (hmem' t ht)
      comes := fun t ht => by
        have hcome := h.comes t (List.mem_cons_of_mem _ ht)
        rw [cells_collecting]
        refine (cells_setCell_of_ne (hrest t ht) _).trans ?_
        rw [hqcells _ (hrest t ht) (by simp [hcome]), hcome]
      delivered := by
        rw [delivered_collecting]
        exact hq.grows.delivered.trans h.delivered
      accounted := by
        rw [store_collecting, (hperm.map _).sum_eq, Gathering.sum_eq]
        exact hsum.trans hbytes
      bounded := by
        rw [store_collecting]
        show q.store.bundleBytes + _ < _
        omega
      nextId := by
        rw [store_collecting]
        exact hq.nextId
      room := by
        rw [store_collecting]
        exact hq.room
      unused := fun t ht k c' hc' => by
        have hfree := h.unused t (List.mem_cons_of_mem _ ht) k c' hc'
        have hother := hunused hfree
        rw [cells_collecting]
        refine (cells_setCell_of_ne hother _).trans (hq.unused c' ?_ fun hsame => ?_)
        · rw [hcells c' hother, hfree]
        · exact (List.pairwise_cons.mp hx.once).1 t ht _ k c' hsame hc' }

/-- A freed fragment is read again, whether there are other lists or not. -/
theorem joinReassembly_useAfterFree (h : p.cells a = .freed)
    (hlists : ∀ l ∈ p.reassemblyList, ∃ c t e, l = c :: t ∧ p.cells c = .live e)
    (hentry : o.entryMem = true) (hlist : o.listMem = true) :
    p.joinReassembly env o a = .error .useAfterFree := by
  unfold joinReassembly
  cases hcases : p.reassemblyList with
  | nil =>
    have hload : ({ p with reassemblyList := [] ++ [[a]] } : BundleProcessor).load a =
        .error .useAfterFree := load_of_freed h
    rw [findReassemblyList, ok_bind]
    dsimp only
    rw [hlist, if_neg (by simp), addToReassemblyBundleList, insertFragment, ok_bind, hentry,
      if_pos rfl, pure_bind]
    dsimp only
    rw [hcases]
    change tryReassemble env o { p with reassemblyList := [] ++ [[a]] } 0 = _
    have hentries : ([] ++ [[a]]).getD 0 [] = [a] := rfl
    rw [tryReassemble, hentries, coversAdu, hload]
    rfl
  | cons l lists =>
    obtain ⟨c, t, e, rfl, he⟩ := hlists l (by rw [hcases]; exact List.mem_cons_self)
    rw [findReassemblyList, load_of_live he, ok_bind, load_of_freed h]
    rfl

/-- `bundle_attempt_reassembly` goes on with the fragment that it has discarded. -/
theorem attempt_useAfterFree (h : p.Coherent) (ha : p.cells a = .live b)
    (hret : b.retConstraints = RetConstraints.none.addReassemblyPending)
    (hknown : p.bundleReassembledIsKnown o b = true)
    (hbytes : b.payload.val.length ≤ p.store.bundleBytes)
    (hlists : ∀ l ∈ p.reassemblyList, ∃ c t e, l = c :: t ∧ p.cells c = .live e ∧ c ≠ a)
    (hentry : o.entryMem = true) (hlist : o.listMem = true) :
    p.bundleAttemptReassembly env o a = .error .useAfterFree := by
  set b' : Bundle := { b with retConstraints := b.retConstraints.remReassemblyPending } with hb'
  have hfree : b'.retConstraints = .none := by
    rw [hb']
    dsimp only
    rw [hret]
    rfl
  have henough : ¬ ((p.setCell a (.live b')).store.bundleBytes < b'.payload.val.length) :=
    Nat.not_lt.mpr hbytes
  have hreg : (p.setCell a (.live b')).Registered := h.registered.setCell ha rfl
  have hdiscard := bundleDiscard_of_live hreg (cells_setCell_self _) hfree
  rw [if_neg fun hc => henough hc.2] at hdiscard
  rw [bundleAttemptReassembly, load_of_live ha, ok_bind, hknown, onlyIf, if_pos rfl,
    discardFragment, bundleRemRc_keep ha, ok_bind, ← hb', hdiscard, ok_bind]
  refine joinReassembly_useAfterFree cells_removed_self (fun l hl => ?_) hentry hlist
  obtain ⟨c, t, e, hcons, he, hne⟩ := hlists l hl
  exact ⟨c, t, e, hcons, by rw [cells_removed_of_ne hne, cells_setCell_of_ne hne, he]⟩

/-- A fragment that finds the original in the list of known bundles. -/
theorem deliverLocal_claimed (h : Gathering p whole size waiting (r :: rest) s)
    (hx : Expected env whole size (r :: rest)) (hnew : (r.record s.knownBundleList).1 = false)
    (hknown : reassembledSearch r.bundle.isReassembledAs
      (r.bundle.bundleGetExpirationTime r.inputs.reassembledTime)
      (r.record s.knownBundleList).2 = true) :
    s.bundleDeliverLocal env r.inputs r.addr = .error .useAfterFree := by
  obtain ⟨base, hcall, -, hlist, hawaiting, hnext⟩ := deliverLocal_admitted h hx hnew
  obtain ⟨hentry, hlistMem, -, -⟩ := hx.memory r List.mem_cons_self
  have hr : r.waiting ∈ (r :: waiting).map Arrival.waiting := List.mem_map_of_mem List.mem_cons_self
  have hrlive := hawaiting.live _ hr
  rw [hcall]
  refine attempt_useAfterFree (b := r.bundle.awaitingFragment) hawaiting.coherent.collecting
    (by rw [cells_collecting]; exact hrlive) rfl ?_ ?_ (fun l hl => ?_) hentry hlistMem
  · rw [known_collecting, bundleReassembledIsKnown, hlist]
    exact hknown
  · have hsum := hnext.accounted
    rw [store_collecting] at hsum ⊢
    have hmem : r.bundle.payload.val.length ∈
        (waiting.orderedInsert Arrival.Before r ++ rest).map (·.bundle.payload.val.length) :=
      List.mem_map_of_mem (List.mem_append_left _
        ((List.mem_orderedInsert Arrival.Before).mpr (.inl rfl)))
    exact (List.le_sum_of_mem hmem).trans hsum
  · have hof : ∀ c t e, l = c :: t → base.cells c = .live e → c ≠ r.addr →
        ∃ c t e, l = c :: t ∧ (base.collecting (waiting.map Arrival.waiting)).cells c = .live e ∧
          c ≠ r.addr := fun c t e hcons he hne =>
      ⟨c, t, e, hcons, by rw [cells_collecting, he], hne⟩
    have hother : l ∈ base.reassemblyList → ∃ c t e, l = c :: t ∧
        (base.collecting (waiting.map Arrival.waiting)).cells c = .live e ∧ c ≠ r.addr := by
      intro hl
      obtain ⟨c, t, e, hcons, he, hmay⟩ := hawaiting.others l hl
      refine hof c t e hcons he ?_
      rintro rfl
      rw [show base.cells r.addr = _ from hrlive] at he
      obtain rfl := Cell.live.inj he
      have hnot := mayReassemble_symm hmay
      rw [(hawaiting.fragments _ hr).origin] at hnot
      cases hnot
    cases hcases : waiting with
    | nil =>
      rw [hcases, List.map_nil, collecting, if_pos rfl] at hl
      exact hcases ▸ hother hl
    | cons t rest' =>
      rw [← hcases]
      rw [collecting_of_ne_nil (by rw [hcases]; exact List.cons_ne_nil _ _)] at hl
      rcases List.mem_append.mp hl with hl | hl
      · exact hother hl
      · have ht : t ∈ waiting := hcases ▸ List.mem_cons_self
        obtain rfl := List.mem_singleton.mp hl
        refine hof t.addr (rest'.map (·.addr)) _ (by rw [hcases, List.map_map]; rfl)
          (hawaiting.live t.waiting (List.mem_map_of_mem (List.mem_cons_of_mem _ ht))) ?_
        exact (h.head_ne).1 t ht

variable (h : Gathering p whole size waiting (r :: rest) s)
  (hx : Expected env whole size (r :: rest)) (hnew : (r.record s.knownBundleList).1 = false)
  (hunknown : reassembledSearch r.bundle.isReassembledAs
    (r.bundle.bundleGetExpirationTime r.inputs.reassembledTime)
    (r.record s.knownBundleList).2 = false)
include h hx hnew hunknown

/-- Every other fragment joins those that wait. -/
theorem deliverLocal_joins :
    ∃ base : BundleProcessor,
      s.bundleDeliverLocal env r.inputs r.addr =
        (base.collecting ((waiting.orderedInsert Arrival.Before r).map Arrival.waiting)).tryReassemble
          env r.inputs base.reassemblyList.length ∧
      base.knownBundleList = (r.record s.knownBundleList).2 ∧
      base.Awaiting whole ((r :: waiting).map Arrival.waiting) ∧
      Gathering p whole size (waiting.orderedInsert Arrival.Before r) rest
        (base.collecting ((waiting.orderedInsert Arrival.Before r).map Arrival.waiting)) := by
  obtain ⟨base, hcall, -, hlist, hawaiting, hnext⟩ := deliverLocal_admitted h hx hnew
  obtain ⟨hentry, hlistMem, -, -⟩ := hx.memory r List.mem_cons_self
  refine ⟨base, ?_, hlist, hawaiting, hnext⟩
  rw [hcall, ← orderedInsert_waiting]
  refine attempt_collects hawaiting (r := r.waiting) (List.mem_map_of_mem List.mem_cons_self)
    (fun t ht => ?_) ?_ hentry hlistMem
  · obtain ⟨t', ht', rfl⟩ := List.mem_map.mp ht
    exact List.mem_map_of_mem (List.mem_cons_of_mem _ ht')
  · rw [bundleReassembledIsKnown, hlist]
    exact hunknown

theorem deliverLocal_gap
    (hgap : covers ((waiting.orderedInsert Arrival.Before r).map (·.bundle)) 0 = false) :
    ∃ s', s.bundleDeliverLocal env r.inputs r.addr = .ok s' ∧
      s'.knownBundleList = (r.record s.knownBundleList).2 ∧
      Gathering p whole size (waiting.orderedInsert Arrival.Before r) rest s' := by
  obtain ⟨base, hcall, hlist, hawaiting, hnext⟩ := deliverLocal_joins h hx hnew hunknown
  refine ⟨_, hcall.trans (tryReassemble_gap hawaiting (fun t ht => ?_) ?_ ?_), ?_, hnext⟩
  · obtain ⟨t', ht', rfl⟩ := List.mem_map.mp ht
    exact List.mem_map_of_mem
      (List.mem_cons.mpr ((List.mem_orderedInsert Arrival.Before).mp ht'))
  · simp [orderedInsert_ne_nil]
  · rw [covers_waiting, hgap]
  · rw [← hlist]
    unfold collecting
    split <;> rfl

theorem deliverLocal_handsOver
    (hcovers : covers ((waiting.orderedInsert Arrival.Before r).map (·.bundle)) 0 = true) :
    HandsOver env p whole (s.bundleDeliverLocal env r.inputs r.addr) := by
  obtain ⟨base, hcall, hlist, hawaiting, hnext⟩ := deliverLocal_joins h hx hnew hunknown
  obtain ⟨-, -, hadu, -⟩ := hx.memory r List.mem_cons_self
  have hdelivered : base.delivered = p.delivered := by
    rw [← hnext.delivered, delivered_collecting]
  have hdistinct := hnext.distinct
  have hsum := hnext.accounted
  rw [List.map_append] at hdistinct hsum
  rw [List.sum_append, store_collecting] at hsum
  obtain ⟨q, b, hq, hqd, hb, hresult⟩ : HandsOver env base whole _ :=
    tryReassemble_handsOver hawaiting (fun t ht => by
      obtain ⟨t', ht', rfl⟩ := List.mem_map.mp ht
      exact List.mem_map_of_mem
        (List.mem_cons.mpr ((List.mem_orderedInsert Arrival.Before).mp ht')))
    (by simp [orderedInsert_ne_nil]) hadu
    (by rw [List.map_map]; exact hdistinct.of_append_left)
    (by rw [List.map_map]; exact (Nat.le_add_right _ _).trans hsum)
    (by rw [covers_waiting, hcovers])
  exact ⟨q, b, hq, hqd.trans hdelivered, hb, hcall.trans hresult⟩

omit h hx hnew hunknown

/-! ## The run -/

/-- A state in which nothing was delivered is not one after the delivery. -/
theorem not_handsOver_ok (h : q.delivered = p.delivered) : ¬ HandsOver env p whole (.ok q) := by
  rintro ⟨s, b, -, hdelivered, -, hresult⟩
  have hends := (@bundleDeliverAdu_ends env s b
    { b.bundleAduInit with payload := whole.payload.val.map some }).ok hresult.symm
  rw [h, hdelivered] at hends
  have hlen := congrArg List.length hends
  simp at hlen

/-- `bundle_deliver_adu` does not read freed memory in an intact state. -/
theorem not_handsOver_useAfterFree : ¬ HandsOver env p whole (.error .useAfterFree) := by
  rintro ⟨s, b, hs, -, -, hresult⟩
  have hends := hresult ▸ bundleDeliverAdu_stops hs b
    { b.bundleAduInit with payload := whole.payload.val.map some }
  exact absurd hends (by simp [Ends, Fault.Stops])

/-- The arrivals among those that wait already. -/
def joined (waiting arrivals : List Arrival) : List Arrival :=
  arrivals.foldl (fun l r => l.orderedInsert Arrival.Before r) waiting

theorem deliverAll_cons {result : Except Fault BundleProcessor}
    (h : s.bundleDeliverLocal env r.inputs r.addr = result) :
    deliverAll env s (r :: rest) = result >>= fun s => deliverAll env s rest := by
  rw [deliverAll, List.foldlM_cons, h]
  rfl

/-- The arrivals that are left, when there was a gap after each of them but the last. -/
theorem deliverAll_iff (h : Gathering p whole size waiting rest s)
    (hx : Expected env whole size rest) (hgap : covers (waiting.map (·.bundle)) 0 = false)
    (hneeded : ∀ n < rest.length, 0 < n →
      covers ((joined waiting (admitted s.knownBundleList (rest.take n))).map (·.bundle)) 0 =
        false) :
    HandsOver env p whole (deliverAll env s rest) ↔ unclaimed s.knownBundleList rest = true ∧
      covers ((joined waiting (admitted s.knownBundleList rest)).map (·.bundle)) 0 = true := by
  induction rest generalizing waiting s with
  | nil =>
    refine iff_of_false (not_handsOver_ok h.delivered) fun hcovers => ?_
    rw [show joined waiting (admitted s.knownBundleList []) = waiting from rfl, hgap] at hcovers
    exact Bool.false_ne_true hcovers.2
  | cons r rest ih =>
    have hfrag := hx.fragments r List.mem_cons_self
    by_cases hknown : (r.record s.knownBundleList).1 = true
    · obtain ⟨s', hcall, hlist, hnext⟩ :=
        deliverLocal_dropped h hfrag (hx.constraints r List.mem_cons_self) hknown
      have hadmitted : ∀ l, admitted s.knownBundleList (r :: l) = admitted s'.knownBundleList l :=
        fun l => by rw [admitted, if_pos hknown, hlist]
      rw [deliverAll_cons hcall, ok_bind, unclaimed, hknown, Bool.true_or, Bool.true_and,
        hadmitted, ← hlist]
      refine ih hnext hx.tail hgap fun n hn _ => ?_
      have hlater := hneeded (n + 1) (Nat.succ_lt_succ hn) (Nat.succ_pos n)
      rwa [List.take_succ_cons, hadmitted] at hlater
    have hnew : (r.record s.knownBundleList).1 = false := by simpa using hknown
    have hadmitted : ∀ l, joined waiting (admitted s.knownBundleList (r :: l)) =
        joined (waiting.orderedInsert Arrival.Before r)
          (admitted (r.record s.knownBundleList).2 l) := fun l => by
      rw [admitted, if_neg hknown]
      rfl
    rw [hadmitted, unclaimed, hnew, Bool.false_or]
    by_cases hclaimed : reassembledSearch r.bundle.isReassembledAs
        (r.bundle.bundleGetExpirationTime r.inputs.reassembledTime)
        (r.record s.knownBundleList).2 = true
    · rw [deliverAll_cons (deliverLocal_claimed h hx hnew hclaimed), error_bind, hclaimed]
      exact iff_of_false not_handsOver_useAfterFree (by simp)
    have hunknown := Bool.eq_false_of_not_eq_true hclaimed
    rw [hunknown, Bool.not_false, Bool.true_and]
    by_cases hcovers :
        covers ((waiting.orderedInsert Arrival.Before r).map (·.bundle)) 0 = true
    · -- the fragments are complete, so this was the last arrival
      cases rest with
      | nil =>
        rw [deliverAll_cons rfl]
        refine iff_of_true ?_ ⟨rfl, hcovers⟩
        rw [show (fun s => deliverAll env s []) = pure from rfl, bind_pure]
        exact deliverLocal_handsOver h hx hnew hunknown hcovers
      | cons t rest =>
        have hlater := hneeded 1 (by simp) Nat.one_pos
        rw [List.take_succ_cons, List.take_zero, hadmitted] at hlater
        exact absurd (hcovers.symm.trans hlater) (by simp)
    · have hstill := Bool.eq_false_of_not_eq_true hcovers
      obtain ⟨s', hcall, hlist, hnext⟩ := deliverLocal_gap h hx hnew hunknown hstill
      rw [deliverAll_cons hcall, ok_bind, ← hlist]
      refine ih hnext hx.tail hstill fun n hn _ => ?_
      have hlater := hneeded (n + 1) (Nat.succ_lt_succ hn) (Nat.succ_pos n)
      rwa [List.take_succ_cons, hadmitted, ← hlist] at hlater

/-- No arrival before the last one made the fragments complete. -/
def Needed (whole : Bundle) (arrivals : List Arrival) : Prop :=
  ∀ n < arrivals.length, 0 < n → ¬ Covering whole ((arrivals.take n).map (·.bundle))

instance (whole : Bundle) (arrivals : List Arrival) : Decidable (Needed whole arrivals) :=
  inferInstanceAs (Decidable (∀ n < arrivals.length, 0 < n →
    ¬ Covering whole ((arrivals.take n).map (·.bundle))))

theorem fragmentOf_admitted {known : List KnownBundle}
    (hfrag : ∀ r ∈ arrivals, whole.FragmentOf r.bundle) :
    ∀ b ∈ fragmentsInOrder (admitted known arrivals), whole.FragmentOf b := by
  intro b hb
  obtain ⟨r, hr, rfl⟩ := List.mem_map.mp hb
  exact hfrag r (mem_of_admitted ((perm_inOrder _).mem_iff.mp hr))

/-- Fragments that are not complete have a gap, whichever of them are dropped. -/
theorem covers_of_not_covering {known : List KnownBundle}
    (hfrag : ∀ r ∈ arrivals, whole.FragmentOf r.bundle)
    (h : ¬ Covering whole (arrivals.map (·.bundle))) :
    covers (fragmentsInOrder (admitted known arrivals)) 0 = false := by
  refine Bool.eq_false_of_not_eq_true fun hcovers => h fun i hi => ?_
  obtain ⟨b, hb, hle, hlt⟩ :=
    covered_of_covers (fragmentOf_admitted hfrag) hcovers i (Nat.zero_le i) hi
  obtain ⟨r, hr, rfl⟩ := List.mem_map.mp hb
  exact ⟨r.bundle, List.mem_map_of_mem (mem_of_admitted ((perm_inOrder _).mem_iff.mp hr)), hle,
    hlt⟩

/-- When the last fragment that is needed has been delivered locally, the payload of the
original is handed over just if none of the fragments finds the original in the list of known
bundles, and those that are not dropped have no gap between neighbours in the order of the
offsets. -/
theorem reassembly_iff (env : Env) (p : BundleProcessor) (whole : Bundle) (size : Nat)
    (arrivals : List Arrival) (h : Gathering p whole size [] arrivals p)
    (hx : Expected env whole size arrivals) (hneeded : Needed whole arrivals) :
    HandsOver env p whole (deliverAll env p arrivals) ↔
      unclaimed p.knownBundleList arrivals = true ∧
        Gapless whole (fragmentsInOrder (admitted p.knownBundleList arrivals)) 0 := by
  rw [deliverAll_iff h hx rfl fun n hn hpos => ?_,
    ← covers_iff_gapless (fragmentOf_admitted hx.fragments)]
  · rfl
  · exact covers_of_not_covering (fun r hr => hx.fragments r (List.mem_of_mem_take hr))
      (hneeded n hn hpos)

end BundleProcessor

/-! ## Two halves, and a fragment within another -/

/-- The fragments are in the store, and nothing else. -/
def BundleProcessor.storingAll (arrivals : List Arrival) : BundleProcessor :=
  { BundleProcessor.initial with
    cells := fun a => match arrivals.find? (·.addr = a) with
      | some r => .live r.bundle
      | none => .unused
    store := ⟨fun id => (arrivals.find? (·.bundle.id = id)).map (·.addr),
      arrivals.length + 1, (arrivals.map (·.bundle.payload.val.length)).sum⟩ }

theorem find?_of_distinct {α β : Type} [DecidableEq β] {f : α → β} {l : List α}
    (h : (l.map f).Nodup) {x : α} (hx : x ∈ l) :
    l.find? (f · = f x) = some x := by
  cases hfind : l.find? (f · = f x) with
  | none => simpa using List.find?_eq_none.mp hfind x hx
  | some y =>
    have hy : f y = f x := by simpa using List.find?_some hfind
    rw [List.inj_on_of_nodup_map h (List.mem_of_find?_eq_some hfind) hx hy]

/-- Fragments with ids and addresses of their own, of which the node stores nothing else. -/
theorem BundleProcessor.gathering_storingAll {whole : Bundle} {arrivals : List Arrival}
    (haddr : (arrivals.map (·.addr)).Nodup) (hid : (arrivals.map (·.bundle.id)).Nodup)
    (hvalid : ∀ r ∈ arrivals, r.bundle.id ≠ bundleInvalidId)
    (hbounded : (arrivals.map (·.bundle.payload.val.length)).sum < 2 ^ 32)
    (hnextId : arrivals.length + 1 < idCount)
    (hroom : (BundleProcessor.storingAll arrivals).store.Room arrivals.length)
    (hunused : ∀ r ∈ arrivals, ∀ k c, (r.inputs.reports k).bundleMem = some c →
      c ∉ arrivals.map (·.addr)) :
    Gathering (.storingAll arrivals) whole 0 [] arrivals (.storingAll arrivals) := by
  have hlive : ∀ r ∈ arrivals,
      (BundleProcessor.storingAll arrivals).cells r.addr = .live r.bundle := by
    intro r hr
    unfold BundleProcessor.storingAll
    dsimp only
    rw [find?_of_distinct haddr hr]
  have hstored : ∀ r ∈ arrivals,
      (BundleProcessor.storingAll arrivals).store.bundles r.bundle.id = some r.addr := by
    intro r hr
    unfold BundleProcessor.storingAll
    dsimp only
    rw [find?_of_distinct hid hr]
    rfl
  exact {
    coherent := by
      refine ⟨⟨fun id a ha => ?_, fun a b hb _ => ?_⟩, fun c hc => absurd hc (by
        simp [BundleProcessor.accepted, BundleProcessor.storingAll, BundleProcessor.initial])⟩
      · obtain ⟨r, hfind, rfl⟩ := Option.map_eq_some_iff.mp ha
        have hr := List.mem_of_find?_eq_some hfind
        have hsame : r.bundle.id = id := by simpa using List.find?_some hfind
        exact ⟨hsame ▸ hvalid r hr, r.bundle, hlive r hr, hsame⟩
      · unfold BundleProcessor.storingAll at hb
        dsimp only at hb
        split at hb
        · rename_i r hfind
          have hr := List.mem_of_find?_eq_some hfind
          have hsame : r.addr = a := by simpa using List.find?_some hfind
          rw [← Cell.live.inj hb, hstored r hr, hsame]
        · cases hb
    lists := rfl
    others := fun l hl => absurd hl List.not_mem_nil
    distinct := haddr
    parts := fun r hr => absurd hr List.not_mem_nil
    waits := fun r hr => absurd hr List.not_mem_nil
    comes := hlive
    delivered := rfl
    accounted := Nat.le_refl _
    bounded := by simpa [BundleProcessor.storingAll] using hbounded
    nextId := hnextId
    room := hroom
    unused := fun r hr k c hc => by
      have hnone : arrivals.find? (·.addr = c) = none := by
        refine List.find?_eq_none.mpr fun t ht => ?_
        rw [decide_eq_true_eq]
        exact fun heq => hunused r hr k c hc (heq ▸ List.mem_map_of_mem ht)
      unfold BundleProcessor.storingAll
      dsimp only
      rw [hnone] }

/-- An original bundle with this payload. -/
def original (payload : Payload) : Bundle := plainFragment 0 0 0 payload

/-- The arrival of a fragment, under the address that is its id; a report would be at an
address of its own. -/
def arrivalOf (id : Nat) (offset totalAduLength : UInt32) (payload : Payload) : Arrival where
  inputs := { plainInputs 1002 with
    reports := fun _ => { (plainInputs 1002).reports 0 with
      bundleMem := some (UInt64.ofNat (1000 + id)) } }
  addr := UInt64.ofNat id
  bundle := { plainFragment id offset totalAduLength payload with
    retConstraints := RetConstraints.none.addDispatchPending }

/-- What is the same for all these arrivals. -/
theorem expected_of_arrivalOf {whole : Bundle} {arrivals : List Arrival}
    (hof : ∀ r ∈ arrivals, ∃ id offset total payload, r = arrivalOf id offset total payload)
    (hfrag : ∀ r ∈ arrivals, whole.FragmentOf r.bundle)
    (haddr : (arrivals.map (·.addr)).Nodup)
    (honce : (arrivals.map fun r => (r.inputs.reports 0).bundleMem).Nodup) :
    Expected plainEnv whole 0 arrivals where
  fragments := hfrag
  flagged r hr := by
    obtain ⟨id, offset, total, payload, rfl⟩ := hof r hr
    show hasFlag ProcFlag.isFragment ProcFlag.isFragment = true
    decide
  deliverable r hr := by
    obtain ⟨id, offset, total, payload, rfl⟩ := hof r hr
    exact .inr rfl
  constraints r hr := by
    obtain ⟨id, offset, total, payload, rfl⟩ := hof r hr
    rfl
  distinct := haddr
  memory r hr := by
    obtain ⟨id, offset, total, payload, rfl⟩ := hof r hr
    exact ⟨rfl, rfl, rfl, fun _ => rfl⟩
  colons r hr := by
    obtain ⟨id, offset, total, payload, rfl⟩ := hof r hr
    exact ⟨by decide, show ':' ∈ dtnNone by decide⟩
  once := by
    refine (List.pairwise_map.mp honce).imp_of_mem fun {r t} hr ht hne j k c hj hk => hne ?_
    obtain ⟨id, offset, total, payload, rfl⟩ := hof r hr
    obtain ⟨id', offset', total', payload', rfl⟩ := hof t ht
    exact hj.trans hk.symm
  size b status reason time payload h := by cases h

/-- The second half of an ADU of four bytes arrives first, and twice. -/
def halvesReversed : List Arrival :=
  [arrivalOf 1 2 4 ⟨[3, 4], length_threeFour⟩, arrivalOf 2 2 4 ⟨[3, 4], length_threeFour⟩,
    arrivalOf 3 0 4 ⟨[1, 2], length_oneTwo⟩]

theorem fragmentOf_halvesReversed :
    ∀ r ∈ halvesReversed, (original ⟨[1, 2, 3, 4], by decide⟩).FragmentOf r.bundle := by
  intro r hr
  simp only [halvesReversed, List.mem_cons, List.not_mem_nil, or_false] at hr
  rcases hr with rfl | rfl | rfl
  · exact ⟨by decide, by decide, by decide, by decide⟩
  · exact ⟨by decide, by decide, by decide, by decide⟩
  · exact ⟨by decide, by decide, by decide, by decide⟩

theorem expected_halvesReversed :
    Expected plainEnv (original ⟨[1, 2, 3, 4], by decide⟩) 0 halvesReversed := by
  refine expected_of_arrivalOf (fun r hr => ?_) fragmentOf_halvesReversed (by decide) (by decide)
  simp only [halvesReversed, List.mem_cons, List.not_mem_nil, or_false] at hr
  rcases hr with rfl | rfl | rfl
  all_goals exact ⟨_, _, _, _, rfl⟩

theorem gathering_halvesReversed :
    BundleProcessor.Gathering (.storingAll halvesReversed) (original ⟨[1, 2, 3, 4], by decide⟩) 0
      [] halvesReversed (.storingAll halvesReversed) := by
  refine BundleProcessor.gathering_storingAll (by decide) (by decide) (by decide) (by decide)
    (by decide) ⟨[10, 11, 12], by decide, rfl, by decide⟩ fun r hr k c hc => ?_
  simp only [halvesReversed, List.mem_cons, List.not_mem_nil, or_false] at hr
  rcases hr with rfl | rfl | rfl
  all_goals
    obtain rfl := Option.some.inj hc
    decide

theorem reassembly_iff_halves :
    BundleProcessor.HandsOver plainEnv (.storingAll halvesReversed)
      (original ⟨[1, 2, 3, 4], by decide⟩)
      (BundleProcessor.deliverAll plainEnv (.storingAll halvesReversed) halvesReversed) :=
  (BundleProcessor.reassembly_iff plainEnv _ _ 0 _ gathering_halvesReversed
    expected_halvesReversed (by decide)).mpr ⟨by decide,
      (covers_iff_gapless (BundleProcessor.fragmentOf_admitted fragmentOf_halvesReversed)).mp
        (by decide)⟩

/-- Three fragments of an ADU of six bytes, the second within the first. -/
def nested : List Arrival :=
  [arrivalOf 1 0 6 ⟨[1, 2, 3, 4], by decide⟩, arrivalOf 2 1 6 ⟨[2], by decide⟩,
    arrivalOf 3 3 6 ⟨[4, 5, 6], by decide⟩]

theorem expected_nested :
    Expected plainEnv (original ⟨[1, 2, 3, 4, 5, 6], by decide⟩) 0 nested := by
  refine expected_of_arrivalOf (fun r hr => ?_) (fun r hr => ?_) (by decide) (by decide)
  · simp only [nested, List.mem_cons, List.not_mem_nil, or_false] at hr
    rcases hr with rfl | rfl | rfl
    all_goals exact ⟨_, _, _, _, rfl⟩
  · simp only [nested, List.mem_cons, List.not_mem_nil, or_false] at hr
    rcases hr with rfl | rfl | rfl
    · exact ⟨by decide, by decide, by decide, by decide⟩
    · exact ⟨by decide, by decide, by decide, by decide⟩
    · exact ⟨by decide, by decide, by decide, by decide⟩

theorem gathering_nested :
    BundleProcessor.Gathering (.storingAll nested) (original ⟨[1, 2, 3, 4, 5, 6], by decide⟩) 0
      [] nested (.storingAll nested) := by
  refine BundleProcessor.gathering_storingAll (by decide) (by decide) (by decide) (by decide)
    (by decide) ⟨[10, 11, 12], by decide, rfl, by decide⟩ fun r hr k c hc => ?_
  simp only [nested, List.mem_cons, List.not_mem_nil, or_false] at hr
  rcases hr with rfl | rfl | rfl
  all_goals
    obtain rfl := Option.some.inj hc
    decide

/-- The three are complete, no two are the same, and nothing is delivered. -/
theorem nested_not_delivered :
    Expected plainEnv (original ⟨[1, 2, 3, 4, 5, 6], by decide⟩) 0 nested ∧
      BundleProcessor.Gathering (.storingAll nested) (original ⟨[1, 2, 3, 4, 5, 6], by decide⟩)
        0 [] nested (.storingAll nested) ∧
      Covering (original ⟨[1, 2, 3, 4, 5, 6], by decide⟩) (nested.map (·.bundle)) ∧
      (∃ q, BundleProcessor.deliverAll plainEnv (.storingAll nested) nested = .ok q ∧
        q.delivered = []) ∧
      ¬ BundleProcessor.HandsOver plainEnv (.storingAll nested)
        (original ⟨[1, 2, 3, 4, 5, 6], by decide⟩)
        (BundleProcessor.deliverAll plainEnv (.storingAll nested) nested) := by
  have hrun : ∃ q, BundleProcessor.deliverAll plainEnv (.storingAll nested) nested = .ok q ∧
      q.delivered = [] := ⟨_, rfl, rfl⟩
  refine ⟨expected_nested, gathering_nested, by decide, hrun, ?_⟩
  obtain ⟨q, hq, hdelivered⟩ := hrun
  rw [hq]
  exact BundleProcessor.not_handsOver_ok hdelivered

end Upcn
