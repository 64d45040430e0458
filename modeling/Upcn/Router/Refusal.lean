import Upcn.Processor.Notices
import Upcn.Router.Task

/-!
# A bundle without a route

What `process_bundle` does when `router_get_first_route` returns no fragments.

`routeBundle_refused_iff`: the bundle is left as it is, and the notices that it asks for are sent
before it is removed, just if its copy cannot be made and the notices are possible.  Otherwise
`apply_fragmentation` removes it first, or a notice is left out.
-/

namespace Upcn

open Outcome Store
open BundleProcessor (Noticed NoticesPossible FreshReports)

namespace RouterTask

variable {σ : Type} (r : Routing σ) (m : FragmentMemory)

/-- The bundle at `a` is left as it is and refused: the bundle processor gets one signal, which
makes it run `bundle_forwarding_failed` on the bundle.  This sends the notices that the bundle asks
for, and removes the bundle then (`bundleForwardingFailed_eq`). -/
def Refused (env : Env) (o : Inputs) (t : RouterTask σ) (id : Nat) (a : Addr) (b : Bundle) :
    Prop :=
  ∃ t' reason, t.routeBundle r m id = .ok t' ∧
    t'.processor.cells a = .live b ∧ t'.processor.store = t.processor.store ∧
    t'.signals = t.signals ++ [⟨.forwardingContraindicated, reason, id⟩] ∧
    (t'.processor.handleSignal env o ⟨.forwardingContraindicated, reason, id⟩ =
      { t'.processor with reports := 0 }.bundleForwardingFailed env o a reason) ∧
    ∃ q, { t'.processor with reports := 0 }.sendNotices env o a reason = .ok q ∧
      Noticed env b reason { t'.processor with reports := 0 } q

variable {r m} {p : BundleProcessor} {t : RouterTask σ} {a : Addr} {b : Bundle} {id : Nat}

theorem initializeFirstFragment_copies (h : p.cells a = .live b)
    (hfresh : ∀ c, m.bundleMem = some c → p.cells c = .unused)
    (hcopies : m.copies b = true) :
    ∃ c, c ≠ a ∧ p.initializeFirstFragment m a =
      .ok (some c, p.setCell c (.live (BundleProcessor.createNewFragment b))) := by
  simp only [FragmentMemory.copies, Bool.and_eq_true, decide_eq_true_eq] at hcopies
  obtain ⟨⟨⟨hsome, hblocks⟩, hpayload⟩, hversion⟩ := hcopies
  obtain ⟨c, hc⟩ := Option.isSome_iff_exists.mp hsome
  have hunused := hfresh c hc
  have hne : c ≠ a := by
    rintro rfl
    rw [h] at hunused
    cases hunused
  refine ⟨c, hne, ?_⟩
  rw [BundleProcessor.initializeFirstFragment, BundleProcessor.load_of_live h,
    Outcome.ok_bind, hc]
  simp only [BundleProcessor.allocate, hunused, Outcome.ok_bind, hblocks, hpayload,
    hversion, decide_true, Bool.and_self, if_true]
  rfl

/-- When it returns `NULL`, nothing but its own bundle has changed. -/
theorem initializeFirstFragment_fails (h : p.cells a = .live b)
    (hfresh : ∀ c, m.bundleMem = some c → p.cells c = .unused)
    (hcopies : m.copies b = false) :
    ∃ cells, p.initializeFirstFragment m a = .ok (none, { p with cells := cells }) ∧
      cells a = .live b ∧ ∀ c, m.bundleMem ≠ some c → cells c = p.cells c := by
  rw [BundleProcessor.initializeFirstFragment, BundleProcessor.load_of_live h,
    Outcome.ok_bind]
  cases hmem : m.bundleMem with
  | none => exact ⟨p.cells, rfl, h, fun _ _ => rfl⟩
  | some c =>
    have hunused := hfresh c hmem
    have hne : a ≠ c := by
      rintro rfl
      rw [h] at hunused
      cases hunused
    have hother : ∀ {c'} {x : Cell}, some c ≠ some c' →
        Function.update p.cells c x c' = p.cells c' := fun hc' =>
      Function.update_of_ne (fun heq => hc' (by rw [heq])) _ _
    simp only [BundleProcessor.allocate, hunused, Outcome.ok_bind]
    split
    · rename_i hfound
      split
      · rename_i hversion
        rw [Bool.and_eq_true] at hfound
        simp [FragmentMemory.copies, hmem, hfound, hversion] at hcopies
      · refine ⟨_, rfl, ?_, fun c' hc' => hother hc'⟩
        rw [Function.update_of_ne hne, h]
    · rw [BundleProcessor.bundleFree,
        BundleProcessor.load_of_live (BundleProcessor.cells_setCell_self _),
        Outcome.ok_bind, BundleProcessor.setCell_setCell]
      refine ⟨_, rfl, ?_, fun c' hc' => hother hc'⟩
      rw [Function.update_of_ne hne, h]

/-- Without fragments, `apply_fragmentation` goes on to the removal of the
bundle. -/
theorem applyFragmentation_zero {route : RouterResult} (h : t.processor.cells a = .live b)
    (hroute : route.fragments = 0) {c : Addr} {q : BundleProcessor}
    (hfirst : t.processor.initializeFirstFragment m a = .ok (some c, q)) :
    t.applyFragmentation r m a route = (do
      let q ← q.bundleStorageDelete b.id
      let q ← q.bundleFree a
      return (⟨.fragments 0, []⟩, { t with processor := q })) := by
  rw [applyFragmentation, BundleProcessor.load_of_live h, Outcome.ok_bind, hfirst,
    Outcome.ok_bind, hroute]
  rfl

/-- After the removal nothing is stored under the id. -/
theorem bundleStorageDelete_gone {q q' : BundleProcessor}
    (h : q.bundleStorageDelete id = .ok q') : q'.store.bundles id = none := by
  unfold BundleProcessor.bundleStorageDelete at h
  split at h
  · rename_i hnone
    obtain rfl := Except.ok.inj h
    exact hnone
  · rename_i c hc
    obtain ⟨e, -, h⟩ := Outcome.bind_eq_ok h
    obtain ⟨⟨found, store⟩, hstore, h⟩ := Outcome.bind_eq_ok h
    obtain rfl := Except.ok.inj h
    have hdel : q.store.bundles id = some c := hc
    simp only [Store.BundleStore.bundleStorageDelete, hdel] at hstore
    split at hstore
    · cases hstore
    · obtain ⟨-, rfl⟩ := Prod.mk.inj (Except.ok.inj hstore)
      exact Function.update_self ..

theorem routeBundle_zero (hstored : t.processor.bundleStorageGet b.id = some a)
    (h : t.processor.cells a = .live b)
    (hroute : (r.getFirstRoute t.routing b).fragments = 0) :
    t.routeBundle r m b.id = (do
      let (result, t) ← t.applyFragmentation r m a (r.getFirstRoute t.routing b)
      return t.informProcessor b.id result) := by
  have hprocess : t.processBundle r m a =
      t.applyFragmentation r m a (r.getFirstRoute t.routing b) := by
    rw [processBundle, BundleProcessor.load_of_live h, Outcome.ok_bind]
    exact if_neg (by simp [hroute])
  rw [routeBundle, hstored, ← hprocess]

/-- With a copy, `apply_fragmentation` removes the bundle. -/
theorem not_stored_of_copies (hstored : t.processor.bundleStorageGet b.id = some a)
    (h : t.processor.cells a = .live b)
    (hroute : (r.getFirstRoute t.routing b).fragments = 0)
    (hfresh : ∀ c, m.bundleMem = some c → t.processor.cells c = .unused)
    (hcopies : m.copies b = true) {t' : RouterTask σ} (hok : t.routeBundle r m b.id = .ok t') :
    t'.processor.store ≠ t.processor.store := by
  intro hstore
  rw [routeBundle_zero hstored h hroute] at hok
  obtain ⟨c, -, hfirst⟩ := initializeFirstFragment_copies h hfresh hcopies
  rw [applyFragmentation_zero h hroute hfirst] at hok
  obtain ⟨⟨result, t₁⟩, hremoved, hok⟩ := Outcome.bind_eq_ok hok
  obtain rfl := Except.ok.inj hok
  obtain ⟨q₁, hdelete, hremoved⟩ := Outcome.bind_eq_ok hremoved
  obtain ⟨q₂, hfree, hremoved⟩ := Outcome.bind_eq_ok hremoved
  obtain ⟨rfl, rfl⟩ := Prod.mk.inj (Except.ok.inj hremoved)
  obtain ⟨e, -, hfree⟩ := Outcome.bind_eq_ok hfree
  obtain rfl := Except.ok.inj hfree
  have hsame : q₁.store = t.processor.store := hstore
  have hthere : t.processor.store.bundles b.id = some a := hstored
  rw [← hsame, bundleStorageDelete_gone hdelete] at hthere
  cases hthere

/-- A bundle for which the router returns no fragments is refused if and only if its copy cannot be
made, and the notices that it asks for can. -/
theorem routeBundle_refused_iff (env : Env) (o : Inputs)
    (hstored : t.processor.bundleStorageGet b.id = some a)
    (h : t.processor.cells a = .live b)
    (hroute : (r.getFirstRoute t.routing b).fragments = 0)
    (hfresh : ∀ c, m.bundleMem = some c → t.processor.cells c = .unused)
    (hreports : FreshReports o t.processor)
    (honce : ∀ k c, (o.reports k).bundleMem = some c → m.bundleMem ≠ some c)
    (hnext : t.processor.store.nextId < idCount) :
    Refused r m env o t b.id a b ↔
      m.copies b = false ∧
        NoticesPossible env o { t.processor with reports := 0 } a b .depletedStorage := by
  cases hcopies : m.copies b with
  | true =>
    refine iff_of_false ?_ (by simp)
    rintro ⟨t', reason, hok, -, hstore, -⟩
    exact not_stored_of_copies hstored h hroute hfresh hcopies hok hstore
  | false =>
    obtain ⟨cells, hfirst, hlive, hcells⟩ := initializeFirstFragment_fails h hfresh hcopies
    have hok : t.routeBundle r m b.id = .ok { t with
        processor := { t.processor with cells := cells }
        signals := t.signals ++ [⟨.forwardingContraindicated, .depletedStorage, b.id⟩] } := by
      rw [routeBundle_zero hstored h hroute, applyFragmentation, BundleProcessor.load_of_live h,
        Outcome.ok_bind, hfirst]
      rfl
    have hunused : FreshReports o { t.processor with cells := cells, reports := 0 } := by
      intro k c hc
      exact ⟨(hcells c (honce k c hc)).trans (hreports k c hc).1, (hreports k c hc).2⟩
    have hnotices : _ ↔ BundleProcessor.NoticesPossible env o _ a b .depletedStorage :=
      BundleProcessor.sendNotices_iff (p := { t.processor with cells := cells, reports := 0 })
        hlive hnext hunused
    constructor
    · rintro ⟨t', reason, hok', -, -, hsignals, -, hsent⟩
      obtain rfl := Except.ok.inj (hok.symm.trans hok')
      obtain rfl : StatusReportReason.depletedStorage = reason := by
        simpa using hsignals
      have hpossible := hnotices.mp hsent
      exact ⟨rfl, hpossible.refusal, hpossible.deletion, hpossible.room, hpossible.kept⟩
    · rintro ⟨-, hpossible⟩
      refine ⟨_, .depletedStorage, hok, hlive, rfl, rfl, ?_, hnotices.mpr
        ⟨hpossible.refusal, hpossible.deletion, hpossible.room, hpossible.kept⟩⟩
      have hget : ({ t.processor with cells := cells } : BundleProcessor).bundleStorageGet b.id =
          some a := hstored
      unfold BundleProcessor.handleSignal
      rw [hget]
      rfl

/-! ## A bundle that is refused, and one that is destroyed -/

/-- A router without contacts: there is no route for any bundle. -/
def noContacts : Routing Unit where
  getFirstRoute _ _ := ⟨0, fun _ => ⟨[], 0⟩⟩
  addBundleToRoute s _ _ := (false, s)
  removeBundleFromRoute s _ _ := s
  firstFragmentMinSize _ := 0
  midFragmentMinSize _ := 0
  lastFragmentMinSize _ := 0
  fragmentBundle p _ _ := .ok (none, p)

/-- A bundle for another node that waits to be forwarded.  It requests custody, and a report of its
deletion. -/
def forwardedBundle : Bundle :=
  { passingBundle 6 (ProcFlag.custodyTransferRequested ||| ProcFlag.reportDeletion) with
    retConstraints := RetConstraints.none.addForwardPending }

/-- The state in which the router task is asked to route it. -/
def toBeRouted : RouterTask Unit := ⟨.storingOne forwardedBundle, (), []⟩

/-- There is memory for two notices. -/
def noticeInputs : Inputs :=
  { plainInputs 1002 with
    reports := fun k => ⟨true, if k = 0 then some 5 else if k = 1 then some 6 else none, true, true,
      1002, 1002, 1002, 1002⟩ }

theorem freshReports_toBeRouted : FreshReports noticeInputs toBeRouted.processor := by
  have hmem : ∀ k, (noticeInputs.reports k).bundleMem =
      if k = 0 then some 5 else if k = 1 then some 6 else none := fun _ => rfl
  have hunused : toBeRouted.processor.cells 5 = .unused ∧ toBeRouted.processor.cells 6 = .unused :=
    ⟨rfl, rfl⟩
  intro k c hc
  rw [hmem] at hc
  split_ifs at hc with h0 h1
  · obtain rfl := Option.some.inj hc
    refine ⟨hunused.1, fun k' hk' => ?_⟩
    rw [hmem] at hk'
    split_ifs at hk' with h0' h1'
    · omega
    · exact absurd hk' (by decide)
  · obtain rfl := Option.some.inj hc
    refine ⟨hunused.2, fun k' hk' => ?_⟩
    rw [hmem] at hk'
    split_ifs at hk' with h0' h1'
    · exact absurd hk' (by decide)
    · omega

theorem noticesPossible_toBeRouted :
    NoticesPossible BundleProcessor.reportingEnv noticeInputs
      { toBeRouted.processor with reports := 0 } 1 forwardedBundle .depletedStorage where
  refusal _ := ⟨trivial, .inl rfl, fun _ => by decide, by decide, rfl, rfl, rfl, rfl, rfl⟩
  deletion _ := ⟨⟨rfl, by decide⟩, .inl rfl, fun _ => by decide, by decide, rfl, rfl, rfl, rfl, rfl⟩
  room := ⟨[2, 3], by decide, rfl, by decide⟩
  kept hheld := by cases hheld

/-- No memory is left for the copy. -/
theorem routeBundle_refused_iff_full :
    Refused noContacts ⟨none, true, fun _ => true⟩ BundleProcessor.reportingEnv noticeInputs
      toBeRouted 1 1 forwardedBundle :=
  (routeBundle_refused_iff (b := forwardedBundle) BundleProcessor.reportingEnv noticeInputs rfl rfl
    rfl (fun _ hc => by cases hc) freshReports_toBeRouted (fun _ _ _ hc => by cases hc)
    (by decide)).mpr ⟨rfl, noticesPossible_toBeRouted⟩

/-- The bundle is gone when the bundle processor is told that it could not be
routed. -/
theorem forwardedBundle_destroyed :
    ¬ Refused noContacts ⟨some 2, true, fun _ => true⟩ BundleProcessor.reportingEnv noticeInputs
        toBeRouted 1 1 forwardedBundle ∧
      ∃ t', toBeRouted.routeBundle noContacts ⟨some 2, true, fun _ => true⟩ 1 = .ok t' ∧
        t'.signals = [⟨.forwardingContraindicated, .noKnownRoute, 1⟩] ∧
        t'.processor.cells 1 = .freed ∧ t'.processor.bundleStorageGet 1 = none ∧
        t'.processor.handleSignal BundleProcessor.reportingEnv noticeInputs
          ⟨.forwardingContraindicated, .noKnownRoute, 1⟩ = .ok t'.processor := by
  constructor
  · rintro ⟨t', reason, hok, hlive, -⟩
    obtain rfl := Except.ok.inj hok
    cases hlive
  · exact ⟨_, rfl, rfl, rfl, rfl, rfl⟩

end RouterTask

end Upcn
