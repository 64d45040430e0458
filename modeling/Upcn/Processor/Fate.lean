import Mathlib.Data.List.Find
import Upcn.Processor.Effects

/-!
# What becomes of a received bundle

`bundle_receive` and `bundle_dispatch` have many exits.  `Fate` lists them,
and `receiveCourse` and `dispatchCourse` say which one is taken, from the
state before the call, the bundle and the inputs alone.

`bundleDispatch_follows` and `bundleReceive_follows` connect the two to the
code: up to reports, the handler has changed nothing but the bundle and the
list of known bundles when it comes to the exit, and then it does what
`Fate.finish` says.
-/

namespace Upcn

open Outcome Store

/-- The exits of `bundle_receive` and `bundle_dispatch`. -/
inductive Fate where
  /-- The lifetime is over. -/
  | expired
  /-- A block that is not understood asks for the deletion. -/
  | unintelligible
  /-- Custody is requested for a bundle that is in custody already. -/
  | redundant
  /-- Custody is requested and the bundle cannot be stored. -/
  | refused
  /-- Custody is requested and could be accepted. -/
  | custodyPossible
  /-- The hop limit is reached. -/
  | hopLimit
  | forwarded
  /-- The bundle is in the list of known bundles. -/
  | duplicate
  /-- The destination names no agent. -/
  | noAgent
  /-- A fragment of an original that was reassembled. -/
  | alreadyReassembled
  | fragment
  /-- A bundle that is not a fragment, to be delivered. -/
  | whole
  deriving DecidableEq, Repr

namespace BundleProcessor

variable (env : Env) (o : Inputs)

/-! ## Which exit is taken -/

/-- The bundle at `c` passes the test of `find`. -/
def passes (p : BundleProcessor) (test : Bundle → Bool) (c : Addr) : Bool :=
  match p.cells c with
  | .live b => test b
  | _ => false

/-- The entry that `find` returns. -/
def entryFound (p : BundleProcessor) (test : Bundle → Bool) : Option Addr :=
  p.accepted.find? (p.passes test)

/-- A bundle like `b` is in custody. -/
def redundant (p : BundleProcessor) (b : Bundle) : Bool :=
  (p.entryFound fun e => e.matchesRecord b.creationTimestamp b.sequenceNumber
    b.source b.fragmentOffset b.payloadLength).isSome

/-- Custody of the bundle `b` at `a` can be accepted. -/
def acceptable (p : BundleProcessor) (a : Addr) (b : Bundle) : Bool :=
  !(decide (custodyMaxBundleCount ≤ p.acceptedBundleCount) ||
    (p.getIndex a).isSome ||
    decide (custodyMaxBundleSize < env.serializedSize b) ||
    (b.protocolVersion == 6 && !b.hasProcFlag ProcFlag.singletonEndpoint))

/-- The state after `bundle_record_add_and_check_known`. -/
def recorded (p : BundleProcessor) (b : Bundle) : BundleProcessor :=
  { p with
    knownBundleList :=
      (bundleRecordAddAndCheckKnown o b p.knownBundleList).2 }

/-- The result of `bundle_record_add_and_check_known`. -/
def known (p : BundleProcessor) (b : Bundle) : Bool :=
  (bundleRecordAddAndCheckKnown o b p.knownBundleList).1

end BundleProcessor

/-- The bundle in `bundle_deliver_local`. -/
def Bundle.dispatched (b : Bundle) : Bundle :=
  { b with retConstraints := b.retConstraints.remDispatchPending }

/-- The bundle in `bundle_attempt_reassembly`. -/
def Bundle.awaiting (b : Bundle) : Bundle :=
  { b with retConstraints := b.retConstraints.addReassemblyPending }

/-- The bundle in `bundle_receive`. -/
def Bundle.received (b : Bundle) : Bundle :=
  { b with retConstraints := b.retConstraints.addDispatchPending }

namespace BundleProcessor

variable (env : Env) (o : Inputs)

/-- The exit that `bundle_deliver_local` takes for a bundle that was not
known, and the bundle there. -/
def newCourse (p : BundleProcessor) (b : Bundle) : Fate × Bundle :=
  if !b.hasProcFlag ProcFlag.administrativeRecord &&
      (env.getAgentId b.destination).isNone then (.noAgent, b)
  else if b.hasProcFlag ProcFlag.isFragment then
    if p.bundleReassembledIsKnown o b then (.alreadyReassembled, b.awaiting)
    else (.fragment, b.awaiting)
  else (.whole, b)

/-- The exit that `bundle_dispatch` takes, and the bundle there. -/
def dispatchCourse (p : BundleProcessor) (b : Bundle) : Fate × Bundle :=
  if !env.endpointIsLocal b.destination then
    if hopLimitReached env b then (.hopLimit, b) else (.forwarded, b)
  else if p.known o b then (.duplicate, b.dispatched)
  else (p.recorded o b).newCourse env o b.dispatched

/-- The exit that `bundle_receive` takes after the blocks are handled, and
the bundle there. -/
def acceptedCourse (p : BundleProcessor) (a : Addr) (b : Bundle) :
    Fate × Bundle :=
  if b.requestsCustody then
    if p.redundant b then (.redundant, b)
    else if !p.acceptable env a b then (.refused, b)
    else (.custodyPossible, b)
  else p.dispatchCourse env o b

/-- The exit that `bundle_receive` takes, and the bundle there. -/
def receiveCourse (p : BundleProcessor) (a : Addr) (b : Bundle) :
    Fate × Bundle :=
  if b.creationTimestamp ≠ 0 ∧
      b.bundleGetExpirationTime 0 < o.receiveTime then (.expired, b.received)
  else match blocksLeft b.blocks with
    | none => (.unintelligible, b.received)
    | some blocks => p.acceptedCourse env o a { b.received with blocks := blocks }

end BundleProcessor

/-! ## What is done there -/

namespace Fate

variable (env : Env) (o : Inputs)

/-- The state in which the exit is taken, up to the bundle and reports. -/
def base (fate : Fate) (p : BundleProcessor) (b : Bundle) : BundleProcessor :=
  match fate with
  | .duplicate | .noAgent | .alreadyReassembled | .fragment | .whole =>
    p.recorded o b
  | _ => p

/-- The rest of the handler, for the bundle `b` at `a`. -/
def finish (a : Addr) (b : Bundle) :
    Fate → BundleProcessor → Except Fault BundleProcessor
  | .expired, p => p.bundleDelete env o a .lifetimeExpired
  | .unintelligible, p => p.bundleDelete env o a .blockUnintelligible
  | .redundant, p => p.bundleRemRc a .remDispatchPending true
  | .refused, p => p.bundleDelete env o a .depletedStorage
  | .custodyPossible, p => .ok p
  | .hopLimit, p => p.bundleDelete env o a .hopLimitExceeded
  | .forwarded, p => .ok ((p.setCell a (.live
      (BundleProcessor.forwarded env o b))).sendBundle b.id)
  | .duplicate, p => p.bundleDiscard a
  | .noAgent, p => p.bundleDelete env o a .destEidUnintelligible
  | .alreadyReassembled, p => do
    let p ← p.discardFragment a
    p.joinReassembly env o a
  | .fragment, p => p.joinReassembly env o a
  | .whole, p => do
    let p ← (p.setCell a (.live b.bundleToAdu.2)).bundleDiscard a
    p.bundleDeliverAdu env b b.bundleToAdu.1

end Fate

namespace BundleProcessor

variable {env : Env} {o : Inputs} {p q : BundleProcessor} {a c : Addr}
  {b : Bundle}

/-! ## Custody -/

/-- The entries of the custody list point to live bundles. -/
def CustodyLive (p : BundleProcessor) : Prop :=
  ∀ c ∈ p.accepted, ∃ b, p.cells c = .live b

theorem findEntry_of_live (test : Bundle → Bool) {entries : List Addr}
    (hl : ∀ c ∈ entries, ∃ b, p.cells c = .live b) :
    p.findEntry test entries = .ok (entries.find? (p.passes test)) := by
  induction entries with
  | nil => rfl
  | cons c rest ih =>
    obtain ⟨b, hb⟩ := hl c (by simp)
    have hrest := ih fun c hc => hl c (List.mem_cons_of_mem _ hc)
    rw [findEntry, load_of_live hb, ok_bind, hrest, List.find?_cons, passes, hb]
    cases htest : test b <;> simp [htest, pure, Except.pure]

theorem find_of_live (hl : p.CustodyLive) (creation sequence : UInt64)
    (source : Eid) (offset length : UInt32) :
    p.find creation sequence source offset length
      = .ok (p.entryFound fun e => e.matchesRecord creation sequence source
          offset length) :=
  findEntry_of_live _ hl

theorem custodyManagerHasRedundantBundle_of_live (hl : p.CustodyLive)
    (h : p.cells a = .live b) :
    p.custodyManagerHasRedundantBundle a = .ok (p.redundant b) := by
  rw [custodyManagerHasRedundantBundle, load_of_live h, ok_bind,
    find_of_live hl]
  rfl

theorem custodyManagerStorageIsAcceptable_of_live (h : p.cells a = .live b) :
    p.custodyManagerStorageIsAcceptable env a = .ok (p.acceptable env a b) := by
  rw [custodyManagerStorageIsAcceptable, load_of_live h]
  rfl

theorem CustodyLive.grows (hl : p.CustodyLive) (h : Grows p q) :
    q.CustodyLive := by
  intro c hc
  rw [h.accepted] at hc
  obtain ⟨b, hb⟩ := hl c hc
  exact ⟨b, h.live hb⟩

theorem CustodyLive.setCell (hl : p.CustodyLive) (b : Bundle) :
    (p.setCell a (.live b)).CustodyLive := by
  intro c hc
  by_cases hca : c = a
  · exact ⟨b, by rw [hca, cells_setCell_self]⟩
  · rw [cells_setCell_of_ne hca]
    exact hl c hc

/-- A bundle with the same header passes the same tests. -/
theorem redundant_keeps (hl : p.CustodyLive) (h : p.cells a = .live b)
    {r : RetConstraints} {blocks : List BlockEntry} {b' : Bundle}
    (hb' : b' = { b with retConstraints := r, blocks := blocks })
    (hk : p.Keeps a b' q) : q.redundant b' = p.redundant b' := by
  unfold redundant entryFound
  rw [hk.accepted]
  refine congrArg _ (List.find?_congr fun c hc => ?_)
  by_cases hca : c = a
  · subst hca
    rw [passes, passes, hk.live, h, hb']
    rfl
  · obtain ⟨e, he⟩ := hl c hc
    have he' : (p.setCell a (.live b')).cells c = .live e := by
      rw [cells_setCell_of_ne hca, he]
    rw [passes, passes, he, Grows.live hk he']

theorem acceptable_keeps {b' : Bundle} (hk : p.Keeps a b' q) (b : Bundle) :
    q.acceptable env a b = p.acceptable env a b := by
  rw [acceptable, acceptable, hk.acceptedBundleCount, getIndex, getIndex,
    hk.accepted]

/-! ## Local delivery -/

/-- The list of known bundles does not depend on the retention constraints
and the blocks of the bundle that is looked up. -/
theorem bundleRecordAddAndCheckKnown_header (r : RetConstraints)
    (blocks : List BlockEntry) (list : List KnownBundle) :
    bundleRecordAddAndCheckKnown o { b with retConstraints := r, blocks := blocks } list
      = bundleRecordAddAndCheckKnown o b list := by
  have htime : Bundle.bundleGetExpirationTime
      { b with retConstraints := r, blocks := blocks } o.deadlineTime
      = b.bundleGetExpirationTime o.deadlineTime := by
    simp only [Bundle.bundleGetExpirationTime]
  have hequal : Bundle.bundleIsEqual
      { b with retConstraints := r, blocks := blocks } = b.bundleIsEqual := by
    funext id
    simp only [Bundle.bundleIsEqual, Bundle.bundleIsEqualParent,
      Bundle.payloadLength]
  have hid : Bundle.bundleGetUniqueIdentifier
      { b with retConstraints := r, blocks := blocks }
      = b.bundleGetUniqueIdentifier := by
    simp only [Bundle.bundleGetUniqueIdentifier, Bundle.payloadLength]
  rw [bundleRecordAddAndCheckKnown, bundleRecordAddAndCheckKnown, htime, hequal, hid]

@[simp] theorem cells_recorded : (p.recorded o b).cells = p.cells := by
  rw [recorded]

theorem recorded_setCell (c : Cell) :
    (p.setCell a c).recorded o b = (p.recorded o b).setCell a c := by
  unfold recorded
  rw [knownBundleList_setCell]
  generalize (bundleRecordAddAndCheckKnown o b p.knownBundleList).2 = list
  rfl

theorem known_setCell (c : Cell) :
    (p.setCell a c).known o b = p.known o b := by
  rw [known, known, knownBundleList_setCell]

theorem bundleReassembledIsKnown_keeps {p' : BundleProcessor} {b' : Bundle}
    (hk : p'.Keeps a b' q) (b : Bundle) :
    q.bundleReassembledIsKnown o b = p'.bundleReassembledIsKnown o b := by
  rw [bundleReassembledIsKnown, bundleReassembledIsKnown, hk.knownBundleList]

theorem deliverNew_follows {p' : BundleProcessor} (hk : p'.Keeps a b q) :
    Continues Fault.ReportFails (q.deliverNew env o a)
      (p'.Keeps a (p'.newCourse env o b).2)
      ((p'.newCourse env o b).1.finish env o a (p'.newCourse env o b).2) := by
  unfold deliverNew newCourse
  rw [load_of_live hk.live, ok_bind]
  split
  · exact continues_of_eq hk rfl
  · split
    · have hw : p'.Keeps a b.awaiting (q.setCell a (.live b.awaiting)) :=
        hk.write _
      have hknown : (q.setCell a (.live b.awaiting)).bundleReassembledIsKnown o
          b.awaiting = p'.bundleReassembledIsKnown o b :=
        bundleReassembledIsKnown_keeps hw b.awaiting
      rw [bundleAddRc_of_live hk.live, ok_bind, bundleAttemptReassembly,
        load_of_live (cells_setCell_self _), ok_bind]
      change Continues _ (onlyIf (q.setCell a (.live b.awaiting))
        ((q.setCell a (.live b.awaiting)).bundleReassembledIsKnown o b.awaiting)
        _ >>= _) _ _
      rw [hknown, onlyIf]
      split <;> exact continues_of_eq hw rfl
    · exact continues_of_eq hk rfl

/-- The list of known bundles is what the exits in `bundle_deliver_local`
have changed already. -/
theorem base_newCourse (p' : BundleProcessor) (b' : Bundle) :
    (p'.newCourse env o b').1.base o p b = p.recorded o b := by
  unfold newCourse
  split
  · rfl
  · split
    · split <;> rfl
    · rfl

/-- `bundle_dispatch` up to the exit it takes. -/
theorem bundleDispatch_follows (h : p.cells a = .live b) :
    Continues Fault.ReportFails (p.bundleDispatch env o a)
      (((p.dispatchCourse env o b).1.base o p b).Keeps a
        (p.dispatchCourse env o b).2)
      ((p.dispatchCourse env o b).1.finish env o a
        (p.dispatchCourse env o b).2) := by
  unfold bundleDispatch dispatchCourse
  rw [load_of_live h, ok_bind]
  cases env.endpointIsLocal b.destination with
  | false =>
    rw [if_neg (by simp), if_pos (by simp), bundleForward_of_live h]
    split <;> exact continues_of_eq (keeps_refl h) rfl
  | true =>
    rw [if_pos rfl, if_neg (by simp), bundleDeliverLocal, bundleRemRc_keep h,
      ok_bind, load_of_live (cells_setCell_self _), ok_bind]
    change Continues _ (if (p.setCell a (.live b.dispatched)).known o b.dispatched
      then ((p.setCell a (.live b.dispatched)).recorded o b.dispatched).bundleDiscard a
      else ((p.setCell a (.live b.dispatched)).recorded o b.dispatched).onlyIf
        (b.dispatched.hasProcFlag ProcFlag.reportDelivery)
        (·.sendStatusReport env o a .bundleDelivered .noInfo) >>=
        (·.deliverNew env o a)) _ _
    have hrec : (p.setCell a (.live b.dispatched)).recorded o b.dispatched
        = (p.recorded o b).setCell a (.live b.dispatched) := recorded_setCell _
    have hknown : (p.setCell a (.live b.dispatched)).known o b.dispatched
        = p.known o b := known_setCell _
    rw [hrec, hknown]
    split
    · exact continues_of_eq (Grows.refl _) rfl
    · rw [base_newCourse, sendStatusReport_eq]
      refine (onlyIf_ends _ (sendStatusReport_ends (cells_setCell_self _) _
        _)).continues.trans fun q hq => ?_
      exact deliverNew_follows hq

/-! ## Reception -/

theorem recorded_keeps (h : p.Keeps a b q) (b' : Bundle) :
    (p.recorded o b').Keeps a b (q.recorded o b') := by
  have hlist : (q.recorded o b').knownBundleList
      = (p.recorded o b').knownBundleList := by
    unfold recorded
    rw [h.knownBundleList]
  exact { (h : Grows _ q) with knownBundleList := hlist }

theorem dispatchCourse_keeps {b' : Bundle} (h : p.Keeps a b' q) (b : Bundle) :
    q.dispatchCourse env o b = p.dispatchCourse env o b := by
  have hknown : q.known o b = p.known o b := by
    rw [known, known, h.knownBundleList]
  have hnew : (q.recorded o b).newCourse env o b.dispatched
      = (p.recorded o b).newCourse env o b.dispatched := by
    unfold newCourse
    rw [bundleReassembledIsKnown_keeps (recorded_keeps h b)]
  rw [dispatchCourse, dispatchCourse, hknown, hnew]

theorem Keeps.base {b' : Bundle} (h : p.Keeps a b q) (fate : Fate) :
    (fate.base o p b').Keeps a b (fate.base o q b') := by
  cases fate <;> first | exact h | exact recorded_keeps h b'

/-- `bundle_receive` after the blocks are handled, up to the exit it takes.
-/
theorem receiveAccepted_follows (hl : p.CustodyLive) {b₀ : Bundle}
    (h : p.cells a = .live b₀) {r : RetConstraints} {blocks : List BlockEntry}
    (hb : b = { b₀ with retConstraints := r, blocks := blocks })
    (hk : p.Keeps a b q) :
    Continues Fault.ReportFails (q.receiveAccepted env o a)
      (((p.acceptedCourse env o a b).1.base o p b).Keeps a
        (p.acceptedCourse env o a b).2)
      ((p.acceptedCourse env o a b).1.finish env o a
        (p.acceptedCourse env o a b).2) := by
  have hlq : q.CustodyLive := (hl.setCell b).grows hk
  unfold receiveAccepted acceptedCourse
  rw [load_of_live hk.live, ok_bind]
  split
  · rw [custodyManagerHasRedundantBundle_of_live hlq hk.live, ok_bind,
      redundant_keeps hl h hb hk,
      custodyManagerStorageIsAcceptable_of_live hk.live, ok_bind,
      acceptable_keeps hk, sendCustodySignal_eq]
    split
    · refine (sendCustodySignal_ends hk.live _).continues.trans fun q' hq' => ?_
      exact continues_of_eq (hk.grow hq') rfl
    · split
      · refine (sendCustodySignal_ends hk.live _).continues.trans fun q' hq' => ?_
        exact continues_of_eq (hk.grow hq') rfl
      · exact continues_of_eq hk rfl
  · have hfollow := @bundleDispatch_follows env o q a b hk.live
    rw [dispatchCourse_keeps hk] at hfollow
    exact hfollow.imp fun s hs => (hk.base _).trans hs

/-- The list of known bundles does not see what `bundle_receive` does to the
bundle. -/
theorem base_header (fate : Fate) (r : RetConstraints)
    (blocks : List BlockEntry) :
    fate.base o p { b with retConstraints := r, blocks := blocks }
      = fate.base o p b := by
  have hrec : p.recorded o { b with retConstraints := r, blocks := blocks }
      = p.recorded o b := by
    unfold recorded
    rw [bundleRecordAddAndCheckKnown_header]
  cases fate <;> first | exact hrec | exact Eq.refl p

/-- `bundle_receive` up to the exit it takes. -/
theorem bundleReceive_follows (hl : p.CustodyLive) (h : p.cells a = .live b) :
    Continues Fault.ReportFails (p.bundleReceive env o a)
      (((p.receiveCourse env o a b).1.base o p b).Keeps a
        (p.receiveCourse env o a b).2)
      ((p.receiveCourse env o a b).1.finish env o a
        (p.receiveCourse env o a b).2) := by
  unfold bundleReceive
  rw [bundleAddRc_of_live h, ok_bind, load_of_live (cells_setCell_self _), ok_bind,
    sendStatusReport_eq]
  refine (onlyIf_ends _ (sendStatusReport_ends (cells_setCell_self _) _
    _)).continues.trans fun q hq => ?_
  have hk : p.Keeps a b.received q := hq
  split
  · rename_i hexp
    rw [show p.receiveCourse env o a b = _ from if_pos hexp]
    exact continues_of_eq hk rfl
  · rename_i hexp
    rw [show p.receiveCourse env o a b = _ from if_neg hexp]
    refine (handleBlocks_ends hk.live b.blocks).continues.trans ?_
    rintro ⟨left, r⟩ ⟨hleft, hr⟩
    dsimp only at hleft hr
    subst hleft
    have hkr := hk.grow hr
    cases blocksLeft b.blocks with
    | none => exact continues_of_eq hkr rfl
    | some blocks =>
      dsimp only
      rw [modify_of_live hkr.live, ok_bind]
      have hkb := hkr.write { b.received with blocks := blocks }
      have hbase := base_header (o := o) (p := p) (b := b)
        (p.acceptedCourse env o a { b.received with blocks := blocks }).1
        b.received.retConstraints blocks
      rw [← hbase]
      exact receiveAccepted_follows hl h rfl hkb

end BundleProcessor

end Upcn
