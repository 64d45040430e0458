import Upcn.Processor.CustodySignals

/-!
# Which events are reported

`send_status_report` leaves out the report for a bundle whose destination is the null
endpoint or the node itself.  The report goes to another endpoint: the one that
`report_to` names.

* `ReportEvent` are the events after which a handler calls it.
* `handlers_report` says where that is.
* `reportEvent_lacking` and `reportEvent_noNode` say when nothing is made or stored.
* `reportEvent_iff` says for which bundles a report is made if and only if its receiver
  wants it.
-/

namespace Upcn

open Outcome Store

/-- The events that are reported. -/
inductive ReportEvent where
  | reception
  | deletion (reason : StatusReportReason)
  | delivery
  | forwarding
  /-- A block with these flags cannot be processed. -/
  | unprocessable (flags : UInt32)

namespace ReportEvent

/-- The status that is asserted. -/
def status : ReportEvent → StatusReportStatus
  | reception => .bundleReceived
  | deletion _ => .bundleDeleted
  | delivery => .bundleDelivered
  | forwarding => .bundleForwarded
  | unprocessable _ => .bundleReceived

def reason : ReportEvent → StatusReportReason
  | deletion reason => reason
  | unprocessable _ => .blockUnintelligible
  | _ => .noInfo

/-- The flags demand a report.  The deletion of a bundle in custody is always
reported. -/
def demanded (b : Bundle) : ReportEvent → Bool
  | reception => b.hasProcFlag ProcFlag.reportReception
  | deletion _ => b.retConstraints.custodyAccepted || b.hasProcFlag ProcFlag.reportDeletion
  | delivery => b.hasProcFlag ProcFlag.reportDelivery
  | forwarding => b.hasProcFlag ProcFlag.reportForwarding
  | unprocessable flags => hasFlag flags BlockFlag.reportIfUnproc

end ReportEvent

/-- The null endpoint and the node itself need no report. -/
def Env.NeedsNoReport (env : Env) (eid : Eid) : Prop := eid = dtnNone ∨ eid = env.localEid

instance (env : Env) (eid : Eid) : Decidable (env.NeedsNoReport eid) :=
  inferInstanceAs (Decidable (_ ∨ _))

namespace BundleProcessor

variable (env : Env) (o : Inputs)

/-- What a handler does about an event of the bundle `b` at `a`. -/
def reportEvent (p : BundleProcessor) (a : Addr) (b : Bundle) (event : ReportEvent) :
    Except Fault BundleProcessor :=
  p.onlyIf (event.demanded b) (·.sendStatusReport env o a event.status event.reason)

/-- The handlers report the events. -/
theorem handlers_report (p : BundleProcessor) (a : Addr) :
    (p.bundleReceive env o a = do
      let p ← p.bundleAddRc a .addDispatchPending
      let b ← p.load a
      let p ← p.reportEvent env o a b .reception
      if b.creationTimestamp ≠ 0 ∧ b.bundleGetExpirationTime 0 < o.receiveTime then
        p.bundleDelete env o a .lifetimeExpired
      else do
        let (left, p) ← handleBlocks env o a p b.blocks
        match left with
        | none => p.bundleDelete env o a .blockUnintelligible
        | some blocks => do
          let p ← p.modify a fun b => { b with blocks := blocks }
          p.receiveAccepted env o a) ∧
    (∀ reason, p.bundleDelete env o a reason = do
      let b ← p.load a
      let p ← p.onlyIf b.retConstraints.custodyAccepted (·.custodyManagerRelease a)
      let p ← p.reportEvent env o a b (.deletion reason)
      let p ← p.modify a fun b => { b with retConstraints := .none }
      p.bundleDiscard a) ∧
    (p.bundleDeliverLocal env o a = do
      let p ← p.bundleRemRc a .remDispatchPending false
      let b ← p.load a
      let record := bundleRecordAddAndCheckKnown o b p.knownBundleList
      let p := { p with knownBundleList := record.2 }
      if record.1 then p.bundleDiscard a
      else do
        let p ← p.reportEvent env o a b .delivery
        p.deliverNew env o a) ∧
    (p.bundleForwardingSuccess env o a = do
      let b ← p.load a
      let p ← p.reportEvent env o a b .forwarding
      let p ← p.bundleRemRc a .remForwardPending false
      p.bundleRemRc a .remFlagOwn true) ∧
    (∀ b flags, p.handleUnknownBlockFlags env o a flags = do
      let p ← p.reportEvent env o a b (.unprocessable flags)
      return (unknownBlockResult flags, p)) := by
  refine ⟨rfl, fun reason => ?_, rfl, rfl, fun b flags => rfl⟩
  have hsend : sendStatusReportWith env o (bundleForward env o) = sendStatusReport env o :=
    rfl
  rw [bundleDelete, bundleDeleteWith, hsend]
  rfl

/-- The remaining lifetime of `b` is not negative, and everything that the report on it
consists of can be allocated and encoded. -/
structure Reportable (p : BundleProcessor) (b : Bundle) (event : ReportEvent) : Prop where
  version : b.protocolVersion = 6 ∨ b.protocolVersion = 7
  colons : ':' ∈ env.localEid ∧ ':' ∈ b.reportTo
  lifetime : (lifetimeSeconds b (p.nextReport o).1).toNat < 2 ^ 63
  buffer : (p.nextReport o).1.bufferMem = true
  record : (env.statusReportRecord b event.status event.reason
    (p.nextReport o).1.milliTime).isSome
  bundle : ∃ c, (p.nextReport o).1.bundleMem = some c ∧ p.cells c = .unused
  node : (p.nextReport o).1.nodeMem = true
  store : ∀ c size, ∃ r, p.store.bundleStorageAdd true c bundleInvalidId size = .ok r

/-- A status report has been made for `b`, and passed to the router task. -/
def ReportCreated (p : BundleProcessor) (b : Bundle) (q : BundleProcessor) : Prop :=
  ∃ c x, p.cells c = .unused ∧ q.cells c = .live x ∧
    x.hasProcFlag ProcFlag.administrativeRecord = true ∧ x.destination = b.reportTo ∧
    q.outQueue = p.outQueue ++ [x.id]

/-- A report is made, for the endpoint that wants it, unless that endpoint needs none. -/
def ReportsAsWanted (p : BundleProcessor) (a : Addr) (b : Bundle) (event : ReportEvent) :
    Prop :=
  if env.NeedsNoReport b.reportTo then p.reportEvent env o a b event = .ok p
  else ∃ q, p.reportEvent env o a b event = .ok q ∧ p.ReportCreated b q

/-- The lifetime is over, or something that the report is made of cannot be had. -/
def Lacking (p : BundleProcessor) (b : Bundle) (event : ReportEvent) : Prop :=
  2 ^ 63 ≤ (lifetimeSeconds b (p.nextReport o).1).toNat ∨ (p.nextReport o).1.bufferMem = false ∨
    env.statusReportRecord b event.status event.reason (p.nextReport o).1.milliTime = none ∨
    (p.nextReport o).1.bundleMem = none

variable {env o} {p q : BundleProcessor} {a : Addr} {b : Bundle} {event : ReportEvent}

theorem generateStatusReport_reportable (h : p.Reportable env o b event) :
    ∃ c x, generateStatusReport env b event.status event.reason (p.nextReport o).1
        = .ok (some (c, x)) ∧ p.cells c = .unused ∧ x.id = bundleInvalidId ∧
      x.hasProcFlag ProcFlag.administrativeRecord = true ∧ x.destination = b.reportTo := by
  obtain ⟨payload, hpayload⟩ := Option.isSome_iff_exists.mp h.record
  obtain ⟨c, hc, hunused⟩ := h.bundle
  have hlifetime : ¬ 2 ^ 63 ≤ (lifetimeSeconds b (p.nextReport o).1).toNat :=
    Nat.not_le.mpr h.lifetime
  unfold generateStatusReport
  rw [h.buffer, hpayload]
  dsimp only
  rcases h.version with hversion | hversion
  · rw [if_pos hversion, encapsulateRecord]
    dsimp only
    rw [if_neg hlifetime, hc]
    dsimp only
    rw [if_pos h.colons]
    have hadmin : hasFlag (ProcFlag.administrativeRecord ||| ProcFlag.singletonEndpoint)
        ProcFlag.administrativeRecord = true := by decide
    exact ⟨c, _, rfl, hunused, rfl, hadmin, rfl⟩
  · rw [if_neg (by rw [hversion]; decide), if_pos hversion, if_neg hlifetime, hc]
    have hadmin : hasFlag ProcFlag.administrativeRecord ProcFlag.administrativeRecord
        = true := by decide
    exact ⟨c, _, rfl, hunused, rfl, hadmin, rfl⟩

/-- A bundle that was made for the report is stored and passed on. -/
theorem dispatchReport_created {c : Addr} {x : Bundle} (hid : x.id = bundleInvalidId)
    (hstore : ∀ size, ∃ r, p.store.bundleStorageAdd true c bundleInvalidId size = .ok r)
    {r : ReportInput} (hnode : r.nodeMem = true) :
    ∃ q id, dispatchReport forwardAccepted (p.setCell c (.live x)) c r = .ok q ∧
      q.cells c = .live (Bundle.forwardPending { x with
        retConstraints := x.retConstraints.addDispatchPending, id := id }) ∧
      q.outQueue = p.outQueue ++ [id] := by
  rw [dispatchReport, bundleAddRc_of_live (cells_setCell_self _), ok_bind, setCell_setCell,
    bundleStorageAdd_of_live (cells_setCell_self _), hnode]
  obtain ⟨s, hs⟩ := hstore (some x.payload.val.length)
  rw [← hid] at hs
  have hadd : (p.setCell c (.live { x with
      retConstraints := x.retConstraints.addDispatchPending })).store.bundleStorageAdd true c
        x.id (some x.payload.val.length) = .ok s := hs
  rw [hadd]
  have hforward := forwardAccepted_of_live
    (p := ({ p.setCell c (.live { x with
      retConstraints := x.retConstraints.addDispatchPending }) with
        store := s.2 } : BundleProcessor).setCell c (.live { x with
      retConstraints := x.retConstraints.addDispatchPending, id := s.1 }))
    (cells_setCell_self _)
  exact ⟨_, s.1, hforward, cells_setCell_self _, rfl⟩

/-- A report that is not left out is made. -/
theorem reportEvent_creates (h : p.cells a = .live b) (hdemanded : event.demanded b = true)
    (henabled : env.statusReporting = true) (hreportable : p.Reportable env o b event)
    (hdestination : ¬ env.NeedsNoReport b.destination) :
    ∃ q, p.reportEvent env o a b event = .ok q ∧ p.ReportCreated b q := by
  obtain ⟨c, x, hgenerate, hc, hid, hadmin, hto⟩ :=
    generateStatusReport_reportable hreportable
  have hkeep : (b.destination == dtnNone || b.destination == env.localEid) = false := by
    rw [Bool.or_eq_false_iff, beq_eq_false_iff_ne, beq_eq_false_iff_ne]
    exact not_or.mp hdestination
  obtain ⟨q, id, hdispatch, hlive, hqueue⟩ := dispatchReport_created
    (p := (p.nextReport o).2) (c := c) hid (fun size => hreportable.store c size)
    hreportable.node
  have hallocate : (p.nextReport o).2.allocate c x
      = .ok ((p.nextReport o).2.setCell c (.live x)) := by
    have hunused : (p.nextReport o).2.cells c = .unused := hc
    rw [allocate, hunused]
  refine ⟨q, ?_, c, _, hc, hlive, hadmin, hto, hqueue⟩
  rw [reportEvent, onlyIf, hdemanded, if_pos rfl, sendStatusReport_eq, sendStatusReportWith,
    henabled, Bool.not_true, if_neg Bool.false_ne_true, load_of_live h, ok_bind, hkeep,
    if_neg Bool.false_ne_true]
  dsimp only
  rw [hgenerate, ok_bind]
  dsimp only
  rw [hallocate, ok_bind, hdispatch]

/-- The report on a bundle for one of the two endpoints is left out. -/
theorem reportEvent_leftOut (h : p.cells a = .live b)
    (henabled : env.statusReporting = true)
    (hdestination : env.NeedsNoReport b.destination) :
    p.reportEvent env o a b event = .ok p := by
  have hskip : (b.destination == dtnNone || b.destination == env.localEid) = true := by
    rw [Bool.or_eq_true, beq_iff_eq, beq_iff_eq]
    exact hdestination
  rw [reportEvent, onlyIf]
  split
  · rw [sendStatusReport_eq, sendStatusReportWith, henabled, Bool.not_true,
      if_neg Bool.false_ne_true, load_of_live h, ok_bind, hskip, if_pos rfl]
    rfl
  · rfl

/-! ## When no report is made -/

theorem generateStatusReport_lacking (h : p.Lacking env o b event)
    {made : Option (Addr × Bundle)}
    (hmade : generateStatusReport env b event.status event.reason (p.nextReport o).1 = .ok made) :
    made = none := by
  unfold Lacking at h
  generalize (p.nextReport o).1 = r at h hmade
  unfold generateStatusReport encapsulateRecord at hmade
  cases hbuffer : r.bufferMem with
  | false =>
    rw [hbuffer] at hmade
    exact (Except.ok.inj hmade).symm
  | true =>
    rw [hbuffer] at hmade
    cases hrecord : env.statusReportRecord b event.status event.reason r.milliTime with
    | none =>
      rw [hrecord] at hmade
      exact (Except.ok.inj hmade).symm
    | some payload =>
      rw [hbuffer, hrecord] at h
      have hlacks : 2 ^ 63 ≤ (lifetimeSeconds b r).toNat ∨ r.bundleMem = none := by
        simpa using h
      rw [hrecord] at hmade
      dsimp only at hmade
      by_cases hlifetime : 2 ^ 63 ≤ (lifetimeSeconds b r).toNat
      · rw [if_pos hlifetime, if_pos hlifetime] at hmade
        split at hmade
        · exact (Except.ok.inj hmade).symm
        · split at hmade <;> exact (Except.ok.inj hmade).symm
      · rw [if_neg hlifetime, if_neg hlifetime, hlacks.resolve_left hlifetime] at hmade
        split at hmade
        · cases hmade
        · split at hmade <;> exact (Except.ok.inj hmade).symm

theorem not_reportCreated_of_queue (h : q.outQueue = p.outQueue) : ¬ p.ReportCreated b q := by
  rintro ⟨c, x, -, -, -, -, hqueue⟩
  rw [h] at hqueue
  exact absurd (congrArg List.length hqueue) (by simp)

/-- Then no report is made. -/
theorem reportEvent_lacking (h : p.cells a = .live b) (hlacks : p.Lacking env o b event)
    (hq : p.reportEvent env o a b event = .ok q) : ¬ p.ReportCreated b q := by
  refine not_reportCreated_of_queue ?_
  rw [reportEvent, onlyIf] at hq
  split at hq
  · rw [sendStatusReport_eq, sendStatusReportWith] at hq
    split at hq
    · cases hq
      rfl
    · rw [load_of_live h, ok_bind] at hq
      split at hq
      · cases hq
        rfl
      · obtain ⟨made, hmade, hq⟩ := bind_eq_ok hq
        obtain rfl := generateStatusReport_lacking hlacks hmade
        cases hq
        rfl
  · cases hq
    rfl

theorem dispatchReport_noNode {c : Addr} {x : Bundle} {r : ReportInput}
    (hid : x.id = bundleInvalidId) (hnode : r.nodeMem = false)
    (hq : dispatchReport forwardAccepted (p.setCell c (.live x)) c r = .ok q) :
    q.store.bundles = p.store.bundles := by
  have hends := p.store.bundleStorageAdd_ends false c (some x.payload.val.length)
  have hinvalid : invalidId = x.id := hid.symm
  rw [hinvalid] at hends
  rw [dispatchReport, bundleAddRc_of_live (cells_setCell_self _), ok_bind, setCell_setCell,
    bundleStorageAdd_of_live (cells_setCell_self _), hnode] at hq
  dsimp only [store_setCell] at hq
  cases hadd : p.store.bundleStorageAdd false c x.id (some x.payload.val.length) with
  | error e =>
    rw [hadd] at hq
    cases hq
  | ok s =>
    rw [hadd] at hq
    rcases hends.ok hadd with ⟨hmem, -⟩ | ⟨-, -, hstore⟩
    · cases hmem
    · have hforward := forwardAccepted_of_live
        (p := { p.setCell c (.live { x with
          retConstraints := x.retConstraints.addDispatchPending }) with store := s.2 })
        (cells_setCell_self _)
      obtain rfl := Except.ok.inj (hforward.symm.trans hq)
      exact congrArg (·.bundles) hstore

/-- Without a node for it, a report is not stored. -/
theorem reportEvent_noNode (h : p.cells a = .live b)
    (hnode : (p.nextReport o).1.nodeMem = false)
    (hq : p.reportEvent env o a b event = .ok q) : q.store.bundles = p.store.bundles := by
  rw [reportEvent, onlyIf] at hq
  split at hq
  · rw [sendStatusReport_eq, sendStatusReportWith] at hq
    split at hq
    · cases hq
      rfl
    · rw [load_of_live h, ok_bind] at hq
      split at hq
      · cases hq
        rfl
      · obtain ⟨made, hmade, hq⟩ := bind_eq_ok hq
        cases made with
        | none =>
          cases hq
          rfl
        | some y =>
          obtain ⟨r, hr, hq⟩ := bind_eq_ok hq
          have hfresh := (generateStatusReport_ends env b event.status event.reason _).ok hmade y rfl
          obtain ⟨-, rfl⟩ := (allocate_ends y.2).ok hr
          exact dispatchReport_noNode (p := (p.nextReport o).2) hfresh.1 hnode hq
  · cases hq
    rfl

theorem not_reportCreated_self : ¬ p.ReportCreated b p := not_reportCreated_of_queue rfl

/-! ## The result -/

/-- A report is made if and only if `report_to` wants one, just for the bundles whose
destination and `report_to` both need a report or both need none. -/
theorem reportEvent_iff (h : p.cells a = .live b) (hdemanded : event.demanded b = true)
    (henabled : env.statusReporting = true) (hreportable : p.Reportable env o b event) :
    p.ReportsAsWanted env o a b event ↔
      (env.NeedsNoReport b.destination ↔ env.NeedsNoReport b.reportTo) := by
  unfold ReportsAsWanted
  by_cases hdestination : env.NeedsNoReport b.destination
  · have hsame : p.reportEvent env o a b event = .ok p :=
      reportEvent_leftOut h henabled hdestination
    rw [hsame]
    split
    · rename_i hto
      exact iff_of_true rfl (iff_of_true hdestination hto)
    · rename_i hto
      refine iff_of_false (fun hcreated => ?_) fun hiff => hto (hiff.mp hdestination)
      obtain ⟨q, hq, hcreated⟩ := hcreated
      rw [← Except.ok.inj hq] at hcreated
      exact not_reportCreated_self hcreated
  · have hcreates := reportEvent_creates h hdemanded henabled hreportable hdestination
    split
    · rename_i hto
      refine iff_of_false (fun hsame => ?_) fun hiff => hdestination (hiff.mpr hto)
      obtain ⟨q, hq, hcreated⟩ := hcreates
      rw [hsame] at hq
      rw [← Except.ok.inj hq] at hcreated
      exact not_reportCreated_self hcreated
    · rename_i hto
      exact iff_of_true hcreates (iff_of_false hdestination hto)

/-! ## Two bundles -/

/-- A node with status reports, whose payload is one byte. -/
def reportingEnv : Env :=
  { plainEnv with
    statusReporting := true
    statusReportRecord := fun _ _ _ _ => some ⟨[16], by decide⟩ }

/-- A bundle from `dtn:b` that is to be reported to that node on reception. -/
def reportedTo (destination : Eid) : Bundle :=
  { plainFragment 0 0 0 ⟨[1, 2], length_oneTwo⟩ with
    protocolVersion := 6
    procFlags := ProcFlag.reportReception
    destination := destination
    reportTo := "dtn:b".toList }

/-- The bundle has arrived. -/
def arrived (b : Bundle) : BundleProcessor :=
  { BundleProcessor.initial with cells := fun a => if a = 1 then .live b else .unused }

theorem reportable_arrived (destination : Eid) :
    (arrived (reportedTo destination)).Reportable reportingEnv signallingInputs
      (reportedTo destination) .reception where
  version := .inl rfl
  colons := by
    have hcolons : ':' ∈ reportingEnv.localEid ∧ ':' ∈ (reportedTo []).reportTo := by decide
    exact hcolons
  lifetime := by
    have hlifetime : (lifetimeSeconds (reportedTo [])
        ((arrived (reportedTo [])).nextReport signallingInputs).1).toNat < 2 ^ 63 := by decide
    exact hlifetime
  buffer := rfl
  record := rfl
  bundle := ⟨5, rfl, rfl⟩
  node := rfl
  store _ _ := ⟨_, rfl⟩

/-- A bundle for an agent of the node is reported. -/
theorem reportsAsWanted_agent : (arrived (reportedTo "dtn:a/sink".toList)).ReportsAsWanted
    reportingEnv signallingInputs 1 (reportedTo "dtn:a/sink".toList) .reception := by
  refine (reportEvent_iff rfl rfl rfl (reportable_arrived _)).mpr (iff_of_false ?_ ?_)
  · decide
  · decide

/-- A bundle for the node itself is not. -/
theorem not_reportsAsWanted_local : ¬ (arrived (reportedTo "dtn:a".toList)).ReportsAsWanted
    reportingEnv signallingInputs 1 (reportedTo "dtn:a".toList) .reception := by
  intro h
  have hwanted : ¬ reportingEnv.NeedsNoReport (reportedTo "dtn:a".toList).reportTo := by
    decide
  rw [ReportsAsWanted, if_neg hwanted] at h
  obtain ⟨q, hq, hcreated⟩ := h
  have hsame : (arrived (reportedTo "dtn:a".toList)).reportEvent reportingEnv
      signallingInputs 1 (reportedTo "dtn:a".toList) .reception
        = .ok (arrived (reportedTo "dtn:a".toList)) :=
    reportEvent_leftOut rfl rfl (.inr rfl)
  rw [hsame] at hq
  rw [← Except.ok.inj hq] at hcreated
  exact not_reportCreated_self hcreated

end BundleProcessor

end Upcn
