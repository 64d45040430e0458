import Upcn.Processor.StatusReports

/-!
# What the node says about a bundle that cannot be forwarded

`bundle_forwarding_failed` refuses custody and reports the deletion where the bundle asks for
it, and removes the bundle then.

* `FailureNotice` is one of the two, and `Possible` what it takes to make a bundle for it.
* `Noticed` says that the bundles which are asked for are there, and `sendNotices_iff` when.
-/

namespace Upcn

open Outcome Store

/-- What `bundle_forwarding_failed` makes a bundle for. -/
inductive FailureNotice where
  | refusal
  | deletion
  deriving DecidableEq

namespace FailureNotice

variable (env : Env) (b : Bundle) (reason : StatusReportReason)

/-- The bundle asks for it. -/
def asked (b : Bundle) : FailureNotice → Bool
  | refusal => b.hasProcFlag ProcFlag.custodyTransferRequested && !b.retConstraints.custodyAccepted
  | deletion => b.retConstraints.custodyAccepted || b.hasProcFlag ProcFlag.reportDeletion

/-- To whom it is sent. -/
def receiver (b : Bundle) : FailureNotice → Eid
  | refusal => b.currentCustodian
  | deletion => b.reportTo

/-- The administrative record. -/
def record (time : UInt64) : FailureNotice → Option Payload
  | refusal => some (env.custodySignalRecord b ⟨.refusal, custodySignalReason reason⟩ time)
  | deletion => env.statusReportRecord b .bundleDeleted reason time

/-- The notice is not left out: `send_status_report` tests the configuration and the destination
of the bundle. -/
def Enabled : FailureNotice → Prop
  | refusal => True
  | deletion => env.statusReporting = true ∧ ¬ env.NeedsNoReport b.destination

/-- `generate_custody_signal` puts its bundle into a list. -/
def listed (r : ReportInput) : FailureNotice → Bool
  | refusal => r.listMem
  | deletion => true

/-- The bundle for the notice can be made with what `r` allocates. -/
structure Possible (r : ReportInput) (n : FailureNotice) : Prop where
  enabled : n.Enabled env b
  version : b.protocolVersion = 6 ∨ n = deletion ∧ b.protocolVersion = 7
  colons : b.protocolVersion = 6 → ':' ∈ env.localEid ∧ ':' ∈ n.receiver b
  lifetime : (BundleProcessor.lifetimeSeconds b r).toNat < 2 ^ 63
  record : (n.record env b reason r.milliTime).isSome
  buffer : r.bufferMem = true
  bundle : r.bundleMem.isSome
  entry : n.listed r = true
  node : r.nodeMem = true

/-- `generate_custody_signal` and `generate_status_report`. -/
def generate (r : ReportInput) : FailureNotice → Except Fault (Option (Addr × Bundle))
  | refusal => BundleProcessor.generateCustodySignal env b
      ⟨.refusal, custodySignalReason reason⟩ r
  | deletion => BundleProcessor.generateStatusReport env b .bundleDeleted reason r

end FailureNotice

namespace BundleProcessor

variable (env : Env) (o : Inputs)

/-- `send_custody_signal` and `send_status_report`. -/
def sendNotice (p : BundleProcessor) (a : Addr) (reason : StatusReportReason) :
    FailureNotice → Except Fault BundleProcessor
  | .refusal => p.sendCustodySignal env o a ⟨.refusal, custodySignalReason reason⟩
  | .deletion => p.sendStatusReport env o a .bundleDeleted reason

/-- `bundle_forwarding_failed` up to the removal of the bundle. -/
def sendNotices (p : BundleProcessor) (a : Addr) (reason : StatusReportReason) :
    Except Fault BundleProcessor := do
  let b ← p.load a
  let p ← p.onlyIf (FailureNotice.refusal.asked b) (·.sendNotice env o a reason .refusal)
  let b ← p.load a
  let p ← p.onlyIf b.retConstraints.custodyAccepted (·.custodyManagerRelease a)
  p.onlyIf (FailureNotice.deletion.asked b) (·.sendNotice env o a reason .deletion)

theorem bundleForwardingFailed_eq (p : BundleProcessor) (a : Addr) (reason : StatusReportReason) :
    p.bundleForwardingFailed env o a reason = (do
      let p ← p.sendNotices env o a reason
      let p ← p.modify a fun b => { b with retConstraints := .none }
      p.bundleDiscard a) := by
  rw [bundleForwardingFailed, sendNotices]
  simp only [bind_assoc]
  rfl

/-- The bundle `x` for the notice `n` about `b` was made at `c` and stored: it has the record of
the notice as its payload and goes to its receiver. -/
structure Told (env : Env) (b : Bundle) (reason : StatusReportReason) (p q : BundleProcessor)
    (n : FailureNotice) (c : Addr) (x : Bundle) : Prop where
  unused : p.cells c = .unused
  live : q.cells c = .live x
  valid : x.id ≠ bundleInvalidId
  stored : q.bundleStorageGet x.id = some c
  admin : x.hasProcFlag ProcFlag.administrativeRecord = true
  destination : x.destination = n.receiver b
  payload : ∃ ret time,
    n.record env { b with retConstraints := ret } reason time = some x.payload

/-- The bundles that `b` asks for have been made and passed to the router task, and no others. -/
def Noticed (env : Env) (b : Bundle) (reason : StatusReportReason) (p q : BundleProcessor) :
    Prop :=
  ∃ made : List (FailureNotice × Addr × Bundle),
    made.map (·.1) = [FailureNotice.refusal, .deletion].filter (·.asked b) ∧
    (∀ y ∈ made, Told env b reason p q y.1 y.2.1 y.2.2) ∧
    q.outQueue = p.outQueue ++ made.map (·.2.2.id)

/-- The bundle when its deletion is reported: custody of it is released before. -/
def keptFor (p : BundleProcessor) (a : Addr) (b : Bundle) : Bundle :=
  if b.retConstraints.custodyAccepted && (p.getIndex a).isSome then
    { b with retConstraints := b.retConstraints.remCustodyAccepted }
  else b

/-- The notices that `b` asks for are possible, there are ids for them, and the release of custody
does not free the bundle. -/
structure NoticesPossible (p : BundleProcessor) (a : Addr) (b : Bundle)
    (reason : StatusReportReason) : Prop where
  refusal : FailureNotice.refusal.asked b = true →
    FailureNotice.refusal.Possible env b reason (o.reports p.reports)
  deletion : FailureNotice.deletion.asked b = true →
    FailureNotice.deletion.Possible env (p.keptFor a b) reason
      (o.reports (p.reports + (FailureNotice.refusal.asked b).toNat))
  room : p.store.Room
    ((FailureNotice.refusal.asked b).toNat + (FailureNotice.deletion.asked b).toNat)
  kept : p.Deletable a b

variable {env o} {p q : BundleProcessor} {a c : Addr} {b x : Bundle}
  {reason : StatusReportReason} {r : ReportInput} {n : FailureNotice}

/-! ## The bundle for a notice -/

/-- A bundle that was made for the notice `n` about `b`. -/
structure MadeFor (env : Env) (b : Bundle) (reason : StatusReportReason) (r : ReportInput)
    (n : FailureNotice) (x : Bundle) : Prop where
  fresh : Fresh x
  admin : x.hasProcFlag ProcFlag.administrativeRecord = true
  destination : x.destination = n.receiver b
  payload : n.record env b reason r.milliTime = some x.payload

/-- What `generate_custody_signal` and `generate_status_report` need, apart from the
configuration. -/
structure Generable (env : Env) (b : Bundle) (reason : StatusReportReason) (r : ReportInput)
    (n : FailureNotice) : Prop where
  version : b.protocolVersion = 6 ∨ n = .deletion ∧ b.protocolVersion = 7
  colons : b.protocolVersion = 6 → ':' ∈ env.localEid ∧ ':' ∈ n.receiver b
  lifetime : (lifetimeSeconds b r).toNat < 2 ^ 63
  record : (n.record env b reason r.milliTime).isSome
  buffer : r.bufferMem = true

theorem encapsulateRecord_some {destination : Eid} {payload : Payload} {y : Addr × Bundle}
    (h : encapsulateRecord env b destination r payload = .ok (some y)) :
    (lifetimeSeconds b r).toNat < 2 ^ 63 ∧ r.bundleMem = some y.1 ∧
      (':' ∈ env.localEid ∧ ':' ∈ destination) ∧ y.2.payload = payload := by
  unfold encapsulateRecord at h
  dsimp only at h
  split at h
  · cases h
  · rename_i hlifetime
    split at h
    · cases h
    · rename_i c hc
      split at h
      · rename_i hcolons
        obtain rfl := Option.some.inj (Except.ok.inj h)
        exact ⟨Nat.not_le.mp hlifetime, hc, hcolons, rfl⟩
      · cases h

theorem encapsulateRecord_made {destination : Eid} (payload : Payload)
    (hlifetime : (lifetimeSeconds b r).toNat < 2 ^ 63) (hc : r.bundleMem = some c)
    (hcolons : ':' ∈ env.localEid ∧ ':' ∈ destination) :
    ∃ x, encapsulateRecord env b destination r payload = .ok (some (c, x)) ∧ Fresh x ∧
      x.hasProcFlag ProcFlag.administrativeRecord = true ∧ x.destination = destination ∧
      x.payload = payload := by
  unfold encapsulateRecord
  dsimp only
  rw [if_neg (Nat.not_le.mpr hlifetime), hc]
  dsimp only
  rw [if_pos hcolons]
  have hadmin : hasFlag (ProcFlag.administrativeRecord ||| ProcFlag.singletonEndpoint)
      ProcFlag.administrativeRecord = true := by decide
  exact ⟨_, rfl, ⟨rfl, rfl⟩, hadmin, rfl, rfl⟩

/-- The bundle is made if everything is there that it needs. -/
theorem generate_made (h : Generable env b reason r n) (hc : r.bundleMem = some c) :
    ∃ x, n.generate env b reason r = .ok (some (c, x)) ∧ MadeFor env b reason r n x := by
  obtain ⟨payload, hpayload⟩ := Option.isSome_iff_exists.mp h.record
  cases n with
  | refusal =>
    have hversion : b.protocolVersion = 6 := h.version.resolve_right fun hnot => by cases hnot.1
    obtain ⟨x, hx, hfresh, hadmin, hto, hrecord⟩ := encapsulateRecord_made
      (env.custodySignalRecord b ⟨.refusal, custodySignalReason reason⟩ r.milliTime)
      h.lifetime hc (h.colons hversion)
    refine ⟨x, ?_, hfresh, hadmin, hto, congrArg some hrecord.symm⟩
    rw [FailureNotice.generate, generateCustodySignal, if_pos ⟨hversion, h.buffer⟩]
    exact hx
  | deletion =>
    have hrecord : env.statusReportRecord b .bundleDeleted reason r.milliTime = some payload :=
      hpayload
    rw [FailureNotice.generate]
    unfold generateStatusReport
    rw [h.buffer, hrecord]
    dsimp only
    rcases h.version with hversion | ⟨-, hversion⟩
    · rw [if_pos hversion]
      obtain ⟨x, hx, hfresh, hadmin, hto, hpayload'⟩ := encapsulateRecord_made payload
        h.lifetime hc (h.colons hversion)
      exact ⟨x, hx, hfresh, hadmin, hto, by rw [hpayload']; exact hrecord⟩
    · rw [if_neg (by rw [hversion]; decide), if_pos hversion,
        if_neg (Nat.not_le.mpr h.lifetime), hc]
      have hadmin : hasFlag ProcFlag.administrativeRecord ProcFlag.administrativeRecord = true := by
        decide
      exact ⟨_, rfl, ⟨rfl, rfl⟩, hadmin, rfl, hrecord⟩

/-- What a status report that was made has been made of. -/
theorem generateStatusReport_some {status : StatusReportStatus} {y : Addr × Bundle}
    (h : generateStatusReport env b status reason r = .ok (some y)) :
    (b.protocolVersion = 6 ∧ ':' ∈ env.localEid ∧ ':' ∈ b.reportTo ∨ b.protocolVersion = 7) ∧
      (lifetimeSeconds b r).toNat < 2 ^ 63 ∧
      env.statusReportRecord b status reason r.milliTime = some y.2.payload ∧
      r.bufferMem = true ∧ r.bundleMem = some y.1 := by
  unfold generateStatusReport at h
  split at h
  · rename_i payload hbuffer hpayload
    split at h
    · rename_i hversion
      obtain ⟨hlifetime, hc, hcolons, hsame⟩ := encapsulateRecord_some h
      exact ⟨.inl ⟨hversion, hcolons⟩, hlifetime, by rw [hsame, hpayload], hbuffer, hc⟩
    · split at h
      · rename_i hnot hversion
        dsimp only at h
        split at h
        · cases h
        · rename_i hlifetime
          obtain ⟨c, hc, rfl⟩ := Option.map_eq_some_iff.mp (Except.ok.inj h)
          exact ⟨.inr hversion, Nat.not_le.mp hlifetime, hpayload, hbuffer, hc⟩
      · cases h
  · cases h

/-- The bundle is made only then. -/
theorem generable_of_generate {y : Addr × Bundle}
    (h : n.generate env b reason r = .ok (some y)) :
    Generable env b reason r n ∧ r.bundleMem = some y.1 := by
  cases n with
  | refusal =>
    rw [FailureNotice.generate] at h
    unfold generateCustodySignal at h
    split at h
    · rename_i hneeds
      obtain ⟨hlifetime, hc, hcolons, -⟩ := encapsulateRecord_some h
      exact ⟨⟨.inl hneeds.1, fun _ => hcolons, hlifetime, rfl, hneeds.2⟩, hc⟩
    · cases h
  | deletion =>
    obtain ⟨hversion, hlifetime, hrecord, hbuffer, hc⟩ := generateStatusReport_some h
    refine ⟨⟨?_, fun h6 => ?_, hlifetime, Option.isSome_of_mem hrecord, hbuffer⟩, hc⟩
    · rcases hversion with ⟨h6, -⟩ | h7
      · exact .inl h6
      · exact .inr ⟨rfl, h7⟩
    · rcases hversion with ⟨-, hcolons⟩ | h7
      · exact hcolons
      · rw [h6] at h7
        cases h7

theorem generate_fresh {y : Addr × Bundle} (h : n.generate env b reason r = .ok (some y)) :
    Fresh y.2 := by
  cases n with
  | refusal => exact (generateCustodySignal_ends env b _ r).ok h y rfl
  | deletion => exact (generateStatusReport_ends env b _ reason r).ok h y rfl

/-! ## Sending it -/

/-- What is done with the bundle that was made for a notice. -/
def dispatchNotice (r : ReportInput) (n : FailureNotice) (p : BundleProcessor) :
    Option (Addr × Bundle) → Except Fault BundleProcessor
  | none => .ok p
  | some (c, x) => do
    let p ← p.allocate c x
    if n.listed r then dispatchReport forwardAccepted p c r else return p

theorem sendNotice_enabled (h : p.cells a = .live b) (henabled : n.Enabled env b) :
    p.sendNotice env o a reason n =
      n.generate env b reason (p.nextReport o).1 >>=
        dispatchNotice (p.nextReport o).1 n (p.nextReport o).2 := by
  cases n with
  | refusal =>
    rw [sendNotice, sendCustodySignal_eq, sendCustodySignalWith, load_of_live h, ok_bind]
    dsimp only
    rw [FailureNotice.generate]
    congr 1
  | deletion =>
    obtain ⟨hreporting, hdestination⟩ := henabled
    have hkeep : (b.destination == dtnNone || b.destination == env.localEid) = false := by
      rw [Bool.or_eq_false_iff, beq_eq_false_iff_ne, beq_eq_false_iff_ne]
      exact not_or.mp hdestination
    rw [sendNotice, sendStatusReport_eq, sendStatusReportWith, hreporting, Bool.not_true,
      if_neg Bool.false_ne_true, load_of_live h, ok_bind, hkeep, if_neg Bool.false_ne_true]
    dsimp only
    rw [FailureNotice.generate]
    congr 1

/-- A notice that is left out. -/
theorem sendNotice_disabled (h : p.cells a = .live b) (hdisabled : ¬ n.Enabled env b) :
    p.sendNotice env o a reason n = .ok p := by
  cases n with
  | refusal => exact absurd trivial hdisabled
  | deletion =>
    rw [sendNotice, sendStatusReport_eq, sendStatusReportWith]
    split
    · rfl
    · rename_i hreporting
      rw [load_of_live h, ok_bind]
      have hskip : (b.destination == dtnNone || b.destination == env.localEid) = true := by
        by_contra hkeep
        refine hdisabled ⟨by simpa using hreporting, fun hneeds => hkeep ?_⟩
        rw [Bool.or_eq_true, beq_iff_eq, beq_iff_eq]
        exact hneeds
      rw [if_pos hskip]
      rfl

/-- The state with the bundle `x` at `c`, which has got `id`. -/
def withNotice (p : BundleProcessor) (c : Addr) (x : Bundle) (id : Nat)
    (store : BundleStore Addr) : BundleProcessor :=
  { p with
    cells := Function.update p.cells c (.live (Bundle.forwardPending
      { x with id := id, retConstraints := x.retConstraints.addDispatchPending }))
    store := store
    outQueue := p.outQueue ++ [id] }

/-- A new bundle has the id that `bundle_storage_add` returns, also when it is not stored. -/
theorem stored_new {y : Bundle} {m : Bool} {id : Nat} (store : BundleStore Addr)
    (hid : m = true ∨ id = y.id) :
    (p.setCell c (.live y)).stored c y m id store =
      ({ p with store := store } : BundleProcessor).setCell c (.live { y with id := id }) := by
  unfold stored
  split
  · rw [setCell, setCell, setCell]
    simp only [Function.update_idem]
  · rename_i hm
    rw [hid.resolve_left hm]
    rfl

/-- A new bundle is stored and passed on with the id that the store returns. -/
theorem dispatchReport_new (hid : x.id = bundleInvalidId) :
    dispatchReport forwardAccepted (p.setCell c (.live x)) c r =
      Except.mapError Fault.store (p.store.bundleStorageAdd r.nodeMem c bundleInvalidId
        (some x.payload.val.length)) >>= fun s => .ok (p.withNotice c x s.1 s.2) := by
  have hends := p.store.bundleStorageAdd_ends r.nodeMem c (some x.payload.val.length)
  rw [dispatchReport, bundleAddRc_of_live (cells_setCell_self _), ok_bind, setCell_setCell,
    bundleStorageAdd_of_live (cells_setCell_self _)]
  dsimp only [store_setCell]
  rw [← hid]
  cases hadd : p.store.bundleStorageAdd r.nodeMem c x.id (some x.payload.val.length) with
  | error e => rfl
  | ok s =>
    rw [hid] at hadd
    have hnode : r.nodeMem = true ∨ s.1 = x.id := by
      rcases hends.ok hadd with ⟨hmem, -⟩ | ⟨-, hinvalid, -⟩
      · exact .inl hmem
      · exact .inr (hinvalid.trans hid.symm)
    have hnew := @stored_new p c
      { x with retConstraints := x.retConstraints.addDispatchPending } r.nodeMem s.1 s.2 hnode
    show forwardAccepted ((p.setCell c (.live { x with
      retConstraints := x.retConstraints.addDispatchPending })).stored c _ r.nodeMem s.1 s.2) c =
        .ok (p.withNotice c x s.1 s.2)
    rw [hnew, forwardAccepted_of_live (cells_setCell_self _), setCell_setCell]
    rfl

/-- `q` is `p` after the bundle `x` was made at `c` for the notice `n` about `b`. -/
structure Sent (env : Env) (b : Bundle) (reason : StatusReportReason) (n : FailureNotice)
    (p q : BundleProcessor) (c : Addr) (x : Bundle) : Prop where
  grows : Grows p q
  unused : p.cells c = .unused
  cells : q.cells = Function.update p.cells c (.live x)
  valid : x.id ≠ bundleInvalidId
  nextId : q.store.nextId < idCount
  room : ∀ k, p.store.Room (k + 1) ↔ q.store.Room k
  admin : x.hasProcFlag ProcFlag.administrativeRecord = true
  destination : x.destination = n.receiver b
  payload : ∃ time, n.record env b reason time = some x.payload
  outQueue : q.outQueue = p.outQueue ++ [x.id]
  reports : q.reports = p.reports + 1

theorem withNotice_sent {k : Nat} (hmade : MadeFor env b reason r n x)
    (hc : p.cells c = .unused) (hnext : p.store.nextId < idCount)
    (hroom : p.store.Room (k + 1)) (hnode : r.nodeMem = true) :
    ∃ q y, dispatchReport forwardAccepted ((p.nextReport o).2.setCell c (.live x)) c r = .ok q ∧
      Sent env b reason n p q c y := by
  obtain ⟨id, store, hadd, hlt, hnext', hfree, hbundles⟩ :=
    BundleStore.bundleStorageAdd_of_room hnext hroom c (some x.payload.val.length)
  have hdispatch : dispatchReport forwardAccepted ((p.nextReport o).2.setCell c (.live x)) c r =
      .ok ((p.nextReport o).2.withNotice c x id store) := by
    have hadd' : (p.nextReport o).2.store.bundleStorageAdd true c bundleInvalidId
      (some x.payload.val.length) = .ok (id, store) := hadd
    rw [dispatchReport_new hmade.fresh.1, hnode, hadd']
    rfl
  have hgrows := (dispatchReport_ends (p := (p.nextReport o).2) (r := r) hc hmade.fresh.1).ok
    hdispatch
  refine ⟨_, _, hdispatch, ⟨(grows_nextReport p).trans hgrows, hc, rfl, ?_, hnext', ?_,
    hmade.admin, hmade.destination, ⟨r.milliTime, hmade.payload⟩, rfl, rfl⟩⟩
  · intro hid
    rw [BundleStore.idTaken, show id = invalidId from hid] at hfree
    simp at hfree
  · exact fun k => BundleStore.room_succ hlt hfree hbundles

/-- The notice is sent if it is possible and an id is free. -/
theorem sendNotice_possible {k : Nat} (h : p.cells a = .live b)
    (hnext : p.store.nextId < idCount)
    (hmem : ∀ c, (o.reports p.reports).bundleMem = some c → p.cells c = .unused)
    (hpossible : n.Possible env b reason (o.reports p.reports))
    (hroom : p.store.Room (k + 1)) :
    ∃ q c x, p.sendNotice env o a reason n = .ok q ∧
      (o.reports p.reports).bundleMem = some c ∧ Sent env b reason n p q c x := by
  obtain ⟨c, hc⟩ := Option.isSome_iff_exists.mp hpossible.bundle
  obtain ⟨x, hgenerate, hmade⟩ := generate_made
    (⟨hpossible.version, hpossible.colons, hpossible.lifetime, hpossible.record,
      hpossible.buffer⟩ : Generable env b reason (o.reports p.reports) n) hc
  obtain ⟨q, y, hdispatch, hsent⟩ := withNotice_sent (o := o) hmade (hmem c hc) hnext hroom
    hpossible.node
  refine ⟨q, c, y, ?_, hc, hsent⟩
  have hallocate : (p.nextReport o).2.allocate c x =
      .ok ((p.nextReport o).2.setCell c (.live x)) := by
    have hunused : (p.nextReport o).2.cells c = .unused := hmem c hc
    rw [allocate, hunused]
  have hreport : (p.nextReport o).1 = o.reports p.reports := rfl
  rw [sendNotice_enabled h hpossible.enabled, hreport, hgenerate, ok_bind, dispatchNotice,
    hallocate, ok_bind, if_pos hpossible.entry]
  exact hdispatch

theorem sendNotice_ends (h : p.cells a = .live b) (n : FailureNotice) :
    Ends Fault.ReportFails (p.sendNotice env o a reason n) (Grows p) := by
  cases n with
  | refusal =>
    rw [sendNotice, sendCustodySignal_eq]
    exact sendCustodySignal_ends h _
  | deletion =>
    rw [sendNotice, sendStatusReport_eq]
    exact sendStatusReport_ends h _ _

/-- At most one bundle is passed on for a notice, and with a valid id only if the notice is
possible. -/
theorem sendNotice_outQueue (h : p.cells a = .live b)
    (hsend : p.sendNotice env o a reason n = .ok q) :
    ∃ ids, q.outQueue = p.outQueue ++ ids ∧ ids.length ≤ 1 ∧
      (ids ≠ [] → bundleInvalidId ∉ ids → p.store.nextId < idCount →
        n.Possible env b reason (o.reports p.reports) ∧ p.store.Room 1) := by
  have hnone : q.outQueue = p.outQueue → ∃ ids, q.outQueue = p.outQueue ++ ids ∧
      ids.length ≤ 1 ∧ (ids ≠ [] → bundleInvalidId ∉ ids → p.store.nextId < idCount →
        n.Possible env b reason (o.reports p.reports) ∧ p.store.Room 1) := by
    intro hsame
    exact ⟨[], by rw [hsame, List.append_nil], Nat.zero_le 1, fun hne => absurd rfl hne⟩
  by_cases henabled : n.Enabled env b
  swap
  · rw [sendNotice_disabled h henabled] at hsend
    exact hnone (congrArg outQueue (Except.ok.inj hsend).symm)
  rw [sendNotice_enabled h henabled] at hsend
  obtain ⟨made, hgenerate, hsend⟩ := bind_eq_ok hsend
  cases made with
  | none =>
    obtain rfl := Except.ok.inj hsend
    exact hnone rfl
  | some y =>
    obtain ⟨c, x⟩ := y
    obtain ⟨hgenerable, hc⟩ := generable_of_generate hgenerate
    obtain ⟨p', hallocate, hsend⟩ := bind_eq_ok hsend
    obtain ⟨-, rfl⟩ := (allocate_ends x).ok hallocate
    by_cases hlisted : n.listed (p.nextReport o).1 = true
    swap
    · rw [if_neg hlisted] at hsend
      obtain rfl := Except.ok.inj hsend
      exact hnone rfl
    rw [if_pos hlisted, dispatchReport_new (generate_fresh hgenerate).1] at hsend
    obtain ⟨s, hadd, hsend⟩ := bind_eq_ok hsend
    obtain rfl := Except.ok.inj hsend
    refine ⟨[s.1], rfl, Nat.le_refl 1, fun _ hvalid hnext => ?_⟩
    have hstored : p.store.bundleStorageAdd (p.nextReport o).1.nodeMem c bundleInvalidId
        (some x.payload.val.length) = .ok s := mapError_eq_ok hadd
    have hnode : (p.nextReport o).1.nodeMem = true := by
      rcases (p.store.bundleStorageAdd_ends _ c _).ok hstored with ⟨hmem, -⟩ | ⟨-, hinvalid, -⟩
      · exact hmem
      · exact absurd (List.mem_singleton.mpr hinvalid.symm) hvalid
    exact ⟨⟨henabled, hgenerable.version, hgenerable.colons, hgenerable.lifetime,
      hgenerable.record, hgenerable.buffer, Option.isSome_of_mem hc, hlisted, hnode⟩,
      BundleStore.room_of_bundleStorageAdd hnext hstored⟩

/-! ## Both notices -/

theorem Sent.told (h : Sent env b reason n p q c x) : Told env b reason p q n c x where
  unused := h.unused
  live := by rw [h.cells, Function.update_self]
  valid := h.valid
  stored := h.grows.new c x h.unused (by rw [h.cells, Function.update_self]) h.valid
  admin := h.admin
  destination := h.destination
  payload := by
    obtain ⟨time, htime⟩ := h.payload
    exact ⟨b.retConstraints, time, htime⟩

theorem Told.later {s : BundleProcessor} (h : Told env b reason p q n c x) (hgrows : Grows q s) :
    Told env b reason p s n c x where
  unused := h.unused
  live := hgrows.live h.live
  valid := h.valid
  stored := hgrows.stored _ _ h.stored
  admin := h.admin
  destination := h.destination
  payload := h.payload

theorem Told.sooner {s : BundleProcessor} (h : Told env b reason q s n c x) (hgrows : Grows p q) :
    Told env b reason p s n c x where
  unused := by
    by_contra hused
    have hsame := h.unused
    rw [hgrows.old c hused] at hsame
    exact hused hsame
  live := h.live
  valid := h.valid
  stored := h.stored
  admin := h.admin
  destination := h.destination
  payload := h.payload

/-- The addresses that are allocated for reports are unused, each is returned once. -/
def FreshReports (o : Inputs) (p : BundleProcessor) : Prop :=
  ∀ k c, (o.reports k).bundleMem = some c → p.cells c = .unused ∧
    ∀ k', (o.reports k').bundleMem = some c → k' = k

/-- What `if (...) send_...(...);` does when the notice is possible: `made` is what was made. -/
structure Stage (env : Env) (o : Inputs) (b : Bundle) (reason : StatusReportReason)
    (n : FailureNotice) (flag : Bool) (p q : BundleProcessor)
    (made : List (FailureNotice × Addr × Bundle)) : Prop where
  notices : made.map (·.1) = if flag then [n] else []
  told : ∀ y ∈ made, Told env b reason p q y.1 y.2.1 y.2.2
  outQueue : q.outQueue = p.outQueue ++ made.map (·.2.2.id)
  grows : Grows p q
  nextId : q.store.nextId < idCount
  room : ∀ k, p.store.Room (flag.toNat + k) ↔ q.store.Room k
  reports : q.reports = p.reports + flag.toNat
  unused : ∀ c, p.cells c = .unused →
    (flag = true → (o.reports p.reports).bundleMem ≠ some c) → q.cells c = .unused

/-- What is allocated for the next notice is still unused. -/
theorem Stage.fresh {flag : Bool} {made : List (FailureNotice × Addr × Bundle)}
    (h : Stage env o b reason n flag p q made) (hmem : FreshReports o p) (c : Addr)
    (hc : (o.reports q.reports).bundleMem = some c) : q.cells c = .unused := by
  obtain ⟨hunused, honce⟩ := hmem _ c hc
  refine h.unused c hunused fun hflag hsame => ?_
  have hindex := honce _ hsame
  rw [h.reports, hflag] at hindex
  simp at hindex

theorem onlyIf_made {flag : Bool} (h : p.cells a = .live b)
    (hnext : p.store.nextId < idCount)
    (hmem : ∀ c, (o.reports p.reports).bundleMem = some c → p.cells c = .unused)
    (hpossible : flag = true → n.Possible env b reason (o.reports p.reports))
    (hroom : p.store.Room flag.toNat) :
    ∃ q made, p.onlyIf flag (·.sendNotice env o a reason n) = .ok q ∧
      Stage env o b reason n flag p q made := by
  cases flag with
  | false =>
    exact ⟨p, [], rfl, rfl, by simp, by simp, .refl p, hnext, fun k => by simp, rfl,
      fun _ hc _ => hc⟩
  | true =>
    obtain ⟨q, c, x, hsend, hc, hsent⟩ := sendNotice_possible h hnext hmem (hpossible rfl) hroom
    refine ⟨q, [(n, c, x)], hsend, rfl, ?_, hsent.outQueue, hsent.grows, hsent.nextId,
      fun k => by rw [Bool.toNat_true, Nat.add_comm, hsent.room], hsent.reports,
      fun c' hc' hne => ?_⟩
    · intro y hy
      obtain rfl := List.mem_singleton.mp hy
      exact hsent.told
    · have hother : c' ≠ c := by
        rintro rfl
        exact hne rfl hc
      rw [hsent.cells, Function.update_of_ne hother, hc']

theorem onlyIf_outQueue {flag : Bool} (h : p.cells a = .live b)
    (hsend : p.onlyIf flag (·.sendNotice env o a reason n) = .ok q) :
    ∃ ids, q.outQueue = p.outQueue ++ ids ∧ ids.length ≤ flag.toNat ∧
      (ids.length = flag.toNat → bundleInvalidId ∉ ids → p.store.nextId < idCount → flag = true →
        n.Possible env b reason (o.reports p.reports) ∧ p.store.Room 1) := by
  cases flag with
  | false =>
    obtain rfl := Except.ok.inj hsend
    exact ⟨[], by simp, Nat.le_refl 0, fun _ _ _ hflag => by cases hflag⟩
  | true =>
    obtain ⟨ids, hqueue, hle, hpossible⟩ := sendNotice_outQueue h hsend
    refine ⟨ids, hqueue, hle, fun hlength hvalid hnext _ => hpossible ?_ hvalid hnext⟩
    rintro rfl
    cases hlength

/-- Custody of the bundle is released before its deletion is reported. -/
theorem release_kept (h : p.cells a = .live b) (hkept : p.Deletable a b) :
    p.onlyIf b.retConstraints.custodyAccepted (·.custodyManagerRelease a) =
      .ok ((p.releasedFor a b).setCell a (.live (p.keptFor a b))) := by
  unfold releasedFor keptFor onlyIf
  cases hcustody : b.retConstraints.custodyAccepted with
  | false => simp [setCell_eq_self h]
  | true =>
    rw [if_pos rfl, if_pos rfl]
    dsimp only
    rw [custodyManagerRelease_of_live h]
    cases hindex : p.getIndex a with
    | none =>
      have hsame : p.withoutEntry a = p := by rw [withoutEntry, hindex]
      simp [hsame, setCell_eq_self h]
    | some index =>
      have hne := hkept hcustody (by simp [hindex])
      simp [hne]

/-- A bundle that the release of custody frees is not reported. -/
theorem release_frees (h : p.cells a = .live b) (hfreed : ¬ p.Deletable a b) :
    Ends AnyFault (p.onlyIf b.retConstraints.custodyAccepted (·.custodyManagerRelease a)) fun q =>
      q.cells a = .freed ∧ q.outQueue = p.outQueue := by
  simp only [Deletable, Classical.not_imp, not_not] at hfreed
  obtain ⟨hcustody, hindex, hnone⟩ := hfreed
  unfold onlyIf
  rw [if_pos hcustody]
  dsimp only
  rw [custodyManagerRelease_of_live h, if_neg (by rwa [Option.isNone_iff_eq_none]), if_pos hnone]
  refine (load_any _ a).bind fun c _ => ?_
  refine (bundleStorageDelete_store _ c.id).bind fun q hq => ?_
  obtain ⟨store, rfl⟩ := hq
  refine (bundleDrop_freed _ a).imp fun r hr => ?_
  rw [hr]
  exact ⟨cells_setCell_self _, outQueue_withoutEntry⟩

theorem asked_of_custody (h : b.retConstraints.custodyAccepted = true) :
    FailureNotice.refusal.asked b = false ∧ FailureNotice.deletion.asked b = true := by
  simp [FailureNotice.asked, h]

theorem filter_asked (b : Bundle) :
    [FailureNotice.refusal, .deletion].filter (·.asked b) =
      (if FailureNotice.refusal.asked b then [.refusal] else []) ++
        if FailureNotice.deletion.asked b then [.deletion] else [] := by
  simp only [List.filter_cons, List.filter_nil]
  split <;> split <;> rfl

/-- The notice about a bundle in custody. -/
theorem sendNotices_custodied (h : p.cells a = .live b)
    (hcustody : b.retConstraints.custodyAccepted = true) :
    p.sendNotices env o a reason =
      p.onlyIf b.retConstraints.custodyAccepted (·.custodyManagerRelease a) >>= fun p =>
        p.sendNotice env o a reason .deletion := by
  obtain ⟨hrefusal, hdeletion⟩ := asked_of_custody hcustody
  rw [sendNotices, load_of_live h, ok_bind, hrefusal]
  show (p.load a >>= fun b => p.onlyIf b.retConstraints.custodyAccepted
    (·.custodyManagerRelease a) >>= fun p =>
      p.onlyIf (FailureNotice.deletion.asked b) (·.sendNotice env o a reason .deletion)) = _
  rw [load_of_live h, ok_bind, hdeletion]
  rfl

theorem valid_of_told {made : List (FailureNotice × Addr × Bundle)}
    (h : ∀ y ∈ made, Told env b reason p q y.1 y.2.1 y.2.2) :
    bundleInvalidId ∉ made.map (·.2.2.id) := by
  intro hmem
  obtain ⟨y, hy, hid⟩ := List.mem_map.mp hmem
  exact (h y hy).valid hid

theorem sendNotice_freed (h : p.cells a = .freed)
    (hsend : p.sendNotice env o a reason .deletion = .ok q) : q = p := by
  rw [sendNotice, sendStatusReport_eq, sendStatusReportWith] at hsend
  split at hsend
  · exact (Except.ok.inj hsend).symm
  · rw [load, h] at hsend
    cases hsend

theorem keptFor_eq (p : BundleProcessor) (a : Addr) (b : Bundle) :
    ∃ ret, p.keptFor a b = { b with retConstraints := ret } := by
  unfold keptFor
  split
  · exact ⟨_, rfl⟩
  · exact ⟨b.retConstraints, rfl⟩

theorem reports_releasedFor : (p.releasedFor a b).reports = p.reports := by
  unfold releasedFor withoutEntry
  split
  · split <;> rfl
  · rfl

theorem outQueue_releasedFor : (p.releasedFor a b).outQueue = p.outQueue := by
  unfold releasedFor
  split
  · exact outQueue_withoutEntry
  · rfl

/-- The deletion of a bundle in custody is reported just if its report is possible and the release
of custody does not free the bundle. -/
theorem sendNotices_custodied_iff (h : p.cells a = .live b)
    (hcustody : b.retConstraints.custodyAccepted = true) (hnext : p.store.nextId < idCount)
    (hmem : FreshReports o p) :
    (∃ q, p.sendNotices env o a reason = .ok q ∧ Noticed env b reason p q) ↔
      NoticesPossible env o p a b reason := by
  obtain ⟨hrefusal, hdeletion⟩ := asked_of_custody hcustody
  obtain ⟨ret, hret⟩ := keptFor_eq p a b
  have hfilter := filter_asked b
  rw [hrefusal, hdeletion] at hfilter
  rw [sendNotices_custodied h hcustody]
  set r := (p.releasedFor a b).setCell a (.live (p.keptFor a b)) with hr
  have hlive : r.cells a = .live (p.keptFor a b) := cells_setCell_self _
  have hstore : r.store = p.store := store_releasedFor
  have hreports : r.reports = p.reports := reports_releasedFor
  have hqueue : r.outQueue = p.outQueue := outQueue_releasedFor
  have hcells : ∀ c, c ≠ a → r.cells c = p.cells c := by
    intro c hc
    rw [hr, cells_setCell_of_ne hc, cells_releasedFor]
  have hne : ∀ c, p.cells c = .unused → c ≠ a := fun c hc => ne_of_apply_ne p.cells (by simp [hc, h])
  constructor
  · rintro ⟨q, hsend, made, hnotices, htold, hmade⟩
    obtain ⟨s, hrelease, hsend⟩ := bind_eq_ok hsend
    have hlength : made.length = 1 := by
      rw [← List.length_map (·.1), hnotices, hfilter]
      rfl
    by_cases hkept : p.Deletable a b
    · rw [release_kept h hkept] at hrelease
      obtain rfl := Except.ok.inj hrelease
      obtain ⟨ids, hids, -, hpossible⟩ := sendNotice_outQueue hlive hsend
      rw [hqueue, hmade, List.append_cancel_left_eq] at hids
      have hsome : ids ≠ [] := by
        rw [← hids]
        intro hnil
        rw [List.map_eq_nil_iff] at hnil
        rw [hnil] at hlength
        cases hlength
      have hvalid : bundleInvalidId ∉ ids := by
        rw [← hids]
        exact valid_of_told htold
      obtain ⟨hdeleted, hroom⟩ := hpossible hsome hvalid (by rwa [hstore])
      refine ⟨fun hasked => ?_, fun _ => ?_, ?_, hkept⟩
      · rw [hrefusal] at hasked
        cases hasked
      · rw [hrefusal, Bool.toNat_false, Nat.add_zero, ← hreports]
        exact hdeleted
      · rw [hrefusal, hdeletion, ← hstore]
        exact hroom
    · obtain ⟨hfreed, hsame⟩ := (release_frees h hkept).ok hrelease
      rw [sendNotice_freed hfreed hsend, hsame] at hmade
      have hnil := List.self_eq_append_right.mp hmade
      rw [List.map_eq_nil_iff] at hnil
      rw [hnil] at hlength
      cases hlength
  · intro hall
    have hdeleted := hall.deletion hdeletion
    have hroom := hall.room
    rw [hrefusal, Bool.toNat_false, Nat.add_zero, ← hreports] at hdeleted
    rw [hrefusal, hdeletion, ← hstore] at hroom
    obtain ⟨q, c, x, hsend, -, hsent⟩ := sendNotice_possible hlive (by rwa [hstore])
      (fun c hc => by rw [hcells c (hne c (hmem _ c hc).1), (hmem _ c hc).1]) hdeleted hroom
    refine ⟨q, by rw [release_kept h hall.kept, ok_bind]; exact hsend, [(.deletion, c, x)],
      by rw [hfilter]; rfl, fun y hy => ?_, ?_⟩
    · obtain rfl := List.mem_singleton.mp hy
      obtain ⟨hunused, hmade, hvalid, hstored, hadmin, hto, ret', time, hrecord⟩ := hsent.told
      have hca : c ≠ a := ne_of_apply_ne r.cells (by simp [hunused, hlive])
      rw [hcells c hca] at hunused
      rw [hret] at hto hrecord
      exact ⟨hunused, hmade, hvalid, hstored, hadmin, hto, ret', time, hrecord⟩
    · rw [hsent.outQueue, hqueue]
      rfl

/-- The notices about a bundle that is not in custody are sent just if those that it asks for are
possible. -/
theorem sendNotices_uncustodied_iff (h : p.cells a = .live b)
    (hcustody : b.retConstraints.custodyAccepted = false) (hnext : p.store.nextId < idCount)
    (hmem : FreshReports o p) :
    (∃ q, p.sendNotices env o a reason = .ok q ∧ Noticed env b reason p q) ↔
      NoticesPossible env o p a b reason := by
  have hkept : p.keptFor a b = b := by
    rw [keptFor, hcustody]
    rfl
  -- The first notice leaves the bundle as it is.
  have hsecond : ∀ {q}, Grows p q → (q.load a >>= fun b =>
      q.onlyIf b.retConstraints.custodyAccepted (·.custodyManagerRelease a) >>= fun q =>
        q.onlyIf (FailureNotice.deletion.asked b) (·.sendNotice env o a reason .deletion)) =
      q.onlyIf (FailureNotice.deletion.asked b) (·.sendNotice env o a reason .deletion) := by
    intro q hgrows
    rw [load_of_live (hgrows.live h), ok_bind, hcustody]
    rfl
  rw [sendNotices, load_of_live h, ok_bind]
  constructor
  · rintro ⟨q, hsend, made, hnotices, htold, hmade⟩
    obtain ⟨s, hfirst, hsend⟩ := bind_eq_ok hsend
    have hgrows : Grows p s := (onlyIf_ends _ (sendNotice_ends h _)).ok hfirst
    rw [hsecond hgrows] at hsend
    obtain ⟨ids, hids, hle, hrefused⟩ := onlyIf_outQueue h hfirst
    obtain ⟨ids', hids', hle', hdeleted⟩ := onlyIf_outQueue (hgrows.live h) hsend
    rw [hids', hids, List.append_assoc, List.append_cancel_left_eq] at hmade
    have hvalid : bundleInvalidId ∉ ids ++ ids' := by
      rw [hmade]
      exact valid_of_told htold
    rw [List.mem_append, not_or] at hvalid
    have hlength : ids.length + ids'.length =
        (FailureNotice.refusal.asked b).toNat + (FailureNotice.deletion.asked b).toNat := by
      rw [← List.length_append, hmade, List.length_map, ← List.length_map (·.1), hnotices,
        filter_asked]
      cases FailureNotice.refusal.asked b <;> cases FailureNotice.deletion.asked b <;> rfl
    have hrefused' := hrefused (by omega) hvalid.1 hnext
    have hroom : p.store.Room (FailureNotice.refusal.asked b).toNat := by
      cases hasked : FailureNotice.refusal.asked b with
      | false => exact BundleStore.room_zero _
      | true => exact (hrefused' hasked).2
    obtain ⟨s', made', hfirst', hs⟩ := onlyIf_made h hnext (fun c hc => (hmem _ c hc).1)
      (fun hasked => (hrefused' hasked).1) hroom
    obtain rfl := Except.ok.inj (hfirst'.symm.trans hfirst)
    have hdeleted' := hdeleted (by omega) hvalid.2 hs.nextId
    refine ⟨fun hasked => (hrefused' hasked).1, fun hasked => ?_, (hs.room _).mpr ?_, ?_⟩
    · rw [hkept, ← hs.reports]
      exact (hdeleted' hasked).1
    · cases hasked : FailureNotice.deletion.asked b with
      | false => exact BundleStore.room_zero _
      | true => exact (hdeleted' hasked).2
    · intro hheld
      rw [hcustody] at hheld
      cases hheld
  · intro hall
    have hroom := hall.room
    obtain ⟨s, made, hfirst, hs⟩ := onlyIf_made h hnext (fun c hc => (hmem _ c hc).1)
      hall.refusal (BundleStore.room_le (Nat.le_add_right _ _) hroom)
    have hdeleted : FailureNotice.deletion.asked b = true →
        FailureNotice.deletion.Possible env b reason (o.reports s.reports) := by
      intro hasked
      have hpossible := hall.deletion hasked
      rwa [hkept, ← hs.reports] at hpossible
    obtain ⟨q, made', hsend, hq⟩ := onlyIf_made (hs.grows.live h) hs.nextId
      (hs.fresh hmem) hdeleted ((hs.room _).mp hroom)
    refine ⟨q, by rw [hfirst, ok_bind, hsecond hs.grows]; exact hsend, made ++ made', ?_,
      fun y hy => ?_, ?_⟩
    · rw [List.map_append, hs.notices, hq.notices, filter_asked]
    · rcases List.mem_append.mp hy with hy | hy
      · exact (hs.told y hy).later hq.grows
      · exact (hq.told y hy).sooner hs.grows
    · rw [hq.outQueue, hs.outQueue, List.map_append, List.append_assoc]

/-- The notices that a bundle asks for are sent if and only if they are possible. -/
theorem sendNotices_iff (h : p.cells a = .live b) (hnext : p.store.nextId < idCount)
    (hmem : FreshReports o p) :
    (∃ q, p.sendNotices env o a reason = .ok q ∧ Noticed env b reason p q) ↔
      NoticesPossible env o p a b reason := by
  cases hcustody : b.retConstraints.custodyAccepted with
  | false => exact sendNotices_uncustodied_iff h hcustody hnext hmem
  | true => exact sendNotices_custodied_iff h hcustody hnext hmem

end BundleProcessor

end Upcn
