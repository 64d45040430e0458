import Upcn.Processor.Reassembly

/-!
# The handlers of the bundle processor

`handle_signal` of `bundle_processor.c` and the functions it calls, in the
order of the file.
-/

namespace Upcn

/-- `enum bundle_processor_signal_type`. -/
inductive BundleProcessorSignalType where
  | bundleIncoming
  | bundleRouted
  | forwardingContraindicated
  | bundleExpired
  | rescheduleBundle
  | transmissionSuccess
  | transmissionFailure
  | bundleLocalDispatch
  /-- Any other value. -/
  | invalid
  deriving DecidableEq, Repr

/-- `struct bundle_processor_signal`. -/
structure BundleProcessorSignal where
  type : BundleProcessorSignalType
  reason : StatusReportReason
  bundle : Nat
  deriving DecidableEq, Repr

/-- `enum bundle_handling_result`. -/
inductive BundleHandlingResult where
  | ok
  | deleted
  | blockDiscarded
  deriving DecidableEq, Repr

/-- The result of `handle_unknown_block_flags`. -/
def unknownBlockResult (flags : UInt32) : BundleHandlingResult :=
  if hasFlag flags BlockFlag.deleteBundleIfUnproc then .deleted
  else if hasFlag flags BlockFlag.discardIfUnproc then .blockDiscarded
  else .ok

/-- The reason of the custody signal that refuses a bundle which could not be
forwarded. -/
def custodySignalReason (reason : StatusReportReason) : Nat :=
  if reason.code < StatusReportReason.depletedStorage.code then 0
  else reason.code

namespace BundleProcessor

variable (env : Env) (o : Inputs)

/-! ## Delivery and forwarding -/

/-- `bundle_deliver_local` after the bundle is found to be new and its
delivery reported. -/
def deliverNew (p : BundleProcessor) (a : Addr) :
    Except Fault BundleProcessor := do
  let b ← p.load a
  if !b.hasProcFlag ProcFlag.administrativeRecord &&
      (env.getAgentId b.destination).isNone then
    p.bundleDelete env o a .destEidUnintelligible
  else if b.hasProcFlag ProcFlag.isFragment then do
    let p ← p.bundleAddRc a .addReassemblyPending
    p.bundleAttemptReassembly env o a
  else do
    let (adu, rest) := b.bundleToAdu
    let p := p.setCell a (.live rest)
    let p ← p.bundleDiscard a
    p.bundleDeliverAdu env b adu

/-- `bundle_deliver_local`. -/
def bundleDeliverLocal (p : BundleProcessor) (a : Addr) :
    Except Fault BundleProcessor := do
  let p ← p.bundleRemRc a .remDispatchPending false
  let b ← p.load a
  let record := bundleRecordAddAndCheckKnown o b p.knownBundleList
  let p := { p with knownBundleList := record.2 }
  if record.1 then p.bundleDiscard a
  else do
    let p ← p.onlyIf (b.hasProcFlag ProcFlag.reportDelivery)
      (·.sendStatusReport env o a .bundleDelivered .noInfo)
    p.deliverNew env o a

/-- `bundle_dispatch`. -/
def bundleDispatch (p : BundleProcessor) (a : Addr) :
    Except Fault BundleProcessor := do
  let b ← p.load a
  if env.endpointIsLocal b.destination then p.bundleDeliverLocal env o a
  else p.bundleForward env o a

/-! ## Custody and the results of forwarding -/

/-- `bundle_custody_accept`. -/
def bundleCustodyAccept (p : BundleProcessor) (a : Addr) :
    Except Fault BundleProcessor := do
  let (accepted, p) ← p.custodyManagerAccept env a
  if !accepted then return p
  else do
    let b ← p.load a
    let p ← p.onlyIf (b.hasProcFlag ProcFlag.reportCustodyAcceptance)
      (·.sendStatusReport env o a .custodyTransfer .noInfo)
    p.sendCustodySignal env o a ⟨.acceptance, 0⟩

/-- `bundle_forwarding_scheduled`. -/
def bundleForwardingScheduled (p : BundleProcessor) (a : Addr) :
    Except Fault BundleProcessor := do
  let b ← p.load a
  if b.hasProcFlag ProcFlag.custodyTransferRequested &&
      !b.retConstraints.custodyAccepted && b.protocolVersion == 6 then
    p.bundleCustodyAccept env o a
  else return p

/-- `bundle_forwarding_success`. -/
def bundleForwardingSuccess (p : BundleProcessor) (a : Addr) :
    Except Fault BundleProcessor := do
  let b ← p.load a
  let p ← p.onlyIf (b.hasProcFlag ProcFlag.reportForwarding)
    (·.sendStatusReport env o a .bundleForwarded .noInfo)
  let p ← p.bundleRemRc a .remForwardPending false
  p.bundleRemRc a .remFlagOwn true

/-- `bundle_forwarding_failed`. -/
def bundleForwardingFailed (p : BundleProcessor) (a : Addr)
    (reason : StatusReportReason) : Except Fault BundleProcessor := do
  let b ← p.load a
  let p ← p.onlyIf
    (b.hasProcFlag ProcFlag.custodyTransferRequested &&
      !b.retConstraints.custodyAccepted)
    (·.sendCustodySignal env o a ⟨.refusal, custodySignalReason reason⟩)
  p.bundleDelete env o a reason

/-- `bundle_forwarding_contraindicated`. -/
def bundleForwardingContraindicated (p : BundleProcessor) (a : Addr)
    (reason : StatusReportReason) : Except Fault BundleProcessor :=
  p.bundleForwardingFailed env o a reason

/-- `bundle_expired`. -/
def bundleExpired (p : BundleProcessor) (a : Addr) :
    Except Fault BundleProcessor :=
  p.bundleDelete env o a .lifetimeExpired

/-- `bundle_dangling`, under `POLICY_DROP_IF_NO_CUSTODY`. -/
def bundleDangling (p : BundleProcessor) (a : Addr) :
    Except Fault BundleProcessor := do
  let b ← p.load a
  let resched := b.retConstraints.custodyAccepted || b.retConstraints.flagOwn
  if resched && o.pushSucceeds then return p.sendBundle b.id
  else p.bundleDelete env o a .transmissionCanceled

/-! ## Reception -/

/-- `handle_unknown_block_flags`. -/
def handleUnknownBlockFlags (p : BundleProcessor) (a : Addr)
    (flags : UInt32) : Except Fault (BundleHandlingResult × BundleProcessor) := do
  let p ← p.onlyIf (hasFlag flags BlockFlag.reportIfUnproc)
    (·.sendStatusReport env o a .bundleReceived .blockUnintelligible)
  return (unknownBlockResult flags, p)

/-- The loop of `bundle_receive` over the blocks: the blocks that are left,
or `none` when the bundle is to be deleted.  After it has taken a block out
of the list the loop steps over the next one. -/
def handleBlocks (a : Addr) : BundleProcessor → List BlockEntry →
    Except Fault (Option (List BlockEntry) × BundleProcessor)
  | p, [] => .ok (some [], p)
  | p, .payload :: rest => do
    let (left, p) ← handleBlocks a p rest
    return (left.map (.payload :: ·), p)
  | p, .extension block :: rest =>
    if block.type = BlockType.payload then do
      let (left, p) ← handleBlocks a p rest
      return (left.map (.extension block :: ·), p)
    else do
      let (result, p) ← p.handleUnknownBlockFlags env o a block.flags
      match result with
      | .ok => do
        let flags := block.flags ||| BlockFlag.fwdUnproc
        let (left, p) ← handleBlocks a p rest
        return (left.map (.extension { block with flags := flags } :: ·), p)
      | .deleted => return (none, p)
      | .blockDiscarded =>
        match rest with
        | [] => return (some [], p)
        | next :: rest => do
          let (left, p) ← handleBlocks a p rest
          return (left.map (next :: ·), p)

/-- `bundle_receive` after the blocks are handled. -/
def receiveAccepted (p : BundleProcessor) (a : Addr) :
    Except Fault BundleProcessor := do
  let b ← p.load a
  if b.requestsCustody then
    if ← p.custodyManagerHasRedundantBundle a then do
      let p ← p.sendCustodySignal env o a ⟨.refusal, 3⟩
      p.bundleRemRc a .remDispatchPending true
    else if !(← p.custodyManagerStorageIsAcceptable env a) then do
      let p ← p.sendCustodySignal env o a
        ⟨.refusal, StatusReportReason.depletedStorage.code⟩
      p.bundleDelete env o a .depletedStorage
    else return p
  else p.bundleDispatch env o a

/-- `bundle_receive`. -/
def bundleReceive (p : BundleProcessor) (a : Addr) :
    Except Fault BundleProcessor := do
  let p ← p.bundleAddRc a .addDispatchPending
  let b ← p.load a
  let p ← p.onlyIf (b.hasProcFlag ProcFlag.reportReception)
    (·.sendStatusReport env o a .bundleReceived .noInfo)
  if b.creationTimestamp ≠ 0 ∧
      b.bundleGetExpirationTime 0 < o.receiveTime then
    p.bundleDelete env o a .lifetimeExpired
  else do
    let (left, p) ← handleBlocks env o a p b.blocks
    match left with
    | none => p.bundleDelete env o a .blockUnintelligible
    | some blocks => do
      let p ← p.modify a fun b => { b with blocks := blocks }
      p.receiveAccepted env o a

/-! ## The signals -/

/-- The `switch` of `handle_signal`. -/
def handleType (p : BundleProcessor) (a : Addr)
    (signal : BundleProcessorSignal) : Except Fault BundleProcessor :=
  match signal.type with
  | .bundleIncoming => p.bundleReceive env o a
  | .bundleRouted => p.bundleForwardingScheduled env o a
  | .forwardingContraindicated =>
    p.bundleForwardingContraindicated env o a signal.reason
  | .bundleExpired => p.bundleExpired env o a
  | .rescheduleBundle => p.bundleDangling env o a
  | .transmissionSuccess => p.bundleForwardingSuccess env o a
  | .transmissionFailure =>
    p.bundleForwardingFailed env o a .transmissionCanceled
  | .bundleLocalDispatch => p.bundleDispatch env o a
  | .invalid => .ok p

/-- `handle_signal`. -/
def handleSignal (p : BundleProcessor) (signal : BundleProcessorSignal) :
    Except Fault BundleProcessor :=
  match p.bundleStorageGet signal.bundle with
  | none => .ok p
  | some a =>
    let p := { p with reports := 0 }
    p.handleType env o a signal

end BundleProcessor

end Upcn
