import Upcn.Processor.Custody

/-!
# Reports, deletion and forwarding

The functions of `bundle_processor.c` that call each other: a status report
is a bundle that is forwarded, a bundle whose hop limit is exceeded is
deleted instead of forwarded, and its deletion may be reported.

`bundle6_create_local` and `bundle7_create_local` are here as well, with
`generate_status_report` and `generate_custody_signal` over them.  A report
has the payload as its only block, so the recursion ends after one report;
`bundleForwardN` counts it down.
-/

namespace Upcn

namespace BundleProcessor

variable (env : Env)

/-! ## The bundles of the processor itself -/

/-- The bundle that `bundle6_create_local` or `bundle7_create_local` fills. -/
def createLocal (version : UInt8) (procFlags : UInt32) (ret : RetConstraints)
    (destination source : Eid) (r : ReportInput) (lifetimeSeconds : UInt64)
    (payload : Payload) : Bundle where
  id := bundleInvalidId
  protocolVersion := version
  procFlags := procFlags
  retConstraints := ret
  destination := destination
  source := source
  reportTo := dtnNone
  currentCustodian := if version = 6 then dtnNone else []
  creationTimestamp := r.createTime
  sequenceNumber := 1
  lifetime := lifetimeSeconds * 1000000
  fragmentOffset := 0
  totalAduLength := 0
  blocks := [.payload]
  payload := payload

/-- `lifetime_seconds`, which is negative from `2 ^ 63` on. -/
def lifetimeSeconds (b : Bundle) (r : ReportInput) : UInt64 :=
  b.bundleGetExpirationTime r.expirationTime - r.now

/-- `encapsulate_record` of `bundle6/reports.c` with `bundle6_create_local`.
The record is freed by both when the bundle cannot be created. -/
def encapsulateRecord (b : Bundle) (destination : Eid) (r : ReportInput)
    (payload : Payload) : Except Fault (Option (Addr × Bundle)) :=
  let lifetime := lifetimeSeconds b r
  if 2 ^ 63 ≤ lifetime.toNat then .ok none
  else match r.bundleMem with
    | none => .error .recordFreedTwice
    | some a =>
      if ':' ∈ env.localEid ∧ ':' ∈ destination then
        .ok (some (a, createLocal 6
          (ProcFlag.administrativeRecord ||| ProcFlag.singletonEndpoint)
          { RetConstraints.none with flagOwn := true }
          destination env.localEid r lifetime payload))
      else .error .recordFreedTwice

/-- `generate_status_report`: the bundle it returns and where it is. -/
def generateStatusReport (b : Bundle) (status : StatusReportStatus)
    (reason : StatusReportReason) (r : ReportInput) :
    Except Fault (Option (Addr × Bundle)) :=
  match r.bufferMem, env.statusReportRecord b status reason r.milliTime with
  | true, some payload =>
    if b.protocolVersion = 6 then
      encapsulateRecord env b b.reportTo r payload
    else if b.protocolVersion = 7 then
      let lifetime := lifetimeSeconds b r
      if 2 ^ 63 ≤ lifetime.toNat then .ok none
      else .ok (r.bundleMem.map fun a => (a, createLocal 7
        ProcFlag.administrativeRecord .none b.reportTo env.localEid r lifetime
        payload))
    else .ok none
  | _, _ => .ok none

/-- `generate_custody_signal`: the bundle in the list it returns.  A bundle
for which the entry of the list cannot be allocated is lost. -/
def generateCustodySignal (b : Bundle) (signal : CustodySignal)
    (r : ReportInput) : Except Fault (Option (Addr × Bundle)) :=
  if b.protocolVersion = 6 ∧ r.bufferMem = true then
    encapsulateRecord env b b.currentCustodian r
      (env.custodySignalRecord b signal r.milliTime)
  else .ok none

/-- The input of the next report. -/
def nextReport (p : BundleProcessor) (o : Inputs) :
    ReportInput × BundleProcessor :=
  (o.reports p.reports, { p with reports := p.reports + 1 })

/-- `send_bundle` with timeout zero. -/
def sendBundle (p : BundleProcessor) (id : Nat) : BundleProcessor :=
  { p with outQueue := p.outQueue ++ [id] }

/-- What `send_status_report` and `send_custody_signal` do with a bundle they
have generated at `a`. -/
def dispatchReport (forward : BundleProcessor → Addr → Except Fault BundleProcessor)
    (p : BundleProcessor) (a : Addr) (r : ReportInput) :
    Except Fault BundleProcessor := do
  let p ← p.bundleAddRc a .addDispatchPending
  let (_, p) ← p.bundleStorageAdd a r.nodeMem
  forward p a

variable (o : Inputs)

/-- `send_status_report`. -/
def sendStatusReportWith
    (forward : BundleProcessor → Addr → Except Fault BundleProcessor)
    (p : BundleProcessor) (a : Addr) (status : StatusReportStatus)
    (reason : StatusReportReason) : Except Fault BundleProcessor := do
  if !env.statusReporting then return p
  let b ← p.load a
  if b.destination == dtnNone || b.destination == env.localEid then return p
  let (r, p) := p.nextReport o
  match ← generateStatusReport env b status reason r with
  | none => return p
  | some (c, report) =>
    let p ← p.allocate c report
    dispatchReport forward p c r

/-- `send_custody_signal`. -/
def sendCustodySignalWith
    (forward : BundleProcessor → Addr → Except Fault BundleProcessor)
    (p : BundleProcessor) (a : Addr) (signal : CustodySignal) :
    Except Fault BundleProcessor := do
  let b ← p.load a
  let (r, p) := p.nextReport o
  match ← generateCustodySignal env b signal r with
  | none => return p
  | some (c, signalBundle) =>
    let p ← p.allocate c signalBundle
    if r.listMem then dispatchReport forward p c r else return p

/-! ## Deletion -/

/-- `bundle_delete`. -/
def bundleDeleteWith
    (forward : BundleProcessor → Addr → Except Fault BundleProcessor)
    (p : BundleProcessor) (a : Addr) (reason : StatusReportReason) :
    Except Fault BundleProcessor := do
  let b ← p.load a
  let p ← p.onlyIf b.retConstraints.custodyAccepted
    (·.custodyManagerRelease a)
  let generateReport := b.retConstraints.custodyAccepted ||
    b.hasProcFlag ProcFlag.reportDeletion
  let p ← p.onlyIf generateReport
    (·.sendStatusReportWith env o forward a .bundleDeleted reason)
  let p ← p.modify a fun b => { b with retConstraints := .none }
  p.bundleDiscard a

/-! ## Forwarding -/

/-- `find_block_by_type` in the blocks other than the payload, which is of
another type than the ones looked for. -/
def findBlockByType (type : Nat) : List BlockEntry → Option Block
  | [] => none
  | .extension block :: rest =>
    if block.type = type then some block else findBlockByType type rest
  | .payload :: rest => findBlockByType type rest

/-- The block list after the data of the block that `find_block_by_type`
returns is replaced. -/
def replaceBlockData (type : Nat) (data : List UInt8) :
    List BlockEntry → List BlockEntry
  | [] => []
  | .extension block :: rest =>
    if block.type = type then .extension { block with data := data } :: rest
    else .extension block :: replaceBlockData type data rest
  | .payload :: rest => .payload :: replaceBlockData type data rest

/-- `hop_count_validation`. -/
def hopCountValidationWith
    (forward : BundleProcessor → Addr → Except Fault BundleProcessor)
    (p : BundleProcessor) (a : Addr) :
    Except Fault (Bool × BundleProcessor) := do
  let b ← p.load a
  match findBlockByType BlockType.hopCount b.blocks with
  | none => return (true, p)
  | some block =>
    match env.hopCountParse block.data with
    | none => return (true, p)
    | some hopCount =>
      if hopCount.limit ≤ hopCount.count then
        let p ← p.bundleDeleteWith env o forward a .hopLimitExceeded
        return (false, p)
      else if o.hopCountMem then
        let data := env.hopCountSerialize
          { hopCount with count := hopCount.count + 1 }
        let p ← p.modify a fun b =>
          { b with blocks := replaceBlockData BlockType.hopCount data b.blocks }
        return (true, p)
      else return (true, p)

/-- The steps 5.4-1 and 5.4-2 of `bundle_forward`. -/
def forwardAccepted (p : BundleProcessor) (a : Addr) :
    Except Fault BundleProcessor := do
  let p ← p.bundleAddRc a .addForwardPending
  let p ← p.bundleRemRc a .remDispatchPending false
  let b ← p.load a
  return p.sendBundle b.id

/-- `bundle_forward`, with a bound on the depth of the recursion. -/
def bundleForwardN : Nat → BundleProcessor → Addr →
    Except Fault BundleProcessor
  | 0, _, _ => .error .tooDeep
  | depth + 1, p, a => do
    let (valid, p) ← p.hopCountValidationWith env o (bundleForwardN depth) a
    if valid then p.forwardAccepted a else return p

/-- `bundle_forward`. -/
def bundleForward (p : BundleProcessor) (a : Addr) :
    Except Fault BundleProcessor :=
  bundleForwardN env o 2 p a

/-- `send_status_report`. -/
def sendStatusReport (p : BundleProcessor) (a : Addr)
    (status : StatusReportStatus) (reason : StatusReportReason) :
    Except Fault BundleProcessor :=
  p.sendStatusReportWith env o (bundleForward env o) a status reason

/-- `send_custody_signal`. -/
def sendCustodySignal (p : BundleProcessor) (a : Addr)
    (signal : CustodySignal) : Except Fault BundleProcessor :=
  p.sendCustodySignalWith env o (bundleForward env o) a signal

/-- `bundle_delete`. -/
def bundleDelete (p : BundleProcessor) (a : Addr)
    (reason : StatusReportReason) : Except Fault BundleProcessor :=
  p.bundleDeleteWith env o (bundleForward env o) a reason

end BundleProcessor

end Upcn
