import Upcn.Processor.CustodySignals

/-!
# The local endpoint

`bundle_endpoint_is_local` takes every destination for a local one that begins with the
local EID.  `get_agent_id` asks for a slash behind the local EID and for an agent behind
the slash.

* `Env.LocalDestination` says which destinations are local ones.
* `Steady` is what a handler leaves of the bundles of others: their destinations and
  flags, and the reassembly lists.
* `AgentsChecked` is the invariant: an ADU that is not an administrative record is
  delivered to an agent, and the fragments that wait are for one.
* `localDelivery_iff` puts the two functions together.
-/

namespace Upcn

open Outcome

namespace Env

variable (env : Env)

/-- The local EID with a slash at its end. -/
def slashedEid : Eid :=
  if env.localEid.getLast? = some '/' then env.localEid else env.localEid ++ ['/']

/-- The local EID, or the identifier of an agent behind it. -/
def LocalDestination (destEid : Eid) : Prop :=
  destEid = env.localEid ∨ ∃ agent, agent ≠ [] ∧ destEid = env.slashedEid ++ agent

/-- The local EID does not end with a slash, and what follows it is a slash alone or does
not begin with one. -/
def MerelyBegins (destEid : Eid) : Prop :=
  env.localEid.getLast? ≠ some '/' ∧
    ∃ rest, destEid = env.localEid ++ rest ∧ rest ≠ [] ∧
      (rest = ['/'] ∨ rest.head? ≠ some '/')

/-- An ADU for this destination can be delivered: it is an administrative record, or there
is an agent identifier. -/
def Deliverable (flags : UInt32) (destEid : Eid) : Prop :=
  hasFlag flags ProcFlag.administrativeRecord = true ∨ (env.getAgentId destEid).isSome

variable {env} {destEid : Eid}

theorem endpointIsLocal_iff :
    env.endpointIsLocal destEid = true ↔ ∃ rest, destEid = env.localEid ++ rest := by
  rw [endpointIsLocal, List.isPrefixOf_iff_prefix]
  constructor
  · intro h
    obtain ⟨rest, hrest⟩ := h
    exact ⟨rest, hrest.symm⟩
  · intro h
    obtain ⟨rest, hrest⟩ := h
    exact ⟨rest, hrest.symm⟩

/-- A local destination begins with the local EID. -/
theorem LocalDestination.endpointIsLocal (h : env.LocalDestination destEid) :
    env.endpointIsLocal destEid = true := by
  rw [endpointIsLocal_iff]
  rcases h with hself | ⟨agent, -, hagent⟩
  · exact ⟨[], by rw [hself, List.append_nil]⟩
  · unfold slashedEid at hagent
    split at hagent
    · exact ⟨agent, hagent⟩
    · exact ⟨'/' :: agent, by rw [hagent, List.append_assoc]; rfl⟩

/-- Which of the destinations that begin with the local EID are local ones. -/
theorem localDestination_append_iff (rest : Eid) :
    env.LocalDestination (env.localEid ++ rest) ↔
      ¬ env.MerelyBegins (env.localEid ++ rest) := by
  unfold LocalDestination MerelyBegins slashedEid
  by_cases hslash : env.localEid.getLast? = some '/'
  · rw [if_pos hslash]
    refine iff_of_true ?_ fun h => h.1 hslash
    by_cases hrest : rest = []
    · exact .inl (by rw [hrest, List.append_nil])
    · exact .inr ⟨rest, hrest, rfl⟩
  · rw [if_neg hslash]
    constructor
    · intro h hmerely
      obtain ⟨-, rest', heq, hne, hrest'⟩ := hmerely
      obtain rfl := List.append_cancel_left heq
      rcases h with hself | ⟨agent, hagent, heq⟩
      · exact hne (List.append_right_eq_self.mp hself)
      · rw [List.append_assoc] at heq
        rw [List.append_cancel_left heq] at hrest'
        rcases hrest' with hlone | hhead
        · exact hagent (List.cons.inj hlone).2
        · exact hhead rfl
    · intro h
      cases rest with
      | nil => exact .inl (List.append_nil _)
      | cons c agent =>
        right
        by_contra hnone
        refine h ⟨hslash, c :: agent, rfl, List.cons_ne_nil _ _, ?_⟩
        by_contra hboth
        obtain ⟨hlone, hhead⟩ := not_or.mp hboth
        obtain rfl : c = '/' := by
          rw [not_not] at hhead
          exact Option.some.inj hhead
        refine hnone ⟨agent, fun hempty => hlone (by rw [hempty]), ?_⟩
        rw [List.append_assoc]
        rfl

/-- The prefix comparison finds the local destinations, but for those that merely begin
with the local EID. -/
theorem endpointIsLocal_iff_localDestination :
    (env.endpointIsLocal destEid = true ↔ env.LocalDestination destEid) ↔
      ¬ env.MerelyBegins destEid := by
  constructor
  · intro h hmerely
    have hmerely' := hmerely
    obtain ⟨-, rest, rfl, -⟩ := hmerely'
    have hlocal := h.mp (endpointIsLocal_iff.mpr ⟨rest, rfl⟩)
    exact (localDestination_append_iff rest).mp hlocal hmerely
  · intro h
    refine ⟨fun hlocal => ?_, LocalDestination.endpointIsLocal⟩
    obtain ⟨rest, rfl⟩ := endpointIsLocal_iff.mp hlocal
    exact (localDestination_append_iff rest).mpr h

end Env

/-- Not a failed `ASSERT` of another kind than those of `bundle_drop` and the store. -/
def Fault.Unasserted (e : Fault) : Prop := e ≠ .assertion

namespace BundleProcessor

variable {env : Env} {o : Inputs} {p q : BundleProcessor} {a : Addr} {b : Bundle}

/-! ## What stays of the bundles -/

/-- A bundle that is still there has the destination that it had, and is an administrative
record if it was one.  The reassembly lists and the ADUs that were delivered are the
same. -/
structure Steady (p q : BundleProcessor) : Prop where
  used : ∀ x, p.cells x ≠ .unused → q.cells x ≠ .unused
  header : ∀ x c, p.cells x ≠ .unused → q.cells x = .live c →
    ∃ b, p.cells x = .live b ∧
      c.hasProcFlag ProcFlag.administrativeRecord
        = b.hasProcFlag ProcFlag.administrativeRecord ∧ c.destination = b.destination
  reassemblyList : q.reassemblyList = p.reassemblyList
  delivered : q.delivered = p.delivered

namespace Steady

theorem refl (p : BundleProcessor) : Steady p p :=
  ⟨fun _ h => h, fun _ c _ hc => ⟨c, hc, rfl, rfl⟩, rfl, rfl⟩

theorem trans {r : BundleProcessor} (h : Steady p q) (h' : Steady q r) : Steady p r where
  used x hx := h'.used x (h.used x hx)
  header x d hx hd := by
    obtain ⟨c, hc, hflags, hdest⟩ := h'.header x d (h.used x hx) hd
    obtain ⟨b, hb, hflags', hdest'⟩ := h.header x c hx hc
    exact ⟨b, hb, hflags.trans hflags', hdest.trans hdest'⟩
  reassemblyList := h'.reassemblyList.trans h.reassemblyList
  delivered := h'.delivered.trans h.delivered

theorem of_cells (hcells : q.cells = p.cells) (hlist : q.reassemblyList = p.reassemblyList)
    (hdelivered : q.delivered = p.delivered) : Steady p q where
  used x hx := by rwa [hcells]
  header x c _ hc := ⟨c, by rw [← hcells, hc], rfl, rfl⟩
  reassemblyList := hlist
  delivered := hdelivered

theorem of_grows (h : Grows p q) : Steady p q where
  used x hx := by rwa [h.old x hx]
  header x c hx hc := ⟨c, by rw [← h.old x hx, hc], rfl, rfl⟩
  reassemblyList := h.reassemblyList
  delivered := h.delivered

theorem setCell_used {c : Cell} (hc : c ≠ .unused) {x : Addr} (hx : p.cells x ≠ .unused) :
    (p.setCell a c).cells x ≠ .unused := by
  by_cases hxa : x = a
  · rwa [hxa, cells_setCell_self]
  · rwa [cells_setCell_of_ne hxa]

theorem setCell {c : Bundle} (h : p.cells a = .live b) (hflags : c.procFlags = b.procFlags)
    (hdest : c.destination = b.destination) : Steady p (p.setCell a (.live c)) where
  used x hx := setCell_used Cell.noConfusion hx
  header x d _ hd := by
    by_cases hxa : x = a
    · subst hxa
      rw [cells_setCell_self] at hd
      obtain rfl := Cell.live.inj hd
      refine ⟨b, h, ?_, hdest⟩
      rw [Bundle.hasProcFlag, Bundle.hasProcFlag, hflags]
    · rw [cells_setCell_of_ne hxa] at hd
      exact ⟨d, hd, rfl, rfl⟩
  reassemblyList := rfl
  delivered := rfl

theorem freed : Steady p (p.setCell a .freed) where
  used x hx := setCell_used Cell.noConfusion hx
  header x d _ hd := by
    by_cases hxa : x = a
    · rw [hxa, cells_setCell_self] at hd
      cases hd
    · rw [cells_setCell_of_ne hxa] at hd
      exact ⟨d, hd, rfl, rfl⟩
  reassemblyList := rfl
  delivered := rfl

theorem bind {step : Except Fault BundleProcessor}
    {f : BundleProcessor → Except Fault BundleProcessor}
    (h : Ends Fault.Unasserted step (Steady p))
    (hf : ∀ q, Ends Fault.Unasserted (f q) (Steady q)) :
    Ends Fault.Unasserted (step >>= f) (Steady p) := by
  refine h.bind fun q hq => ?_
  exact (hf q).imp fun r hr => hq.trans hr

end Steady

/-! ## The memory and the store -/

theorem load_unasserted (p : BundleProcessor) (a : Addr) :
    Ends Fault.Unasserted (p.load a) fun b => p.cells a = .live b := by
  unfold load
  split
  · assumption
  · exact ends_error (by simp [Fault.Unasserted])
  · exact ends_error (by simp [Fault.Unasserted])

theorem modify_steady (p : BundleProcessor) (a : Addr) {f : Bundle → Bundle}
    (hf : ∀ b, (f b).procFlags = b.procFlags ∧ (f b).destination = b.destination) :
    Ends Fault.Unasserted (p.modify a f) (Steady p) := by
  refine (load_unasserted p a).bind fun b hb => ?_
  exact ends_ok (Steady.setCell hb (hf b).1 (hf b).2)

theorem bundleDrop_steady (p : BundleProcessor) (a : Addr) :
    Ends Fault.Unasserted (p.bundleDrop a) (Steady p) := by
  refine (load_unasserted p a).bind fun b _ => ?_
  split
  · exact ends_error (E := Fault.Unasserted) (by simp [Fault.Unasserted])
  · refine (load_unasserted p a).bind fun _ _ => ?_
    exact Steady.freed

theorem bundleStorageDelete_steady (p : BundleProcessor) (id : Nat) :
    Ends Fault.Unasserted (p.bundleStorageDelete id) (Steady p) := by
  unfold bundleStorageDelete
  split
  · exact ends_ok (Steady.refl p)
  · refine (load_unasserted p _).bind fun b _ => ?_
    cases p.store.bundleStorageDelete (fun _ => some b.payload.val.length) id with
    | error e => exact ends_error (E := Fault.Unasserted) (by simp [Fault.Unasserted])
    | ok r =>
      have hsame : Steady p { p with store := r.2 } := Steady.of_cells rfl rfl rfl
      exact ends_ok hsame

theorem bundleDiscard_steady (p : BundleProcessor) (a : Addr) :
    Ends Fault.Unasserted (p.bundleDiscard a) (Steady p) := by
  refine (load_unasserted p a).bind fun b _ => ?_
  exact Steady.bind (bundleStorageDelete_steady p b.id) fun q => bundleDrop_steady q a

theorem bundleRemRc_steady (p : BundleProcessor) (a : Addr)
    (clear : RetConstraints → RetConstraints) (discard : Bool) :
    Ends Fault.Unasserted (p.bundleRemRc a clear discard) (Steady p) := by
  refine Steady.bind (modify_steady p a fun b => ⟨rfl, rfl⟩) fun q => ?_
  refine (load_unasserted q a).bind fun b _ => ?_
  split
  · exact bundleDiscard_steady q a
  · exact ends_ok (Steady.refl q)

theorem onlyIf_steady {f : BundleProcessor → Except Fault BundleProcessor}
    (condition : Bool) (hf : Ends Fault.Unasserted (f p) (Steady p)) :
    Ends Fault.Unasserted (p.onlyIf condition f) (Steady p) := by
  unfold onlyIf
  split
  · exact hf
  · exact ends_ok (Steady.refl p)

/-! ## Custody -/

theorem findEntry_unasserted (p : BundleProcessor) (test : Bundle → Bool)
    (entries : List Addr) :
    Ends Fault.Unasserted (p.findEntry test entries) fun _ => True := by
  induction entries with
  | nil => exact ends_ok trivial
  | cons c rest ih =>
    refine (load_unasserted p c).bind fun b _ => ?_
    split
    · exact ends_ok trivial
    · exact ih

theorem custodyManagerRelease_steady (p : BundleProcessor) (a : Addr) :
    Ends Fault.Unasserted (p.custodyManagerRelease a) (Steady p) := by
  unfold custodyManagerRelease
  split
  · exact ends_ok (Steady.refl p)
  · rename_i index _
    have hlist : Steady p { p with
        acceptedBundles := p.removeSlot index
        acceptedBundleCount := p.acceptedBundleCount - 1 } := Steady.of_cells rfl rfl rfl
    refine Ends.imp (Steady.bind (modify_steady _ a fun b => ⟨rfl, rfl⟩) fun q => ?_)
      fun q hq => hlist.trans hq
    refine (load_unasserted q a).bind fun b _ => ?_
    split
    · exact Steady.bind (bundleStorageDelete_steady q b.id) fun r => bundleDrop_steady r a
    · exact ends_ok (Steady.refl q)

theorem bundleHandleCustodySignal_steady (p : BundleProcessor)
    (record : AdministrativeRecord) :
    Ends Fault.Unasserted (p.bundleHandleCustodySignal record) (Steady p) := by
  unfold bundleHandleCustodySignal
  refine (findEntry_unasserted p _ _).bind fun found _ => ?_
  split
  · exact ends_ok (Steady.refl p)
  · exact custodyManagerRelease_steady p _

/-! ## Reports, deletion and forwarding -/

theorem Fault.ReportFails.unasserted {e : Fault} (h : e.ReportFails) : e.Unasserted := by
  intro heq
  rw [heq] at h
  rcases h with h | h | ⟨s, h, -⟩ <;> cases h

theorem sendStatusReport_steady (p : BundleProcessor) (a : Addr)
    (status : StatusReportStatus) (reason : StatusReportReason) :
    Ends Fault.Unasserted (p.sendStatusReport env o a status reason) (Steady p) := by
  rw [sendStatusReport_eq]
  cases hp : p.load a with
  | ok b =>
    exact (sendStatusReport_ends (live_of_load hp) status reason).mono
      (fun e he => Fault.ReportFails.unasserted he) fun q hq => Steady.of_grows hq
  | error e =>
    unfold sendStatusReportWith
    split
    · exact ends_ok (Steady.refl p)
    · rw [hp]
      exact ends_error (E := Fault.Unasserted) ((load_unasserted p a).error hp)

theorem sendCustodySignal_steady (p : BundleProcessor) (a : Addr)
    (signal : CustodySignal) :
    Ends Fault.Unasserted (p.sendCustodySignal env o a signal) (Steady p) := by
  rw [sendCustodySignal_eq]
  cases hp : p.load a with
  | ok b =>
    exact (sendCustodySignal_ends (live_of_load hp) signal).mono
      (fun e he => Fault.ReportFails.unasserted he) fun q hq => Steady.of_grows hq
  | error e =>
    rw [sendCustodySignalWith, hp]
    exact ends_error (E := Fault.Unasserted) ((load_unasserted p a).error hp)

theorem bundleDelete_steady (p : BundleProcessor) (a : Addr)
    (reason : StatusReportReason) :
    Ends Fault.Unasserted (p.bundleDelete env o a reason) (Steady p) := by
  unfold bundleDelete bundleDeleteWith
  refine (load_unasserted p a).bind fun b _ => ?_
  refine Steady.bind (onlyIf_steady _ (custodyManagerRelease_steady p a)) fun q => ?_
  refine Steady.bind (onlyIf_steady _ (sendStatusReport_steady q a _ reason)) fun r => ?_
  refine Steady.bind (modify_steady r a fun b => ⟨rfl, rfl⟩) fun s => ?_
  exact bundleDiscard_steady s a

theorem bundleForward_steady (p : BundleProcessor) (a : Addr) :
    Ends Fault.Unasserted (p.bundleForward env o a) (Steady p) := by
  rw [bundleForward_eq]
  have hvalid : Ends Fault.Unasserted (p.hopCountValidationWith env o forwardAccepted a)
      fun r => Steady p r.2 := by
    unfold hopCountValidationWith
    refine (load_unasserted p a).bind fun b _ => ?_
    split
    · exact ends_ok (Steady.refl p)
    · split
      · exact ends_ok (Steady.refl p)
      · split
        · rw [← bundleDelete_eq]
          exact (bundleDelete_steady p a _).bind fun q hq => hq
        · split
          · refine Ends.bind (modify_steady p a fun b => ⟨rfl, rfl⟩) fun q hq => ?_
            exact ends_ok hq
          · exact ends_ok (Steady.refl p)
  refine hvalid.bind fun r hr => ?_
  split
  · unfold forwardAccepted
    refine Ends.imp (Steady.bind (modify_steady r.2 a fun b => ⟨rfl, rfl⟩) fun q => ?_)
      fun q hq => hr.trans hq
    refine Steady.bind (bundleRemRc_steady q a _ false) fun s => ?_
    refine (load_unasserted s a).bind fun b _ => ?_
    exact Steady.of_cells rfl rfl rfl
  · exact ends_ok hr

/-! ## The invariant -/

/-- The bundle at `a` is an administrative record or for an agent. -/
def Addressed (env : Env) (p : BundleProcessor) (a : Addr) : Prop :=
  p.cells a ≠ .unused ∧
    ∀ b, p.cells a = .live b → env.Deliverable b.procFlags b.destination

theorem Addressed.steady (h : p.Addressed env a) (hs : Steady p q) : q.Addressed env a := by
  refine ⟨hs.used a h.1, fun c hc => ?_⟩
  obtain ⟨b, hb, hflag, hdest⟩ := hs.header a c h.1 hc
  have hb := h.2 b hb
  unfold Env.Deliverable at hb ⊢
  rw [hdest, show hasFlag c.procFlags ProcFlag.administrativeRecord
    = hasFlag b.procFlags ProcFlag.administrativeRecord from hflag]
  exact hb

/-- Each fragment that waits for its reassembly is an administrative record or for an
agent, and so is each ADU that was delivered. -/
structure AgentsChecked (env : Env) (p : BundleProcessor) : Prop where
  waiting : ∀ l ∈ p.reassemblyList, ∀ a ∈ l, p.Addressed env a
  delivered : ∀ d ∈ p.delivered, env.Deliverable d.adu.procFlags d.adu.destination

namespace AgentsChecked

theorem steady (h : p.AgentsChecked env) (hs : Steady p q) : q.AgentsChecked env where
  waiting l hl a ha := by
    rw [hs.reassemblyList] at hl
    exact (h.waiting l hl a ha).steady hs
  delivered d hd := by
    rw [hs.delivered] at hd
    exact h.delivered d hd

/-- The reassembly lists become `lists`. -/
theorem withLists (h : p.AgentsChecked env) {lists : List (List Addr)}
    (hlists : ∀ l ∈ lists, ∀ a ∈ l, p.Addressed env a) :
    ({ p with reassemblyList := lists } : BundleProcessor).AgentsChecked env :=
  ⟨hlists, h.delivered⟩

theorem getD (h : p.AgentsChecked env) (index : Nat) :
    ∀ a ∈ p.reassemblyList.getD index [], p.Addressed env a := by
  intro a ha
  rw [List.getD_eq_getElem?_getD] at ha
  cases hl : p.reassemblyList[index]? with
  | none =>
    rw [hl] at ha
    cases ha
  | some l =>
    rw [hl] at ha
    exact h.waiting l (List.mem_of_getElem? hl) a ha

theorem initial : BundleProcessor.initial.AgentsChecked env where
  waiting l hl := by cases hl
  delivered d hd := by cases hd

end AgentsChecked

/-- A step that keeps the bundles is followed by one that keeps the invariant. -/
theorem checked_bind {step : Except Fault BundleProcessor}
    {f : BundleProcessor → Except Fault BundleProcessor} (h : p.AgentsChecked env)
    (hstep : Ends Fault.Unasserted step (Steady p))
    (hf : ∀ q, Steady p q → q.AgentsChecked env →
      Ends Fault.Unasserted (f q) (AgentsChecked env)) :
    Ends Fault.Unasserted (step >>= f) (AgentsChecked env) :=
  hstep.bind fun q hq => hf q hq (h.steady hq)

theorem checked_of_steady {m : Except Fault BundleProcessor} (h : p.AgentsChecked env)
    (hm : Ends Fault.Unasserted m (Steady p)) :
    Ends Fault.Unasserted m (AgentsChecked env) :=
  hm.imp fun _ hq => h.steady hq

/-! ## Delivery and reassembly -/

/-- `ASSERT(agent_id != NULL)` does not fail. -/
theorem bundleDeliverAdu_checked (h : p.AgentsChecked env) (b : Bundle) {adu : BundleAdu}
    (hadu : env.Deliverable adu.procFlags adu.destination) :
    Ends Fault.Unasserted (p.bundleDeliverAdu env b adu) (AgentsChecked env) := by
  have hlog : ({ p with delivered := p.delivered ++
      [⟨adu, b.creationTimestamp, b.sequenceNumber⟩] } :
        BundleProcessor).AgentsChecked env := by
    refine ⟨h.waiting, fun d hd => ?_⟩
    rcases List.mem_append.mp hd with hd | hd
    · exact h.delivered d hd
    · rw [List.mem_singleton.mp hd]
      exact hadu
  unfold bundleDeliverAdu
  dsimp only
  split
  · split
    · split
      · exact checked_of_steady hlog (bundleHandleCustodySignal_steady _ _)
      · exact ends_ok hlog
    · exact ends_ok hlog
  · rename_i hadmin
    rcases hadu with hflag | hagent
    · exact absurd hflag hadmin
    · rw [if_pos hagent]
      exact ends_ok hlog

/-- The flag that an ADU loses is not the one of administrative records. -/
theorem hasFlag_admin_of_adu (flags : UInt32) :
    hasFlag (flags &&& ~~~ProcFlag.isFragment) ProcFlag.administrativeRecord
      = hasFlag flags ProcFlag.administrativeRecord := by
  have hmask : ~~~ProcFlag.isFragment &&& ProcFlag.administrativeRecord
      = ProcFlag.administrativeRecord := by decide
  rw [hasFlag, hasFlag, UInt32.and_assoc, hmask]

theorem deliverable_adu (h : env.Deliverable b.procFlags b.destination)
    (payload : List (Option UInt8)) :
    env.Deliverable { b.bundleAduInit with payload := payload }.procFlags
      { b.bundleAduInit with payload := payload }.destination := by
  unfold Env.Deliverable
  dsimp only [Bundle.bundleAduInit]
  rw [hasFlag_admin_of_adu]
  exact h

theorem copyFragment_unasserted (aduLength : Nat) (b : Bundle)
    (payload : List (Option UInt8)) (pos : Nat) :
    Ends Fault.Unasserted (copyFragment aduLength b payload pos) fun _ => True := by
  unfold copyFragment
  dsimp only
  split
  · unfold copyBytes
    split
    · exact ends_error (E := Fault.Unasserted) (by simp [Fault.Unasserted])
    · exact ends_ok trivial
  · exact ends_ok trivial

theorem copyFragments_steady (aduLength : Nat) (p : BundleProcessor) (entries : List Addr)
    (addedAsKnown : Bool) (payload : List (Option UInt8)) (pos : Nat) :
    Ends Fault.Unasserted (copyFragments o aduLength p entries addedAsKnown payload pos)
      fun r => Steady p r.2 := by
  induction entries generalizing p payload pos addedAsKnown with
  | nil => exact ends_ok (Steady.refl p)
  | cons a rest ih =>
    unfold copyFragments
    refine (load_unasserted p a).bind fun b _ => ?_
    dsimp only
    have hknown : Steady p (if addedAsKnown then p
        else p.bundleAddReassembledAsKnown o b) := by
      unfold bundleAddReassembledAsKnown
      split
      · exact Steady.refl p
      · split
        · exact Steady.of_cells rfl rfl rfl
        · exact Steady.refl p
    refine (copyFragment_unasserted aduLength b payload pos).bind fun copied _ => ?_
    refine (bundleRemRc_steady _ a _ false).bind fun q hq => ?_
    refine (bundleDiscard_steady q a).bind fun r hr => ?_
    refine (ih r true copied.1 copied.2).imp fun s hs => ?_
    exact ((hknown.trans hq).trans hr).trans hs

theorem coversAdu_unasserted (p : BundleProcessor) (entries : List Addr) (pos : Nat) :
    Ends Fault.Unasserted (p.coversAdu entries pos) fun _ => True := by
  induction entries generalizing pos with
  | nil => exact ends_ok trivial
  | cons a rest ih =>
    unfold coversAdu
    refine (load_unasserted p a).bind fun b _ => ?_
    split
    · exact ends_ok trivial
    · dsimp only
      split
      · exact ends_ok trivial
      · exact ih _

/-- The ADU gets its destination and its flags from a fragment that waits. -/
theorem tryReassemble_checked (h : p.AgentsChecked env) (index : Nat) :
    Ends Fault.Unasserted (p.tryReassemble env o index) (AgentsChecked env) := by
  have hentries := h.getD index
  unfold tryReassemble
  dsimp only
  refine (coversAdu_unasserted p _ 0).bind fun covered _ => ?_
  split
  · exact ends_ok h
  · split
    · exact ends_ok h
    · rename_i first rest hlist
      rw [hlist] at hentries ⊢
      refine (load_unasserted p first).bind fun b hb => ?_
      split
      · exact ends_ok h
      · refine (copyFragments_steady _ p _ _ _ _).bind fun r hr => ?_
        have herase : ({ r.2 with
            reassemblyList := r.2.reassemblyList.eraseIdx index } :
              BundleProcessor).AgentsChecked env :=
          (h.steady hr).withLists fun l hl =>
            (h.steady hr).waiting l (List.mem_of_mem_eraseIdx hl)
        exact bundleDeliverAdu_checked herase b
          (deliverable_adu ((hentries first List.mem_cons_self).2 b hb) _)

theorem insertFragment_subset (p : BundleProcessor) (a : Addr) (entries : List Addr) :
    Ends Fault.Unasserted (p.insertFragment a entries) fun l =>
      ∀ c ∈ l, c = a ∨ c ∈ entries := by
  induction entries with
  | nil => exact ends_ok fun c hc => .inl (List.mem_singleton.mp hc)
  | cons d rest ih =>
    unfold insertFragment
    refine (load_unasserted p d).bind fun e _ => ?_
    refine (load_unasserted p a).bind fun b _ => ?_
    split
    · exact ends_ok fun c hc => List.mem_cons.mp hc
    · refine ih.bind fun l hl => ?_
      refine ends_ok fun c hc => ?_
      rcases List.mem_cons.mp hc with rfl | hc
      · exact .inr List.mem_cons_self
      · exact (hl c hc).imp_right (List.mem_cons_of_mem d)

/-- The fragment comes into the list, or the bundle is deleted. -/
theorem addToReassemblyBundleList_steady (p : BundleProcessor) (a : Addr)
    (entries : List Addr) :
    Ends Fault.Unasserted (p.addToReassemblyBundleList env o entries a) fun r =>
      Steady p r.2 ∧ ∀ c ∈ r.1, c = a ∨ c ∈ entries := by
  unfold addToReassemblyBundleList
  refine (insertFragment_subset p a entries).bind fun inserted hinserted => ?_
  split
  · exact ends_ok ⟨Steady.refl p, hinserted⟩
  · refine (bundleDelete_steady p a _).bind fun q hq => ?_
    exact ends_ok ⟨hq, fun c hc => .inr hc⟩

theorem findReassemblyList_unasserted (p : BundleProcessor) (a : Addr)
    (lists : List (List Addr)) (index : Nat) :
    Ends Fault.Unasserted (p.findReassemblyList a lists index) fun _ => True := by
  induction lists generalizing index with
  | nil => exact ends_ok trivial
  | cons l rest ih =>
    cases l with
    | nil => exact ends_error (by simp [Fault.Unasserted])
    | cons c l =>
      unfold findReassemblyList
      refine (load_unasserted p c).bind fun first _ => ?_
      refine (load_unasserted p a).bind fun b _ => ?_
      split
      · exact ends_ok trivial
      · exact ih _

theorem joinReassembly_checked (h : p.AgentsChecked env) (ha : p.Addressed env a) :
    Ends Fault.Unasserted (p.joinReassembly env o a) (AgentsChecked env) := by
  unfold joinReassembly
  refine (findReassemblyList_unasserted p a _ 0).bind fun found _ => ?_
  cases found with
  | some index =>
    dsimp only
    refine (addToReassemblyBundleList_steady p a _).bind fun r hr => ?_
    refine tryReassemble_checked ((h.steady hr.1).withLists fun l hl c hc => ?_) index
    rcases List.mem_or_eq_of_mem_set hl with hl | rfl
    · exact (h.steady hr.1).waiting l hl c hc
    · rcases hr.2 c hc with rfl | hc
      · exact ha.steady hr.1
      · exact (h.getD index c hc).steady hr.1
  | none =>
    dsimp only
    split
    · exact checked_of_steady h (bundleDelete_steady p a _)
    · refine (addToReassemblyBundleList_steady p a []).bind fun r hr => ?_
      refine tryReassemble_checked ((h.steady hr.1).withLists fun l hl c hc => ?_) _
      rcases List.mem_append.mp hl with hl | hl
      · exact (h.steady hr.1).waiting l hl c hc
      · rw [List.mem_singleton.mp hl] at hc
        rcases hr.2 c hc with rfl | hc
        · exact ha.steady hr.1
        · cases hc

theorem bundleAttemptReassembly_checked (h : p.AgentsChecked env)
    (ha : p.Addressed env a) :
    Ends Fault.Unasserted (p.bundleAttemptReassembly env o a) (AgentsChecked env) := by
  unfold bundleAttemptReassembly
  refine (load_unasserted p a).bind fun b _ => ?_
  refine checked_bind h (onlyIf_steady _ ?_) fun q hq hchecked => ?_
  · exact Steady.bind (bundleRemRc_steady p a _ false) fun q => bundleDiscard_steady q a
  · exact joinReassembly_checked hchecked (ha.steady hq)

/-- A bundle that is delivered is an administrative record or for an agent. -/
theorem deliverNew_checked (h : p.AgentsChecked env) (a : Addr) :
    Ends Fault.Unasserted (p.deliverNew env o a) (AgentsChecked env) := by
  unfold deliverNew
  refine (load_unasserted p a).bind fun b hb => ?_
  split
  · exact checked_of_steady h (bundleDelete_steady p a _)
  · rename_i hagent
    have hdeliverable : env.Deliverable b.procFlags b.destination := by
      cases hadmin : hasFlag b.procFlags ProcFlag.administrativeRecord with
      | true => exact .inl hadmin
      | false =>
        right
        rw [Bundle.hasProcFlag, hadmin, Bool.not_false, Bool.true_and,
          Option.isNone_iff_eq_none] at hagent
        exact Option.isSome_iff_ne_none.mpr hagent
    have haddressed : p.Addressed env a := by
      refine ⟨by simp [hb], fun c hc => ?_⟩
      rw [hb] at hc
      rw [← Cell.live.inj hc]
      exact hdeliverable
    split
    · refine checked_bind h (modify_steady p a fun b => ⟨rfl, rfl⟩) fun q hq hchecked => ?_
      exact bundleAttemptReassembly_checked hchecked (haddressed.steady hq)
    · dsimp only
      have hset : Steady p (p.setCell a (.live b.bundleToAdu.2)) :=
        Steady.setCell hb rfl rfl
      refine checked_bind (h.steady hset) (bundleDiscard_steady _ a) fun q _ hchecked => ?_
      exact bundleDeliverAdu_checked hchecked b (deliverable_adu hdeliverable _)

theorem bundleDispatch_checked (h : p.AgentsChecked env) (a : Addr) :
    Ends Fault.Unasserted (p.bundleDispatch env o a) (AgentsChecked env) := by
  unfold bundleDispatch
  refine (load_unasserted p a).bind fun b _ => ?_
  split
  · unfold bundleDeliverLocal
    refine checked_bind h (bundleRemRc_steady p a _ false) fun q _ hq => ?_
    refine (load_unasserted q a).bind fun b _ => ?_
    dsimp only
    have hrecord : Steady q { q with knownBundleList :=
        (bundleRecordAddAndCheckKnown o b q.knownBundleList).2 } :=
      Steady.of_cells rfl rfl rfl
    split
    · exact checked_of_steady (hq.steady hrecord) (bundleDiscard_steady _ a)
    · refine checked_bind (hq.steady hrecord)
        (onlyIf_steady _ (sendStatusReport_steady _ a _ _)) fun r _ hr => ?_
      exact deliverNew_checked hr a
  · exact checked_of_steady h (bundleForward_steady p a)

/-! ## The signals -/

theorem handleUnknownBlockFlags_steady (p : BundleProcessor) (a : Addr) (flags : UInt32) :
    Ends Fault.Unasserted (p.handleUnknownBlockFlags env o a flags) fun r =>
      r.1 = unknownBlockResult flags ∧ Steady p r.2 := by
  unfold handleUnknownBlockFlags
  refine Ends.bind (onlyIf_steady _ (sendStatusReport_steady p a _ _)) fun q hq => ?_
  exact ends_ok ⟨rfl, hq⟩

theorem handleBlocks_steady (p : BundleProcessor) (a : Addr) (blocks : List BlockEntry) :
    Ends Fault.Unasserted (handleBlocks env o a p blocks) fun r => Steady p r.2 := by
  refine handleBlocks_run (I := fun _ q => Steady p q) (n := 0) (fun _ hq => hq)
    (fun {_ q} flags hq => ?_) blocks (Steady.refl p)
  refine (handleUnknownBlockFlags_steady q a flags).imp fun r hr => ?_
  exact ⟨hr.1, hq.trans hr.2⟩

theorem receiveAccepted_checked (h : p.AgentsChecked env) (a : Addr) :
    Ends Fault.Unasserted (p.receiveAccepted env o a) (AgentsChecked env) := by
  unfold receiveAccepted
  refine (load_unasserted p a).bind fun b _ => ?_
  split
  · have hredundant : Ends Fault.Unasserted (p.custodyManagerHasRedundantBundle a)
        fun _ => True := by
      refine (load_unasserted p a).bind fun b _ => ?_
      refine (findEntry_unasserted p _ _).bind fun entry _ => ?_
      exact ends_ok trivial
    refine hredundant.bind fun redundant _ => ?_
    split
    · refine checked_of_steady h ?_
      exact Steady.bind (sendCustodySignal_steady p a _) fun q => bundleRemRc_steady q a _ true
    · have hacceptable : Ends Fault.Unasserted (p.custodyManagerStorageIsAcceptable env a)
          fun _ => True := by
        refine (load_unasserted p a).bind fun b _ => ?_
        exact ends_ok trivial
      refine hacceptable.bind fun acceptable _ => ?_
      split
      · refine checked_of_steady h ?_
        exact Steady.bind (sendCustodySignal_steady p a _) fun q => bundleDelete_steady q a _
      · exact ends_ok h
  · exact bundleDispatch_checked h a

theorem bundleReceive_checked (h : p.AgentsChecked env) (a : Addr) :
    Ends Fault.Unasserted (p.bundleReceive env o a) (AgentsChecked env) := by
  unfold bundleReceive
  refine checked_bind h (modify_steady p a fun b => ⟨rfl, rfl⟩) fun q _ hq => ?_
  refine (load_unasserted q a).bind fun b _ => ?_
  refine checked_bind hq (onlyIf_steady _ (sendStatusReport_steady q a _ _)) fun r _ hr => ?_
  split
  · exact checked_of_steady hr (bundleDelete_steady r a _)
  · refine (handleBlocks_steady r a b.blocks).bind fun s hs => ?_
    obtain ⟨left, s⟩ := s
    have hchecked : s.AgentsChecked env := hr.steady hs
    cases left with
    | none => exact checked_of_steady hchecked (bundleDelete_steady s a _)
    | some blocks =>
      refine checked_bind hchecked (modify_steady s a fun b => ⟨rfl, rfl⟩) fun t _ ht => ?_
      exact receiveAccepted_checked ht a

theorem bundleForwardingFailed_steady (p : BundleProcessor) (a : Addr)
    (reason : StatusReportReason) :
    Ends Fault.Unasserted (p.bundleForwardingFailed env o a reason) (Steady p) := by
  unfold bundleForwardingFailed
  refine (load_unasserted p a).bind fun b _ => ?_
  refine Steady.bind (onlyIf_steady _ (sendCustodySignal_steady p a _)) fun q => ?_
  exact bundleDelete_steady q a reason

theorem bundleForwardingSuccess_steady (p : BundleProcessor) (a : Addr) :
    Ends Fault.Unasserted (p.bundleForwardingSuccess env o a) (Steady p) := by
  unfold bundleForwardingSuccess
  refine (load_unasserted p a).bind fun b _ => ?_
  refine Steady.bind (onlyIf_steady _ (sendStatusReport_steady p a _ _)) fun q => ?_
  refine Steady.bind (bundleRemRc_steady q a _ false) fun r => ?_
  exact bundleRemRc_steady r a _ true

theorem bundleDangling_steady (p : BundleProcessor) (a : Addr) :
    Ends Fault.Unasserted (p.bundleDangling env o a) (Steady p) := by
  unfold bundleDangling
  refine (load_unasserted p a).bind fun b _ => ?_
  dsimp only
  split
  · exact ends_ok (Steady.of_cells rfl rfl rfl)
  · exact bundleDelete_steady p a _

theorem modify_any (h : Steady p q) (a : Addr) {f : Bundle → Bundle}
    (hf : ∀ b, (f b).procFlags = b.procFlags ∧ (f b).destination = b.destination) :
    Ends AnyFault (q.modify a f) (Steady p) :=
  (modify_steady q a hf).mono (fun _ _ => trivial) fun _ hr => h.trans hr

/-- The acceptance of custody, which has assertions of its own. -/
theorem bundleForwardingScheduled_steady (p : BundleProcessor) (a : Addr) :
    Ends AnyFault (p.bundleForwardingScheduled env o a) (Steady p) := by
  unfold bundleForwardingScheduled
  refine (load_any p a).bind fun b _ => ?_
  split
  · unfold bundleCustodyAccept
    have haccept : Ends AnyFault (p.custodyManagerAccept env a) fun r => Steady p r.2 := by
      unfold custodyManagerAccept
      refine (ends_any _).bind fun redundant _ => ?_
      split
      · exact ends_error (E := AnyFault) trivial
      · refine (ends_any _).bind fun acceptable _ => ?_
        split
        · exact ends_error (E := AnyFault) trivial
        · have hlist : Steady p { p with
              acceptedBundles := p.acceptedBundles.set p.acceptedBundleCount a
              acceptedBundleCount := p.acceptedBundleCount + 1 } :=
            Steady.of_cells rfl rfl rfl
          refine Ends.bind (modify_any hlist a fun b => ⟨rfl, rfl⟩) fun q hq => ?_
          refine (load_any q a).bind fun b hb => ?_
          split
          · refine Ends.bind (modify_any hq a fun b => ⟨rfl, rfl⟩) fun r hr => ?_
            exact ends_ok hr
          · exact ends_ok hq
    refine haccept.bind fun r hr => ?_
    dsimp only
    split
    · exact ends_ok hr
    · refine (load_any r.2 a).bind fun e _ => ?_
      refine Ends.mono (Steady.bind (onlyIf_steady _ (sendStatusReport_steady r.2 a _ _))
        fun q => sendCustodySignal_steady q a _) (fun _ _ => trivial)
        fun _ hq => hr.trans hq
  · exact ends_ok (Steady.refl p)

/-- A signal of any type but `BUNDLE_ROUTED` fails in no assertion of the delivery. -/
theorem handleType_checked (h : p.AgentsChecked env) (a : Addr)
    {signal : BundleProcessorSignal} (htype : signal.type ≠ .bundleRouted) :
    Ends Fault.Unasserted (p.handleType env o a signal) (AgentsChecked env) := by
  unfold handleType
  split
  · exact bundleReceive_checked h a
  · rename_i hrouted
    exact absurd hrouted htype
  · exact checked_of_steady h (bundleForwardingFailed_steady p a _)
  · exact checked_of_steady h (bundleDelete_steady p a _)
  · exact checked_of_steady h (bundleDangling_steady p a)
  · exact checked_of_steady h (bundleForwardingSuccess_steady p a)
  · exact checked_of_steady h (bundleForwardingFailed_steady p a _)
  · exact bundleDispatch_checked h a
  · exact ends_ok h

theorem handleSignal_unasserted (h : p.AgentsChecked env)
    {signal : BundleProcessorSignal} (htype : signal.type ≠ .bundleRouted) :
    Ends Fault.Unasserted (p.handleSignal env o signal) (AgentsChecked env) := by
  unfold handleSignal
  split
  · exact ends_ok h
  · rename_i a _
    have hreports : Steady p { p with reports := 0 } := Steady.of_cells rfl rfl rfl
    exact handleType_checked (h.steady hreports) a htype

theorem handleSignal_checked (h : p.AgentsChecked env) (signal : BundleProcessorSignal) :
    Ends AnyFault (p.handleSignal env o signal) (AgentsChecked env) := by
  by_cases htype : signal.type = .bundleRouted
  · unfold handleSignal
    split
    · exact ends_ok h
    · rename_i a _
      have hreports : Steady p { p with reports := 0 } := Steady.of_cells rfl rfl rfl
      unfold handleType
      rw [htype]
      refine (bundleForwardingScheduled_steady _ a).imp fun q hq => ?_
      exact (h.steady hreports).steady hq
  · exact (handleSignal_unasserted h htype).mono (fun _ _ => trivial) fun _ hq => hq

/-! ## Runs -/

/-- The states that signals and the rest of the program lead to.  The other tasks bring
new bundles, change others and free them; none becomes an administrative record or gets
another destination. -/
inductive Runs (env : Env) : BundleProcessor → Prop where
  | start : Runs env .initial
  | signalled {p q : BundleProcessor} {o : Inputs} {signal : BundleProcessorSignal}
      (run : Runs env p) (h : p.handleSignal env o signal = .ok q) : Runs env q
  | elsewhere {p q : BundleProcessor} (run : Runs env p) (h : Steady p q) : Runs env q

theorem Runs.checked (run : Runs env p) : p.AgentsChecked env := by
  induction run with
  | start => exact AgentsChecked.initial
  | signalled _ h ih => exact (handleSignal_checked ih _).ok h
  | elsewhere _ h ih => exact ih.steady h

/-- A bundle for `destEid` is delivered to the node if and only if that is a local
destination, and no ADU without an agent identifier is delivered in any run: neither in
the signals so far, nor in the next one.  `BUNDLE_ROUTED` has assertions of its own, and
delivers nothing. -/
structure DeliversLocally (env : Env) (destEid : Eid) : Prop where
  dispatched : ∀ (o : Inputs) (p : BundleProcessor) (a : Addr) (b : Bundle),
    p.cells a = .live b → b.destination = destEid → p.bundleDispatch env o a =
      if env.endpointIsLocal destEid then p.bundleDeliverLocal env o a
      else p.bundleForward env o a
  isLocal : env.endpointIsLocal destEid = true ↔ env.LocalDestination destEid
  delivered : ∀ p, Runs env p →
    ∀ d ∈ p.delivered, env.Deliverable d.adu.procFlags d.adu.destination
  agents : ∀ p, Runs env p → ∀ (o : Inputs) (signal : BundleProcessorSignal),
    signal.type ≠ .bundleRouted → p.handleSignal env o signal ≠ .error .assertion

/-- The node delivers what is for it, and nothing else, but for the destinations that
merely begin with its EID. -/
theorem localDelivery_iff (env : Env) (destEid : Eid) :
    DeliversLocally env destEid ↔ ¬ env.MerelyBegins destEid := by
  constructor
  · intro h
    exact Env.endpointIsLocal_iff_localDestination.mp h.isLocal
  · intro h
    refine ⟨fun o p a b hb hdest => ?_, ?_, fun p run => run.checked.delivered, ?_⟩
    · rw [bundleDispatch, load_of_live hb, ok_bind, hdest]
    · exact Env.endpointIsLocal_iff_localDestination.mpr h
    · intro p run o signal htype herror
      exact (handleSignal_unasserted run.checked htype).error herror rfl

/-- The node `dtn:a` takes a bundle for the node `dtn:ab`. -/
theorem foreign_not_deliversLocally : ¬ DeliversLocally plainEnv "dtn:ab".toList := by
  intro h
  refine Env.endpointIsLocal_iff_localDestination.mp h.isLocal ?_
  exact ⟨by decide, ['b'], rfl, by decide, .inr (by decide)⟩

end BundleProcessor

end Upcn
