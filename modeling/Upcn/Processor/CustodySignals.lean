import Mathlib.Logic.Relation
import Upcn.Processor.Settlement

/-!
# To whom custody signals are sent

A bundle that is refused must stay with its custodian, who hears of it by a
custody signal.  `Proceeds` says what the processor does to the bundles as
long as it accepts custody of none: the custodian of a bundle stays the one
that it was received with, and every bundle that a handler makes is a status
report or refuses the bundle that is handled, towards that custodian.

There is one lemma for each function, and `handleSignal_proceeds` for a
signal.  `custody_run` is about runs.  `custodyManagerAccept_toItself` shows
why no acceptance meets the condition: the signal is generated after
`custody_manager_accept` has replaced the custodian.
-/

namespace Upcn

open Outcome Store

/-- The same bundle: the id, the retention constraints and the blocks other
than the payload may differ. -/
def Bundle.Same (b c : Bundle) : Prop :=
  c = { b with id := c.id, retConstraints := c.retConstraints, blocks := c.blocks }

/-- The bundle `x` is a status report. -/
def IsStatusReport (env : Env) (x : Bundle) : Prop :=
  ∃ b status reason t, env.statusReportRecord b status reason t = some x.payload

/-- The bundle `x` is the custody signal for `b`, to the custodian that `b`
names. -/
def IsCustodySignal (env : Env) (b : Bundle) (type : CustodySignalType)
    (x : Bundle) : Prop :=
  x.destination = b.currentCustodian ∧
    ∃ c reason t, b.Same c ∧
      x.payload = env.custodySignalRecord c ⟨type, reason⟩ t

/-- What a handler makes that works on `b`. -/
def Generated (env : Env) (b x : Bundle) : Prop :=
  IsStatusReport env x ∨ IsCustodySignal env b .refusal x

variable {b c d : Bundle}

theorem Bundle.Same.refl (b : Bundle) : b.Same b := rfl

theorem Bundle.Same.trans (h : b.Same c) (h' : c.Same d) : b.Same d := by
  unfold Bundle.Same at *
  rw [h', h]

theorem Bundle.Same.custodian (h : b.Same c) :
    c.currentCustodian = b.currentCustodian := by
  unfold Bundle.Same at h
  rw [h]

theorem Bundle.Same.destination (h : b.Same c) :
    c.destination = b.destination := by
  unfold Bundle.Same at h
  rw [h]

theorem Bundle.Same.payload (h : b.Same c) : c.payload = b.payload := by
  unfold Bundle.Same at h
  rw [h]

theorem Generated.same {env : Env} (h : Generated env b c) (hs : c.Same d) :
    Generated env b d := by
  rcases h with hreport | hsignal
  · left
    unfold IsStatusReport at *
    rwa [hs.payload]
  · right
    unfold IsCustodySignal at *
    rwa [hs.payload, hs.destination]

namespace BundleProcessor

/-- What becomes of the bundles while `s` is handled and no custody is
accepted. -/
structure Proceeds (env : Env) (s : Bundle) (p q : BundleProcessor) : Prop where
  kept : ∀ a b, p.cells a = .live b → q.cells a = .freed ∨
    ∃ c, q.cells a = .live c ∧ b.Same c
  freed : ∀ a, p.cells a = .freed → q.cells a = .freed
  generated : ∀ a x, p.cells a = .unused → q.cells a = .live x →
    Generated env s x
  count : q.acceptedBundleCount = p.acceptedBundleCount

variable {env : Env} {o : Inputs} {s : Bundle} {p q r : BundleProcessor}
  {a : Addr}

/-- Nothing is said about a handler that does not return. -/
def AnyFault (_ : Fault) : Prop := True

theorem Proceeds.of_cells (hcells : q.cells = p.cells)
    (hcount : q.acceptedBundleCount = p.acceptedBundleCount) :
    Proceeds env s p q where
  kept a b h := by
    right
    exact ⟨b, by rw [hcells, h], Bundle.Same.refl b⟩
  freed a h := by rw [hcells, h]
  generated a x h hx := by
    rw [hcells, h] at hx
    cases hx
  count := hcount

theorem Proceeds.refl (p : BundleProcessor) : Proceeds env s p p :=
  Proceeds.of_cells rfl rfl

theorem Proceeds.trans (h : Proceeds env s p q) (h' : Proceeds env s q r) :
    Proceeds env s p r where
  kept a b hb := by
    rcases h.kept a b hb with hfreed | ⟨c, hc, hsame⟩
    · left
      exact h'.freed a hfreed
    · rcases h'.kept a c hc with hfreed | ⟨d, hd, hsame'⟩
      · left
        exact hfreed
      · right
        exact ⟨d, hd, hsame.trans hsame'⟩
  freed a ha := h'.freed a (h.freed a ha)
  generated a x ha hx := by
    cases hq : q.cells a with
    | unused => exact h'.generated a x hq hx
    | freed =>
      rw [h'.freed a hq] at hx
      cases hx
    | live y =>
      rcases h'.kept a y hq with hfreed | ⟨z, hz, hsame⟩
      · rw [hfreed] at hx
        cases hx
      · rw [hz] at hx
        obtain rfl := Cell.live.inj hx
        exact (h.generated a y ha hq).same hsame
  count := h'.count.trans h.count

/-- One step after the other. -/
theorem Proceeds.bind {m : Except Fault BundleProcessor}
    {f : BundleProcessor → Except Fault BundleProcessor}
    (h : Ends AnyFault m (Proceeds env s p))
    (hf : ∀ q, Proceeds env s p q → Ends AnyFault (f q) (Proceeds env s q)) :
    Ends AnyFault (m >>= f) (Proceeds env s p) := by
  refine Ends.bind h fun q hq => ?_
  exact (hf q hq).imp fun r hr => hq.trans hr

/-- The same for a step that returns something with the state. -/
theorem Proceeds.bind_snd {α : Type} {m : Except Fault (α × BundleProcessor)}
    {f : α × BundleProcessor → Except Fault BundleProcessor}
    (h : Ends AnyFault m fun r => Proceeds env s p r.2)
    (hf : ∀ r, Proceeds env s p r.2 →
      Ends AnyFault (f r) (Proceeds env s r.2)) :
    Ends AnyFault (m >>= f) (Proceeds env s p) := by
  refine Ends.bind h fun r hr => ?_
  exact (hf r hr).imp fun q hq => hr.trans hq

/-! ## The memory and the store -/

theorem load_any (p : BundleProcessor) (a : Addr) :
    Ends AnyFault (p.load a) fun b => p.cells a = .live b :=
  (load_ends p a).mono (fun _ _ => trivial) fun _ h => h

theorem setCell_proceeds (h : p.cells a = .live b) (hsame : b.Same c) :
    Proceeds env s p (p.setCell a (.live c)) where
  kept x e hx := by
    right
    by_cases hxa : x = a
    · subst hxa
      rw [h] at hx
      obtain rfl := Cell.live.inj hx
      exact ⟨c, cells_setCell_self _, hsame⟩
    · exact ⟨e, by rw [cells_setCell_of_ne hxa, hx], Bundle.Same.refl e⟩
  freed x hx := by
    have hxa : x ≠ a := ne_of_apply_ne p.cells (by simp [hx, h])
    rw [cells_setCell_of_ne hxa, hx]
  generated x e hx he := by
    have hxa : x ≠ a := ne_of_apply_ne p.cells (by simp [hx, h])
    rw [cells_setCell_of_ne hxa, hx] at he
    cases he
  count := rfl

theorem modify_proceeds (p : BundleProcessor) (a : Addr) {f : Bundle → Bundle}
    (hf : ∀ b : Bundle, b.Same (f b)) :
    Ends AnyFault (p.modify a f) (Proceeds env s p) := by
  refine (load_any p a).bind fun b hb => ?_
  exact setCell_proceeds hb (hf b)

theorem bundleAddRc_proceeds (p : BundleProcessor) (a : Addr)
    (f : RetConstraints → RetConstraints) :
    Ends AnyFault (p.bundleAddRc a f) (Proceeds env s p) :=
  modify_proceeds p a fun _ => rfl

theorem allocate_proceeds (p : BundleProcessor) (a : Addr) {x : Bundle}
    (hx : Generated env s x) :
    Ends AnyFault (p.allocate a x) (Proceeds env s p) := by
  refine (allocate_ends x).mono (fun _ _ => trivial) fun q hq => ?_
  obtain ⟨hunused, rfl⟩ := hq
  have hother : ∀ y, p.cells y ≠ .unused → y ≠ a := by
    intro y hy hya
    exact hy (hya ▸ hunused)
  exact {
    kept := fun y e hy => by
      right
      have hya := hother y (by simp [hy])
      exact ⟨e, by rw [cells_setCell_of_ne hya, hy], Bundle.Same.refl e⟩
    freed := fun y hy => by
      have hya := hother y (by simp [hy])
      rw [cells_setCell_of_ne hya, hy]
    generated := fun y e hy he => by
      by_cases hya : y = a
      · rw [hya, cells_setCell_self] at he
        rwa [← Cell.live.inj he]
      · rw [cells_setCell_of_ne hya, hy] at he
        cases he
    count := rfl }

theorem bundleStorageAdd_proceeds (p : BundleProcessor) (a : Addr)
    (nodeMem : Bool) :
    Ends AnyFault (p.bundleStorageAdd a nodeMem) fun r =>
      Proceeds env s p r.2 := by
  unfold bundleStorageAdd
  refine (load_any p a).bind fun b hb => ?_
  cases Except.mapError Fault.store (p.store.bundleStorageAdd nodeMem a b.id
    (some b.payload.val.length)) with
  | error e => exact ends_error (E := AnyFault) trivial
  | ok stored =>
    rw [ok_bind]
    dsimp only
    have hstore : Proceeds env s p { p with store := stored.2 } :=
      Proceeds.of_cells rfl rfl
    split
    · exact ends_ok (hstore.trans (setCell_proceeds (p := { p with
        store := stored.2 }) hb rfl))
    · exact ends_ok hstore

/-- The cell at `a` is freed and nothing else happens to the bundles. -/
theorem freed_proceeds (hcells : q.cells = Function.update p.cells a .freed)
    (hcount : q.acceptedBundleCount = p.acceptedBundleCount) :
    Proceeds env s p q where
  kept x e hx := by
    rw [hcells]
    by_cases hxa : x = a
    · left
      rw [hxa, Function.update_self]
    · right
      exact ⟨e, by rw [Function.update_of_ne hxa, hx], Bundle.Same.refl e⟩
  freed x hx := by
    rw [hcells]
    by_cases hxa : x = a
    · rw [hxa, Function.update_self]
    · rw [Function.update_of_ne hxa, hx]
  generated x e hx he := by
    rw [hcells] at he
    by_cases hxa : x = a
    · rw [hxa, Function.update_self] at he
      cases he
    · rw [Function.update_of_ne hxa, hx] at he
      cases he
  count := hcount

theorem bundleDrop_freed (p : BundleProcessor) (a : Addr) :
    Ends AnyFault (p.bundleDrop a) fun q => q = p.setCell a .freed := by
  refine (load_any p a).bind fun b _ => ?_
  split
  · exact ends_error (E := AnyFault) trivial
  · exact (load_any p a).bind fun _ _ => rfl

theorem bundleStorageDelete_store (p : BundleProcessor) (id : Nat) :
    Ends AnyFault (p.bundleStorageDelete id) fun q =>
      ∃ store, q = { p with store := store } := by
  unfold bundleStorageDelete
  split
  · exact ends_ok ⟨p.store, rfl⟩
  · refine (load_any p _).bind fun b _ => ?_
    cases p.store.bundleStorageDelete (fun _ => some b.payload.val.length) id with
    | error e => exact ends_error (E := AnyFault) trivial
    | ok r => exact ends_ok ⟨r.2, rfl⟩

theorem bundleDiscard_freed (p : BundleProcessor) (a : Addr) :
    Ends AnyFault (p.bundleDiscard a) fun q =>
      q.cells = Function.update p.cells a .freed ∧
        q.acceptedBundleCount = p.acceptedBundleCount := by
  refine (load_any p a).bind fun b _ => ?_
  refine (bundleStorageDelete_store p b.id).bind fun q hq => ?_
  obtain ⟨store, rfl⟩ := hq
  refine (bundleDrop_freed _ a).imp fun r hr => ?_
  rw [hr]
  exact ⟨rfl, rfl⟩

theorem bundleDiscard_proceeds (p : BundleProcessor) (a : Addr) :
    Ends AnyFault (p.bundleDiscard a) (Proceeds env s p) :=
  (bundleDiscard_freed p a).imp fun _ hq => freed_proceeds hq.1 hq.2

theorem bundleRemRc_proceeds (p : BundleProcessor) (a : Addr)
    (clear : RetConstraints → RetConstraints) (discard : Bool) :
    Ends AnyFault (p.bundleRemRc a clear discard) (Proceeds env s p) := by
  refine Proceeds.bind (modify_proceeds p a fun _ => rfl) fun q _ => ?_
  refine (load_any q a).bind fun b _ => ?_
  split
  · exact bundleDiscard_proceeds q a
  · exact Proceeds.refl q

theorem onlyIf_proceeds {f : BundleProcessor → Except Fault BundleProcessor}
    (condition : Bool) (h : Ends AnyFault (f p) (Proceeds env s p)) :
    Ends AnyFault (p.onlyIf condition f) (Proceeds env s p) := by
  unfold onlyIf
  split
  · exact h
  · exact Proceeds.refl p

/-! ## Reports, deletion and forwarding -/

theorem encapsulateRecord_header (b : Bundle) (destination : Eid)
    (r : ReportInput) (payload : Payload) :
    Ends AnyFault (encapsulateRecord env b destination r payload)
      fun report => ∀ x ∈ report,
        x.2.payload = payload ∧ x.2.destination = destination := by
  unfold encapsulateRecord
  dsimp only
  split
  · exact ends_ok (by simp)
  · split
    · exact ends_error (E := AnyFault) trivial
    · split
      · exact ends_ok (by simp [createLocal])
      · exact ends_error (E := AnyFault) trivial

theorem generateStatusReport_generates (b : Bundle) (status : StatusReportStatus)
    (reason : StatusReportReason) (r : ReportInput) :
    Ends AnyFault (generateStatusReport env b status reason r)
      fun report => ∀ x ∈ report, IsStatusReport env x.2 := by
  unfold generateStatusReport
  split
  · rename_i payload _ hpayload
    split
    · refine (encapsulateRecord_header b b.reportTo r payload).imp ?_
      intro report hreport x hx
      exact ⟨b, status, reason, r.milliTime, by rw [(hreport x hx).1, hpayload]⟩
    · split
      · dsimp only
        split
        · exact ends_ok (by simp)
        · refine ends_ok fun x hx => ?_
          obtain ⟨c, -, rfl⟩ := Option.map_eq_some_iff.mp hx
          exact ⟨b, status, reason, r.milliTime, hpayload⟩
      · exact ends_ok (by simp)
  · exact ends_ok (by simp)

theorem generateCustodySignal_generates (hsame : s.Same b)
    (signal : CustodySignal) (r : ReportInput) :
    Ends AnyFault (generateCustodySignal env b signal r)
      fun report => ∀ x ∈ report, IsCustodySignal env s signal.type x.2 := by
  unfold generateCustodySignal
  split
  · refine (encapsulateRecord_header b b.currentCustodian r _).imp ?_
    intro report hreport x hx
    obtain ⟨hpayload, hdestination⟩ := hreport x hx
    exact ⟨by rw [hdestination, hsame.custodian], b, signal.reason, r.milliTime,
      hsame, hpayload⟩
  · exact ends_ok (by simp)

/-- A forwarding function that accepts no custody. -/
def ForwardProceeds (env : Env)
    (forward : BundleProcessor → Addr → Except Fault BundleProcessor) : Prop :=
  ∀ s p a, p.acceptedBundleCount = 0 →
    Ends AnyFault (forward p a) (Proceeds env s p)

variable {forward : BundleProcessor → Addr → Except Fault BundleProcessor}

theorem dispatchReport_proceeds (hforward : ForwardProceeds env forward)
    (h : p.acceptedBundleCount = 0) (a : Addr) (r : ReportInput) :
    Ends AnyFault (dispatchReport forward p a r) (Proceeds env s p) := by
  unfold dispatchReport
  refine Proceeds.bind (bundleAddRc_proceeds p a _) fun q hq => ?_
  refine Proceeds.bind_snd (bundleStorageAdd_proceeds q a r.nodeMem) ?_
  intro t ht
  exact hforward s t.2 a ((ht.count.trans hq.count).trans h)

theorem nextReport_proceeds (p : BundleProcessor) (o : Inputs) :
    Proceeds env s p (p.nextReport o).2 :=
  Proceeds.of_cells rfl rfl

theorem sendStatusReportWith_proceeds (hforward : ForwardProceeds env forward)
    (h : p.acceptedBundleCount = 0) (a : Addr) (status : StatusReportStatus)
    (reason : StatusReportReason) :
    Ends AnyFault (p.sendStatusReportWith env o forward a status reason)
      (Proceeds env s p) := by
  unfold sendStatusReportWith
  split
  · exact Proceeds.refl p
  · refine (load_any p a).bind fun b _ => ?_
    split
    · exact Proceeds.refl p
    · dsimp only
      have hnext : Proceeds env s p (p.nextReport o).2 := nextReport_proceeds p o
      refine (generateStatusReport_generates b status reason _).bind ?_
      intro report hreport
      cases report with
      | none => exact hnext
      | some x =>
        refine Ends.imp (Proceeds.bind (allocate_proceeds _ x.1
          (.inl (hreport x rfl))) fun q hq => ?_) fun q hq => hnext.trans hq
        exact dispatchReport_proceeds hforward (hq.count.trans h) x.1 _

theorem sendCustodySignalWith_proceeds (hforward : ForwardProceeds env forward)
    (h : p.acceptedBundleCount = 0)
    (hs : ∀ b, p.cells a = .live b → s.Same b) (reason : Nat) :
    Ends AnyFault (p.sendCustodySignalWith env o forward a ⟨.refusal, reason⟩)
      (Proceeds env s p) := by
  unfold sendCustodySignalWith
  refine (load_any p a).bind fun b hb => ?_
  dsimp only
  have hnext : Proceeds env s p (p.nextReport o).2 := nextReport_proceeds p o
  refine (generateCustodySignal_generates (hs b hb) _ _).bind ?_
  intro report hreport
  cases report with
  | none => exact hnext
  | some x =>
    refine Ends.imp (Proceeds.bind (allocate_proceeds _ x.1
      (.inr (hreport x rfl))) fun q hq => ?_) fun q hq => hnext.trans hq
    split
    · exact dispatchReport_proceeds hforward (hq.count.trans h) x.1 _
    · exact Proceeds.refl q

theorem custodyManagerRelease_none (h : p.acceptedBundleCount = 0) (a : Addr) :
    p.custodyManagerRelease a = .ok p := by
  have hnone : p.getIndex a = none := by
    rw [getIndex, accepted, h]
    rfl
  rw [custodyManagerRelease, hnone]

theorem bundleDeleteWith_proceeds (hforward : ForwardProceeds env forward)
    (h : p.acceptedBundleCount = 0) (a : Addr) (reason : StatusReportReason) :
    Ends AnyFault (p.bundleDeleteWith env o forward a reason)
      (Proceeds env s p) := by
  unfold bundleDeleteWith
  refine (load_any p a).bind fun b _ => ?_
  refine Proceeds.bind (onlyIf_proceeds _ ?_) fun q hq => ?_
  · rw [custodyManagerRelease_none h]
    exact Proceeds.refl p
  · have hqcount := hq.count.trans h
    refine Proceeds.bind (onlyIf_proceeds _ ?_) fun r hr => ?_
    · exact sendStatusReportWith_proceeds hforward hqcount a .bundleDeleted reason
    · refine Proceeds.bind (modify_proceeds r a fun _ => rfl) fun t _ => ?_
      exact bundleDiscard_proceeds t a

theorem hopCountValidationWith_proceeds (hforward : ForwardProceeds env forward)
    (h : p.acceptedBundleCount = 0) (a : Addr) :
    Ends AnyFault (p.hopCountValidationWith env o forward a) fun r =>
      Proceeds env s p r.2 := by
  unfold hopCountValidationWith
  refine (load_any p a).bind fun b _ => ?_
  split
  · exact Proceeds.refl p
  · split
    · exact Proceeds.refl p
    · split
      · exact (bundleDeleteWith_proceeds hforward h a _).bind fun q hq => hq
      · split
        · refine Ends.bind (Q := Proceeds env s p) ?_ fun q hq => hq
          exact modify_proceeds p a fun _ => rfl
        · exact Proceeds.refl p

theorem forwardAccepted_proceeds (p : BundleProcessor) (a : Addr) :
    Ends AnyFault (p.forwardAccepted a) (Proceeds env s p) := by
  unfold forwardAccepted
  refine Proceeds.bind (bundleAddRc_proceeds p a _) fun q _ => ?_
  refine Proceeds.bind (bundleRemRc_proceeds q a _ false) fun r _ => ?_
  refine (load_any r a).bind fun b _ => ?_
  exact Proceeds.of_cells rfl rfl

theorem bundleForwardN_proceeds (env : Env) (o : Inputs) (depth : Nat) :
    ForwardProceeds env (bundleForwardN env o depth) := by
  induction depth with
  | zero =>
    intro s p a _
    exact ends_error (E := AnyFault) trivial
  | succ depth ih =>
    intro s p a h
    rw [bundleForwardN]
    refine Proceeds.bind_snd (hopCountValidationWith_proceeds ih h a) ?_
    intro r _
    dsimp only
    split
    · exact forwardAccepted_proceeds r.2 a
    · exact Proceeds.refl r.2

theorem bundleForward_proceeds (env : Env) (o : Inputs) :
    ForwardProceeds env (bundleForward env o) :=
  bundleForwardN_proceeds env o 2

theorem sendStatusReport_proceeds (h : p.acceptedBundleCount = 0) (a : Addr)
    (status : StatusReportStatus) (reason : StatusReportReason) :
    Ends AnyFault (p.sendStatusReport env o a status reason) (Proceeds env s p) :=
  sendStatusReportWith_proceeds (bundleForward_proceeds env o) h a status reason

theorem refuse_proceeds (h : p.acceptedBundleCount = 0)
    (hs : ∀ b, p.cells a = .live b → s.Same b) (reason : Nat) :
    Ends AnyFault (p.sendCustodySignal env o a ⟨.refusal, reason⟩)
      (Proceeds env s p) :=
  sendCustodySignalWith_proceeds (bundleForward_proceeds env o) h hs reason

theorem bundleDelete_proceeds (h : p.acceptedBundleCount = 0) (a : Addr)
    (reason : StatusReportReason) :
    Ends AnyFault (p.bundleDelete env o a reason) (Proceeds env s p) :=
  bundleDeleteWith_proceeds (bundleForward_proceeds env o) h a reason

/-! ## Reassembly and delivery -/

/-- A function that only reads. -/
theorem ends_any {α : Type} (m : Except Fault α) :
    Ends AnyFault m fun _ => True := by
  cases m with
  | ok x => exact ends_ok trivial
  | error e => exact ends_error (E := AnyFault) trivial

theorem bundleHandleCustodySignal_proceeds (h : p.acceptedBundleCount = 0)
    (record : AdministrativeRecord) :
    Ends AnyFault (p.bundleHandleCustodySignal record) (Proceeds env s p) := by
  have hnone : p.accepted = [] := by
    rw [accepted, h]
    rfl
  rw [bundleHandleCustodySignal, custodyManagerGetByRecord, find, hnone,
    findEntry, ok_bind]
  exact Proceeds.refl p

theorem bundleDeliverAdu_proceeds (h : p.acceptedBundleCount = 0) (b : Bundle)
    (adu : BundleAdu) :
    Ends AnyFault (p.bundleDeliverAdu env b adu) (Proceeds env s p) := by
  have hlog : Proceeds env s p { p with delivered := p.delivered ++
      [⟨adu, b.creationTimestamp, b.sequenceNumber⟩] } :=
    Proceeds.of_cells rfl rfl
  unfold bundleDeliverAdu
  dsimp only
  split
  · split
    · split
      · refine Ends.imp (bundleHandleCustodySignal_proceeds ?_ _) fun q hq =>
          hlog.trans hq
        exact h
      · exact ends_ok hlog
    · exact ends_ok hlog
  · split
    · exact ends_ok hlog
    · exact ends_error (E := AnyFault) trivial

theorem addKnown_proceeds (p : BundleProcessor) (o : Inputs) (b : Bundle) :
    Proceeds env s p (p.bundleAddReassembledAsKnown o b) := by
  unfold bundleAddReassembledAsKnown
  split
  · exact Proceeds.of_cells rfl rfl
  · exact Proceeds.refl p

theorem copyFragments_proceeds (aduLength : Nat) (entries : List Addr)
    (addedAsKnown : Bool) (payload : List (Option UInt8)) (pos : Nat) :
    Ends AnyFault (copyFragments o aduLength p entries addedAsKnown payload pos)
      fun r => Proceeds env s p r.2 := by
  induction entries generalizing p payload pos addedAsKnown with
  | nil => exact Proceeds.refl p
  | cons a rest ih =>
    unfold copyFragments
    refine (load_any p a).bind fun b _ => ?_
    dsimp only
    have hknown : Proceeds env s p (if addedAsKnown then p
        else p.bundleAddReassembledAsKnown o b) := by
      split
      · exact Proceeds.refl p
      · exact addKnown_proceeds p o b
    refine (ends_any _).bind fun copied _ => ?_
    refine Ends.bind (Q := Proceeds env s _) (bundleRemRc_proceeds _ a _ false)
      fun q hq => ?_
    refine Ends.bind (Q := Proceeds env s q) (bundleDiscard_proceeds q a)
      fun t ht => ?_
    refine (ih true _ _).imp fun r hr => ?_
    exact hknown.trans (hq.trans (ht.trans hr))

theorem tryReassemble_proceeds (h : p.acceptedBundleCount = 0) (index : Nat) :
    Ends AnyFault (p.tryReassemble env o index) (Proceeds env s p) := by
  unfold tryReassemble
  dsimp only
  refine (ends_any _).bind fun covered _ => ?_
  split
  · exact Proceeds.refl p
  · split
    · exact Proceeds.refl p
    · refine (load_any p _).bind fun b _ => ?_
      split
      · exact Proceeds.refl p
      · refine Proceeds.bind_snd (copyFragments_proceeds _ _ _ _ _) ?_
        intro r hr
        have herase : Proceeds env s r.2 { r.2 with
            reassemblyList := r.2.reassemblyList.eraseIdx index } :=
          Proceeds.of_cells rfl rfl
        refine Ends.imp (bundleDeliverAdu_proceeds ?_ b _) fun q hq =>
          herase.trans hq
        exact hr.count.trans h

theorem addToReassemblyBundleList_proceeds (h : p.acceptedBundleCount = 0)
    (entries : List Addr) (a : Addr) :
    Ends AnyFault (p.addToReassemblyBundleList env o entries a) fun r =>
      Proceeds env s p r.2 := by
  unfold addToReassemblyBundleList
  refine (ends_any _).bind fun inserted _ => ?_
  split
  · exact Proceeds.refl p
  · exact (bundleDelete_proceeds h a _).bind fun q hq => hq

theorem joinReassembly_proceeds (h : p.acceptedBundleCount = 0) (a : Addr) :
    Ends AnyFault (p.joinReassembly env o a) (Proceeds env s p) := by
  unfold joinReassembly
  refine (ends_any _).bind fun found _ => ?_
  cases found with
  | some index =>
    refine Proceeds.bind_snd (addToReassemblyBundleList_proceeds h _ a) ?_
    intro r hr
    have hset : Proceeds env s r.2 { r.2 with
        reassemblyList := r.2.reassemblyList.set index r.1 } :=
      Proceeds.of_cells rfl rfl
    refine Ends.imp (tryReassemble_proceeds ?_ index) fun q hq => hset.trans hq
    exact hr.count.trans h
  | none =>
    dsimp only
    split
    · exact bundleDelete_proceeds h a _
    · refine Proceeds.bind_snd (addToReassemblyBundleList_proceeds h _ a) ?_
      intro r hr
      have happend : Proceeds env s r.2 { r.2 with
          reassemblyList := r.2.reassemblyList ++ [r.1] } :=
        Proceeds.of_cells rfl rfl
      refine Ends.imp (tryReassemble_proceeds ?_ _) fun q hq => happend.trans hq
      exact hr.count.trans h

theorem bundleAttemptReassembly_proceeds (h : p.acceptedBundleCount = 0)
    (a : Addr) :
    Ends AnyFault (p.bundleAttemptReassembly env o a) (Proceeds env s p) := by
  unfold bundleAttemptReassembly
  refine (load_any p a).bind fun b _ => ?_
  refine Proceeds.bind (onlyIf_proceeds _ ?_) fun q hq => ?_
  · unfold discardFragment
    refine Proceeds.bind (bundleRemRc_proceeds p a _ false) fun q _ => ?_
    exact bundleDiscard_proceeds q a
  · exact joinReassembly_proceeds (hq.count.trans h) a

/-! ## The handlers -/

theorem deliverNew_proceeds (h : p.acceptedBundleCount = 0) (a : Addr) :
    Ends AnyFault (p.deliverNew env o a) (Proceeds env s p) := by
  unfold deliverNew
  refine (load_any p a).bind fun b _ => ?_
  split
  · exact bundleDelete_proceeds h a _
  · split
    · refine Proceeds.bind (bundleAddRc_proceeds p a _) fun q hq => ?_
      exact bundleAttemptReassembly_proceeds (hq.count.trans h) a
    · dsimp only
      -- The bundle loses its payload, but it is freed at once.
      refine (bundleDiscard_freed _ a).bind fun q hq => ?_
      obtain ⟨hcells, hcount⟩ := hq
      have hfreed : Proceeds env s p q :=
        freed_proceeds (a := a) (by rw [hcells, setCell, Function.update_idem])
          hcount
      exact (bundleDeliverAdu_proceeds (hfreed.count.trans h) b _).imp
        fun r hr => hfreed.trans hr

theorem bundleDeliverLocal_proceeds (h : p.acceptedBundleCount = 0) (a : Addr) :
    Ends AnyFault (p.bundleDeliverLocal env o a) (Proceeds env s p) := by
  unfold bundleDeliverLocal
  refine Proceeds.bind (bundleRemRc_proceeds p a _ false) fun q hq => ?_
  refine (load_any q a).bind fun b _ => ?_
  dsimp only
  have hrecord : Proceeds env s q { q with knownBundleList :=
      (bundleRecordAddAndCheckKnown o b q.knownBundleList).2 } :=
    Proceeds.of_cells rfl rfl
  have hcount := hq.count.trans h
  split
  · exact (bundleDiscard_proceeds _ a).imp fun r hr => hrecord.trans hr
  · refine Ends.imp (Proceeds.bind (onlyIf_proceeds _ ?_) fun r hr => ?_)
      fun r hr => hrecord.trans hr
    · refine sendStatusReport_proceeds ?_ a _ _
      exact hcount
    · exact deliverNew_proceeds (hr.count.trans hcount) a

theorem bundleDispatch_proceeds (h : p.acceptedBundleCount = 0) (a : Addr) :
    Ends AnyFault (p.bundleDispatch env o a) (Proceeds env s p) := by
  unfold bundleDispatch
  refine (load_any p a).bind fun b _ => ?_
  split
  · exact bundleDeliverLocal_proceeds h a
  · exact bundleForward_proceeds env o s p a h

theorem bundleForwardingSuccess_proceeds (h : p.acceptedBundleCount = 0)
    (a : Addr) :
    Ends AnyFault (p.bundleForwardingSuccess env o a) (Proceeds env s p) := by
  unfold bundleForwardingSuccess
  refine (load_any p a).bind fun b _ => ?_
  refine Proceeds.bind (onlyIf_proceeds _ ?_) fun q _ => ?_
  · exact sendStatusReport_proceeds h a _ _
  · refine Proceeds.bind (bundleRemRc_proceeds q a _ false) fun r _ => ?_
    exact bundleRemRc_proceeds r a _ true

/-- What is left of a bundle. -/
theorem Proceeds.subject (h : Proceeds env s p q) {d : Bundle}
    (hd : p.cells a = .live d) : ∀ b, q.cells a = .live b → d.Same b := by
  intro b hb
  rcases h.kept a d hd with hfreed | ⟨c, hc, hsame⟩
  · rw [hfreed] at hb
    cases hb
  · rw [hc] at hb
    rwa [← Cell.live.inj hb]

theorem bundleForwardingFailed_proceeds (h : p.acceptedBundleCount = 0)
    (hs : p.cells a = .live s) (reason : StatusReportReason) :
    Ends AnyFault (p.bundleForwardingFailed env o a reason)
      (Proceeds env s p) := by
  unfold bundleForwardingFailed
  refine (load_any p a).bind fun b _ => ?_
  refine Proceeds.bind (onlyIf_proceeds _ ?_) fun q hq => ?_
  · refine refuse_proceeds h (fun b hb => ?_) _
    rw [hs] at hb
    rw [Cell.live.inj hb]
    exact Bundle.Same.refl b
  · exact bundleDelete_proceeds (hq.count.trans h) a reason

theorem bundleDangling_proceeds (h : p.acceptedBundleCount = 0) (a : Addr) :
    Ends AnyFault (p.bundleDangling env o a) (Proceeds env s p) := by
  unfold bundleDangling
  refine (load_any p a).bind fun b _ => ?_
  dsimp only
  split
  · exact ends_ok (Proceeds.of_cells rfl rfl)
  · exact bundleDelete_proceeds h a _

theorem handleUnknownBlockFlags_proceeds (h : p.acceptedBundleCount = 0)
    (a : Addr) (flags : UInt32) :
    Ends AnyFault (p.handleUnknownBlockFlags env o a flags) fun r =>
      r.1 = unknownBlockResult flags ∧ Proceeds env s p r.2 := by
  unfold handleUnknownBlockFlags
  refine Ends.bind (Q := Proceeds env s p) (onlyIf_proceeds _ ?_) fun q hq => ?_
  · exact sendStatusReport_proceeds h a _ _
  · exact ⟨rfl, hq⟩

/-- The loop over the blocks keeps what the handling of one unknown block keeps; `I`
may count the blocks. -/
theorem handleBlocks_run {E : Fault → Prop}
    {I : Nat → BundleProcessor → Prop} {n : Nat}
    (hmono : ∀ {n k : Nat} {p : BundleProcessor}, n ≤ k → I n p → I k p)
    (hstep : ∀ {n : Nat} {p : BundleProcessor} (flags : UInt32), I n p →
      Ends E (p.handleUnknownBlockFlags env o a flags) fun r =>
        r.1 = unknownBlockResult flags ∧ I (n + 1) r.2)
    (blocks : List BlockEntry) (h : I n p) :
    Ends E (handleBlocks env o a p blocks) fun r => I (n + blocks.length) r.2 := by
  induction blocks using blocksLeft.induct generalizing n p with
  | case1 => exact ends_ok h
  | case2 rest ih =>
    rw [handleBlocks]
    refine (ih h).bind fun r hr => ?_
    exact ends_ok (hmono (by simp) hr)
  | case3 block rest htype ih =>
    simp only [handleBlocks, if_pos htype]
    refine (ih h).bind fun r hr => ?_
    exact ends_ok (hmono (by simp) hr)
  | case4 block rest htype hresult ih =>
    simp only [handleBlocks, if_neg htype]
    refine (hstep block.flags h).bind fun r hr => ?_
    obtain ⟨hr1, hq⟩ := hr
    simp only [hr1, hresult]
    refine (ih hq).bind fun t ht => ?_
    exact ends_ok (hmono (by simp; omega) ht)
  | case5 block rest htype hresult =>
    simp only [handleBlocks, if_neg htype]
    refine (hstep block.flags h).bind fun r hr => ?_
    obtain ⟨hr1, hq⟩ := hr
    simp only [hr1, hresult]
    exact ends_ok (hmono (by simp) hq)
  | case6 block htype hresult =>
    simp only [handleBlocks, if_neg htype]
    refine (hstep block.flags h).bind fun r hr => ?_
    obtain ⟨hr1, hq⟩ := hr
    simp only [hr1, hresult]
    exact ends_ok (hmono (by simp) hq)
  | case7 block htype hresult next rest ih =>
    simp only [handleBlocks, if_neg htype]
    refine (hstep block.flags h).bind fun r hr => ?_
    obtain ⟨hr1, hq⟩ := hr
    simp only [hr1, hresult]
    refine (ih hq).bind fun t ht => ?_
    exact ends_ok (hmono (by simp; omega) ht)

theorem handleBlocks_proceeds (h : p.acceptedBundleCount = 0) (a : Addr)
    (blocks : List BlockEntry) :
    Ends AnyFault (handleBlocks env o a p blocks) fun r =>
      Proceeds env s p r.2 := by
  refine handleBlocks_run (I := fun _ q => Proceeds env s p q) (n := 0)
    (fun _ hq => hq) (fun {n q} flags hq => ?_) blocks (Proceeds.refl p)
  refine (handleUnknownBlockFlags_proceeds (s := s) (hq.count.trans h) a flags).imp
    fun r hr => ?_
  exact ⟨hr.1, hq.trans hr.2⟩

theorem receiveAccepted_proceeds (h : p.acceptedBundleCount = 0)
    (hs : ∀ b, p.cells a = .live b → s.Same b) :
    Ends AnyFault (p.receiveAccepted env o a) (Proceeds env s p) := by
  unfold receiveAccepted
  refine (load_any p a).bind fun b _ => ?_
  split
  · refine (ends_any _).bind fun redundant _ => ?_
    split
    · refine Proceeds.bind (refuse_proceeds h hs _) fun q _ => ?_
      exact bundleRemRc_proceeds q a _ true
    · refine (ends_any _).bind fun acceptable _ => ?_
      split
      · refine Proceeds.bind (refuse_proceeds h hs _) fun q hq => ?_
        exact bundleDelete_proceeds (hq.count.trans h) a _
      · exact Proceeds.refl p
  · exact bundleDispatch_proceeds h a

theorem bundleReceive_proceeds (h : p.acceptedBundleCount = 0)
    (hs : p.cells a = .live s) :
    Ends AnyFault (p.bundleReceive env o a) (Proceeds env s p) := by
  unfold bundleReceive
  have hadd : Ends AnyFault (p.bundleAddRc a .addDispatchPending)
      (Proceeds env s p) := bundleAddRc_proceeds p a _
  refine hadd.bind fun q hq => ?_
  refine (load_any q a).bind fun b _ => ?_
  have hreport : Ends AnyFault (q.onlyIf (b.hasProcFlag ProcFlag.reportReception)
      (·.sendStatusReport env o a .bundleReceived .noInfo))
      (Proceeds env s q) :=
    onlyIf_proceeds _ (sendStatusReport_proceeds (hq.count.trans h) a _ _)
  refine hreport.bind fun r hr => ?_
  have hpr := hq.trans hr
  have hcount := hpr.count.trans h
  split
  · exact (bundleDelete_proceeds hcount a _).imp fun t ht => hpr.trans ht
  · refine (handleBlocks_proceeds (s := s) hcount a b.blocks).bind fun t ht => ?_
    have hpt := hpr.trans ht
    have htcount := hpt.count.trans h
    dsimp only
    split
    · exact (bundleDelete_proceeds htcount a _).imp fun u hu => hpt.trans hu
    · rename_i blocks _
      have hmodify : Ends AnyFault
          (t.2.modify a fun b => { b with blocks := blocks })
          (Proceeds env s t.2) := modify_proceeds t.2 a fun _ => rfl
      refine hmodify.bind fun u hu => ?_
      have hpu := hpt.trans hu
      exact (receiveAccepted_proceeds (hpu.count.trans h) (hpu.subject hs)).imp
        fun v hv => hpu.trans hv

/-- The signal leads to the acceptance of custody. -/
def AcceptsCustody (p : BundleProcessor) (signal : BundleProcessorSignal) :
    Prop :=
  signal.type = .bundleRouted ∧
    ∃ a b, p.bundleStorageGet signal.bundle = some a ∧ p.cells a = .live b ∧
      b.hasProcFlag ProcFlag.custodyTransferRequested = true ∧
      b.retConstraints.custodyAccepted = false ∧ b.protocolVersion = 6

/-- Without the acceptance `bundle_forwarding_scheduled` does nothing. -/
theorem bundleForwardingScheduled_idle {b : Bundle} (hb : p.cells a = .live b)
    (hno : ¬ (b.hasProcFlag ProcFlag.custodyTransferRequested = true ∧
      b.retConstraints.custodyAccepted = false ∧ b.protocolVersion = 6)) :
    p.bundleForwardingScheduled env o a = .ok p := by
  rw [bundleForwardingScheduled, load_of_live hb, ok_bind, if_neg]
  · rfl
  · intro hc
    simp only [Bool.and_eq_true, Bool.not_eq_true', beq_iff_eq] at hc
    exact hno ⟨hc.1.1, hc.1.2, hc.2⟩

theorem handleType_proceeds (h : p.acceptedBundleCount = 0)
    (hs : p.cells a = .live s) {signal : BundleProcessorSignal}
    (hget : p.bundleStorageGet signal.bundle = some a)
    (hno : ¬ p.AcceptsCustody signal) (count : Nat) :
    Ends AnyFault (({ p with reports := count } : BundleProcessor).handleType
      env o a signal) (Proceeds env s p) := by
  set t : BundleProcessor := { p with reports := count } with ht
  have hcount : t.acceptedBundleCount = 0 := h
  have hlive : t.cells a = .live s := hs
  have hpt : Proceeds env s p t := Proceeds.of_cells rfl rfl
  refine Ends.imp (Q := Proceeds env s t) ?_ fun q hq => hpt.trans hq
  unfold handleType
  split
  · exact bundleReceive_proceeds hcount hlive
  · rename_i htype
    rw [bundleForwardingScheduled_idle hlive fun hc =>
      hno ⟨htype, a, s, hget, hs, hc⟩]
    exact Proceeds.refl t
  · exact bundleForwardingFailed_proceeds hcount hlive _
  · exact bundleDelete_proceeds hcount a _
  · exact bundleDangling_proceeds hcount a
  · exact bundleForwardingSuccess_proceeds hcount a
  · exact bundleForwardingFailed_proceeds hcount hlive _
  · exact bundleDispatch_proceeds hcount a
  · exact Proceeds.refl t

/-- Every handler reads the bundle first. -/
theorem handleType_of_load {e : Fault} (h : p.load a = .error e)
    {signal : BundleProcessorSignal} (htype : signal.type ≠ .invalid) :
    p.handleType env o a signal = .error e := by
  have hdelete : ∀ reason, p.bundleDelete env o a reason = .error e := by
    intro reason
    rw [bundleDelete, bundleDeleteWith, h]
    rfl
  have hfailed : ∀ reason, p.bundleForwardingFailed env o a reason
      = .error e := by
    intro reason
    rw [bundleForwardingFailed, h]
    rfl
  unfold handleType
  split
  · rw [bundleReceive, bundleAddRc, modify, h]
    rfl
  · rw [bundleForwardingScheduled, h]
    rfl
  · exact hfailed _
  · exact hdelete _
  · rw [bundleDangling, h]
    rfl
  · rw [bundleForwardingSuccess, h]
    rfl
  · exact hfailed _
  · rw [bundleDispatch, h]
    rfl
  · rename_i hinvalid
    exact absurd hinvalid htype

/-- What a signal does that does not lead to an acceptance. -/
theorem handleSignal_proceeds (h : p.acceptedBundleCount = 0)
    {signal : BundleProcessorSignal} (hno : ¬ p.AcceptsCustody signal)
    (hok : p.handleSignal env o signal = .ok q) :
    (q.cells = p.cells ∧ q.acceptedBundleCount = p.acceptedBundleCount) ∨
      ∃ a s, p.bundleStorageGet signal.bundle = some a ∧
        p.cells a = .live s ∧ Proceeds env s p q := by
  unfold handleSignal at hok
  cases hget : p.bundleStorageGet signal.bundle with
  | none =>
    rw [hget] at hok
    left
    rw [← Except.ok.inj hok]
    exact ⟨rfl, rfl⟩
  | some a =>
    rw [hget] at hok
    dsimp only at hok
    cases hload : p.load a with
    | ok s =>
      right
      have hs := live_of_load hload
      exact ⟨a, s, rfl, hs, (handleType_proceeds h hs hget hno 0).ok hok⟩
    | error e =>
      by_cases htype : signal.type = .invalid
      · left
        rw [handleType, htype] at hok
        rw [← Except.ok.inj hok]
        exact ⟨rfl, rfl⟩
      · have hload' : ({ p with reports := 0 } : BundleProcessor).load a
            = .error e := hload
        rw [handleType_of_load hload' htype] at hok
        cases hok

/-! ## Runs -/

/-- The processor, and for each address the bundle that was received there. -/
structure Watched where
  processor : BundleProcessor
  received : Addr → Option Bundle

/-- What happens to the processor. -/
inductive Event where
  /-- A parser puts a bundle into the store. -/
  | received (a : Addr) (b : Bundle) (nodeMem : Bool)
  | signalled (o : Inputs) (signal : BundleProcessorSignal)

/-- One event. -/
inductive Turn (env : Env) : Watched → Event → Watched → Prop where
  | received {w : Watched} {a : Addr} {b : Bundle} {nodeMem : Bool} {id : Nat}
      {q : BundleProcessor} (hfresh : w.processor.cells a = .unused)
      (hadd : (w.processor.setCell a (.live b)).bundleStorageAdd a nodeMem
        = .ok (id, q)) :
      Turn env w (.received a b nodeMem)
        ⟨q, Function.update w.received a (some b)⟩
  | signalled {w : Watched} {o : Inputs} {signal : BundleProcessorSignal}
      {q : BundleProcessor}
      (hok : w.processor.handleSignal env o signal = .ok q) :
      Turn env w (.signalled o signal) ⟨q, w.received⟩

/-- The event leads to the acceptance of custody. -/
def Event.Accepts (w : Watched) : Event → Prop
  | .received _ _ _ => False
  | .signalled _ signal => w.processor.AcceptsCustody signal

/-- An event that leads to no acceptance. -/
def Calm (env : Env) (w w' : Watched) : Prop :=
  ∃ e, Turn env w e w' ∧ ¬ e.Accepts w

/-- The state in which a run starts. -/
def Watched.start : Watched := ⟨.initial, fun _ => none⟩

/-- What every state of a run keeps. -/
structure CustodiansKept (w : Watched) : Prop where
  count : w.processor.acceptedBundleCount = 0
  custodian : ∀ a b b₀, w.processor.cells a = .live b →
    w.received a = some b₀ → b.currentCustodian = b₀.currentCustodian
  used : ∀ a b₀, w.received a = some b₀ → w.processor.cells a ≠ .unused

theorem custodiansKept_start : CustodiansKept .start where
  count := rfl
  custodian a b b₀ _ h := by cases h
  used a b₀ h := by cases h

theorem CustodiansKept.proceeds {w : Watched} (h : CustodiansKept w)
    (hq : Proceeds env s w.processor q) : CustodiansKept ⟨q, w.received⟩ where
  count := hq.count.trans h.count
  custodian a b b₀ hb hreceived := by
    cases hc : w.processor.cells a with
    | unused => exact absurd hc (h.used a b₀ hreceived)
    | freed =>
      rw [hq.freed a hc] at hb
      cases hb
    | live c =>
      rw [(hq.subject hc b hb).custodian]
      exact h.custodian a c b₀ hc hreceived
  used a b₀ hreceived := by
    cases hc : w.processor.cells a with
    | unused => exact absurd hc (h.used a b₀ hreceived)
    | freed => simp [hq.freed a hc]
    | live c =>
      rcases hq.kept a c hc with hfreed | ⟨d, hd, -⟩
      · simp [hfreed]
      · simp [hd]

theorem CustodiansKept.receive {w : Watched} (h : CustodiansKept w) (b : Bundle) :
    CustodiansKept ⟨w.processor.setCell a (.live b),
      Function.update w.received a (some b)⟩ where
  count := h.count
  custodian x c b₀ hc hreceived := by
    dsimp only at hc hreceived
    by_cases hx : x = a
    · subst hx
      rw [cells_setCell_self] at hc
      rw [Function.update_self] at hreceived
      rw [← Cell.live.inj hc, ← Option.some.inj hreceived]
    · rw [cells_setCell_of_ne hx] at hc
      rw [Function.update_of_ne hx] at hreceived
      exact h.custodian x c b₀ hc hreceived
  used x b₀ hreceived := by
    dsimp only at hreceived ⊢
    by_cases hx : x = a
    · rw [hx, cells_setCell_self]
      simp
    · rw [Function.update_of_ne hx] at hreceived
      rw [cells_setCell_of_ne hx]
      exact h.used x b₀ hreceived

theorem CustodiansKept.turn {w w' : Watched} (h : CustodiansKept w)
    (hcalm : Calm env w w') : CustodiansKept w' := by
  obtain ⟨e, hturn, hno⟩ := hcalm
  cases hturn with
  | @received a b nodeMem id q hfresh hadd =>
    have hset := h.receive (a := a) b
    have hstored : Proceeds env b (w.processor.setCell a (.live b)) q :=
      (bundleStorageAdd_proceeds _ a nodeMem).ok hadd
    exact hset.proceeds hstored
  | @signalled o signal q hok =>
    rcases handleSignal_proceeds h.count hno hok with ⟨hcells, hcount⟩ |
      ⟨a, s, -, -, hq⟩
    · have hsame : Proceeds env (createLocal 6 0 .none [] [] (o.reports 0) 0
          Payload.empty) w.processor q := Proceeds.of_cells hcells hcount
      exact h.proceeds hsame
    · exact h.proceeds hq

theorem custodiansKept_run {w : Watched}
    (hrun : Relation.ReflTransGen (Calm env) .start w) : CustodiansKept w := by
  induction hrun with
  | refl => exact custodiansKept_start
  | tail _ hcalm ih => exact ih.turn hcalm

/-- What the custody protocol asks for in a state: the custodian of a bundle
is the one it was received with, no custody is held, the `ASSERT`s of
`custody_manager_accept` do not fail, and each bundle that the next signal
makes is a status report or a refusal to the custodian that the bundle was
received with. -/
structure CustodyHonoured (env : Env) (w : Watched) : Prop where
  kept : CustodiansKept w
  noAssert : ∀ o signal, signal.type = .bundleRouted →
    ¬ w.processor.AcceptsCustody signal →
      w.processor.handleSignal env o signal ≠ .error .assertion
  addressed : ∀ o signal q, ¬ w.processor.AcceptsCustody signal →
    w.processor.handleSignal env o signal = .ok q →
      ∀ c x, w.processor.cells c = .unused → q.cells c = .live x →
        IsStatusReport env x ∨ ∃ a b,
          w.processor.bundleStorageGet signal.bundle = some a ∧
            w.processor.cells a = .live b ∧ IsCustodySignal env b .refusal x ∧
            ∀ b₀, w.received a = some b₀ → x.destination = b₀.currentCustodian

theorem handleSignal_routed_noAssert {signal : BundleProcessorSignal}
    (htype : signal.type = .bundleRouted) (hno : ¬ p.AcceptsCustody signal) :
    p.handleSignal env o signal ≠ .error .assertion := by
  unfold handleSignal
  cases hget : p.bundleStorageGet signal.bundle with
  | none => simp
  | some a =>
    dsimp only
    rw [handleType, htype]
    dsimp only
    cases hload : p.load a with
    | ok b =>
      have hb := live_of_load hload
      have hb' : ({ p with reports := 0 } : BundleProcessor).cells a = .live b :=
        hb
      rw [bundleForwardingScheduled_idle hb' fun hc =>
        hno ⟨htype, a, b, hget, hb, hc⟩]
      simp
    | error e =>
      have hload' : ({ p with reports := 0 } : BundleProcessor).load a
          = .error e := hload
      have he : e ≠ .assertion := by
        unfold load at hload
        split at hload <;> cases hload <;> simp
      rw [bundleForwardingScheduled, hload', error_bind]
      simpa using he

/-- In a run in which custody is never accepted, the custody protocol is kept
in every state. -/
theorem custody_run (env : Env) (w : Watched)
    (hrun : Relation.ReflTransGen (Calm env) .start w) :
    CustodyHonoured env w := by
  have hkept := custodiansKept_run hrun
  refine ⟨hkept, fun o signal htype hno => handleSignal_routed_noAssert htype hno,
    ?_⟩
  intro o signal q hno hok c x hc hx
  rcases handleSignal_proceeds hkept.count hno hok with ⟨hcells, -⟩ |
    ⟨a, s, hget, hs, hq⟩
  · rw [hcells, hc] at hx
    cases hx
  · rcases hq.generated c x hc hx with hreport | hsignal
    · left
      exact hreport
    · right
      refine ⟨a, s, hget, hs, hsignal, fun b₀ hreceived => ?_⟩
      rw [hsignal.1]
      exact hkept.custodian a s b₀ hs hreceived

/-! ## Acceptance -/

/-- After `custody_manager_accept` the bundle names the node itself, and so
does the custody signal that is generated from it. -/
theorem custodyManagerAccept_toItself
    (hok : p.custodyManagerAccept env a = .ok (true, q)) :
    ∃ b, q.cells a = .live b ∧ b.currentCustodian = env.localEid := by
  unfold custodyManagerAccept at hok
  obtain ⟨redundant, -, hok⟩ := bind_eq_ok hok
  split at hok
  · cases hok
  · obtain ⟨acceptable, -, hok⟩ := bind_eq_ok hok
    split at hok
    · cases hok
    · obtain ⟨t, -, hok⟩ := bind_eq_ok hok
      obtain ⟨b, hb, hok⟩ := bind_eq_ok hok
      split at hok
      · rw [modify_of_live (live_of_load hb), ok_bind] at hok
        have hq : t.setCell a (.live { b with currentCustodian := env.localEid })
            = q := congrArg Prod.snd (Except.ok.inj hok)
        rw [← hq]
        exact ⟨_, cells_setCell_self _, rfl⟩
      · cases hok

end BundleProcessor

/-! ## A refusal and an acceptance -/

/-- A node as before whose custody signals have the byte of
`bundle6_generate_custody_signal` as their payload. -/
def signallingEnv : Env :=
  { plainEnv with
    custodySignalRecord := fun _ signal _ =>
      ⟨[UInt8.ofNat (signal.reason % 128) |||
        (if signal.type = .acceptance then 128 else 0)], by simp⟩ }

/-- The allocations for one report succeed. -/
def signallingInputs : Inputs :=
  { plainInputs 1002 with
    reports := fun _ => ⟨true, some 5, true, true, 1002, 1002, 1002, 1002⟩ }

/-- A bundle in the custody of `dtn:prev`, for another node. -/
def entrusted (procFlags : UInt32) : Bundle :=
  { plainFragment 0 0 0 ⟨[1, 2], length_oneTwo⟩ with
    protocolVersion := 6
    procFlags := ProcFlag.custodyTransferRequested ||| procFlags
    destination := "dtn:c".toList
    currentCustodian := "dtn:prev".toList }

namespace BundleProcessor

theorem calm_twice {env : Env} {w w' w'' : Watched} (e e' : Event)
    (h : Turn env w e w') (hno : ¬ e.Accepts w) (h' : Turn env w' e' w'')
    (hno' : ¬ e'.Accepts w') : Relation.ReflTransGen (Calm env) w w'' :=
  (Relation.ReflTransGen.single ⟨e, h, hno⟩).tail ⟨e', h', hno'⟩

/-- The reception of a bundle for no single endpoint. -/
def refusedReception : Event × Event :=
  (.received 1 (entrusted 0) true,
    .signalled signallingInputs ⟨.bundleIncoming, .noInfo, 1⟩)

/-- The bundle is refused, and the protocol is kept. -/
theorem custody_run_refused :
    ∃ w x, Relation.ReflTransGen (Calm signallingEnv) .start w ∧
      w.processor.cells 5 = .live x ∧ x.payload.val = [4] ∧
      x.destination = "dtn:prev".toList ∧ CustodyHonoured signallingEnv w := by
  have hnot : ¬ (BundleProcessorSignalType.bundleIncoming = .bundleRouted) := by
    decide
  exact ⟨_, _, calm_twice refusedReception.1 refusedReception.2
      (.received rfl rfl) (fun h => h) (.signalled rfl) (fun h => hnot h.1),
    rfl, by decide, rfl,
    custody_run signallingEnv _ (calm_twice refusedReception.1
      refusedReception.2 (.received rfl rfl) (fun h => h) (.signalled rfl)
      (fun h => hnot h.1))⟩

/-- A bundle that could be stored is accepted when it is routed, and the
acceptance goes to the node itself and not to `dtn:prev`. -/
theorem acceptance_toItself :
    ∃ w w' x,
      Turn signallingEnv .start
        (.received 1 (entrusted ProcFlag.singletonEndpoint) true) w ∧
      Turn signallingEnv w
        (.signalled signallingInputs ⟨.bundleRouted, .noInfo, 1⟩) w' ∧
      w.processor.cells 5 = .unused ∧ w'.processor.cells 5 = .live x ∧
      x.payload.val = [128] ∧ x.destination = signallingEnv.localEid ∧
      x.destination ≠ (entrusted ProcFlag.singletonEndpoint).currentCustodian :=
  ⟨_, _, _, .received rfl rfl, .signalled rfl, rfl, rfl, by decide, rfl,
    by decide⟩

end BundleProcessor

end Upcn
