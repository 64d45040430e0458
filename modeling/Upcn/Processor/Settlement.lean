import Mathlib.Data.List.Perm.Basic
import Upcn.Processor.Assembly
import Upcn.Processor.Fate

/-!
# Who is responsible for a received bundle

`Responsibility` lists the ways in which the handling of a received bundle
may leave it: dropped, with the router task, with the reassembly, or
delivered.  `Settled` says that exactly one of them holds.

`Ready` is the state in which a handler works on a bundle.  There is one
lemma for each exit of `bundle_receive`, and `handleSignal_settles` puts them
together: the bundle is settled at every exit but two.
-/

namespace Upcn

open Outcome Store

/-- The handler stops: what is left are the failures other than an access to
memory that is not there. -/
def Fault.Stops (e : Fault) : Prop := e ≠ .useAfterFree ∧ e ≠ .wildPointer

theorem Fault.ReportFails.stops {e : Fault} (h : e.ReportFails) : e.Stops := by
  rcases h with rfl | rfl | ⟨s, rfl, -⟩ <;> simp [Stops]

theorem Fault.DiscardFails.stops {e : Fault} (h : e.DiscardFails) : e.Stops := by
  rcases h with h | rfl
  · exact h.stops
  · simp [Stops]

namespace BundleProcessor

variable {env : Env} {o : Inputs} {p q s : BundleProcessor} {a c : Addr}
  {b : Bundle}

/-- The entries of the custody list are live bundles in custody. -/
def CustodyFlagged (p : BundleProcessor) : Prop :=
  ∀ c ∈ p.accepted, ∃ e, p.cells c = .live e ∧
    e.retConstraints.custodyAccepted = true

/-- The entries of the reassembly lists are live, and no list has one
twice. -/
def ReassemblyLive (p : BundleProcessor) : Prop :=
  ∀ l ∈ p.reassemblyList, l.Nodup ∧ ∀ c ∈ l, ∃ e, p.cells c = .live e

/-- The state in which a handler works on the bundle `b` at `a`, which no
list refers to. -/
structure Ready (p : BundleProcessor) (a : Addr) (b : Bundle) : Prop where
  registered : p.Registered
  live : p.cells a = .live b
  custody : p.CustodyFlagged
  reassembly : p.ReassemblyLive
  uncustodied : a ∉ p.accepted
  unlisted : ∀ l ∈ p.reassemblyList, a ∉ l

theorem CustodyFlagged.custodyLive (h : p.CustodyFlagged) : p.CustodyLive := by
  intro c hc
  obtain ⟨e, he, -⟩ := h c hc
  exact ⟨e, he⟩

theorem Ready.keeps (h : p.Ready a b) {b' : Bundle} (hk : p.Keeps a b' q)
    (hid : b'.id = b.id) : q.Ready a b' where
  registered := hk.registered h.registered h.live hid
  live := hk.live
  custody := by
    intro c hc
    rw [hk.accepted] at hc
    have hne : c ≠ a := fun hca => h.uncustodied (hca ▸ hc)
    obtain ⟨e, he, hflag⟩ := h.custody c hc
    exact ⟨e, by rw [hk.of_ne hne (by simp [he]), he], hflag⟩
  reassembly := by
    intro l hl
    rw [hk.reassemblyList] at hl
    refine ⟨(h.reassembly l hl).1, fun c hc => ?_⟩
    have hne : c ≠ a := fun hca => h.unlisted l hl (hca ▸ hc)
    obtain ⟨e, he⟩ := (h.reassembly l hl).2 c hc
    exact ⟨e, by rw [hk.of_ne hne (by simp [he]), he]⟩
  uncustodied := by
    rw [hk.accepted]
    exact h.uncustodied
  unlisted := by
    rw [hk.reassemblyList]
    exact h.unlisted

theorem Ready.recorded (h : p.Ready a b) (b' : Bundle) :
    (p.recorded o b').Ready a b :=
  ⟨⟨h.registered.stored, h.registered.live⟩, h.live, h.custody, h.reassembly,
    h.uncustodied, h.unlisted⟩

/-! ## Discards -/

/-- What is freed stays freed. -/
def StaysFreed (p q : BundleProcessor) : Prop :=
  ∀ x, p.cells x = .freed → q.cells x = .freed

theorem staysFreed_removed : p.StaysFreed (p.removed a b) := by
  intro x hx
  by_cases hxa : x = a
  · rw [hxa, cells_removed_self]
  · rw [cells_removed_of_ne hxa, hx]

theorem StaysFreed.trans {r : BundleProcessor} (h : p.StaysFreed q)
    (h' : q.StaysFreed r) : p.StaysFreed r :=
  fun x hx => h' x (h x hx)

/-- `bundle_discard` frees the bundle or fails in an `ASSERT`. -/
theorem bundleDiscard_stops (hreg : p.Registered) (h : p.cells a = .live b) :
    Ends Fault.Stops (p.bundleDiscard a) fun q =>
      b.retConstraints = .none ∧ q = p.removed a b := by
  by_cases hret : b.retConstraints = .none
  · refine (bundleDiscard_ends hreg h hret).mono (fun e he => he.stops) ?_
    exact fun q hq => ⟨hret, hq⟩
  · rw [bundleDiscard, load_of_live h, ok_bind]
    have hdelete : Ends Fault.Stops (p.bundleStorageDelete b.id) fun q =>
        q.cells = p.cells := by
      unfold bundleStorageDelete
      split
      · exact ends_ok rfl
      · rename_i c hc
        obtain ⟨-, e, he, -⟩ := hreg.stored b.id c hc
        rw [load_of_live he, ok_bind]
        cases p.store.bundleStorageDelete
            (fun _ => some e.payload.val.length) b.id with
        | error e => exact ends_error (E := Fault.Stops) (by simp [Fault.Stops])
        | ok r => exact ends_ok (Q := fun q : BundleProcessor =>
            q.cells = p.cells) rfl
    refine hdelete.bind fun q hq => ?_
    rw [bundleDrop, load_of_live (hq ▸ h), ok_bind, if_pos hret]
    exact ends_error (E := Fault.Stops) (by simp [Fault.Stops])

theorem CustodyFlagged.removed (hcust : p.CustodyFlagged)
    (h : p.cells a = .live b)
    (hflag : b.retConstraints.custodyAccepted = false) (b' : Bundle) :
    (p.removed a b').CustodyFlagged := by
  intro c hc
  obtain ⟨e, he, heflag⟩ := hcust c hc
  have hne : c ≠ a := by
    rintro rfl
    rw [h] at he
    rw [Cell.live.inj he, heflag] at hflag
    cases hflag
  exact ⟨e, by rw [cells_removed_of_ne hne, he], heflag⟩

/-- Without custody, `bundle_delete` is a discard up to reports. -/
theorem bundleDelete_stops (hready : p.Ready a b)
    (hflag : b.retConstraints.custodyAccepted = false)
    (reason : StatusReportReason) :
    Ends Fault.Stops (p.bundleDelete env o a reason) fun q =>
      q.cells a = .freed ∧ q.Registered ∧ q.CustodyFlagged ∧
        q.reassemblyList = p.reassemblyList ∧ q.delivered = p.delivered ∧
        (∀ x, x ≠ a → p.cells x ≠ .unused → q.cells x = p.cells x) := by
  have hdel : p.Deletable a b := by
    intro hcust
    rw [hflag] at hcust
    cases hcust
  have hreleased : p.releasedFor a b = p := by
    rw [releasedFor, hflag, if_neg (by simp)]
  refine (bundleDelete_ends hready.registered hready.live hdel reason).mono
    (fun e he => he.stops) ?_
  rintro q ⟨r, hr, rfl⟩
  rw [hreleased] at hr
  have hready' := hready.keeps hr rfl
  refine ⟨cells_removed_self, hready'.registered.removed hready'.live,
    hready'.custody.removed hready'.live rfl _, hr.reassemblyList,
    hr.delivered, fun x hx hp => ?_⟩
  rw [cells_removed_of_ne hx, hr.of_ne hx hp]

/-! ## Reassembly -/

/-- The store, the memory and the custody list fit together. -/
structure Coherent (p : BundleProcessor) : Prop where
  registered : p.Registered
  custody : p.CustodyFlagged

theorem Ready.coherent (h : p.Ready a b) : p.Coherent := ⟨h.registered, h.custody⟩

theorem copyFragment_stops (aduLength : Nat) (b : Bundle)
    (payload : List (Option UInt8)) (pos : Nat) :
    Ends Fault.Stops (copyFragment aduLength b payload pos) fun _ => True := by
  unfold copyFragment
  dsimp only
  split
  · refine Ends.bind (Q := fun _ => True) ?_ fun _ _ => trivial
    unfold copyBytes
    split
    · exact ends_error (by simp [Fault.Stops])
    · exact trivial
  · exact trivial

/-- What the second loop of `try_reassemble` does to a fragment after it is
copied. -/
theorem discardFragment_stops (hp : p.Coherent) (h : p.cells a = .live b) :
    Ends Fault.Stops (p.discardFragment a) fun q =>
      q.Coherent ∧ q.cells a = .freed ∧
        (∀ x, x ≠ a → q.cells x = p.cells x) ∧ q.delivered = p.delivered ∧
        q.reassemblyList = p.reassemblyList := by
  set b' : Bundle := { b with
    retConstraints := b.retConstraints.remReassemblyPending } with hb'
  have hlive : (p.setCell a (.live b')).cells a = .live b' := cells_setCell_self _
  have hreg : (p.setCell a (.live b')).Registered := hp.registered.setCell h rfl
  rw [discardFragment, bundleRemRc_keep h, ok_bind]
  refine (bundleDiscard_stops hreg hlive).imp ?_
  rintro q ⟨hret, rfl⟩
  have hflag : b.retConstraints.custodyAccepted = false :=
    congrArg RetConstraints.custodyAccepted hret
  have hcells : ∀ x, x ≠ a →
      ((p.setCell a (.live b')).removed a b').cells x = p.cells x := by
    intro x hx
    rw [cells_removed_of_ne hx, cells_setCell_of_ne hx]
  refine ⟨⟨hreg.removed hlive, fun c hc => ?_⟩, cells_removed_self, hcells, rfl,
    rfl⟩
  obtain ⟨e, he, heflag⟩ := hp.custody c hc
  have hne : c ≠ a := by
    rintro rfl
    rw [h] at he
    rw [Cell.live.inj he, heflag] at hflag
    cases hflag
  exact ⟨e, by rw [hcells c hne, he], heflag⟩

theorem Coherent.addKnown (h : p.Coherent) (b : Bundle) :
    (p.bundleAddReassembledAsKnown o b).Coherent := by
  unfold bundleAddReassembledAsKnown
  split
  · exact ⟨⟨h.registered.stored, h.registered.live⟩, h.custody⟩
  · exact h

@[simp] theorem cells_addKnown (b : Bundle) :
    (p.bundleAddReassembledAsKnown o b).cells = p.cells := by
  unfold bundleAddReassembledAsKnown
  split <;> rfl

@[simp] theorem delivered_addKnown (b : Bundle) :
    (p.bundleAddReassembledAsKnown o b).delivered = p.delivered := by
  unfold bundleAddReassembledAsKnown
  split <;> rfl

/-- The second loop of `try_reassemble` frees every fragment. -/
theorem copyFragments_stops (hp : p.Coherent) {entries : List Addr}
    (hnodup : entries.Nodup) (hlive : ∀ c ∈ entries, ∃ e, p.cells c = .live e)
    (aduLength : Nat) (addedAsKnown : Bool) (payload : List (Option UInt8))
    (pos : Nat) :
    Ends Fault.Stops (copyFragments o aduLength p entries addedAsKnown payload pos)
      fun r => r.2.Coherent ∧ p.StaysFreed r.2 ∧
        (∀ c ∈ entries, r.2.cells c = .freed) ∧ r.2.delivered = p.delivered := by
  induction entries generalizing p payload pos addedAsKnown with
  | nil => exact ⟨hp, fun _ hx => hx, by simp, rfl⟩
  | cons a rest ih =>
    obtain ⟨e, he⟩ := hlive a List.mem_cons_self
    unfold copyFragments
    rw [load_of_live he, ok_bind]
    dsimp only
    set p' := if addedAsKnown then p else p.bundleAddReassembledAsKnown o e
      with hp'
    have hcoh : p'.Coherent ∧ p'.cells = p.cells ∧ p'.delivered = p.delivered := by
      rw [hp']
      split
      · exact ⟨hp, rfl, rfl⟩
      · exact ⟨hp.addKnown e, cells_addKnown e, delivered_addKnown e⟩
    obtain ⟨hcoh, hcells, hdelivered⟩ := hcoh
    refine (copyFragment_stops aduLength e payload pos).bind ?_
    rintro ⟨payload', pos'⟩ -
    dsimp only
    rw [← bind_assoc]
    refine (discardFragment_stops (a := a) (b := e) hcoh (hcells ▸ he)).bind ?_
    rintro q ⟨hq, hqa, hqx, hqd, -⟩
    have hrest : ∀ c ∈ rest, ∃ e, q.cells c = .live e := by
      intro c hc
      have hne : c ≠ a := fun hca => (List.nodup_cons.mp hnodup).1 (hca ▸ hc)
      rw [hqx c hne, hcells]
      exact hlive c (List.mem_cons_of_mem _ hc)
    refine (ih hq (List.nodup_cons.mp hnodup).2 hrest true payload' pos').imp ?_
    rintro r ⟨hr, hfreed, hall, hrd⟩
    refine ⟨hr, fun x hx => hfreed x ?_, fun c hc => ?_, ?_⟩
    · by_cases hxa : x = a
      · rw [hxa, hqa]
      · rw [hqx x hxa, hcells, hx]
    · rcases List.mem_cons.mp hc with rfl | hc
      · exact hfreed c hqa
      · exact hall c hc
    · rw [hrd, hqd, hdelivered]

theorem mem_of_entryFound {test : Bundle → Bool} (h : p.entryFound test = some c) :
    c ∈ p.accepted :=
  List.mem_of_find?_eq_some h

/-- A custody signal may free the bundle that it releases, and no other. -/
theorem bundleHandleCustodySignal_stops (hp : p.Coherent)
    (record : AdministrativeRecord) :
    Ends Fault.Stops (p.bundleHandleCustodySignal record) fun q =>
      q.Registered ∧ p.StaysFreed q ∧ q.delivered = p.delivered := by
  rw [bundleHandleCustodySignal, custodyManagerGetByRecord,
    find_of_live hp.custody.custodyLive, ok_bind]
  split
  · exact ⟨hp.registered, fun _ hx => hx, rfl⟩
  · rename_i c hc
    obtain ⟨e, he, hflag⟩ := hp.custody c (mem_of_entryFound hc)
    rw [custodyManagerRelease_of_live he]
    split
    · exact ⟨hp.registered, fun _ hx => hx, rfl⟩
    · dsimp only
      have he' : (p.withoutEntry c).cells c = .live e := by rw [cells_withoutEntry, he]
      have hreg : ((p.withoutEntry c).setCell c (.live { e with
          retConstraints := e.retConstraints.remCustodyAccepted })).Registered :=
        (hp.registered.withoutEntry (a := c)).setCell he' rfl
      have hstay : p.StaysFreed ((p.withoutEntry c).setCell c (.live { e with
          retConstraints := e.retConstraints.remCustodyAccepted })) := by
        intro x hx
        have hne : x ≠ c := by
          rintro rfl
          rw [he] at hx
          cases hx
        rw [cells_setCell_of_ne hne, cells_withoutEntry, hx]
      split
      · refine (bundleDiscard_stops hreg (cells_setCell_self _)).imp ?_
        rintro q ⟨-, rfl⟩
        refine ⟨hreg.removed (cells_setCell_self _),
          hstay.trans staysFreed_removed, ?_⟩
        simp [removed]
      · exact ⟨hreg, hstay, by simp⟩

theorem bundleDeliverAdu_stops (hp : p.Coherent) (b : Bundle) (adu : BundleAdu) :
    Ends Fault.Stops (p.bundleDeliverAdu env b adu) fun q =>
      q.Registered ∧ p.StaysFreed q ∧ q.delivered = p.delivered ++
        [⟨adu, b.creationTimestamp, b.sequenceNumber⟩] := by
  set p' : BundleProcessor := { p with
    delivered := p.delivered ++ [⟨adu, b.creationTimestamp, b.sequenceNumber⟩] }
    with hp'
  have hcoh : p'.Coherent :=
    ⟨⟨hp.registered.stored, hp.registered.live⟩, hp.custody⟩
  have hself : p'.Registered ∧ p.StaysFreed p' ∧ p'.delivered = p.delivered ++
      [⟨adu, b.creationTimestamp, b.sequenceNumber⟩] :=
    ⟨hcoh.registered, fun _ hx => hx, rfl⟩
  unfold bundleDeliverAdu
  dsimp only
  rw [← hp']
  split
  · split
    · split
      · exact (bundleHandleCustodySignal_stops hcoh _).imp fun q hq => hq
      · exact ends_ok hself
    · exact ends_ok hself
  · split
    · exact ends_ok hself
    · exact ends_error (by simp [Fault.Stops])

/-- The ADU comes from the same original as the bundle. -/
def IsDeliveryOf (d : Delivery) (b : Bundle) : Prop :=
  d.creationTimestamp = b.creationTimestamp ∧
    d.sequenceNumber = b.sequenceNumber ∧ d.adu.source = b.source

theorem coversAdu_stops {entries : List Addr}
    (hlive : ∀ c ∈ entries, ∃ e, p.cells c = .live e) (pos : Nat) :
    Ends Fault.Stops (p.coversAdu entries pos) fun _ => True := by
  induction entries generalizing pos with
  | nil => exact trivial
  | cons c rest ih =>
    obtain ⟨e, he⟩ := hlive c List.mem_cons_self
    rw [coversAdu, load_of_live he, ok_bind]
    split
    · exact trivial
    · dsimp only
      split
      · exact trivial
      · exact ih (fun x hx => hlive x (List.mem_cons_of_mem _ hx)) _

/-- `try_reassemble` leaves everything as it is, or it frees all fragments
and delivers an ADU. -/
theorem tryReassemble_stops (hp : p.Coherent) {index : Nat} {entries : List Addr}
    (hentries : p.reassemblyList.getD index [] = entries)
    (hnodup : entries.Nodup) (hlive : ∀ c ∈ entries, ∃ e, p.cells c = .live e) :
    Ends Fault.Stops (p.tryReassemble env o index) fun q => q = p ∨
      q.Registered ∧ p.StaysFreed q ∧ (∀ c ∈ entries, q.cells c = .freed) ∧
        ∃ first e d, entries.head? = some first ∧ p.cells first = .live e ∧
          q.delivered = p.delivered ++ [d] ∧ IsDeliveryOf d e := by
  unfold tryReassemble
  dsimp only
  rw [hentries]
  refine (coversAdu_stops hlive 0).bind fun covered _ => ?_
  split
  · exact ends_ok (.inl rfl)
  · cases entries with
    | nil => exact ends_ok (.inl rfl)
    | cons first rest =>
      obtain ⟨e, he⟩ := hlive first List.mem_cons_self
      dsimp only
      rw [load_of_live he, ok_bind]
      split
      · exact ends_ok (.inl rfl)
      · refine (copyFragments_stops hp hnodup hlive _ false _ 0).bind ?_
        rintro ⟨payload, q⟩ ⟨hq, hstay, hfreed, hdelivered⟩
        dsimp only at hq hstay hfreed hdelivered ⊢
        have hcoh : ({ q with reassemblyList := q.reassemblyList.eraseIdx index } :
            BundleProcessor).Coherent :=
          ⟨⟨hq.registered.stored, hq.registered.live⟩, hq.custody⟩
        refine (bundleDeliverAdu_stops hcoh e _).imp fun r hr => .inr ?_
        obtain ⟨hreg, hrstay, hrd⟩ := hr
        refine ⟨hreg, hstay.trans hrstay, fun c hc => hrstay c (hfreed c hc),
          first, e, ⟨{ e.bundleAduInit with payload := payload },
            e.creationTimestamp, e.sequenceNumber⟩, rfl, he, ?_, rfl, rfl, rfl⟩
        rw [hrd]
        exact congrArg (· ++ _) hdelivered

theorem insertFragment_of_live {entries : List Addr} (ha : p.cells a = .live b)
    (hlive : ∀ c ∈ entries, ∃ e, p.cells c = .live e) :
    ∃ inserted, p.insertFragment a entries = .ok inserted ∧
      inserted.Perm (a :: entries) ∧
      (inserted.head? = some a ∨ inserted.head? = entries.head?) := by
  induction entries with
  | nil => exact ⟨[a], rfl, List.Perm.refl _, .inl rfl⟩
  | cons c rest ih =>
    obtain ⟨e, he⟩ := hlive c List.mem_cons_self
    obtain ⟨inserted, hins, hperm, -⟩ :=
      ih fun x hx => hlive x (List.mem_cons_of_mem _ hx)
    rw [insertFragment, load_of_live he, ok_bind, load_of_live ha, ok_bind]
    split
    · exact ⟨a :: c :: rest, rfl, List.Perm.refl _, .inl rfl⟩
    · rw [hins, ok_bind]
      exact ⟨c :: inserted, rfl,
        (hperm.cons c).trans (List.Perm.swap a c rest), .inr rfl⟩

/-- The list that the search finds starts with a fragment of the same
original. -/
theorem findReassemblyList_ends (ha : p.cells a = .live b)
    {lists : List (List Addr)}
    (hlive : ∀ l ∈ lists, ∀ c ∈ l, ∃ e, p.cells c = .live e) (start : Nat) :
    Ends Fault.Stops (p.findReassemblyList a lists start) fun r =>
      ∀ i, r = some i → ∃ k c rest e, i = start + k ∧
        lists[k]? = some (c :: rest) ∧ p.cells c = .live e ∧
        e.mayReassemble b = true := by
  induction lists generalizing start with
  | nil => exact ends_ok (by simp)
  | cons l lists ih =>
    cases l with
    | nil => exact ends_error (E := Fault.Stops) (by simp [Fault.Stops])
    | cons c rest =>
      obtain ⟨e, he⟩ := hlive _ List.mem_cons_self c List.mem_cons_self
      rw [findReassemblyList, load_of_live he, ok_bind, load_of_live ha, ok_bind]
      split
      · rename_i hmay
        refine ends_ok fun i hi => ?_
        obtain rfl := Option.some.inj hi
        exact ⟨0, c, rest, e, rfl, rfl, he, hmay⟩
      · refine (ih (fun l hl => hlive l (List.mem_cons_of_mem _ hl)) _).imp ?_
        rintro r hr i hi
        obtain ⟨k, d, rest', e', rfl, hk, he', hmay⟩ := hr i hi
        exact ⟨k + 1, d, rest', e', by omega, hk, he', hmay⟩

end BundleProcessor

/-! ## Responsibility -/

/-- Who is responsible for a bundle after it was handled. -/
inductive Responsibility where
  /-- The bundle was removed from the store and dropped. -/
  | dropped
  /-- The router task, to which its id was sent. -/
  | forwarding
  /-- The reassembly list, which holds it. -/
  | reassembling
  /-- Its ADU was delivered. -/
  | delivered
  deriving DecidableEq, Repr

/-- What the state `q` after the handling shows for the bundle `b` at `a`,
when `p` is the state before. -/
def Responsibility.Holds (p : BundleProcessor) (a : Addr) (b : Bundle)
    (q : BundleProcessor) : Responsibility → Prop
  | .dropped =>
    q.cells a = .freed ∧ (∀ id, q.store.bundles id ≠ some a) ∧
      q.delivered = p.delivered
  | .forwarding =>
    (∃ e, q.cells a = .live e ∧ e.retConstraints.forwardPending = true) ∧
      q.store.bundles b.id = some a ∧
      ∃ before, p.outQueue <+: before ∧ q.outQueue = before ++ [b.id]
  | .reassembling =>
    (∃ e, q.cells a = .live e ∧ e.retConstraints.reassemblyPending = true) ∧
      ∃ l ∈ q.reassemblyList, a ∈ l
  | .delivered =>
    q.cells a = .freed ∧ (∀ id, q.store.bundles id ≠ some a) ∧
      ∃ d, q.delivered = p.delivered ++ [d] ∧ BundleProcessor.IsDeliveryOf d b

/-- Exactly one is responsible for the bundle `b` at `a`. -/
def Settled (p : BundleProcessor) (a : Addr) (b : Bundle) (q : BundleProcessor) :
    Prop :=
  ∃! r : Responsibility, r.Holds p a b q

namespace BundleProcessor

variable {env : Env} {o : Inputs} {p q s : BundleProcessor} {a c : Addr}
  {b : Bundle}

theorem Registered.not_stored (h : q.Registered) (ha : q.cells a = .freed)
    (id : Nat) : q.store.bundles id ≠ some a := by
  intro hid
  obtain ⟨-, e, he, -⟩ := h.stored id a hid
  rw [ha] at he
  cases he

theorem settled_of_dropped (h : q.Registered) (ha : q.cells a = .freed)
    (hd : q.delivered = p.delivered) : Settled p a b q := by
  refine ⟨.dropped, ⟨ha, h.not_stored ha, hd⟩, ?_⟩
  intro r hr
  cases r with
  | dropped => rfl
  | forwarding =>
    obtain ⟨⟨e, he, -⟩, -⟩ := hr
    rw [ha] at he
    cases he
  | reassembling =>
    obtain ⟨⟨e, he, -⟩, -⟩ := hr
    rw [ha] at he
    cases he
  | delivered =>
    obtain ⟨-, -, d, hdelivered, -⟩ := hr
    rw [hd] at hdelivered
    simp at hdelivered

theorem settled_of_delivered (h : q.Registered) (ha : q.cells a = .freed)
    {d : Delivery} (hd : q.delivered = p.delivered ++ [d])
    (hof : IsDeliveryOf d b) : Settled p a b q := by
  refine ⟨.delivered, ⟨ha, h.not_stored ha, d, hd, hof⟩, ?_⟩
  intro r hr
  cases r with
  | delivered => rfl
  | forwarding =>
    obtain ⟨⟨e, he, -⟩, -⟩ := hr
    rw [ha] at he
    cases he
  | reassembling =>
    obtain ⟨⟨e, he, -⟩, -⟩ := hr
    rw [ha] at he
    cases he
  | dropped =>
    obtain ⟨-, -, hdelivered⟩ := hr
    rw [hd] at hdelivered
    simp at hdelivered

theorem settled_of_reassembling {e : Bundle} (ha : q.cells a = .live e)
    (hflag : e.retConstraints.reassemblyPending = true)
    (hforward : e.retConstraints.forwardPending = false)
    {l : List Addr} (hl : l ∈ q.reassemblyList) (hal : a ∈ l) :
    Settled p a b q := by
  refine ⟨.reassembling, ⟨⟨e, ha, hflag⟩, l, hl, hal⟩, ?_⟩
  intro r hr
  cases r with
  | reassembling => rfl
  | forwarding =>
    obtain ⟨⟨e', he', hflag'⟩, -⟩ := hr
    rw [ha] at he'
    rw [← Cell.live.inj he', hforward] at hflag'
    cases hflag'
  | dropped =>
    rw [hr.1] at ha
    cases ha
  | delivered =>
    rw [hr.1] at ha
    cases ha

theorem settled_of_forwarding {e : Bundle} (ha : q.cells a = .live e)
    (hflag : e.retConstraints.forwardPending = true)
    (hreassembly : e.retConstraints.reassemblyPending = false)
    (hs : q.store.bundles b.id = some a) {before : List Nat}
    (hbefore : p.outQueue <+: before) (hqueue : q.outQueue = before ++ [b.id]) :
    Settled p a b q := by
  refine ⟨.forwarding, ⟨⟨e, ha, hflag⟩, hs, before, hbefore, hqueue⟩, ?_⟩
  intro r hr
  cases r with
  | forwarding => rfl
  | reassembling =>
    obtain ⟨⟨e', he', hflag'⟩, -⟩ := hr
    rw [ha] at he'
    rw [← Cell.live.inj he', hreassembly] at hflag'
    cases hflag'
  | dropped =>
    rw [hr.1] at ha
    cases ha
  | delivered =>
    rw [hr.1] at ha
    cases ha

/-! ## The exits -/

theorem bundleDelete_settled (h : s.Ready a b)
    (hd : s.delivered = p.delivered)
    (hflag : b.retConstraints.custodyAccepted = false)
    (reason : StatusReportReason) :
    Ends Fault.Stops (s.bundleDelete env o a reason) (Settled p a b) := by
  refine (bundleDelete_stops h hflag reason).imp ?_
  rintro q ⟨hfreed, hreg, -, -, hdelivered, -⟩
  exact settled_of_dropped hreg hfreed (hdelivered.trans hd)

theorem IsDeliveryOf.of_mayReassemble {d : Delivery} {e : Bundle}
    (h : IsDeliveryOf d e) (hmay : e.mayReassemble b = true) :
    IsDeliveryOf d b := by
  simp only [Bundle.mayReassemble, Bool.and_eq_true, beq_iff_eq] at hmay
  obtain ⟨⟨hcreation, hsequence⟩, hsource⟩ := hmay
  obtain ⟨h1, h2, h3⟩ := h
  exact ⟨h1.trans hcreation, h2.trans hsequence, h3.trans hsource⟩

/-- The bundle is in the list at `index`: it is held, or its ADU is
delivered. -/
theorem tryReassemble_settled (hcoh : s.Coherent) {index : Nat}
    {entries : List Addr} (hentries : s.reassemblyList[index]? = some entries)
    (hnodup : entries.Nodup) (hlive : ∀ c ∈ entries, ∃ e, s.cells c = .live e)
    (ha : s.cells a = .live b) (hmem : a ∈ entries)
    (hflag : b.retConstraints.reassemblyPending = true)
    (hforward : b.retConstraints.forwardPending = false)
    (hd : s.delivered = p.delivered)
    (hfirst : ∀ first e, entries.head? = some first → s.cells first = .live e →
      e.mayReassemble b = true) :
    Ends Fault.Stops (s.tryReassemble env o index) (Settled p a b) := by
  have hget : s.reassemblyList.getD index [] = entries := by
    rw [List.getD_eq_getElem?_getD, hentries]
    rfl
  refine (tryReassemble_stops hcoh hget hnodup hlive).imp ?_
  rintro q (rfl | ⟨hreg, -, hfreed, first, e, d, hhead, he, hdelivered, hof⟩)
  · exact settled_of_reassembling ha hflag hforward
      (List.mem_of_getElem? hentries) hmem
  · rw [hd] at hdelivered
    exact settled_of_delivered hreg (hfreed a hmem) hdelivered
      (hof.of_mayReassemble (hfirst first e hhead he))

theorem mayReassemble_self (b : Bundle) : b.mayReassemble b = true := by
  simp [Bundle.mayReassemble]

/-- The bundle was dropped, and the list at `index` may still be reassembled.
-/
theorem tryReassemble_of_dropped (hcoh : s.Coherent) {index : Nat}
    {entries : List Addr} (hentries : s.reassemblyList.getD index [] = entries)
    (hnodup : entries.Nodup) (hlive : ∀ c ∈ entries, ∃ e, s.cells c = .live e)
    (ha : s.cells a = .freed) (hd : s.delivered = p.delivered)
    (hfirst : ∀ first e, entries.head? = some first → s.cells first = .live e →
      e.mayReassemble b = true) :
    Ends Fault.Stops (s.tryReassemble env o index) (Settled p a b) := by
  refine (tryReassemble_stops hcoh hentries hnodup hlive).imp ?_
  rintro q (rfl | ⟨hreg, hstay, -, first, e, d, hhead, he, hdelivered, hof⟩)
  · exact settled_of_dropped hcoh.registered ha hd
  · rw [hd] at hdelivered
    exact settled_of_delivered hreg (hstay a ha) hdelivered
      (hof.of_mayReassemble (hfirst first e hhead he))

/-- A fragment that starts a list. -/
theorem startList_settled {p₀ : BundleProcessor} (h : p.Ready a b)
    (hd : p.delivered = p₀.delivered)
    (hflag : b.retConstraints.reassemblyPending = true)
    (hforward : b.retConstraints.forwardPending = false)
    (hcustody : b.retConstraints.custodyAccepted = false) :
    Ends Fault.Stops (do
      let (entries, q) ← p.addToReassemblyBundleList env o [] a
      let q := { q with reassemblyList := q.reassemblyList ++ [entries] }
      q.tryReassemble env o p.reassemblyList.length) (Settled p₀ a b) := by
  unfold addToReassemblyBundleList
  rw [insertFragment, ok_bind]
  cases o.entryMem with
  | true =>
    rw [if_pos rfl]
    have hlast : (p.reassemblyList ++ [[a]])[p.reassemblyList.length]?
        = some [a] := by simp
    refine tryReassemble_settled (s := { p with
      reassemblyList := p.reassemblyList ++ [[a]] })
      ⟨⟨h.registered.stored, h.registered.live⟩, h.custody⟩ hlast
      (List.nodup_singleton a) ?_ h.live (List.mem_singleton_self a) hflag
      hforward hd ?_
    · intro c hc
      rw [List.mem_singleton.mp hc]
      exact ⟨b, h.live⟩
    · intro first e hhead he
      obtain rfl : a = first := by simpa using hhead
      rw [show e = b from (Cell.live.inj (h.live.symm.trans he)).symm]
      exact mayReassemble_self b
  | false =>
    rw [if_neg (by simp)]
    refine Ends.bind (Q := fun r : List Addr × BundleProcessor =>
      r.1 = [] ∧ r.2.cells a = .freed ∧ r.2.Coherent ∧
        r.2.reassemblyList = p.reassemblyList ∧
        r.2.delivered = p.delivered) ?_ ?_
    · refine (bundleDelete_stops h hcustody _).bind ?_
      rintro q ⟨hfreed, hreg, hcust, hlist, hqd, -⟩
      exact ⟨rfl, hfreed, ⟨hreg, hcust⟩, hlist, hqd⟩
    · rintro ⟨entries, q⟩ ⟨rfl, hfreed, hcoh, hlist, hqd⟩
      dsimp only at hfreed hcoh hlist hqd ⊢
      refine tryReassemble_of_dropped (s := { q with
        reassemblyList := q.reassemblyList ++ [[]] })
        ⟨⟨hcoh.registered.stored, hcoh.registered.live⟩, hcoh.custody⟩
        ?_ List.nodup_nil (by simp) hfreed
        (hqd.trans hd) (by simp)
      rw [hlist]
      simp

/-- A fragment that joins a list. -/
theorem joinList_settled {p₀ : BundleProcessor} (h : p.Ready a b)
    (hd : p.delivered = p₀.delivered)
    (hflag : b.retConstraints.reassemblyPending = true)
    (hforward : b.retConstraints.forwardPending = false)
    (hcustody : b.retConstraints.custodyAccepted = false) {k : Nat} {c : Addr}
    {rest : List Addr} {e : Bundle} (hk : p.reassemblyList[k]? = some (c :: rest))
    (he : p.cells c = .live e) (hmay : e.mayReassemble b = true) :
    Ends Fault.Stops (do
      let (entries, q) ← p.addToReassemblyBundleList env o (c :: rest) a
      let q := { q with reassemblyList := q.reassemblyList.set k entries }
      q.tryReassemble env o k) (Settled p₀ a b) := by
  have hmem := List.mem_of_getElem? hk
  have hlt : k < p.reassemblyList.length := (List.getElem?_eq_some_iff.mp hk).1
  have hnodup := (h.reassembly _ hmem).1
  have hlive := (h.reassembly _ hmem).2
  obtain ⟨inserted, hins, hperm, hhead⟩ := insertFragment_of_live h.live hlive
  unfold addToReassemblyBundleList
  rw [hins, ok_bind]
  cases o.entryMem with
  | true =>
    rw [if_pos rfl]
    refine tryReassemble_settled (s := { p with
      reassemblyList := p.reassemblyList.set k inserted })
      ⟨⟨h.registered.stored, h.registered.live⟩, h.custody⟩
      (List.getElem?_set_self hlt) ?_ ?_ h.live
      (hperm.mem_iff.mpr List.mem_cons_self) hflag hforward hd ?_
    · exact hperm.nodup_iff.mpr
        (List.nodup_cons.mpr ⟨h.unlisted _ hmem, hnodup⟩)
    · intro x hx
      rcases List.mem_cons.mp (hperm.mem_iff.mp hx) with rfl | hx
      · exact ⟨b, h.live⟩
      · exact hlive x hx
    · intro first e' hfirst he'
      rcases hhead with ha | hc
      · obtain rfl : a = first := by simpa [ha] using hfirst
        rw [show e' = b from (Cell.live.inj (h.live.symm.trans he')).symm]
        exact mayReassemble_self b
      · obtain rfl : c = first := by simpa [hc] using hfirst
        rw [show e' = e from (Cell.live.inj (he.symm.trans he')).symm]
        exact hmay
  | false =>
    rw [if_neg (by simp)]
    refine Ends.bind (Q := fun r : List Addr × BundleProcessor =>
      r.1 = c :: rest ∧ r.2.cells a = .freed ∧ r.2.Coherent ∧
        r.2.reassemblyList = p.reassemblyList ∧
        r.2.delivered = p.delivered ∧
        ∀ x, x ≠ a → p.cells x ≠ .unused → r.2.cells x = p.cells x) ?_ ?_
    · refine (bundleDelete_stops h hcustody _).bind ?_
      rintro q ⟨hfreed, hreg, hcust, hlist, hqd, hcells⟩
      exact ⟨rfl, hfreed, ⟨hreg, hcust⟩, hlist, hqd, hcells⟩
    · rintro ⟨entries, q⟩ ⟨rfl, hfreed, hcoh, hlist, hqd, hcells⟩
      dsimp only at hfreed hcoh hlist hqd hcells ⊢
      have hsame : ∀ x ∈ c :: rest, ∃ e, p.cells x = .live e ∧
          q.cells x = .live e := by
        intro x hx
        obtain ⟨e, he⟩ := hlive x hx
        have hne : x ≠ a := fun hxa => h.unlisted _ hmem (hxa ▸ hx)
        exact ⟨e, he, by rw [hcells x hne (by simp [he]), he]⟩
      refine tryReassemble_of_dropped (s := { q with
        reassemblyList := q.reassemblyList.set k (c :: rest) })
        ⟨⟨hcoh.registered.stored, hcoh.registered.live⟩, hcoh.custody⟩
        ?_ hnodup ?_ hfreed
        (hqd.trans hd) ?_
      · rw [List.getD_eq_getElem?_getD, hlist, List.getElem?_set_self hlt]
        rfl
      · intro x hx
        obtain ⟨e, -, hq⟩ := hsame x hx
        exact ⟨e, hq⟩
      · intro first e' hfirst he'
        obtain rfl : c = first := by simpa using hfirst
        obtain ⟨e'', hp, hq⟩ := hsame c List.mem_cons_self
        rw [show e' = e'' from (Cell.live.inj (hq.symm.trans he')).symm,
          show e'' = e from (Cell.live.inj (he.symm.trans hp)).symm]
        exact hmay

/-- A fragment that is not known joins a list or starts one. -/
theorem joinReassembly_settled {p₀ : BundleProcessor} (h : p.Ready a b)
    (hd : p.delivered = p₀.delivered)
    (hflag : b.retConstraints.reassemblyPending = true)
    (hforward : b.retConstraints.forwardPending = false)
    (hcustody : b.retConstraints.custodyAccepted = false) :
    Ends Fault.Stops (p.joinReassembly env o a) (Settled p₀ a b) := by
  have hlists : ∀ l ∈ p.reassemblyList, ∀ c ∈ l, ∃ e, p.cells c = .live e :=
    fun l hl => (h.reassembly l hl).2
  unfold joinReassembly
  refine (findReassemblyList_ends h.live hlists 0).bind fun r hr => ?_
  cases r with
  | none =>
    dsimp only
    split
    · exact bundleDelete_settled h hd hcustody _
    · exact startList_settled h hd hflag hforward hcustody
  | some index =>
    obtain ⟨k, c, rest, e, hindex, hk, he, hmay⟩ := hr index rfl
    obtain rfl : k = index := by omega
    have hget : p.reassemblyList.getD k [] = c :: rest := by
      rw [List.getD_eq_getElem?_getD, hk]
      rfl
    dsimp only
    rw [hget]
    exact joinList_settled h hd hflag hforward hcustody hk he hmay

/-- Taking the bundle out of the store and freeing it. -/
theorem bundleDiscard_settled (h : s.Ready a b)
    (hd : s.delivered = p.delivered) :
    Ends Fault.Stops (s.bundleDiscard a) (Settled p a b) := by
  refine (bundleDiscard_stops h.registered h.live).imp ?_
  rintro q ⟨-, rfl⟩
  exact settled_of_dropped (h.registered.removed h.live) cells_removed_self hd

theorem ret_hopCounted :
    (hopCounted env o b).retConstraints = b.retConstraints := by
  unfold hopCounted
  split
  · split <;> rfl
  · rfl

theorem forwarded_settled (h : s.Ready a b) (hid : b.id ≠ bundleInvalidId)
    (hreassembly : b.retConstraints.reassemblyPending = false)
    (hqueue : p.outQueue <+: s.outQueue) :
    Settled p a b
      ((s.setCell a (.live (forwarded env o b))).sendBundle b.id) := by
  refine settled_of_forwarding (e := forwarded env o b) (cells_setCell_self _) rfl
    ?_ (h.registered.live a b h.live hid) hqueue rfl
  exact (congrArg RetConstraints.reassemblyPending ret_hopCounted).trans
    hreassembly

/-- A bundle that is not a fragment is discarded, and then its ADU is
delivered. -/
theorem whole_settled (h : s.Ready a b) (hd : s.delivered = p.delivered) :
    Ends Fault.Stops
      ((s.setCell a (.live b.bundleToAdu.2)).bundleDiscard a >>= fun p =>
        p.bundleDeliverAdu env b b.bundleToAdu.1)
      (Settled p a b) := by
  have hreg : (s.setCell a (.live b.bundleToAdu.2)).Registered :=
    h.registered.setCell h.live rfl
  refine (bundleDiscard_stops hreg (cells_setCell_self _)).bind ?_
  rintro q ⟨hret, rfl⟩
  have hflag : b.retConstraints.custodyAccepted = false :=
    congrArg RetConstraints.custodyAccepted hret
  have hcustody : (s.setCell a (.live b.bundleToAdu.2)).CustodyFlagged := by
    intro c hc
    have hne : c ≠ a := fun hca => h.uncustodied (hca ▸ hc)
    rw [cells_setCell_of_ne hne]
    exact h.custody c hc
  have hcoh : ((s.setCell a (.live b.bundleToAdu.2)).removed a
      b.bundleToAdu.2).Coherent :=
    ⟨hreg.removed (cells_setCell_self _),
      hcustody.removed (cells_setCell_self _) hflag _⟩
  refine (bundleDeliverAdu_stops hcoh b _).imp ?_
  rintro r ⟨hr, hstay, hdelivered⟩
  refine settled_of_delivered hr (hstay a cells_removed_self)
    (d := ⟨b.bundleToAdu.1, b.creationTimestamp, b.sequenceNumber⟩) ?_
    ⟨rfl, rfl, rfl⟩
  rw [hdelivered, ← hd]
  rfl

end BundleProcessor

/-- The retention constraints at the exit, of a bundle that was received
without any. -/
def Fate.constraints : Fate → RetConstraints
  | .duplicate | .noAgent | .whole => .none
  | .alreadyReassembled | .fragment => RetConstraints.none.addReassemblyPending
  | _ => RetConstraints.none.addDispatchPending

namespace BundleProcessor

variable {env : Env} {o : Inputs} {p q s : BundleProcessor} {a c : Addr}
  {b : Bundle}

/-- The bundle at the exit has the header of the bundle that was received.
-/
theorem receiveCourse_bundle (hret : b.retConstraints = .none) :
    (p.receiveCourse env o a b).2.id = b.id ∧
      (∀ d, IsDeliveryOf d (p.receiveCourse env o a b).2 ↔ IsDeliveryOf d b) ∧
      (p.receiveCourse env o a b).2.retConstraints
        = (p.receiveCourse env o a b).1.constraints := by
  unfold receiveCourse acceptedCourse dispatchCourse newCourse
  repeat' split
  all_goals
    refine ⟨rfl, fun d => Iff.rfl, ?_⟩
    simp [Bundle.received, Bundle.dispatched, Bundle.awaiting, hret,
      Fate.constraints, RetConstraints.addDispatchPending,
      RetConstraints.remDispatchPending, RetConstraints.addReassemblyPending,
      RetConstraints.none]

/-- At every exit but two, the rest of the handler settles the bundle. -/
theorem finish_settled (h : s.Ready a b) (hd : s.delivered = p.delivered)
    (hqueue : p.outQueue <+: s.outQueue) (hid : b.id ≠ bundleInvalidId)
    {fate : Fate} (hret : b.retConstraints = fate.constraints)
    (hcustody : fate ≠ .custodyPossible)
    (hreassembled : fate ≠ .alreadyReassembled) :
    Ends Fault.Stops (fate.finish env o a b s) (Settled p a b) := by
  have hflag : b.retConstraints.custodyAccepted = false := by
    rw [hret]
    cases fate <;> rfl
  cases fate with
  | expired => exact bundleDelete_settled h hd hflag _
  | unintelligible => exact bundleDelete_settled h hd hflag _
  | refused => exact bundleDelete_settled h hd hflag _
  | hopLimit => exact bundleDelete_settled h hd hflag _
  | noAgent => exact bundleDelete_settled h hd hflag _
  | duplicate => exact bundleDiscard_settled h hd
  | whole => exact whole_settled h hd
  | custodyPossible => exact absurd rfl hcustody
  | alreadyReassembled => exact absurd rfl hreassembled
  | forwarded =>
    refine ends_ok (forwarded_settled h hid ?_ hqueue)
    rw [hret]
    rfl
  | fragment =>
    refine joinReassembly_settled h hd ?_ ?_ hflag
    · rw [hret]
      rfl
    · rw [hret]
      rfl
  | redundant =>
    have hnone : b.retConstraints.remDispatchPending = .none := by
      rw [hret]
      rfl
    have hk := (keeps_refl h.live).write { b with
      retConstraints := b.retConstraints.remDispatchPending }
    rw [Fate.finish, bundleRemRc, modify_of_live h.live, ok_bind,
      load_of_live (cells_setCell_self _), ok_bind]
    dsimp only
    rw [hnone, if_pos (by simp)]
    rw [hnone] at hk
    exact bundleDiscard_settled (b := { b with retConstraints := .none })
      (h.keeps hk rfl) hd

/-! ## The exit that uses a freed bundle -/

/-- The handler stops, or it accesses a freed bundle. -/
def Misbehaves (e : Fault) : Prop := e = .useAfterFree ∨ e.Stops

theorem load_of_freed (h : p.cells a = .freed) :
    p.load a = .error .useAfterFree := by
  rw [load, h]

theorem bundleDelete_of_freed (h : p.cells a = .freed)
    (reason : StatusReportReason) :
    p.bundleDelete env o a reason = .error .useAfterFree := by
  rw [bundleDelete_eq, bundleDeleteWith, load_of_freed h]
  rfl

theorem findReassemblyList_of_freed (h : p.cells a = .freed)
    {lists : List (List Addr)}
    (hlive : ∀ l ∈ lists, ∀ c ∈ l, ∃ e, p.cells c = .live e) (start : Nat) :
    Ends Misbehaves (p.findReassemblyList a lists start) fun r => r = none := by
  cases lists with
  | nil => exact ends_ok rfl
  | cons l lists =>
    cases l with
    | nil => exact ends_error (E := Misbehaves) (.inr (by simp [Fault.Stops]))
    | cons c rest =>
      obtain ⟨e, he⟩ := hlive _ List.mem_cons_self c List.mem_cons_self
      rw [findReassemblyList, load_of_live he, ok_bind, load_of_freed h]
      exact ends_error (E := Misbehaves) (.inl rfl)

theorem joinReassembly_of_freed (h : p.cells a = .freed)
    (hlive : ∀ l ∈ p.reassemblyList, ∀ c ∈ l, ∃ e, p.cells c = .live e) :
    Ends Misbehaves (p.joinReassembly env o a) fun _ => False := by
  refine (findReassemblyList_of_freed h hlive 0).bind ?_
  rintro r rfl
  dsimp only
  split
  · rw [bundleDelete_of_freed h]
    exact ends_error (.inl rfl)
  · rw [addToReassemblyBundleList, insertFragment, ok_bind]
    split
    · have hlast : (p.reassemblyList ++ [[a]]).getD p.reassemblyList.length []
          = [a] := by simp [List.getD_eq_getElem?_getD]
      have hload : ({ p with reassemblyList := p.reassemblyList ++ [[a]] } :
          BundleProcessor).load a = .error .useAfterFree := load_of_freed h
      change Ends Misbehaves (tryReassemble env o { p with
        reassemblyList := p.reassemblyList ++ [[a]] } p.reassemblyList.length) _
      rw [tryReassemble, hlast, coversAdu, hload]
      exact ends_error (E := Misbehaves) (.inl rfl)
    · rw [bundleDelete_of_freed h]
      exact ends_error (E := Misbehaves) (.inl rfl)

/-- A fragment of a known original is still used after it is freed. -/
theorem alreadyReassembled_misbehaves (h : s.Ready a b) :
    Ends Misbehaves (Fate.alreadyReassembled.finish env o a b s)
      fun _ => False := by
  refine Ends.bind ((discardFragment_stops h.coherent h.live).mono
    (fun e he => .inr he) fun q hq => hq) ?_
  rintro q ⟨-, hfreed, hcells, -, hlist⟩
  refine joinReassembly_of_freed hfreed fun l hl c hc => ?_
  rw [hlist] at hl
  have hne : c ≠ a := fun hca => h.unlisted l hl (hca ▸ hc)
  rw [hcells c hne]
  exact (h.reassembly l hl).2 c hc

/-! ## Reception -/

/-- The handler goes on after it: its result is a state, or it accesses a
freed bundle, after which anything may happen. -/
def Returns (result : Except Fault BundleProcessor) : Prop :=
  ∀ e, result = .error e → ¬ e.Stops

/-- The handler leaves the bundle settled. -/
def Settles (p : BundleProcessor) (a : Addr) (b : Bundle)
    (result : Except Fault BundleProcessor) : Prop :=
  ∃ q, result = .ok q ∧ Settled p a b q

/-- A bundle that was stored and is about to be received: nothing has
happened to it yet. -/
structure Incoming (p : BundleProcessor) (a : Addr) (b : Bundle) : Prop where
  registered : p.Registered
  custody : p.CustodyFlagged
  reassembly : p.ReassemblyLive
  live : p.cells a = .live b
  stored : p.bundleStorageGet b.id = some a
  fresh : b.retConstraints = .none
  unlisted : ∀ l ∈ p.reassemblyList, a ∉ l

theorem Incoming.ready (h : p.Incoming a b) : p.Ready a b where
  registered := h.registered
  live := h.live
  custody := h.custody
  reassembly := h.reassembly
  uncustodied := by
    intro ha
    obtain ⟨e, he, hflag⟩ := h.custody a ha
    rw [h.live] at he
    rw [← Cell.live.inj he, h.fresh] at hflag
    cases hflag
  unlisted := h.unlisted

theorem Ready.base (h : p.Ready a b) (fate : Fate) (b' : Bundle) :
    (fate.base o p b').Ready a b := by
  cases fate <;> first | exact h | exact h.recorded b'

theorem Ready.forReports (h : p.Ready a b) (count : Nat) :
    ({ p with reports := count } : BundleProcessor).Ready a b :=
  ⟨⟨h.registered.stored, h.registered.live⟩, h.live, h.custody, h.reassembly,
    h.uncustodied, h.unlisted⟩

theorem Settled.rebase {b' : Bundle} (h : Settled p a b' q) (hid : b'.id = b.id)
    (hof : ∀ d, IsDeliveryOf d b' ↔ IsDeliveryOf d b) : Settled p a b q := by
  have hiff : ∀ r : Responsibility, r.Holds p a b q ↔ r.Holds p a b' q := by
    intro r
    cases r with
    | dropped => exact Iff.rfl
    | forwarding => simp only [Responsibility.Holds, hid]
    | reassembling => exact Iff.rfl
    | delivered => simp only [Responsibility.Holds, hof]
  unfold Settled at *
  simp only [hiff]
  exact h

/-- The bundle stays where it is, with nothing but `DISPATCH_PENDING`. -/
theorem not_settled_of_waiting (ha : q.cells a = .live b)
    (hret : b.retConstraints = RetConstraints.none.addDispatchPending)
    {b' : Bundle} : ¬ Settled p a b' q := by
  rintro ⟨r, hr, -⟩
  cases r with
  | dropped =>
    rw [hr.1] at ha
    cases ha
  | delivered =>
    rw [hr.1] at ha
    cases ha
  | forwarding =>
    obtain ⟨⟨e, he, hflag⟩, -⟩ := hr
    rw [ha] at he
    rw [← Cell.live.inj he, hret] at hflag
    cases hflag
  | reassembling =>
    obtain ⟨⟨e, he, hflag⟩, -⟩ := hr
    rw [ha] at he
    rw [← Cell.live.inj he, hret] at hflag
    cases hflag

theorem delivered_base (fate : Fate) (b' : Bundle) :
    (fate.base o p b').delivered = p.delivered := by
  cases fate <;> rfl

theorem outQueue_base (fate : Fate) (b' : Bundle) :
    (fate.base o p b').outQueue = p.outQueue := by
  cases fate <;> rfl

/-- `receiveCourse` tells whether the bundle is settled. -/
theorem bundleReceive_settles (h : p.Ready a b) (hret : b.retConstraints = .none)
    (hid : b.id ≠ bundleInvalidId) (hreturns : Returns (p.bundleReceive env o a)) :
    Settles p a b (p.bundleReceive env o a) ↔
      (p.receiveCourse env o a b).1 ≠ .custodyPossible ∧
        (p.receiveCourse env o a b).1 ≠ .alreadyReassembled := by
  have hcourse := @receiveCourse_bundle env o p a b hret
  rcases @bundleReceive_follows env o p a b h.custody.custodyLive h.live
    with ⟨e, he, hE⟩ | ⟨s, hs, he⟩
  · exact absurd hE.stops (hreturns e he)
  · rw [he] at hreturns ⊢
    obtain ⟨hcid, hof, hcret⟩ := hcourse
    generalize p.receiveCourse env o a b = course at *
    obtain ⟨fate, b'⟩ := course
    dsimp only at *
    have hready : s.Ready a b' := (h.base fate b).keeps hs hcid
    have hd : s.delivered = p.delivered := hs.delivered.trans (delivered_base _ _)
    have hqueue : p.outQueue <+: s.outQueue := by
      have hgrow := Grows.outQueue hs
      rwa [outQueue_setCell, outQueue_base] at hgrow
    by_cases hc : fate = .custodyPossible
    · subst hc
      refine iff_of_false ?_ (fun hne => hne.1 rfl)
      rintro ⟨q, hq, hsettled⟩
      obtain rfl : s = q := Except.ok.inj hq
      exact not_settled_of_waiting hready.live hcret hsettled
    · by_cases hr : fate = .alreadyReassembled
      · subst hr
        refine iff_of_false ?_ (fun hne => hne.2 rfl)
        rintro ⟨q, hq, -⟩
        exact (alreadyReassembled_misbehaves hready).ok hq
      · refine iff_of_true ?_ ⟨hc, hr⟩
        have hends := @finish_settled env o p s a b' hready hd hqueue
          (hcid ▸ hid) fate hcret hc hr
        cases hq : fate.finish env o a b' s with
        | error e => exact absurd (hends.error hq) (hreturns e hq)
        | ok q => exact ⟨q, rfl, Settled.rebase (hends.ok hq) hcid hof⟩

/-- After the handling of `BP_SIGNAL_BUNDLE_INCOMING` exactly one is
responsible for the bundle, unless custody of it is requested and could be
accepted, or it is a fragment of an original that was reassembled. -/
theorem handleSignal_settles (env : Env) (o : Inputs) (p : BundleProcessor)
    (a : Addr) (b : Bundle) (reason : StatusReportReason) (h : p.Incoming a b)
    (hreturns : Returns
      (p.handleSignal env o ⟨.bundleIncoming, reason, b.id⟩)) :
    Settles p a b (p.handleSignal env o ⟨.bundleIncoming, reason, b.id⟩) ↔
      (p.receiveCourse env o a b).1 ≠ .custodyPossible ∧
        (p.receiveCourse env o a b).1 ≠ .alreadyReassembled := by
  have hid : b.id ≠ bundleInvalidId := (h.registered.stored b.id a h.stored).1
  unfold handleSignal at *
  rw [h.stored] at *
  exact bundleReceive_settles (h.ready.forReports 0) h.fresh hid hreturns

end BundleProcessor

/-! ## A bundle that is forwarded, and one that is stranded -/

/-- One bundle in the store, and nothing else. -/
def BundleProcessor.storingOne (b : Bundle) : BundleProcessor :=
  { BundleProcessor.initial with
    cells := fun a => if a = 1 then .live b else .unused
    store := ⟨fun id => if id = b.id then some 1 else none, 2,
      b.payload.val.length⟩ }

theorem BundleProcessor.incoming_storingOne {b : Bundle}
    (hid : b.id ≠ bundleInvalidId) (hret : b.retConstraints = .none) :
    (BundleProcessor.storingOne b).Incoming 1 b where
  registered := by
    refine ⟨fun id a ha => ?_, fun a c hc _ => ?_⟩
    · by_cases h : id = b.id
      · obtain rfl : 1 = a := by simpa [BundleProcessor.storingOne, h] using ha
        exact ⟨h ▸ hid, b, rfl, h.symm⟩
      · simp [BundleProcessor.storingOne, h] at ha
    · by_cases h : a = 1
      · subst h
        obtain rfl : b = c := Cell.live.inj hc
        simp [BundleProcessor.storingOne]
      · simp [BundleProcessor.storingOne, h] at hc
  custody := by
    intro c hc
    simp [BundleProcessor.accepted, BundleProcessor.storingOne,
      BundleProcessor.initial] at hc
  reassembly := by
    intro l hl
    simp [BundleProcessor.storingOne, BundleProcessor.initial] at hl
  live := rfl
  stored := by simp [bundleStorageGet, BundleStore.bundleStorageGet,
    BundleProcessor.storingOne]
  fresh := hret
  unlisted := by
    intro l hl
    simp [BundleProcessor.storingOne, BundleProcessor.initial] at hl

/-- A bundle for another node, with the given version and flags. -/
def passingBundle (protocolVersion : UInt8) (procFlags : UInt32) : Bundle :=
  { plainFragment 1 0 0 ⟨[1, 2], length_oneTwo⟩ with
    protocolVersion := protocolVersion
    procFlags := procFlags
    destination := "dtn:c/sink".toList }

theorem handleSignal_settles_passing :
    BundleProcessor.Settles (.storingOne (passingBundle 7 0)) 1 (passingBundle 7 0)
        ((BundleProcessor.storingOne (passingBundle 7 0)).handleSignal plainEnv
          (plainInputs 1001) ⟨.bundleIncoming, .noInfo, 1⟩) ↔
      ((BundleProcessor.storingOne (passingBundle 7 0)).receiveCourse plainEnv
          (plainInputs 1001) 1 (passingBundle 7 0)).1 ≠ .custodyPossible ∧
        ((BundleProcessor.storingOne (passingBundle 7 0)).receiveCourse plainEnv
          (plainInputs 1001) 1 (passingBundle 7 0)).1 ≠ .alreadyReassembled :=
  BundleProcessor.handleSignal_settles plainEnv (plainInputs 1001) _ 1
    (passingBundle 7 0) .noInfo
    (BundleProcessor.incoming_storingOne (by decide) rfl)
    (fun e he => by cases he)

/-- A BPv6 bundle for another node that requests custody, which the node
could accept. -/
def custodyBundle : Bundle :=
  passingBundle 6 (ProcFlag.custodyTransferRequested ||| ProcFlag.singletonEndpoint)

/-- It stays in the store with `DISPATCH_PENDING`, and no signal is sent. -/
theorem custodyBundle_stranded :
    ∃ q, (BundleProcessor.storingOne custodyBundle).handleSignal plainEnv
        (plainInputs 1001) ⟨.bundleIncoming, .noInfo, 1⟩ = .ok q ∧
      q.bundleStorageGet 1 = some 1 ∧ q.outQueue = [] ∧
      (∃ b, q.cells 1 = .live b ∧
        b.retConstraints = RetConstraints.none.addDispatchPending) ∧
      ¬ Settled (.storingOne custodyBundle) 1 custodyBundle q := by
  refine ⟨_, rfl, rfl, rfl, ⟨_, rfl, rfl⟩, ?_⟩
  exact BundleProcessor.not_settled_of_waiting rfl rfl

end Upcn
