import Mathlib.Logic.Relation
import Upcn.Router.Fragmenter

/-!
# Administrative bundles do not cascade

Runs of the bundle processor and of the routing of bundles, with a record of the
administrative bundles that the node has made.

* `Watch` is the state and the record, `Step` is one event: a bundle is put into the
  store, a signal is handled, or a bundle is routed and perhaps fragmented.  After an
  event that is not for an administrative bundle, `limit` grows by what the event may
  have led to.
* `Kept` is what every event preserves, with `Kept.step` for one event.
* `noCascade_run` is the result.
-/

namespace Upcn

open Outcome Store BundleProcessor

/-- The bundle processor, and what is known of its administrative bundles. -/
structure Watch where
  processor : BundleProcessor
  /-- The status reports and custody signals that were made. -/
  generated : Addr → Prop
  /-- Those, and their fragments. -/
  own : Addr → Prop
  /-- How many the events on other bundles may have led to. -/
  limit : Nat

namespace Watch

/-- The state in which a run starts. -/
def start : Watch := ⟨.initial, fun _ => False, fun _ => False, 0⟩

/-- The address was taken since `w`. -/
def Taken (w : Watch) (q : BundleProcessor) (a : Addr) : Prop :=
  w.processor.cells a = .unused ∧ q.cells a ≠ .unused

/-- A handler has run: the bundles that it has allocated are administrative ones. -/
def handled (w : Watch) (q : BundleProcessor) (limit : Nat) : Watch :=
  ⟨q, fun a => w.generated a ∨ w.Taken q a, fun a => w.own a ∨ w.Taken q a, limit⟩

/-- The bundle at `a` was routed: the bundles that were allocated are its
fragments. -/
def routed (w : Watch) (q : BundleProcessor) (a : Addr) : Watch :=
  ⟨q, w.generated, fun c => w.own c ∨ w.own a ∧ w.Taken q c, w.limit⟩

/-- One event.  A signal for an administrative bundle is none of those with which the
receiver of a bundle and the application agent announce the bundles that they have put
into the store. -/
inductive Step (env : Env) : Watch → Watch → Prop where
  | received {w : Watch} {a : Addr} {b : Bundle} {nodeMem : Bool} {id : Nat}
      {q : BundleProcessor} (hfresh : w.processor.cells a = .unused)
      (hadd : (w.processor.setCell a (.live b)).bundleStorageAdd a nodeMem
        = .ok (id, q)) :
      Step env w { w with processor := q }
  | idle {w : Watch} {o : Inputs} {signal : BundleProcessorSignal}
      {q : BundleProcessor}
      (hidle : w.processor.bundleStorageGet signal.bundle = none ∨
        signal.type = .invalid)
      (hok : w.processor.handleSignal env o signal = .ok q) :
      Step env w { w with processor := q }
  | other {w : Watch} {o : Inputs} {signal : BundleProcessorSignal} {a : Addr}
      {b : Bundle} {q : BundleProcessor}
      (hget : w.processor.bundleStorageGet signal.bundle = some a)
      (hother : ¬ w.own a) (hb : w.processor.cells a = .live b)
      (hok : w.processor.handleSignal env o signal = .ok q) :
      Step env w (w.handled q (w.limit + noticeLimit b))
  | own {w : Watch} {o : Inputs} {signal : BundleProcessorSignal} {a : Addr}
      {q : BundleProcessor}
      (hget : w.processor.bundleStorageGet signal.bundle = some a)
      (hown : w.own a) (htype : signal.type.announces = false)
      (hok : w.processor.handleSignal env o signal = .ok q) :
      Step env w (w.handled q w.limit)
  | routed {w : Watch} {σ : Type} {r : Routing σ} {m : FragmentMemory}
      {t t' : RouterTask σ} {id : Nat} {a : Addr}
      (hprocessor : t.processor = w.processor) (hr : RouterTask.FragmentsBundles r)
      (hget : w.processor.bundleStorageGet id = some a)
      (hok : t.routeBundle r m id = .ok t') :
      Step env w (w.routed t'.processor a)

/-! ## The invariant -/

/-- What every event preserves. -/
structure Kept (w : Watch) : Prop where
  silent : ∀ c b, w.own c → w.processor.cells c = .live b → b.Silent
  linked : ∀ c b id, w.own c → w.processor.cells c = .live b →
    w.processor.store.bundles id = some c → b.id = id
  unstored : ∀ c id, w.processor.cells c = .unused →
    w.processor.store.bundles id ≠ some c
  used : ∀ c, w.own c → w.processor.cells c ≠ .unused
  own : ∀ c, w.generated c → w.own c
  bounded : ∃ l : List Addr, l.length ≤ w.limit ∧ ∀ c, w.generated c → c ∈ l

variable {env : Env} {o : Inputs} {w w' : Watch} {q : BundleProcessor} {a : Addr}
  {b : Bundle} {signal : BundleProcessorSignal}

/-- The addresses at which administrative bundles are, or may come to be when `kind`
holds. -/
def Reserved (kind : Prop) (w : Watch) (c : Addr) : Prop :=
  w.own c ∨ kind ∧ w.processor.cells c = .unused

/-- The addresses that are still unused. -/
def Free (w : Watch) (c : Addr) : Prop := w.processor.cells c = .unused

theorem kept_start : Kept .start where
  silent c b h := h.elim
  linked c b id h := h.elim
  unstored c id _ h := by cases h
  used c h := h.elim
  own c h := h.elim
  bounded := ⟨[], Nat.le_refl 0, fun c h => h.elim⟩

namespace Kept

/-- The invariant with which an event begins. -/
theorem guarded (h : Kept w) (kind : Prop) :
    Guarded kind (w.Reserved kind) w.Free w.processor where
  silent c b hc hb := by
    rcases hc with hown | ⟨-, hunused⟩
    · exact h.silent c b hown hb
    · rw [hunused] at hb
      cases hb
  linked c b id hc hb hid := by
    rcases hc with hown | ⟨-, hunused⟩
    · exact h.linked c b id hown hb hid
    · rw [hunused] at hb
      cases hb
  unstored := h.unstored
  fresh c hc := by
    refine ⟨hc, fun hreserved => ?_, fun hk => .inr ⟨hk, hc⟩⟩
    rcases hreserved with hown | ⟨hk, -⟩
    · exact absurd hc (h.used c hown)
    · exact hk

/-- The invariant with which an event ends, for what is then known of the bundles. -/
theorem ended (h : Kept w) {kind : Prop}
    (hq : Guarded kind (w.Reserved kind) w.Free q)
    (hprocessor : w'.processor = q)
    (hown : ∀ c, w'.own c → w.own c ∨ kind ∧ w.Taken q c)
    (hgenerated : ∀ c, w'.generated c → w'.own c)
    (hbounded : ∃ l : List Addr, l.length ≤ w'.limit ∧ ∀ c, w'.generated c → c ∈ l) :
    Kept w' := by
  have hreserved : ∀ c, w'.own c → w.Reserved kind c := by
    intro c hc
    rcases hown c hc with hold | ⟨hk, htaken⟩
    · exact .inl hold
    · exact .inr ⟨hk, htaken.1⟩
  exact {
    silent := fun c b hc hb => hq.silent c b (hreserved c hc) (by rwa [← hprocessor])
    linked := fun c b id hc hb hid =>
      hq.linked c b id (hreserved c hc) (by rwa [← hprocessor]) (by rwa [← hprocessor])
    unstored := fun c id hc => by
      rw [hprocessor] at hc ⊢
      exact hq.unstored c id hc
    used := fun c hc hunused => by
      rw [hprocessor] at hunused
      rcases hown c hc with hold | ⟨-, htaken⟩
      · exact h.used c hold (hq.fresh c hunused).1
      · exact htaken.2 hunused
    own := hgenerated
    bounded := hbounded }

theorem received (h : Kept w) {nodeMem : Bool} {id : Nat}
    (hfresh : w.processor.cells a = .unused)
    (hadd : (w.processor.setCell a (.live b)).bundleStorageAdd a nodeMem
      = .ok (id, q)) : Kept { w with processor := q } := by
  have hother : ¬ w.Reserved False a := by
    intro hreserved
    rcases hreserved with hown | ⟨hfalse, -⟩
    · exact h.used a hown hfresh
    · exact hfalse
  have hset : Guarded False (w.Reserved False) w.Free
      (w.processor.setCell a (.live b)) :=
    (h.guarded False).created hfresh (fun hown => absurd hown hother) rfl (.inl rfl)
  have hq := ((bundleStorageAdd_guarded hset (fun hown => absurd hown hother)
    nodeMem).ok hadd).1
  exact h.ended hq rfl (fun c hc => .inl hc) h.own h.bounded

theorem same (h : Kept w) (hcells : q.cells = w.processor.cells)
    (hstore : q.store = w.processor.store) : Kept { w with processor := q } :=
  h.ended ((h.guarded False).of_same hcells hstore) rfl (fun _ hc => .inl hc) h.own
    h.bounded

theorem idle (h : Kept w)
    (hidle : w.processor.bundleStorageGet signal.bundle = none ∨ signal.type = .invalid)
    (hok : w.processor.handleSignal env o signal = .ok q) :
    Kept { w with processor := q } := by
  unfold handleSignal at hok
  split at hok
  · obtain rfl := Except.ok.inj hok
    exact h
  · rename_i a hget
    rcases hidle with hnone | hinvalid
    · rw [hnone] at hget
      cases hget
    · rw [handleType, hinvalid] at hok
      rw [← Except.ok.inj hok]
      exact h.same rfl rfl

theorem other (h : Kept w) (hget : w.processor.bundleStorageGet signal.bundle = some a)
    (hother : ¬ w.own a) (hb : w.processor.cells a = .live b)
    (hok : w.processor.handleSignal env o signal = .ok q) :
    Kept (w.handled q (w.limit + noticeLimit b)) := by
  unfold handleSignal at hok
  rw [hget] at hok
  dsimp only at hok
  have hreserved : ¬ w.Reserved True a := by
    intro hreserved
    rcases hreserved with hown | ⟨-, hunused⟩
    · exact hother hown
    · rw [hb] at hunused
      cases hunused
  have hspares : Spares (w.Reserved True) w.Free 0
      { w.processor with reports := 0 } :=
    ⟨(h.guarded True).of_same rfl rfl, [], Nat.le_refl 0, fun c hfree hused =>
      absurd hfree hused⟩
  have hq := (handleOther_spares hspares hreserved hb signal).ok hok
  obtain ⟨made, hmade, hmem⟩ := hq.few
  obtain ⟨l, hl, hgenerated⟩ := h.bounded
  refine h.ended hq.guarded rfl (fun c hc => ?_) (fun c hc => ?_)
    ⟨l ++ made, ?_, fun c hc => ?_⟩
  · exact hc.imp id fun htaken => ⟨trivial, htaken⟩
  · exact hc.imp (h.own c) id
  · rw [List.length_append]
    rw [Nat.zero_add] at hmade
    exact Nat.add_le_add hl hmade
  · rw [List.mem_append]
    exact hc.imp (hgenerated c) fun htaken => hmem c htaken.1 htaken.2

/-- What a signal for an administrative bundle leads to. -/
theorem own_ends (h : Kept w) (hget : w.processor.bundleStorageGet signal.bundle = some a)
    (hown : w.own a) (htype : signal.type.announces = false)
    (hok : w.processor.handleSignal env o signal = .ok q) :
    (∃ b, b.id = signal.bundle ∧ BundleProcessor.Discarded a b w.processor q) ∨
      signal.type.final = false ∧ q.cells = w.processor.cells ∧
        q.store = w.processor.store := by
  unfold handleSignal at hok
  rw [hget] at hok
  dsimp only at hok
  cases hload : w.processor.load a with
  | ok b =>
    have hb := live_of_load hload
    rcases (handleOwn_ends (p := { w.processor with reports := 0 }) hb
      (h.silent a b hown hb) htype).ok hok with hdiscarded | hsame
    · left
      exact ⟨b, h.linked a b signal.bundle hown hb hget, hdiscarded.cells, hdiscarded.gone,
        hdiscarded.fewer⟩
    · right
      exact hsame
  | error e =>
    by_cases hinvalid : signal.type = .invalid
    · right
      rw [handleType, hinvalid] at hok
      rw [← Except.ok.inj hok, hinvalid]
      exact ⟨rfl, rfl, rfl⟩
    · have hload' : ({ w.processor with reports := 0 } : BundleProcessor).load a
          = .error e := hload
      rw [handleType_of_load hload' hinvalid] at hok
      cases hok

/-- No address is taken by a signal for an administrative bundle. -/
theorem own_unused (h : Kept w)
    (hget : w.processor.bundleStorageGet signal.bundle = some a)
    (hown : w.own a) (htype : signal.type.announces = false)
    (hok : w.processor.handleSignal env o signal = .ok q) {c : Addr}
    (hc : w.processor.cells c = .unused) : q.cells c = .unused := by
  rcases h.own_ends hget hown htype hok with ⟨b, -, hdiscarded⟩ | ⟨-, hcells, -⟩
  · have hca : c ≠ a := by
      intro hca
      rw [hca] at hc
      exact h.used a hown hc
    rw [hdiscarded.cells, Function.update_of_ne hca, hc]
  · rw [hcells, hc]

theorem ownHandled (h : Kept w)
    (hget : w.processor.bundleStorageGet signal.bundle = some a)
    (hown : w.own a) (htype : signal.type.announces = false)
    (hok : w.processor.handleSignal env o signal = .ok q) :
    Kept (w.handled q w.limit) := by
  have hnone : ∀ c, ¬ w.Taken q c := fun c htaken =>
    htaken.2 (h.own_unused hget hown htype hok htaken.1)
  have hq : Guarded False (w.Reserved False) w.Free q := by
    rcases h.own_ends hget hown htype hok with ⟨b, -, hdiscarded⟩ | ⟨-, hcells, hstore⟩
    · exact (h.guarded False).freed hdiscarded.cells hdiscarded.fewer
    · exact (h.guarded False).of_same hcells hstore
  obtain ⟨l, hl, hgenerated⟩ := h.bounded
  refine h.ended hq rfl (fun c hc => ?_) (fun c hc => hc.imp (h.own c) id)
    ⟨l, hl, fun c hc => ?_⟩
  · exact hc.imp id fun htaken => absurd htaken (hnone c)
  · rcases hc with hold | htaken
    · exact hgenerated c hold
    · exact absurd htaken (hnone c)

theorem routed (h : Kept w) {σ : Type} {r : Routing σ} {m : FragmentMemory}
    {t t' : RouterTask σ} {id : Nat} (hprocessor : t.processor = w.processor)
    (hr : RouterTask.FragmentsBundles r)
    (hget : w.processor.bundleStorageGet id = some a)
    (hok : t.routeBundle r m id = .ok t') : Kept (w.routed t'.processor a) := by
  have hstored : t.processor.bundleStorageGet id = some a := by rw [hprocessor, hget]
  have hused : w.processor.cells a ≠ .unused := fun hunused =>
    h.unstored a id hunused hget
  have hkind : w.Reserved (w.own a) a ↔ w.own a := by
    refine ⟨fun hreserved => ?_, fun hown => .inl hown⟩
    rcases hreserved with hown | ⟨hown, -⟩
    · exact hown
    · exact hown
  have hguarded : Guarded (w.own a) (w.Reserved (w.own a)) w.Free t.processor := by
    rw [hprocessor]
    exact h.guarded (w.own a)
  have hq := (RouterTask.routeBundle_guarded hr hguarded hstored hkind).ok hok
  exact h.ended hq rfl (fun c hc => hc) (fun c hc => .inl (h.own c hc)) h.bounded

theorem step (h : Kept w) (hstep : Step env w w') : Kept w' := by
  cases hstep with
  | received hfresh hadd => exact h.received hfresh hadd
  | idle hidle hok => exact h.idle hidle hok
  | other hget hother hb hok => exact h.other hget hother hb hok
  | own hget hown htype hok => exact h.ownHandled hget hown htype hok
  | routed hprocessor hr hget hok => exact h.routed hprocessor hr hget hok

theorem run (hrun : Relation.ReflTransGen (Step env) .start w) : Kept w := by
  induction hrun with
  | refl => exact kept_start
  | tail _ hstep ih => exact ih.step hstep

end Kept

/-! ## The result -/

/-- A signal for an administrative bundle makes no other one, one that ends its life
takes it out of the store, and the administrative bundles so far are no more than what
the events on other bundles may have led to. -/
structure NoCascade (env : Env) (w : Watch) : Prop where
  quiet : ∀ o signal a q, w.processor.bundleStorageGet signal.bundle = some a →
    w.own a → signal.type.announces = false →
      w.processor.handleSignal env o signal = .ok q →
        ∀ c, w.processor.cells c = .unused → q.cells c = .unused
  removed : ∀ o signal a q, w.processor.bundleStorageGet signal.bundle = some a →
    w.own a → signal.type.final = true →
      w.processor.handleSignal env o signal = .ok q →
        q.cells a = .freed ∧ q.bundleStorageGet signal.bundle = none
  bounded : ∃ l : List Addr, l.length ≤ w.limit ∧ ∀ c, w.generated c → c ∈ l

theorem announces_of_final {type : BundleProcessorSignalType} (h : type.final = true) :
    type.announces = false := by
  cases type <;> first | rfl | cases h

/-- In every state of every run. -/
theorem noCascade_run (env : Env) (w : Watch)
    (hrun : Relation.ReflTransGen (Step env) .start w) : NoCascade env w := by
  have h := Kept.run hrun
  refine ⟨fun o signal a q hget hown htype hok c hc => ?_,
    fun o signal a q hget hown hfinal hok => ?_, h.bounded⟩
  · exact h.own_unused hget hown htype hok hc
  · have htype := announces_of_final hfinal
    rcases h.own_ends hget hown htype hok with ⟨b, hid, hdiscarded⟩ | ⟨hnot, -⟩
    · refine ⟨by rw [hdiscarded.cells, Function.update_self], ?_⟩
      rw [← hid]
      exact hdiscarded.gone
    · rw [hfinal] at hnot
      cases hnot

/-! ## A reported bundle -/

theorem length_sixteen : ([16] : List UInt8).length < 2 ^ 32 := by decide

/-- A node that reports, with the byte 16 as the record of every report. -/
def reportingEnv : Env :=
  { signallingEnv with
    statusReporting := true
    statusReportRecord := fun _ _ _ _ => some ⟨[16], length_sixteen⟩ }

/-- A bundle for another node that asks for a report of its reception. -/
def reportedPassage : Bundle :=
  { passingBundle 7 ProcFlag.reportReception with id := bundleInvalidId }

theorem used_of_live {cell : Cell} (h : cell = .live b) : cell ≠ .unused := by
  rw [h]
  simp

/-- The bundle is received, its reception is reported, and the report is
transmitted. -/
theorem noCascade_run_reported :
    ∃ w, Relation.ReflTransGen (Step reportingEnv) .start w ∧ w.generated 5 ∧
      w.limit = 4 ∧ w.processor.cells 5 = .freed ∧
      w.processor.bundleStorageGet 2 = none ∧ NoCascade reportingEnv w := by
  have hreceived : Relation.ReflTransGen (Step reportingEnv) .start _ :=
    .single (@Step.received reportingEnv .start 1 reportedPassage true _ _ rfl rfl)
  have hreported : Relation.ReflTransGen (Step reportingEnv) .start _ :=
    hreceived.tail (@Step.other reportingEnv _ signallingInputs ⟨.bundleIncoming, .noInfo, 1⟩
      1 _ _ rfl (fun h => h) rfl rfl)
  have hsent : Relation.ReflTransGen (Step reportingEnv) .start _ :=
    hreported.tail (@Step.own reportingEnv _ signallingInputs
      ⟨.transmissionSuccess, .noInfo, 2⟩ 5 _ rfl (.inr ⟨rfl, used_of_live rfl⟩) rfl rfl)
  exact ⟨_, hsent, .inl (.inr ⟨rfl, used_of_live rfl⟩), rfl, rfl, rfl,
    noCascade_run reportingEnv _ hsent⟩

end Watch

end Upcn
