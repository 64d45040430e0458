import Mathlib.Data.List.Chain
import Mathlib.Data.List.Sort
import Upcn.Processor.Settlement

/-!
# Fragments that wait for their reassembly

The fragments of one original bundle are handed to `bundle_attempt_reassembly`
one after the other.  Between two of them they wait in one list, in the order
of their offsets (`collecting`).  `attempt_collects` is the step,
`tryReassemble_gap` and `tryReassemble_handsOver` say what follows.

The first loop of `try_reassemble` compares a fragment with the one directly
before it in the list.  A fragment that lies within an earlier one takes the
position back, and the next one then looks like a gap.  `Gapless` is the
condition for which this does not happen.
-/

namespace Upcn

open Outcome Store

/-! ## Fragments of one original -/

/-- `b` is a fragment of the bundle `whole`: a part of its payload, under the
same creation timestamp, sequence number and source. -/
structure Bundle.FragmentOf (whole b : Bundle) : Prop where
  origin : whole.mayReassemble b = true
  total : b.totalAduLength.toNat = whole.payload.val.length
  inside : b.fragmentOffset.toNat + b.payload.val.length
    ≤ whole.payload.val.length
  bytes : ∀ i < b.payload.val.length,
    b.payload.val[i]? = whole.payload.val[b.fragmentOffset.toNat + i]?

/-- The ranges of the fragments together cover the payload of `whole`. -/
def Covering (whole : Bundle) (fragments : List Bundle) : Prop :=
  ∀ i < whole.payload.val.length, ∃ b ∈ fragments,
    b.fragmentOffset.toNat ≤ i ∧
      i < b.fragmentOffset.toNat + b.payload.val.length

instance (whole : Bundle) (fragments : List Bundle) :
    Decidable (Covering whole fragments) :=
  inferInstanceAs (Decidable (∀ i < whole.payload.val.length, ∃ b ∈ fragments,
    b.fragmentOffset.toNat ≤ i ∧
      i < b.fragmentOffset.toNat + b.payload.val.length))

/-- No gap between two fragments that follow each other. -/
def Adjoins (b c : Bundle) : Prop :=
  c.fragmentOffset.toNat ≤ b.fragmentOffset.toNat + b.payload.val.length

/-- From the first one on, at `pos` or before, the fragments follow each other
without a gap until one reaches the end of `whole`. -/
def Gapless (whole : Bundle) (fragments : List Bundle) (pos : Nat) : Prop :=
  ∃ front, front <+: fragments ∧ front.IsChain Adjoins ∧
    (∃ b ∈ front.head?, b.fragmentOffset.toNat ≤ pos) ∧
    ∃ b ∈ front.getLast?, whole.payload.val.length
      ≤ b.fragmentOffset.toNat + b.payload.val.length

variable {whole b c : Bundle} {fragments : List Bundle} {pos : Nat}

theorem Bundle.FragmentOf.fragmentEnd_eq (h : whole.FragmentOf b) :
    b.fragmentEnd = b.fragmentOffset.toNat + b.payload.val.length := by
  have hinside := h.inside
  have hlen := whole.payload.property
  rw [Bundle.fragmentEnd, UInt32.toNat_add, Bundle.toNat_payloadLength]
  exact Nat.mod_eq_of_lt (by omega)

theorem mayReassemble_trans {d : Bundle} (h : b.mayReassemble c = true)
    (h' : b.mayReassemble d = true) : c.mayReassemble d = true := by
  simp only [Bundle.mayReassemble, Bool.and_eq_true, beq_iff_eq] at *
  obtain ⟨⟨h1, h2⟩, h3⟩ := h
  obtain ⟨⟨h4, h5⟩, h6⟩ := h'
  exact ⟨⟨h1.symm.trans h4, h2.symm.trans h5⟩, h3.symm.trans h6⟩

theorem mayReassemble_congr (h : b.mayReassemble c = true) {e : Bundle} :
    e.mayReassemble c = e.mayReassemble b := by
  simp only [Bundle.mayReassemble, Bool.and_eq_true, beq_iff_eq] at h
  obtain ⟨⟨h1, h2⟩, h3⟩ := h
  rw [Bundle.mayReassemble, Bundle.mayReassemble, h1, h2, h3]

/-- The first loop of `try_reassemble` succeeds just for the lists without a
gap between neighbours. -/
theorem covers_iff_gapless (hfrag : ∀ b ∈ fragments, whole.FragmentOf b) :
    covers fragments pos = true ↔ Gapless whole fragments pos := by
  induction fragments generalizing pos with
  | nil =>
    constructor
    · intro h
      simp [covers] at h
    · intro h
      obtain ⟨front, hprefix, -, ⟨b, hb, -⟩, -⟩ := h
      rw [List.prefix_nil.mp hprefix] at hb
      simp at hb
  | cons b rest ih =>
    have hb := hfrag b List.mem_cons_self
    have ih' := @ih (b.fragmentOffset.toNat + b.payload.val.length)
      fun c hc => hfrag c (List.mem_cons_of_mem _ hc)
    rw [covers, hb.fragmentEnd_eq, hb.total]
    constructor
    · intro h
      split at h
      · cases h
      · rename_i hpos
        split at h
        · rename_i hend
          exact ⟨[b], by simp, by simp, ⟨b, rfl, by omega⟩, b, rfl, hend⟩
        · obtain ⟨front, hprefix, hchain, ⟨c, hc, hoff⟩, last, hlast, hend⟩ :=
            ih'.mp h
          obtain ⟨tail, rfl⟩ : ∃ tail, front = c :: tail := by
            cases front with
            | nil => simp at hc
            | cons d tail =>
              obtain rfl : d = c := by simpa using hc
              exact ⟨tail, rfl⟩
          refine ⟨b :: c :: tail, ?_, ?_, ⟨b, rfl, by omega⟩, last, ?_, hend⟩
          · exact List.prefix_cons_inj b |>.mpr hprefix
          · exact List.isChain_cons_cons.mpr ⟨hoff, hchain⟩
          · simpa using hlast
    · intro h
      obtain ⟨front, hprefix, hchain, ⟨c, hc, hoff⟩, last, hlast, hend⟩ := h
      cases front with
      | nil => simp at hc
      | cons d tail =>
        obtain rfl : d = c := by simpa using hc
        obtain ⟨rfl, htail⟩ := List.cons_prefix_cons.mp hprefix
        rw [if_neg (by omega)]
        split
        · rfl
        · rename_i hshort
          cases tail with
          | nil =>
            obtain rfl : d = last := by simpa using hlast
            exact absurd hend hshort
          | cons e tail =>
            obtain ⟨hadj, hchain⟩ := List.isChain_cons_cons.mp hchain
            exact ih'.mpr ⟨e :: tail, htail, hchain, ⟨e, rfl, hadj⟩, last,
              by simpa using hlast, hend⟩

/-- A list without a gap covers what is behind the position. -/
theorem covered_of_covers (hfrag : ∀ b ∈ fragments, whole.FragmentOf b)
    (h : covers fragments pos = true) :
    ∀ i, pos ≤ i → i < whole.payload.val.length → ∃ b ∈ fragments,
      b.fragmentOffset.toNat ≤ i ∧
        i < b.fragmentOffset.toNat + b.payload.val.length := by
  induction fragments generalizing pos with
  | nil => simp [covers] at h
  | cons b rest ih =>
    intro i hpos hlt
    have hb := hfrag b List.mem_cons_self
    rw [covers, hb.fragmentEnd_eq, hb.total] at h
    split at h
    · cases h
    · by_cases hin : i < b.fragmentOffset.toNat + b.payload.val.length
      · exact ⟨b, List.mem_cons_self, by omega, hin⟩
      · rw [if_neg (by omega)] at h
        obtain ⟨c, hc, hle, hi⟩ :=
          ih (fun c hc => hfrag c (List.mem_cons_of_mem _ hc)) h i (by omega) hlt
        exact ⟨c, List.mem_cons_of_mem _ hc, hle, hi⟩

/-- A buffer that is full of bytes which fragments of `whole` state is its
payload. -/
theorem Progress.payload_eq {payload : List (Option UInt8)}
    (h : Progress fragments whole.payload.val.length payload
      whole.payload.val.length)
    (hfrag : ∀ b ∈ fragments, whole.FragmentOf b) :
    payload = whole.payload.val.map some := by
  refine List.ext_getElem? fun i => ?_
  by_cases hi : i < whole.payload.val.length
  · obtain ⟨byte, hbyte, b, hb, hle, hlt, hstated⟩ := h.written i hi
    have hoff : b.fragmentOffset.toNat + (i - b.fragmentOffset.toNat) = i := by
      omega
    have hwhole := (hfrag b hb).bytes (i - b.fragmentOffset.toNat) (by omega)
    rw [hoff, hstated] at hwhole
    rw [hbyte, List.getElem?_map, ← hwhole]
    rfl
  · have hlen := h.length
    rw [List.getElem?_eq_none (by omega), List.getElem?_eq_none (by simp; omega)]

/-! ## Arrivals -/

/-- A fragment that is handed to `bundle_attempt_reassembly`: where it is, and
what the call finds. -/
structure Arrival where
  inputs : Inputs
  addr : Addr
  bundle : Bundle

/-- `add_to_reassembly_bundle_list` puts the first in front of the second. -/
def Arrival.Before (r s : Arrival) : Prop :=
  r.bundle.fragmentOffset < s.bundle.fragmentOffset

instance : DecidableRel Arrival.Before := fun r s =>
  inferInstanceAs (Decidable (r.bundle.fragmentOffset < s.bundle.fragmentOffset))

/-- The arrivals in the order of the offsets; those with the same offset in
the order in which they arrived. -/
def inOrder (arrivals : List Arrival) : List Arrival :=
  arrivals.foldl (fun l r => l.orderedInsert Arrival.Before r) []

/-- The fragments in that order. -/
def fragmentsInOrder (arrivals : List Arrival) : List Bundle :=
  (inOrder arrivals).map (·.bundle)

theorem inOrder_append (arrivals : List Arrival) (r : Arrival) :
    inOrder (arrivals ++ [r])
      = (inOrder arrivals).orderedInsert Arrival.Before r := by
  rw [inOrder, List.foldl_append]
  rfl

theorem perm_inOrder (arrivals : List Arrival) :
    (inOrder arrivals).Perm arrivals := by
  induction arrivals using List.reverseRecOn with
  | nil => exact List.Perm.refl _
  | append_singleton arrivals r ih =>
    rw [inOrder_append]
    have hinsert := List.perm_orderedInsert Arrival.Before r (inOrder arrivals)
    have hcons := hinsert.trans (ih.cons r)
    exact hcons.trans (List.perm_append_singleton r arrivals).symm

namespace BundleProcessor

variable {env : Env} {o : Inputs} {p q : BundleProcessor} {a : Addr}

/-- The state `p` in which the fragments wait for the others. -/
def collecting (p : BundleProcessor) (waiting : List Arrival) :
    BundleProcessor :=
  if waiting = [] then p
  else { p with
    reassemblyList := p.reassemblyList ++ [waiting.map (·.addr)] }

/-- The state in which fragments of `whole` wait or are handed to
`bundle_attempt_reassembly`: none of the other lists is about `whole`, the
fragments are there, with no other retention constraint than
`REASSEMBLY_PENDING`. -/
structure Awaiting (p : BundleProcessor) (whole : Bundle)
    (arrivals : List Arrival) : Prop where
  coherent : p.Coherent
  others : ∀ l ∈ p.reassemblyList, ∃ c rest e, l = c :: rest ∧
    p.cells c = .live e ∧ e.mayReassemble whole = false
  live : ∀ r ∈ arrivals, p.cells r.addr = .live r.bundle
  fragments : ∀ r ∈ arrivals, whole.FragmentOf r.bundle
  constraints : ∀ r ∈ arrivals,
    r.bundle.retConstraints = RetConstraints.none.addReassemblyPending

/-- The result is that of `bundle_deliver_adu` for the payload of `whole`, in
an intact state, and nothing else was delivered before. -/
def HandsOver (env : Env) (p : BundleProcessor) (whole : Bundle)
    (result : Except Fault BundleProcessor) : Prop :=
  ∃ (s : BundleProcessor) (b : Bundle), s.Coherent ∧
    s.delivered = p.delivered ∧ whole.FragmentOf b ∧
    result = s.bundleDeliverAdu env b
        { b.bundleAduInit with payload := whole.payload.val.map some }

variable {whole : Bundle} {arrivals waiting : List Arrival} {r : Arrival}

@[simp] theorem cells_collecting : (p.collecting waiting).cells = p.cells := by
  unfold collecting
  split <;> rfl

@[simp] theorem delivered_collecting :
    (p.collecting waiting).delivered = p.delivered := by
  unfold collecting
  split <;> rfl

@[simp] theorem store_collecting : (p.collecting waiting).store = p.store := by
  unfold collecting
  split <;> rfl

theorem collecting_of_ne_nil (h : waiting ≠ []) :
    p.collecting waiting = { p with
      reassemblyList := p.reassemblyList ++ [waiting.map (·.addr)] } :=
  if_neg h

@[simp] theorem accepted_collecting :
    (p.collecting waiting).accepted = p.accepted := by
  unfold collecting
  split <;> rfl

theorem Coherent.collecting (h : p.Coherent) : (p.collecting waiting).Coherent := by
  refine ⟨⟨fun id x hx => ?_, fun x e hx hid => ?_⟩, fun x hx => ?_⟩
  · rw [store_collecting] at hx
    rw [cells_collecting]
    exact h.registered.stored id x hx
  · rw [cells_collecting] at hx
    rw [store_collecting]
    exact h.registered.live x e hx hid
  · rw [accepted_collecting] at hx
    rw [cells_collecting]
    exact h.custody x hx

theorem known_collecting (o : Inputs) (b : Bundle) :
    (p.collecting waiting).bundleReassembledIsKnown o b
      = p.bundleReassembledIsKnown o b := by
  unfold collecting
  split <;> rfl

/-! ## One arrival -/

theorem insertFragment_inOrder (hr : p.cells r.addr = .live r.bundle)
    (hlive : ∀ s ∈ waiting, p.cells s.addr = .live s.bundle) :
    p.insertFragment r.addr (waiting.map (·.addr))
      = .ok ((waiting.orderedInsert Arrival.Before r).map (·.addr)) := by
  induction waiting with
  | nil => rfl
  | cons s rest ih =>
    have hs := hlive s List.mem_cons_self
    have hrest := ih fun t ht => hlive t (List.mem_cons_of_mem _ ht)
    rw [List.map_cons, insertFragment, load_of_live hs, ok_bind,
      load_of_live hr, ok_bind, List.orderedInsert_cons]
    by_cases hbefore : r.bundle.fragmentOffset < s.bundle.fragmentOffset
    · rw [if_pos hbefore, if_pos (show r.Before s from hbefore)]
      rfl
    · rw [if_neg hbefore, if_neg (show ¬ r.Before s from hbefore), hrest]
      rfl

/-- The lists of other originals are passed over. -/
theorem findReassemblyList_others {b : Bundle} (ha : p.cells a = .live b)
    {lists : List (List Addr)} (hothers : ∀ l ∈ lists, ∃ c rest e,
      l = c :: rest ∧ p.cells c = .live e ∧ e.mayReassemble b = false)
    (more : List (List Addr)) (start : Nat) :
    p.findReassemblyList a (lists ++ more) start
      = p.findReassemblyList a more (start + lists.length) := by
  induction lists generalizing start with
  | nil => rfl
  | cons l lists ih =>
    obtain ⟨c, rest, e, rfl, he, hmay⟩ := hothers l List.mem_cons_self
    rw [List.cons_append, findReassemblyList, load_of_live he, ok_bind,
      load_of_live ha, ok_bind, if_neg (by simp [hmay]),
      ih (fun l hl => hothers l (List.mem_cons_of_mem _ hl))]
    congr 1
    rw [List.length_cons]
    omega

theorem orderedInsert_ne_nil : waiting.orderedInsert Arrival.Before r ≠ [] := by
  intro hnil
  have hlen := List.orderedInsert_length Arrival.Before waiting r
  rw [hnil] at hlen
  simp at hlen

/-- The fragment joins the list of the waiting ones. -/
theorem attempt_collects (h : p.Awaiting whole arrivals) (hr : r ∈ arrivals)
    (hwaiting : ∀ s ∈ waiting, s ∈ arrivals)
    (hunknown : p.bundleReassembledIsKnown r.inputs r.bundle = false)
    (hentry : r.inputs.entryMem = true) (hlist : r.inputs.listMem = true) :
    (p.collecting waiting).bundleAttemptReassembly env r.inputs r.addr
      = (p.collecting (waiting.orderedInsert Arrival.Before r)).tryReassemble
          env r.inputs p.reassemblyList.length := by
  have hlive : (p.collecting waiting).cells r.addr = .live r.bundle := by
    rw [cells_collecting]
    exact h.live r hr
  have horigin := (h.fragments r hr).origin
  have hothers : ∀ l ∈ p.reassemblyList, ∃ c rest e, l = c :: rest ∧
      (p.collecting waiting).cells c = .live e ∧
      e.mayReassemble r.bundle = false := by
    intro l hl
    obtain ⟨c, rest, e, hcons, he, hmay⟩ := h.others l hl
    refine ⟨c, rest, e, hcons, by rw [cells_collecting, he], ?_⟩
    rw [mayReassemble_congr horigin, hmay]
  have hne : waiting.orderedInsert Arrival.Before r ≠ [] := orderedInsert_ne_nil
  rw [bundleAttemptReassembly, load_of_live hlive, ok_bind, known_collecting,
    hunknown, onlyIf, if_neg (by simp), ok_bind, joinReassembly,
    collecting_of_ne_nil hne]
  cases waiting with
  | nil =>
    have hfind := findReassemblyList_others hlive hothers [] 0
    rw [List.append_nil] at hfind
    have hself : p.collecting [] = p := if_pos rfl
    rw [hself] at hfind ⊢
    rw [hfind, findReassemblyList, ok_bind]
    dsimp only
    rw [hlist, if_neg (by simp), addToReassemblyBundleList,
      insertFragment, ok_bind, hentry, if_pos rfl]
    rfl
  | cons s rest =>
    have hs := hwaiting s List.mem_cons_self
    have hmay : s.bundle.mayReassemble r.bundle = true :=
      mayReassemble_trans (h.fragments s hs).origin horigin
    have hslive : (p.collecting (s :: rest)).cells s.addr = .live s.bundle := by
      rw [cells_collecting]
      exact h.live s hs
    have hlists : (p.collecting (s :: rest)).reassemblyList
        = p.reassemblyList ++ [(s :: rest).map (·.addr)] := by
      rw [collecting_of_ne_nil (List.cons_ne_nil s rest)]
    have hfind := findReassemblyList_others hlive hothers
      [(s :: rest).map (·.addr)] 0
    rw [List.map_cons, findReassemblyList, load_of_live hslive, ok_bind,
      load_of_live hlive, ok_bind, if_pos hmay, Nat.zero_add] at hfind
    have hall : ∀ t ∈ s :: rest,
        (p.collecting (s :: rest)).cells t.addr = .live t.bundle := by
      intro t ht
      rw [cells_collecting]
      exact h.live t (hwaiting t ht)
    have hinsert := insertFragment_inOrder hlive hall
    have hget : (p.collecting (s :: rest)).reassemblyList.getD
        p.reassemblyList.length [] = (s :: rest).map (·.addr) := by
      rw [hlists, List.getD_eq_getElem?_getD]
      simp
    rw [hlists, List.map_cons, hfind, pure_bind]
    dsimp only
    rw [← List.map_cons, ← hlists, hget, addToReassemblyBundleList, hinsert,
      ok_bind, hentry, if_pos rfl]
    change tryReassemble env r.inputs { p.collecting (s :: rest) with
      reassemblyList := (p.collecting (s :: rest)).reassemblyList.set
        p.reassemblyList.length _ } _ = _
    rw [hlists, collecting_of_ne_nil (List.cons_ne_nil s rest),
      List.set_append_right _ _ (Nat.le_refl _), Nat.sub_self]
    rfl

/-! ## `try_reassemble` on the waiting fragments -/

theorem coversAdu_of_live (hlive : ∀ s ∈ waiting, p.cells s.addr = .live s.bundle)
    (pos : Nat) :
    p.coversAdu (waiting.map (·.addr)) pos
      = .ok (covers (waiting.map (·.bundle)) pos) := by
  induction waiting generalizing pos with
  | nil => rfl
  | cons s rest ih =>
    have hs := hlive s List.mem_cons_self
    rw [List.map_cons, List.map_cons, coversAdu, load_of_live hs, ok_bind, covers]
    split
    · rfl
    · dsimp only
      rw [Bundle.fragmentEnd]
      split
      · rfl
      · exact ih (fun t ht => hlive t (List.mem_cons_of_mem _ ht)) _

theorem store_addKnown (o : Inputs) (b : Bundle) :
    (p.bundleAddReassembledAsKnown o b).store = p.store := by
  unfold bundleAddReassembledAsKnown
  split <;> rfl

/-- The second loop of `try_reassemble` gets through the fragments. -/
theorem copyFragments_returns {fragments : List Bundle} {aduLength pos : Nat}
    {payload : List (Option UInt8)} (hreg : p.Registered)
    (hlive : ∀ s ∈ waiting, p.cells s.addr = .live s.bundle)
    (hdistinct : (waiting.map (·.addr)).Nodup)
    (hret : ∀ s ∈ waiting,
      s.bundle.retConstraints = RetConstraints.none.addReassemblyPending)
    (hbytes : (waiting.map (·.bundle.payload.val.length)).sum
      ≤ p.store.bundleBytes)
    (hsub : ∀ s ∈ waiting, s.bundle ∈ fragments) (hadu : aduLength < 2 ^ 32)
    (h : Progress fragments aduLength payload pos) (addedAsKnown : Bool) :
    ∃ result, copyFragments o aduLength p (waiting.map (·.addr)) addedAsKnown
      payload pos = .ok result := by
  induction waiting generalizing p payload pos addedAsKnown with
  | nil => exact ⟨(payload, p), rfl⟩
  | cons s rest ih =>
    have hs := hlive s List.mem_cons_self
    rw [List.map_cons, copyFragments, load_of_live hs, ok_bind]
    dsimp only
    set p' := if addedAsKnown then p
      else p.bundleAddReassembledAsKnown o s.bundle with hp'
    have hsame : p'.cells = p.cells ∧ p'.store = p.store := by
      rw [hp']
      split
      · exact ⟨rfl, rfl⟩
      · exact ⟨cells_addKnown s.bundle, store_addKnown o s.bundle⟩
    obtain ⟨hcells, hstore⟩ := hsame
    have hreg' : p'.Registered := by
      refine ⟨fun id x hx => ?_, fun x e hx hid => ?_⟩
      · rw [hstore] at hx
        rw [hcells]
        exact hreg.stored id x hx
      · rw [hcells] at hx
        rw [hstore]
        exact hreg.live x e hx hid
    have hs' : p'.cells s.addr = .live s.bundle := hcells ▸ hs
    have hcopy := copyFragment_ends h hadu (hsub s List.mem_cons_self)
    cases hresult : copyFragment aduLength s.bundle payload pos with
    | error e => exact (hcopy.error hresult).elim
    | ok result =>
      obtain ⟨hprogress, -, -⟩ := hcopy.ok hresult
      rw [ok_bind, bundleRemRc_keep hs', ok_bind]
      set b' : Bundle := { s.bundle with
        retConstraints := s.bundle.retConstraints.remReassemblyPending } with hb'
      have hfree : b'.retConstraints = .none := by
        rw [hb']
        dsimp only
        rw [hret s List.mem_cons_self]
        rfl
      have hb'live : (p'.setCell s.addr (.live b')).cells s.addr = .live b' :=
        cells_setCell_self _
      have hb'reg : (p'.setCell s.addr (.live b')).Registered :=
        hreg'.setCell hs' rfl
      rw [List.map_cons, List.sum_cons] at hbytes
      have henough : ¬ ((p'.setCell s.addr (.live b')).store.bundleBytes
          < b'.payload.val.length) := by
        rw [store_setCell, hstore]
        change ¬ p.store.bundleBytes < s.bundle.payload.val.length
        omega
      rw [bundleDiscard_of_live hb'reg hb'live hfree,
        if_neg fun hc => henough hc.2, ok_bind]
      refine ih (hb'reg.removed hb'live) ?_ (List.nodup_cons.mp hdistinct).2
        (fun t ht => hret t (List.mem_cons_of_mem _ ht)) ?_
        (fun t ht => hsub t (List.mem_cons_of_mem _ ht)) hprogress true
      · intro t ht
        have hne : t.addr ≠ s.addr := by
          intro heq
          have hmem : t.addr ∈ rest.map (·.addr) := List.mem_map_of_mem ht
          rw [heq] at hmem
          exact (List.nodup_cons.mp hdistinct).1 hmem
        rw [cells_removed_of_ne hne, cells_setCell_of_ne hne, hcells]
        exact hlive t (List.mem_cons_of_mem _ ht)
      · have hleft : p.store.bundleBytes - s.bundle.payload.val.length
            ≤ ((p'.setCell s.addr (.live b')).removed s.addr b').store.bundleBytes := by
          unfold removed
          dsimp only
          rw [store_setCell, hstore]
          split
          · exact Nat.le_refl _
          · exact Nat.sub_le _ _
        omega

section Waiting

variable (h : p.Awaiting whole arrivals) (hwaiting : ∀ s ∈ waiting, s ∈ arrivals)
  (hne : waiting ≠ [])
include h hwaiting hne

theorem coversAdu_collecting :
    (p.collecting waiting).coversAdu
        ((p.collecting waiting).reassemblyList.getD p.reassemblyList.length []) 0
      = .ok (covers (waiting.map (·.bundle)) 0) := by
  have hget : (p.collecting waiting).reassemblyList.getD
      p.reassemblyList.length [] = waiting.map (·.addr) := by
    rw [collecting_of_ne_nil hne, List.getD_eq_getElem?_getD]
    simp
  rw [hget]
  refine coversAdu_of_live (fun s hs => ?_) 0
  rw [cells_collecting]
  exact h.live s (hwaiting s hs)

/-- With a gap the fragments go on waiting. -/
theorem tryReassemble_gap (hgap : covers (waiting.map (·.bundle)) 0 = false) :
    (p.collecting waiting).tryReassemble env o p.reassemblyList.length
      = .ok (p.collecting waiting) := by
  unfold tryReassemble
  dsimp only
  rw [coversAdu_collecting h hwaiting hne, ok_bind, hgap, if_pos (by simp)]
  rfl

/-- Without a gap the payload of the original is handed over. -/
theorem tryReassemble_handsOver (hmem : o.aduMem = true)
    (hdistinct : (waiting.map (·.addr)).Nodup)
    (hbytes : (waiting.map (·.bundle.payload.val.length)).sum
      ≤ p.store.bundleBytes)
    (hcovers : covers (waiting.map (·.bundle)) 0 = true) :
    HandsOver env p whole
      ((p.collecting waiting).tryReassemble env o p.reassemblyList.length) := by
  have hlive : ∀ s ∈ waiting,
      (p.collecting waiting).cells s.addr = .live s.bundle := by
    intro s hs
    rw [cells_collecting]
    exact h.live s (hwaiting s hs)
  have hfrag : ∀ b ∈ waiting.map (·.bundle), whole.FragmentOf b := by
    intro b hb
    obtain ⟨s, hs, rfl⟩ := List.mem_map.mp hb
    exact h.fragments s (hwaiting s hs)
  have hholds : List.Forall₂ (p.collecting waiting).Holds
      (waiting.map (·.addr)) (waiting.map (·.bundle)) := by
    rw [List.forall₂_map_left_iff, List.forall₂_map_right_iff, List.forall₂_same]
    exact fun s hs => .inl (hlive s hs)
  have hget : (p.collecting waiting).reassemblyList.getD
      p.reassemblyList.length [] = waiting.map (·.addr) := by
    rw [collecting_of_ne_nil hne, List.getD_eq_getElem?_getD]
    simp
  have hstart := progress_start (waiting.map (·.bundle)) whole.payload.val.length
  have hlen := whole.payload.property
  obtain ⟨⟨payload, q⟩, hcopy⟩ := copyFragments_returns (o := o)
    h.coherent.collecting.registered hlive hdistinct
    (fun s hs => h.constraints s (hwaiting s hs))
    (by rwa [store_collecting]) (fun s hs => List.mem_map_of_mem hs) hlen hstart
    false
  have hends := copyFragments_ends (o := o) hholds (fun _ hb => hb) hlen hstart
    false
  obtain ⟨last, hprogress, -, hdelivered, hlast⟩ := hends.ok hcopy
  obtain ⟨hq, -⟩ := (copyFragments_stops (o := o) h.coherent.collecting hdistinct
    (fun a ha => by
      obtain ⟨s, hs, rfl⟩ := List.mem_map.mp ha
      exact ⟨_, hlive s hs⟩) _ _ _ _).ok hcopy
  have hfull : last = whole.payload.val.length :=
    hlast (fun b hb => (hfrag b hb).total) 0 (Nat.le_refl 0) hcovers
  rw [hfull] at hprogress
  have hpayload := hprogress.payload_eq hfrag
  dsimp only at hpayload hdelivered
  unfold tryReassemble
  dsimp only
  rw [coversAdu_collecting h hwaiting hne, ok_bind, hcovers, if_neg (by simp),
    hget]
  cases waiting with
  | nil => exact absurd rfl hne
  | cons s rest =>
    have hs := hfrag s.bundle (by simp)
    rw [List.map_cons] at hcopy ⊢
    dsimp only
    rw [load_of_live (hlive s List.mem_cons_self), ok_bind, hmem,
      if_neg (by simp), hs.total, hcopy, ok_bind, hpayload]
    refine ⟨{ q with
      reassemblyList := q.reassemblyList.eraseIdx p.reassemblyList.length },
      s.bundle, ?_, ?_, hs, rfl⟩
    · exact ⟨⟨hq.registered.stored, hq.registered.live⟩, hq.custody⟩
    · exact hdelivered.trans delivered_collecting

end Waiting

end BundleProcessor

end Upcn
