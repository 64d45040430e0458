import Upcn.Processor.Effects

/-!
# What `try_reassemble` delivers

The two loops of `try_reassemble` walk over the same list with two positions.
`covers` is the first loop on the bundles themselves.  `Progress` is the
invariant of the second: every byte below the position was copied from the
place of a fragment that states it.

`copyFragment_ends` is the step.  It also says that the copying never falls
behind the first loop, so that an ADU is complete when the fragments agree on
its length.
-/

namespace Upcn

open Outcome Store

/-- The sum of `fragment_offset` and the payload length, a `uint32_t`. -/
def Bundle.fragmentEnd (b : Bundle) : Nat :=
  (b.fragmentOffset + b.payloadLength).toNat

/-- The first loop of `try_reassemble`, on the bundles. -/
def covers : List Bundle → Nat → Bool
  | [], _ => false
  | b :: rest, pos =>
    if pos < b.fragmentOffset.toNat then false
    else if b.totalAduLength.toNat ≤ b.fragmentEnd then true
    else covers rest b.fragmentEnd

/-- The byte at position `i` of the original bundle, as one of the fragments
states it. -/
def Stated (fragments : List Bundle) (i : Nat) (byte : UInt8) : Prop :=
  ∃ b ∈ fragments, b.fragmentOffset.toNat ≤ i ∧
    i < b.fragmentOffset.toNat + b.payload.val.length ∧
    b.payload.val[i - b.fragmentOffset.toNat]? = some byte

/-- `payload` is the ADU that the fragments state. -/
def Reassembled (fragments : List Bundle) (payload : List (Option UInt8)) :
    Prop :=
  (∀ b ∈ fragments, payload.length = b.totalAduLength.toNat) ∧
    ∀ i < payload.length, ∃ byte, payload[i]? = some (some byte) ∧
      Stated fragments i byte

/-- All fragments state the same length of the ADU. -/
def SameTotal (fragments : List Bundle) : Prop :=
  ∀ b ∈ fragments, ∀ c ∈ fragments, b.totalAduLength = c.totalAduLength

/-- The buffer of the ADU after the bytes below `pos` are copied. -/
structure Progress (fragments : List Bundle) (aduLength : Nat)
    (payload : List (Option UInt8)) (pos : Nat) : Prop where
  length : payload.length = aduLength
  le : pos ≤ aduLength
  written : ∀ i < pos, ∃ byte, payload[i]? = some (some byte) ∧
    Stated fragments i byte

variable {fragments : List Bundle} {aduLength pos : Nat}
  {payload : List (Option UInt8)} {b : Bundle}

theorem progress_start (fragments : List Bundle) (aduLength : Nat) :
    Progress fragments aduLength (List.replicate aduLength none) 0 where
  length := List.length_replicate
  le := Nat.zero_le _
  written i hi := absurd hi (Nat.not_lt_zero i)

/-! ## One fragment -/

theorem subSize_of_le {a b : Nat} (h : b ≤ a) (ha : a < 2 ^ 64) :
    subSize a b = a - b := by
  unfold subSize
  omega

/-- Within the bounds, `memcpy` keeps the length and changes just the bytes
it copies. -/
theorem copyBytes_ok {data : List UInt8} {offset num : Nat}
    (hpos : pos + num ≤ payload.length) (hdata : offset + num ≤ data.length) :
    ∃ payload', copyBytes payload pos data offset num = .ok payload' ∧
      payload'.length = payload.length ∧
      (∀ i < pos, payload'[i]? = payload[i]?) ∧
      ∀ i, pos ≤ i → i < pos + num →
        payload'[i]? = some (data[offset + (i - pos)]?) := by
  refine ⟨_, if_neg (by omega), ?_, ?_, ?_⟩
  · simp only [List.length_append, List.length_take, List.length_map,
      List.length_drop]
    omega
  · intro i hi
    rw [List.append_assoc, List.getElem?_append_left (by simp; omega),
      List.getElem?_take_of_lt hi]
  · intro i hle hlt
    have hmid : (((data.drop offset).take num).map some).length = num := by
      simp only [List.length_map, List.length_take, List.length_drop]
      omega
    have htake : (payload.take pos).length = pos := by
      rw [List.length_take]
      omega
    rw [List.append_assoc, List.getElem?_append_right (by omega), htake,
      List.getElem?_append_left (by omega), List.getElem?_map,
      List.getElem?_take_of_lt (by omega), List.getElem?_drop,
      List.getElem?_eq_getElem (by omega)]
    rfl

theorem Progress.copied (h : Progress fragments aduLength payload pos)
    (hb : b ∈ fragments) {payload' : List (Option UInt8)} {num : Nat}
    (hoff : b.fragmentOffset.toNat ≤ pos) (hle : pos + num ≤ aduLength)
    (hnum : pos - b.fragmentOffset.toNat + num ≤ b.payload.val.length)
    (hlength : payload'.length = payload.length)
    (hold : ∀ i < pos, payload'[i]? = payload[i]?)
    (hnew : ∀ i, pos ≤ i → i < pos + num → payload'[i]? = some
      (b.payload.val[pos - b.fragmentOffset.toNat + (i - pos)]?)) :
    Progress fragments aduLength payload' (pos + num) where
  length := hlength.trans h.length
  le := hle
  written i hi := by
    by_cases hlt : i < pos
    · rw [hold i hlt]
      exact h.written i hlt
    · have hindex : pos - b.fragmentOffset.toNat + (i - pos)
          = i - b.fragmentOffset.toNat := by omega
      have hin : i - b.fragmentOffset.toNat < b.payload.val.length := by omega
      have hbyte := List.getElem?_eq_getElem hin
      refine ⟨_, ?_, b, hb, by omega, by omega, hbyte⟩
      rw [hnew i (by omega) hi, hindex, hbyte]

namespace BundleProcessor

/-- One turn of the second loop stays within the buffers.  If the fragment
starts at or before the position, the position after it is its end, or the
end of the ADU. -/
theorem copyFragment_ends (h : Progress fragments aduLength payload pos)
    (hadu : aduLength < 2 ^ 32) (hb : b ∈ fragments) :
    Ends (fun _ => False) (copyFragment aduLength b payload pos) fun r =>
      Progress fragments aduLength r.1 r.2 ∧ pos ≤ r.2 ∧
        (b.fragmentOffset.toNat ≤ pos →
          min aduLength (b.fragmentOffset.toNat + b.payload.val.length) ≤ r.2) := by
  have hlen := b.payload.property
  have hoff32 := b.fragmentOffset.toNat_lt
  have hle := h.le
  unfold copyFragment
  dsimp only
  rw [Bundle.toNat_payloadLength]
  by_cases hoff : b.fragmentOffset.toNat ≤ pos
  · have hsub : subSize pos b.fragmentOffset.toNat
        = pos - b.fragmentOffset.toNat := subSize_of_le hoff (by omega)
    rw [hsub]
    split
    · rename_i hlt
      rw [subSize_of_le (Nat.le_of_lt hlt) (by omega),
        subSize_of_le hle (by omega)]
      set num := min (b.payload.val.length - (pos - b.fragmentOffset.toNat))
        (aduLength - pos) with hnum
      have hbound : pos + num ≤ payload.length := by
        rw [h.length]
        omega
      have hdata : pos - b.fragmentOffset.toNat + num ≤ b.payload.val.length := by
        omega
      obtain ⟨payload', hcopy, hlength, hold, hnew⟩ :=
        copyBytes_ok hbound hdata
      rw [hcopy]
      refine ⟨h.copied hb hoff (by omega) hdata hlength hold hnew,
        Nat.le_add_right _ _, fun _ => ?_⟩
      dsimp only
      omega
    · exact ⟨h, Nat.le_refl _, fun _ => by dsimp only; omega⟩
  · -- The difference wraps around, and the fragment is left out.
    have hsub : ¬ subSize pos b.fragmentOffset.toNat < b.payload.val.length := by
      unfold subSize
      omega
    rw [if_neg hsub]
    exact ⟨h, Nat.le_refl _, fun hc => absurd hc hoff⟩

/-! ## The two loops -/

variable {env : Env} {o : Inputs} {p q : BundleProcessor} {a : Addr}

/-- The failures that leave the buffers alone. -/
def InBounds (e : Fault) : Prop := e ≠ .outOfBounds

/-- The cell was live with this content when the loop started. -/
def Holds (p : BundleProcessor) (a : Addr) (b : Bundle) : Prop :=
  p.cells a = .live b ∨ p.cells a = .freed

theorem Holds.eq_of_live {c : Bundle} (h : p.Holds a b)
    (hc : p.cells a = .live c) : c = b := by
  rcases h with hb | hfreed
  · rw [hb] at hc
    exact (Cell.live.inj hc).symm
  · rw [hfreed] at hc
    cases hc

theorem load_ends (p : BundleProcessor) (a : Addr) :
    Ends InBounds (p.load a) fun b => p.cells a = .live b := by
  unfold load
  split
  · assumption
  · exact ends_error (by simp [InBounds])
  · exact ends_error (by simp [InBounds])

theorem modify_ends (p : BundleProcessor) (a : Addr) (f : Bundle → Bundle) :
    Ends InBounds (p.modify a f) fun q =>
      ∃ b, p.cells a = .live b ∧ q = p.setCell a (.live (f b)) :=
  (load_ends p a).bind fun b hb => ⟨b, hb, rfl⟩

/-- A discard changes one cell and the store. -/
structure Freed (p : BundleProcessor) (a : Addr) (q : BundleProcessor) :
    Prop where
  cells : q.cells = Function.update p.cells a .freed
  delivered : q.delivered = p.delivered

theorem bundleStorageDelete_ends (p : BundleProcessor) (id : Nat) :
    Ends InBounds (p.bundleStorageDelete id) fun q =>
      q.cells = p.cells ∧ q.delivered = p.delivered := by
  unfold bundleStorageDelete
  split
  · exact ends_ok ⟨rfl, rfl⟩
  · refine (load_ends p _).bind fun b _ => ?_
    cases p.store.bundleStorageDelete (fun _ => some b.payload.val.length) id with
    | error e => exact ends_error (E := InBounds) (by simp [InBounds])
    | ok r => exact ends_ok (Q := fun q : BundleProcessor =>
        q.cells = p.cells ∧ q.delivered = p.delivered) ⟨rfl, rfl⟩

theorem bundleDrop_ends (p : BundleProcessor) (a : Addr) :
    Ends InBounds (p.bundleDrop a) (p.Freed a) := by
  refine (load_ends p a).bind fun b hb => ?_
  split
  · exact ends_error (E := InBounds) (by simp [InBounds])
  · exact (load_ends p a).bind fun _ _ => ⟨rfl, rfl⟩

theorem bundleDiscard_inBounds (p : BundleProcessor) (a : Addr) :
    Ends InBounds (p.bundleDiscard a) (p.Freed a) := by
  refine (load_ends p a).bind fun b _ => ?_
  refine (bundleStorageDelete_ends p b.id).bind fun q hq => ?_
  refine (bundleDrop_ends q a).imp fun r hr => ⟨?_, ?_⟩
  · rw [hr.cells, hq.1]
  · rw [hr.delivered, hq.2]

/-- What the second loop does to a fragment after it is copied. -/
theorem dropFragment_ends (p : BundleProcessor) (a : Addr)
    (clear : RetConstraints → RetConstraints) :
    Ends InBounds (p.bundleRemRc a clear false >>= fun p => p.bundleDiscard a)
      (p.Freed a) := by
  refine Ends.bind (Q := fun q => ∃ b, q = p.setCell a (.live b)) ?_ ?_
  · refine (modify_ends p a _).bind ?_
    rintro q ⟨b, -, rfl⟩
    rw [load_of_live (cells_setCell_self _)]
    exact ⟨_, rfl⟩
  · rintro q ⟨b, rfl⟩
    refine (bundleDiscard_inBounds _ a).imp fun r hr => ⟨?_, hr.delivered⟩
    rw [hr.cells]
    simp [setCell]

theorem Freed.holds (h : p.Freed a q) {c : Addr} (hc : p.Holds c b) :
    q.Holds c b := by
  unfold Holds at *
  rw [h.cells]
  by_cases hca : c = a
  · subst hca
    exact .inr (Function.update_self ..)
  · rwa [Function.update_of_ne hca]

theorem fragmentEnd_le (b : Bundle) :
    b.fragmentEnd ≤ b.fragmentOffset.toNat + b.payload.val.length := by
  rw [Bundle.fragmentEnd, UInt32.toNat_add, Bundle.toNat_payloadLength]
  exact Nat.mod_le _ _

/-- The first loop only reads. -/
theorem coversAdu_ends (p : BundleProcessor) {entries : List Addr}
    {bundles : List Bundle} (hlive : List.Forall₂ p.Holds entries bundles)
    (pos : Nat) :
    Ends InBounds (p.coversAdu entries pos) (· = covers bundles pos) := by
  induction hlive generalizing pos with
  | nil => exact rfl
  | @cons a b entries bundles ha hrest ih =>
    refine (load_ends p a).bind fun c hc => ?_
    obtain rfl := ha.eq_of_live hc
    rw [covers]
    split
    · exact rfl
    · dsimp only
      rw [Bundle.fragmentEnd]
      split
      · exact rfl
      · exact ih _

/-- The second loop.  `reached` is the position of the first loop, which the
copying has reached as well; when the first loop succeeds from there, the
copying gets to the end of the ADU. -/
theorem copyFragments_ends {entries : List Addr} {bundles : List Bundle}
    (hlive : List.Forall₂ p.Holds entries bundles)
    (hsub : ∀ b ∈ bundles, b ∈ fragments) (hadu : aduLength < 2 ^ 32)
    (h : Progress fragments aduLength payload pos) (addedAsKnown : Bool) :
    Ends InBounds (copyFragments o aduLength p entries addedAsKnown payload pos)
      fun r => ∃ last, Progress fragments aduLength r.1 last ∧ pos ≤ last ∧
        r.2.delivered = p.delivered ∧
        ((∀ b ∈ bundles, b.totalAduLength.toNat = aduLength) →
          ∀ reached ≤ pos, covers bundles reached = true → last = aduLength) := by
  induction bundles generalizing p entries payload pos addedAsKnown with
  | nil =>
    cases hlive
    refine ends_ok ⟨pos, h, Nat.le_refl _, rfl, fun _ reached _ hc => ?_⟩
    exact absurd hc (by simp [covers])
  | cons b bundles ih =>
    cases hlive with
    | @cons a _ entries _ ha hrest =>
    refine (load_ends p a).bind fun c hc => ?_
    obtain rfl := ha.eq_of_live hc
    set p' := if addedAsKnown then p else p.bundleAddReassembledAsKnown o c
      with hp'
    have hcells : p'.cells = p.cells ∧ p'.delivered = p.delivered := by
      rw [hp']
      unfold bundleAddReassembledAsKnown
      split
      · exact ⟨rfl, rfl⟩
      · split <;> exact ⟨rfl, rfl⟩
    have hcopy := copyFragment_ends h hadu (hsub c List.mem_cons_self)
    refine (hcopy.mono (fun _ hf => hf.elim) fun _ hr => hr).bind ?_
    rintro ⟨payload', pos'⟩ ⟨hprogress, hle, hreach⟩
    dsimp only at hprogress hle hreach ⊢
    rw [← bind_assoc]
    refine (dropFragment_ends p' a _).bind fun q hq => ?_
    have hholds : List.Forall₂ q.Holds entries bundles := by
      refine hrest.imp fun x e hx => hq.holds ?_
      unfold Holds at hx ⊢
      rwa [hcells.1]
    refine (ih hholds (fun b hb => hsub b (List.mem_cons_of_mem _ hb)) hprogress
      true).imp ?_
    rintro r ⟨last, hlast, hposle, hdelivered, hcovers⟩
    refine ⟨last, hlast, Nat.le_trans hle hposle, ?_, ?_⟩
    · rw [hdelivered, hq.delivered, hcells.2]
    · intro htotal reached hreached hcov
      rw [covers] at hcov
      split at hcov
      · exact absurd hcov (by simp)
      · rename_i hoff
        have hpos' := hreach (by omega)
        have hend := fragmentEnd_le c
        rw [htotal c List.mem_cons_self] at hcov
        split at hcov
        · have hlastle := hlast.le
          omega
        · refine hcovers (fun b hb => htotal b (List.mem_cons_of_mem _ hb)) _ ?_
            hcov
          omega

/-! ## Delivery -/

theorem findEntry_ends (p : BundleProcessor) (test : Bundle → Bool)
    (entries : List Addr) :
    Ends InBounds (p.findEntry test entries) fun _ => True := by
  induction entries with
  | nil => exact trivial
  | cons a rest ih =>
    refine (load_ends p a).bind fun b _ => ?_
    split
    · exact trivial
    · exact ih

theorem custodyManagerRelease_ends (p : BundleProcessor) (a : Addr) :
    Ends InBounds (p.custodyManagerRelease a) fun q =>
      q.delivered = p.delivered := by
  unfold custodyManagerRelease
  split
  · exact ends_ok rfl
  · dsimp only
    refine (modify_ends _ a _).bind ?_
    rintro q ⟨b, -, rfl⟩
    refine (load_ends _ a).bind fun c _ => ?_
    split
    · refine (bundleStorageDelete_ends _ c.id).bind fun r hr => ?_
      refine (bundleDrop_ends r a).imp fun r' hr' => ?_
      rw [hr'.delivered, hr.2]
      rfl
    · exact rfl

theorem bundleDeliverAdu_ends (p : BundleProcessor) (b : Bundle)
    (adu : BundleAdu) :
    Ends InBounds (p.bundleDeliverAdu env b adu) fun q =>
      q.delivered = p.delivered ++
        [⟨adu, b.creationTimestamp, b.sequenceNumber⟩] := by
  unfold bundleDeliverAdu
  dsimp only
  split
  · split
    · split
      · refine (findEntry_ends _ _ _).bind fun entry _ => ?_
        cases entry with
        | none => exact rfl
        | some c => exact custodyManagerRelease_ends _ c
      · exact ends_ok rfl
    · exact ends_ok rfl
  · split
    · exact ends_ok rfl
    · exact ends_error (by simp [InBounds])

/-- `try_reassemble` stays within the buffers.  What it delivers was copied
from the fragments, and it is the whole ADU if they agree on its length. -/
theorem tryReassemble_ends {index : Nat}
    (hlive : List.Forall₂ (fun a b => p.cells a = .live b)
      (p.reassemblyList.getD index []) fragments) :
    Ends InBounds (p.tryReassemble env o index) fun q =>
      q.delivered = p.delivered ∨ ∃ d, q.delivered = p.delivered ++ [d] ∧
        ∃ b ∈ fragments, ∃ last,
          Progress fragments b.totalAduLength.toNat d.adu.payload last ∧
          (SameTotal fragments → last = b.totalAduLength.toNat) := by
  have hholds : List.Forall₂ p.Holds (p.reassemblyList.getD index []) fragments :=
    hlive.imp fun _ _ h => .inl h
  unfold tryReassemble
  dsimp only
  refine (coversAdu_ends p hholds 0).bind ?_
  rintro covered rfl
  split
  · exact ends_ok (.inl rfl)
  · rename_i hcovers
    have hcovers : covers fragments 0 = true := by simpa using hcovers
    cases fragments with
    | nil => simp [covers] at hcovers
    | cons b rest =>
      revert hlive hholds
      cases p.reassemblyList.getD index [] with
      | nil =>
        intro hlive
        cases hlive
      | cons a entries =>
        intro hlive hholds
        have ha : p.cells a = .live b := (List.forall₂_cons.mp hlive).1
        dsimp only
        rw [load_of_live ha, ok_bind]
        split
        · exact ends_ok (.inl rfl)
        · have hstart := progress_start (b :: rest) b.totalAduLength.toNat
          refine (copyFragments_ends hholds (fun _ hc => hc)
            b.totalAduLength.toNat_lt hstart false).bind ?_
          rintro ⟨payload, q⟩ ⟨last, hprogress, -, hdelivered, hlast⟩
          dsimp only at hprogress hdelivered ⊢
          refine (bundleDeliverAdu_ends _ b _).imp fun r hr => .inr ?_
          refine ⟨⟨{ b.bundleAduInit with payload := payload },
            b.creationTimestamp, b.sequenceNumber⟩, hr.trans ?_, b,
            List.mem_cons_self, last, hprogress, ?_⟩
          · dsimp only
            rw [hdelivered]
          · intro hsame
            refine hlast (fun c hc => ?_) 0 (Nat.le_refl 0) hcovers
            rw [hsame c hc b List.mem_cons_self]

end BundleProcessor

theorem Progress.reassembled (h : Progress fragments aduLength payload aduLength)
    (htotal : ∀ b ∈ fragments, aduLength = b.totalAduLength.toNat) :
    Reassembled fragments payload := by
  refine ⟨fun b hb => h.length.trans (htotal b hb), fun i hi => ?_⟩
  exact h.written i (h.length ▸ hi)

theorem Reassembled.sameTotal (h : Reassembled fragments payload) :
    SameTotal fragments := by
  intro b hb c hc
  refine UInt32.toNat.inj ?_
  rw [← h.1 b hb, ← h.1 c hc]

/-- `try_reassemble` never accesses a byte outside a buffer, and the ADU that
it delivers is the one that the fragments state just if they agree on its
length. -/
theorem BundleProcessor.tryReassemble_sound (env : Env) (o : Inputs)
    (p : BundleProcessor) (index : Nat) (fragments : List Bundle)
    (hlive : List.Forall₂ (fun a b => p.cells a = .live b)
      (p.reassemblyList.getD index []) fragments) :
    p.tryReassemble env o index ≠ .error .outOfBounds ∧
      ∀ q d, p.tryReassemble env o index = .ok q →
        q.delivered = p.delivered ++ [d] →
        (Reassembled fragments d.adu.payload ↔ SameTotal fragments) := by
  have hends := @tryReassemble_ends fragments env o p index hlive
  refine ⟨fun herror => hends.error herror rfl, fun q d hok hd => ?_⟩
  refine ⟨Reassembled.sameTotal, fun hsame => ?_⟩
  rcases hends.ok hok with hnone | ⟨d', hd', b, hb, last, hprogress, hlast⟩
  · simp [hnone] at hd
  · obtain rfl : d' = d := by simpa [hd'] using hd
    rw [hlast hsame] at hprogress
    exact hprogress.reassembled fun c hc => congrArg _ (hsame b hb c hc)

/-! ## Two fragments that agree -/

/-- A node `dtn:a` with a trivial hop count block and without reports. -/
def plainEnv : Env where
  localEid := "dtn:a".toList
  statusReporting := false
  serializedSize _ := 100
  hopCountParse _ := none
  hopCountSerialize _ := []
  statusReportRecord _ _ _ _ := none
  custodySignalRecord _ _ _ := Payload.empty
  parseRecord _ _ := none

/-- Every allocation succeeds except those for reports. -/
def plainInputs (time : UInt64) : Inputs where
  receiveTime := time
  recordTime := time
  deadlineTime := time
  reassembledTime := time
  addReassembledTime := time
  recordMem := true
  addReassembledMem := true
  entryMem := true
  listMem := true
  aduMem := true
  hopCountMem := true
  pushSucceeds := true
  reports _ := ⟨false, none, false, false, time, time, time, time⟩

/-- A fragment for an agent of that node, created at 1000 and valid for 300
seconds. -/
def plainFragment (id : Nat) (offset totalAduLength : UInt32)
    (payload : Payload) : Bundle where
  id := id
  protocolVersion := 7
  procFlags := ProcFlag.isFragment
  retConstraints := .none
  destination := "dtn:a/sink".toList
  source := "dtn:b".toList
  reportTo := dtnNone
  currentCustodian := dtnNone
  creationTimestamp := 1000
  sequenceNumber := 1
  lifetime := 300000000
  fragmentOffset := offset
  totalAduLength := totalAduLength
  blocks := [.payload]
  payload := payload

/-- `b` with `REASSEMBLY_PENDING` alone. -/
def Bundle.awaitingFragment (b : Bundle) : Bundle :=
  { b with retConstraints := RetConstraints.none.addReassemblyPending }

/-- Two bundles in the store. -/
def BundleProcessor.storing (b c : Bundle) : BundleProcessor :=
  { BundleProcessor.initial with
    cells := fun a => if a = 1 then .live b else if a = 2 then .live c
      else .unused
    store := ⟨fun id => if id = b.id then some 1 else if id = c.id then some 2
      else none, 3, b.payload.val.length + c.payload.val.length⟩ }

/-- Both bundles are fragments that wait for their reassembly. -/
def BundleProcessor.waiting (b c : Bundle) : BundleProcessor :=
  { BundleProcessor.storing b.awaitingFragment c.awaitingFragment with
    reassemblyList := [[1, 2]] }

theorem length_oneTwo : ([1, 2] : List UInt8).length < 2 ^ 32 := by decide

theorem length_threeFour : ([3, 4] : List UInt8).length < 2 ^ 32 := by decide

/-- The two halves of an ADU of four bytes. -/
def halves : Bundle × Bundle :=
  (plainFragment 1 0 4 ⟨[1, 2], length_oneTwo⟩,
    plainFragment 2 2 4 ⟨[3, 4], length_threeFour⟩)

theorem tryReassemble_sound_halves :
    (BundleProcessor.waiting halves.1 halves.2).tryReassemble plainEnv
        (plainInputs 1002) 0 ≠ .error .outOfBounds ∧
      ∀ q d, (BundleProcessor.waiting halves.1 halves.2).tryReassemble plainEnv
          (plainInputs 1002) 0 = .ok q →
        q.delivered = [] ++ [d] →
        (Reassembled [halves.1.awaitingFragment, halves.2.awaitingFragment]
          d.adu.payload ↔
            SameTotal [halves.1.awaitingFragment, halves.2.awaitingFragment]) :=
  BundleProcessor.tryReassemble_sound plainEnv (plainInputs 1002)
    (BundleProcessor.waiting halves.1 halves.2) 0
    [halves.1.awaitingFragment, halves.2.awaitingFragment]
    (.cons rfl (.cons rfl .nil))

/-! ## Two fragments that disagree -/

/-- The first half of an ADU of four bytes, as it says, and the second half
of one of ten bytes: the first states ten, and the second four. -/
def disagreeing : Bundle × Bundle :=
  (plainFragment 1 0 10 ⟨[1, 2], by decide⟩,
    plainFragment 2 2 4 ⟨[3, 4], by decide⟩)

/-- Received one after the other, they are delivered as ten bytes, of which
the last six were never written. -/
theorem tryReassemble_unwritten :
    ∃ p q d,
      (BundleProcessor.storing disagreeing.1 disagreeing.2).handleSignal
        plainEnv (plainInputs 1001) ⟨.bundleIncoming, .noInfo, 1⟩ = .ok p ∧
      p.handleSignal plainEnv (plainInputs 1002)
        ⟨.bundleIncoming, .noInfo, 2⟩ = .ok q ∧
      q.delivered = [d] ∧
      d.adu.payload = [some 1, some 2, some 3, some 4, none, none, none, none,
        none, none] ∧
      ¬ Reassembled [disagreeing.1, disagreeing.2] d.adu.payload := by
  refine ⟨_, _, _, rfl, rfl, rfl, rfl, fun h => ?_⟩
  exact absurd (h.1 disagreeing.2 (by simp)) (by decide)

end Upcn
