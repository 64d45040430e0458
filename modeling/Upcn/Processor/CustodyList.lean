import Upcn.Processor.CustodySignals

/-!
# The custody list over a run

What `accepted_bundles` holds after any run of `custody_manager_accept` and
`custody_manager_release`.

* `held` is what the list is for: the bundles that were accepted and not yet
  released, in the order of their acceptance.
* `CustodyRun` is a run.  Between two calls the rest of the program may do
  anything but touch the list or the retention constraint `CUSTODY_ACCEPTED`.
* `Compacts` says of a release that the `memmove` of `custody_manager_release`
  leaves the list without a gap.  Its length is a number of entries where
  `memmove` takes bytes: the entries behind the released one stay where they
  are, and only the bytes of the next one that fit into the number come over.

The section on the bytes says when such a move is enough all the same.  The
step lemmas are about one call, and `custodyList_run` puts them together.
-/

namespace Upcn

open Outcome

/-! ## The bytes of the pointers -/

theorem length_addrBytes (a : Addr) : (addrBytes a).length = pointerSize := by
  rw [addrBytes, List.length_map, List.length_range]

/-- The pointer that the low bytes of a number make up. -/
theorem addrOfBytes_low (n k : Nat) (hk : k ≤ pointerSize) :
    (addrOfBytes ((List.range k).map fun i => UInt8.ofNat (n / 256 ^ i))).toNat
      = n % 256 ^ k := by
  induction k generalizing n with
  | zero =>
    rw [pow_zero, Nat.mod_one]
    rfl
  | succ k ih =>
    have hrest : ((List.range k).map Nat.succ).map
        (fun i => UInt8.ofNat (n / 256 ^ i))
        = (List.range k).map fun i => UInt8.ofNat (n / 256 / 256 ^ i) := by
      rw [List.map_map]
      refine List.map_congr_left fun i _ => ?_
      rw [Function.comp_apply, Nat.succ_eq_add_one, pow_succ', Nat.div_div_eq_div_mul]
    have hbound : n % 256 ^ (k + 1) < 2 ^ 64 := by
      have hpow : 256 ^ (k + 1) ≤ 256 ^ 8 := Nat.pow_le_pow_right (by omega) hk
      have := Nat.mod_lt n (show 0 < 256 ^ (k + 1) from Nat.pow_pos (by omega))
      omega
    rw [List.range_succ_eq_map, List.map_cons, hrest, addrOfBytes,
      ih _ (by omega), pow_zero, Nat.div_one]
    have hsplit : n % 256 ^ (k + 1) = n % 256 + 256 * (n / 256 % 256 ^ k) := by
      rw [pow_succ', Nat.mod_mul]
    rw [UInt8.toNat_ofNat', ← hsplit, UInt64.toNat_ofNat_of_lt' hbound]

theorem addrOfBytes_addrBytes (a : Addr) : addrOfBytes (addrBytes a) = a := by
  apply UInt64.toNat_inj.mp
  have h := addrOfBytes_low a.toNat pointerSize le_rfl
  have hlt : a.toNat < 256 ^ pointerSize := a.toNat_lt
  rw [Nat.mod_eq_of_lt hlt] at h
  exact h

/-- The pointers are read back from their bytes. -/
theorem addrsOfBytes_flatMap (slots : List Addr) :
    addrsOfBytes slots.length (slots.flatMap addrBytes) = slots := by
  induction slots with
  | nil => rfl
  | cons a rest ih =>
    rw [List.length_cons, List.flatMap_cons, addrsOfBytes,
      List.take_left' (length_addrBytes a), List.drop_left' (length_addrBytes a),
      addrOfBytes_addrBytes, ih]

theorem length_flatMap_addrBytes (slots : List Addr) :
    (slots.flatMap addrBytes).length = pointerSize * slots.length := by
  induction slots with
  | nil => rfl
  | cons a rest ih =>
    rw [List.flatMap_cons, List.length_append, length_addrBytes, ih,
      List.length_cons, Nat.mul_succ, Nat.add_comm]

/-- The lowest byte of a pointer, before the others. -/
theorem addrBytes_low (a : Addr) :
    addrBytes a = UInt8.ofNat a.toNat ::
      (List.range 7).map fun i => UInt8.ofNat (a.toNat / 256 / 256 ^ i) := by
  rw [addrBytes, pointerSize, List.range_succ_eq_map, List.map_cons, pow_zero,
    Nat.div_one, List.map_map]
  congr 1
  refine List.map_congr_left fun i _ => ?_
  rw [Function.comp_apply, Nat.succ_eq_add_one, pow_succ', Nat.div_div_eq_div_mul]

/-- The move of one byte is enough where two pointers have the other bytes
in common. -/
theorem memmoveBytes_low (front back : List Addr) {a b : Addr}
    (h : a.toNat / 256 = b.toNat / 256) :
    memmoveBytes (front ++ a :: b :: back) (pointerSize * front.length)
      (pointerSize * (front.length + 1)) 1 = front ++ b :: b :: back := by
  have hfront := length_flatMap_addrBytes front
  have hbytes : (front ++ a :: b :: back).flatMap addrBytes
      = front.flatMap addrBytes ++ (addrBytes a ++ (addrBytes b ++
          back.flatMap addrBytes)) := by
    rw [List.flatMap_append, List.flatMap_cons, List.flatMap_cons]
  have hsource : ((front ++ a :: b :: back).flatMap addrBytes).drop
      (pointerSize * (front.length + 1)) = addrBytes b ++ back.flatMap addrBytes := by
    rw [hbytes, ← List.append_assoc]
    refine List.drop_left' ?_
    rw [List.length_append, hfront, length_addrBytes, Nat.mul_succ]
  have hafter : ((front ++ a :: b :: back).flatMap addrBytes).drop
      (pointerSize * front.length + 1)
      = (addrBytes a).drop 1 ++ (addrBytes b ++ back.flatMap addrBytes) := by
    rw [hbytes, ← hfront, List.drop_length_add_append,
      List.drop_append_of_le_length (by rw [length_addrBytes]; decide)]
  have hbefore : ((front ++ a :: b :: back).flatMap addrBytes).take
      (pointerSize * front.length) = front.flatMap addrBytes := by
    rw [hbytes]
    exact List.take_left' hfront
  -- the byte that comes over, and the seven that stay
  have hmerged : (addrBytes b ++ back.flatMap addrBytes).take 1
      ++ (addrBytes a).drop 1 = addrBytes b := by
    rw [addrBytes_low a, addrBytes_low b, h]
    rfl
  unfold memmoveBytes
  dsimp only
  rw [hbefore, hsource, hafter, List.append_assoc, ← List.append_assoc (List.take _ _),
    hmerged]
  have hmoved : front.flatMap addrBytes ++ (addrBytes b ++ (addrBytes b ++
      back.flatMap addrBytes)) = (front ++ b :: b :: back).flatMap addrBytes := by
    rw [List.flatMap_append, List.flatMap_cons, List.flatMap_cons]
  have hlength : (front ++ a :: b :: back).length
      = (front ++ b :: b :: back).length := by
    rw [List.length_append, List.length_append]
    rfl
  rw [hmoved, hlength, addrsOfBytes_flatMap]

/-! ## The calls and their runs -/

/-- A call of the custody manager. -/
inductive CustodyCall where
  | accept (a : Addr)
  | release (a : Addr)

/-- The bundles that are in custody after a call, in the order of their
acceptance. -/
def held (before : List Addr) : CustodyCall → List Addr
  | .accept a => before ++ [a]
  | .release a => before.erase a

namespace BundleProcessor

variable {env : Env} {p q : BundleProcessor} {a : Addr}

/-- The state after a call that returns. -/
def custodyCall (env : Env) (p : BundleProcessor) :
    CustodyCall → Except Fault BundleProcessor
  | .accept a => do
    let (_, p) ← p.custodyManagerAccept env a
    return p
  | .release a => p.custodyManagerRelease a

/-- The bundle at `a` has `BUNDLE_RET_CONSTRAINT_CUSTODY_ACCEPTED` set. -/
def FlaggedAt (p : BundleProcessor) (a : Addr) : Prop :=
  ∃ b, p.cells a = .live b ∧ b.retConstraints.custodyAccepted = true

/-- What the rest of the program does between two calls: it does not touch
the list, and `CUSTODY_ACCEPTED` is set of the same bundles as before. -/
structure Elsewhere (p q : BundleProcessor) : Prop where
  bundles : q.acceptedBundles = p.acceptedBundles
  count : q.acceptedBundleCount = p.acceptedBundleCount
  flagged : ∀ a, q.FlaggedAt a ↔ p.FlaggedAt a

/-- A release names no entry, or the newest one, or the one before it where
the two pointers differ in the lowest byte only. -/
def Compacts (p : BundleProcessor) : CustodyCall → Prop
  | .accept _ => True
  | .release a =>
    a ∉ p.accepted ∨ (∃ older, p.accepted = older ++ [a]) ∨
      ∃ older newest, p.accepted = older ++ [a, newest] ∧
        a.toNat / 256 = newest.toNat / 256

/-- The calls of a run from an empty list, each with `ok`, and the state they
lead to. -/
inductive CustodyRun (env : Env) (ok : BundleProcessor → CustodyCall → Prop) :
    List CustodyCall → BundleProcessor → Prop where
  | start : CustodyRun env ok [] .initial
  | call {calls : List CustodyCall} {p q : BundleProcessor} {c : CustodyCall}
      (run : CustodyRun env ok calls p) (hok : ok p c)
      (hcall : p.custodyCall env c = .ok q) :
      CustodyRun env ok (calls ++ [c]) q
  | elsewhere {calls : List CustodyCall} {p q : BundleProcessor}
      (run : CustodyRun env ok calls p) (h : Elsewhere p q) :
      CustodyRun env ok calls q

/-- The list is `kept`, and what goes with it. -/
structure CustodyList (p : BundleProcessor) (kept : List Addr) : Prop where
  entries : p.accepted = kept
  nodup : kept.Nodup
  count : p.acceptedBundleCount ≤ custodyMaxBundleCount
  slots : p.acceptedBundles.length = custodyMaxBundleCount
  flagged : ∀ a, p.FlaggedAt a ↔ a ∈ kept

theorem custodyList_initial : CustodyList .initial [] where
  entries := rfl
  nodup := List.nodup_nil
  count := Nat.zero_le _
  slots := rfl
  flagged a := by
    constructor
    · rintro ⟨b, hb, _⟩
      cases hb
    · intro h
      cases h

theorem CustodyList.elsewhere {kept : List Addr} (h : CustodyList p kept)
    (he : Elsewhere p q) : CustodyList q kept where
  entries := by rw [accepted, he.bundles, he.count]; exact h.entries
  nodup := h.nodup
  count := by rw [he.count]; exact h.count
  slots := by rw [he.bundles]; exact h.slots
  flagged a := (he.flagged a).trans (h.flagged a)

theorem CustodyList.length {kept : List Addr} (h : CustodyList p kept) :
    kept.length = p.acceptedBundleCount := by
  have hcount := h.count
  rw [← h.entries, accepted, List.length_take, h.slots]
  omega

/-! ## Acceptance -/

theorem flaggedAt_setCell_self (b : Bundle) :
    (p.setCell a (.live b)).FlaggedAt a ↔
      b.retConstraints.custodyAccepted = true := by
  constructor
  · rintro ⟨c, hc, hflag⟩
    rw [cells_setCell_self] at hc
    cases hc
    exact hflag
  · intro h
    exact ⟨b, cells_setCell_self _, h⟩

theorem flaggedAt_setCell_of_ne {x : Addr} (hx : x ≠ a) (c : Cell) :
    (p.setCell a c).FlaggedAt x ↔ p.FlaggedAt x := by
  unfold FlaggedAt
  rw [cells_setCell_of_ne hx]

/-- What an acceptance that returns has found and done. -/
theorem custodyManagerAccept_ok {ok : Bool}
    (h : p.custodyManagerAccept env a = .ok (ok, q)) :
    p.acceptedBundleCount < custodyMaxBundleCount ∧ p.getIndex a = none ∧
      ∃ b, b.retConstraints.custodyAccepted = true ∧
        q = { p with
          cells := Function.update p.cells a (.live b)
          acceptedBundles := p.acceptedBundles.set p.acceptedBundleCount a
          acceptedBundleCount := p.acceptedBundleCount + 1 } := by
  unfold custodyManagerAccept at h
  obtain ⟨redundant, -, h⟩ := bind_eq_ok h
  split at h
  · cases h
  obtain ⟨acceptable, hacceptable, h⟩ := bind_eq_ok h
  split at h
  · cases h
  rename_i hyes
  obtain ⟨b, hb, hvalue⟩ := bind_eq_ok hacceptable
  have hlive := live_of_load hb
  have hcond : p.acceptedBundleCount < custodyMaxBundleCount ∧
      p.getIndex a = none := by
    have hvalue := Except.ok.inj hvalue
    rw [← hvalue] at hyes
    simp only [Bool.not_not, Bool.or_eq_true, decide_eq_true_eq, not_or,
      Bool.not_eq_true, Option.isSome_eq_false_iff, Option.isNone_iff_eq_none,
      not_le] at hyes
    exact ⟨hyes.1.1.1, hyes.1.1.2⟩
  refine ⟨hcond.1, hcond.2, ?_⟩
  obtain ⟨t, ht, h⟩ := bind_eq_ok h
  set listed : BundleProcessor := { p with
    acceptedBundles := p.acceptedBundles.set p.acceptedBundleCount a
    acceptedBundleCount := p.acceptedBundleCount + 1 } with hlisted
  have hlistedLive : listed.cells a = .live b := hlive
  rw [bundleAddRc, modify_of_live hlistedLive] at ht
  have ht := Except.ok.inj ht
  subst ht
  rw [load_of_live (cells_setCell_self _), ok_bind] at h
  let marked : Bundle :=
    { b with retConstraints := b.retConstraints.addCustodyAccepted }
  split at h
  · rw [modify_of_live (cells_setCell_self _), ok_bind] at h
    have hq := congrArg Prod.snd (Except.ok.inj h)
    refine ⟨{ marked with currentCustodian := env.localEid }, rfl, hq.symm.trans ?_⟩
    unfold setCell
    dsimp only
    rw [Function.update_idem]
  · have hq := congrArg Prod.snd (Except.ok.inj h)
    exact ⟨marked, rfl, hq.symm⟩

theorem take_set_succ (xs : List Addr) (n : Nat) (hn : n < xs.length) :
    (xs.set n a).take (n + 1) = xs.take n ++ [a] := by
  rw [List.take_succ_eq_append_getElem (by rw [List.length_set]; exact hn),
    List.getElem_set_self, List.take_set_of_le le_rfl]

theorem CustodyList.accept {kept : List Addr} (h : CustodyList p kept) {ok : Bool}
    (hcall : p.custodyManagerAccept env a = .ok (ok, q)) :
    CustodyList q (kept ++ [a]) := by
  obtain ⟨hroom, habsent, b, hflag, rfl⟩ := custodyManagerAccept_ok hcall
  have hnew : a ∉ kept := by
    rw [← h.entries]
    exact List.idxOf?_eq_none_iff.mp habsent
  refine ⟨?_, ?_, ?_, ?_, ?_⟩
  · show (p.acceptedBundles.set p.acceptedBundleCount a).take _ = _
    rw [take_set_succ _ _ (by rw [h.slots]; exact hroom), ← h.entries]
    rfl
  · rw [List.nodup_append]
    refine ⟨h.nodup, List.nodup_singleton a, fun x hx y hy => ?_⟩
    rw [List.mem_singleton] at hy
    rw [hy]
    intro hxa
    exact hnew (hxa ▸ hx)
  · exact hroom
  · show (p.acceptedBundles.set _ a).length = _
    rw [List.length_set]
    exact h.slots
  · intro x
    rw [List.mem_append, List.mem_singleton]
    by_cases hx : x = a
    · subst hx
      have hset : FlaggedAt (p.setCell x (.live b)) x :=
        (flaggedAt_setCell_self b).mpr hflag
      exact ⟨fun _ => .inr rfl, fun _ => hset⟩
    · have hother : FlaggedAt (p.setCell a (.live b)) x ↔ p.FlaggedAt x :=
        flaggedAt_setCell_of_ne hx _
      constructor
      · intro hf
        exact .inl ((h.flagged x).mp (hother.mp hf))
      · rintro (hk | he)
        · exact hother.mpr ((h.flagged x).mpr hk)
        · exact absurd he hx

/-! ## Release -/

/-- The array after a release that leaves no gap. -/
theorem take_removeSlot {older newer : List Addr} (hslots : p.acceptedBundles
      = older ++ a :: (newer ++ p.acceptedBundles.drop p.acceptedBundleCount))
    (hcount : p.acceptedBundleCount = older.length + 1 + newer.length)
    (hnewer : newer = [] ∨ ∃ newest, newer = [newest] ∧
      a.toNat / 256 = newest.toNat / 256) :
    (p.removeSlot older.length).take (p.acceptedBundleCount - 1)
        = older ++ newer ∧
      (p.removeSlot older.length).length = p.acceptedBundles.length := by
  unfold removeSlot
  rcases hnewer with rfl | ⟨newest, rfl, hlow⟩
  · rw [List.length_nil, Nat.add_zero] at hcount
    rw [if_neg (by omega)]
    refine ⟨?_, rfl⟩
    rw [hslots, hcount, List.append_nil]
    exact List.take_left' rfl
  · rw [List.length_singleton] at hcount
    have hone : p.acceptedBundleCount - older.length - 1 = 1 := by omega
    rw [if_pos (by omega), hone, hslots, List.singleton_append,
      memmoveBytes_low older _ hlow]
    constructor
    · have hfront : older ++ newest :: newest ::
          p.acceptedBundles.drop p.acceptedBundleCount
          = (older ++ [newest]) ++ newest ::
            p.acceptedBundles.drop p.acceptedBundleCount := by
        rw [List.append_assoc]
        rfl
      rw [hfront]
      refine List.take_left' ?_
      rw [List.length_append, List.length_singleton, hcount]
      rfl
    · rw [List.length_append, List.length_append]
      rfl

/-- A release either frees the bundle or takes the retention constraint
away, and takes the entry out of the list. -/
theorem custodyManagerRelease_ok {index : Nat} (hindex : p.getIndex a = some index)
    (h : p.custodyManagerRelease a = .ok q) :
    q.acceptedBundles = p.removeSlot index ∧
      q.acceptedBundleCount = p.acceptedBundleCount - 1 ∧
      ¬ q.FlaggedAt a ∧ ∀ x, x ≠ a → (q.FlaggedAt x ↔ p.FlaggedAt x) := by
  unfold custodyManagerRelease at h
  rw [hindex] at h
  obtain ⟨t, ht, h⟩ := bind_eq_ok h
  obtain ⟨b, hb, hcell⟩ := bind_eq_ok ht
  have hcell := Except.ok.inj hcell
  have hclear : (b.retConstraints.remCustodyAccepted).custodyAccepted = false := rfl
  subst hcell
  rw [load_of_live (cells_setCell_self _), ok_bind] at h
  split at h
  · obtain ⟨r, hr, h⟩ := bind_eq_ok h
    obtain ⟨store, rfl⟩ := (bundleStorageDelete_store _ _).ok hr
    obtain rfl := (bundleDrop_freed _ a).ok h
    refine ⟨rfl, rfl, ?_, fun x hx => ?_⟩
    · rintro ⟨c, hc, _⟩
      rw [cells_setCell_self] at hc
      cases hc
    · rw [flaggedAt_setCell_of_ne hx]
      exact flaggedAt_setCell_of_ne (p := p) hx _
  · obtain rfl := Except.ok.inj h
    refine ⟨rfl, rfl, ?_, fun x hx => ?_⟩
    · rw [flaggedAt_setCell_self]
      intro hf
      cases hf
    · exact flaggedAt_setCell_of_ne (p := p) hx _

/-- The part of the list that a release which compacts has to move. -/
theorem Compacts.split (h : p.Compacts (.release a)) (hmem : a ∈ p.accepted) :
    ∃ older newer, p.accepted = older ++ a :: newer ∧
      (newer = [] ∨ ∃ newest, newer = [newest] ∧
        a.toNat / 256 = newest.toNat / 256) := by
  rcases h with habsent | ⟨older, hlast⟩ | ⟨older, newest, hlast, hlow⟩
  · exact absurd hmem habsent
  · exact ⟨older, [], hlast, .inl rfl⟩
  · exact ⟨older, [newest], hlast, .inr ⟨newest, rfl, hlow⟩⟩

theorem CustodyList.release {kept : List Addr} (h : CustodyList p kept)
    (hok : p.Compacts (.release a)) (hcall : p.custodyManagerRelease a = .ok q) :
    CustodyList q (kept.erase a) := by
  cases hindex : p.getIndex a with
  | none =>
    have habsent : a ∉ kept := by
      rw [← h.entries]
      exact List.idxOf?_eq_none_iff.mp hindex
    unfold custodyManagerRelease at hcall
    rw [hindex] at hcall
    obtain rfl := Except.ok.inj hcall
    rw [List.erase_of_not_mem habsent]
    exact h
  | some index =>
    have hmem : a ∈ p.accepted := by
      by_contra habsent
      rw [getIndex, List.idxOf?_eq_none_iff.mpr habsent] at hindex
      cases hindex
    obtain ⟨older, newer, hsplit, hnewer⟩ := hok.split hmem
    have hnodup : (older ++ a :: newer).Nodup := by
      rw [← hsplit, h.entries]
      exact h.nodup
    have hfirst : a ∉ older := by
      intro hin
      exact (List.nodup_append.mp hnodup).2.2 a hin a (List.mem_cons_self ..) rfl
    have hat : index = older.length := by
      rw [getIndex, hsplit] at hindex
      have hidx := List.idxOf_eq_getD_idxOf? (l := older ++ a :: newer) (a := a)
      rw [hindex, List.idxOf_append_of_notMem hfirst, List.idxOf_cons_self] at hidx
      exact hidx.symm
    have hlength : p.acceptedBundleCount = older.length + 1 + newer.length := by
      have hl := h.length
      rw [← h.entries, hsplit, List.length_append, List.length_cons] at hl
      omega
    have hslots : p.acceptedBundles = older ++ a :: (newer ++
        p.acceptedBundles.drop p.acceptedBundleCount) := by
      have happ := List.take_append_drop p.acceptedBundleCount p.acceptedBundles
      have hacc : p.acceptedBundles.take p.acceptedBundleCount
          = older ++ a :: newer := hsplit
      rw [hacc, List.append_assoc, List.cons_append] at happ
      exact happ.symm
    obtain ⟨hb, hc, hself, hothers⟩ := custodyManagerRelease_ok hindex hcall
    obtain ⟨htake, hlen⟩ := take_removeSlot hslots hlength hnewer
    have herase : kept.erase a = older ++ newer := by
      rw [← h.entries, hsplit, List.erase_append_right _ hfirst,
        List.erase_cons_head]
    refine ⟨?_, h.nodup.erase a, ?_, ?_, ?_⟩
    · rw [herase, accepted, hb, hc, hat]
      exact htake
    · rw [hc]
      have := h.count
      omega
    · rw [hb, hat, hlen]
      exact h.slots
    · intro x
      rw [h.nodup.mem_erase_iff]
      by_cases hx : x = a
      · rw [hx]
        exact ⟨fun hf => absurd hf hself, fun hk => absurd rfl hk.1⟩
      · rw [hothers x hx, h.flagged x]
        exact ⟨fun hk => ⟨hx, hk⟩, fun hk => hk.2⟩

/-! ## Runs -/

theorem CustodyList.call {kept : List Addr} (h : CustodyList p kept)
    {c : CustodyCall} (hok : p.Compacts c) (hcall : p.custodyCall env c = .ok q) :
    CustodyList q (held kept c) := by
  cases c with
  | accept a =>
    obtain ⟨r, hr, hq⟩ := bind_eq_ok hcall
    obtain rfl := Except.ok.inj hq
    exact h.accept hr
  | release a => exact h.release hok hcall

/-- In a run in which every release compacts, the list holds the bundles that
were accepted and not yet released. -/
theorem custodyList_run {calls : List CustodyCall}
    (h : CustodyRun env Compacts calls p) :
    CustodyList p (calls.foldl held []) := by
  induction h with
  | start => exact custodyList_initial
  | call run hok hcall ih =>
    rw [List.foldl_append]
    exact ih.call hok hcall
  | elsewhere run he ih => exact ih.elsewhere he

/-! ## Two bundles in custody -/

/-- A bundle in the custody of another node, created at the given time. -/
def entrustedAt (creationTimestamp : UInt64) : Bundle :=
  { entrusted ProcFlag.singletonEndpoint with
    creationTimestamp := creationTimestamp }

/-- Two bundles have arrived. -/
def twoArrived : BundleProcessor :=
  { BundleProcessor.initial with
    cells := fun a =>
      if a = 4096 then .live (entrustedAt 1)
      else if a = 8192 then .live (entrustedAt 2) else .unused }

theorem elsewhere_twoArrived : Elsewhere .initial twoArrived where
  bundles := rfl
  count := rfl
  flagged a := by
    constructor
    · rintro ⟨b, hb, hflag⟩
      have hcell : (if a = 4096 then Cell.live (entrustedAt 1)
          else if a = 8192 then .live (entrustedAt 2) else .unused) = .live b := hb
      split at hcell
      · cases hcell
        cases hflag
      · split at hcell
        · cases hcell
          cases hflag
        · cases hcell
    · rintro ⟨b, hb, _⟩
      cases hb

/-- The newest of two bundles is released. -/
theorem custodyList_run_newest :
    ∃ p, CustodyRun signallingEnv Compacts
        [.accept 4096, .accept 8192, .release 8192] p ∧
      p.accepted = [4096] ∧ CustodyList p [4096] := by
  have hnewest : ∀ p : BundleProcessor, p.accepted = [4096, 8192] →
      p.Compacts (.release 8192) := fun _ h => .inr (.inl ⟨[4096], h⟩)
  have hrun : CustodyRun signallingEnv Compacts
      [.accept 4096, .accept 8192, .release 8192] _ :=
    .call (.call (.call (.elsewhere .start elsewhere_twoArrived) trivial rfl)
      trivial rfl) (hnewest _ (by decide)) rfl
  exact ⟨_, hrun, by decide, custodyList_run hrun⟩

/-- The older of two bundles is released: the list still names it, and no
longer the newer one, which keeps its retention constraint. -/
theorem release_older_dangles :
    ∃ p, CustodyRun signallingEnv (fun _ _ => True)
        [.accept 4096, .accept 8192, .release 4096] p ∧
      p.accepted = [4096] ∧ p.cells 4096 = .freed ∧ p.FlaggedAt 8192 ∧
      ¬ CustodyList p ([.accept 4096, .accept 8192, .release 4096].foldl held []) := by
  refine ⟨_, .call (.call (.call (.elsewhere .start elsewhere_twoArrived) trivial
    rfl) trivial rfl) trivial rfl, by decide, by decide, ⟨_, rfl, rfl⟩, ?_⟩
  intro h
  exact absurd h.entries (by decide)

end BundleProcessor

end Upcn
