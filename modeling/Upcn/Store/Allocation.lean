import Upcn.Store.Refinement

/-!
# The ids of the bundle store

`bundle_storage_add` with the id field of the bundle, from any store that calls can reach and
with any value of `next_id`.

`bundleStorageAddId_allocates`: a store that does not hold every id gives the bundle one that is
free, and without memory for the node it is left as it was.
-/

namespace Upcn.Store

open Outcome

variable {β : Type}

namespace BundleStorage

/-- `bundle_storage_add` with `bundle->id`: what it returns, and the id of the bundle, which is
written unless `INV_ID` is returned. -/
def bundleStorageAddId (s : BundleStorage β) (mem : Option NodePtr) (bundle : β) (bundleId : Nat)
    (payloadLength : Option Nat) : Except StoreFault (Nat × Nat × BundleStorage β) := do
  let (id, s) ← s.bundleStorageAdd mem bundle bundleId payloadLength
  return (id, if id = invalidId then bundleId else id, s)

/-- The number of bundles in the store. -/
def held (s : BundleStorage β) : Nat :=
  (List.range idCount).countP fun id =>
    match s.bundleStorageContains id with
    | .ok contained => contained
    | .error _ => false

end BundleStorage

/-- A node for which there is no memory leaves the tree as it is. -/
theorem StorageTree.addNode_no_memory {t t' : StorageTree β} {id : Nat} {bundle : β}
    {added : Bool} (h : t.addNode none id bundle = .ok (added, t')) : added = false ∧ t' = t := by
  rw [StorageTree.addNode] at h
  cases hroot : t.storageTree with
  | none =>
    rw [hroot] at h
    obtain ⟨rfl, rfl⟩ := Prod.mk.inj (Except.ok.inj h)
    exact ⟨rfl, rfl⟩
  | some root =>
    rw [hroot] at h
    obtain ⟨slot, -, h⟩ := bind_eq_ok h
    cases slot with
    | none => cases h
    | some slot =>
      obtain ⟨prev, -, h⟩ := bind_eq_ok h
      cases prev with
      | none => cases h
      | some prev =>
        obtain ⟨rfl, rfl⟩ := Prod.mk.inj (Except.ok.inj h)
        exact ⟨rfl, rfl⟩

/-- A bundle for whose node there is no memory leaves the store as it is. -/
theorem bundleStorageAdd_no_memory {c c' : BundleStorage β} {bundle : β} {bundleId id : Nat}
    {payloadLength : Option Nat}
    (h : c.bundleStorageAdd none bundle bundleId payloadLength = .ok (id, c')) :
    c'.tree = c.tree ∧ c'.bundleBytes = c.bundleBytes := by
  rw [BundleStorage.bundleStorageAdd] at h
  by_cases hbundle : bundleId ≠ invalidId
  · rw [if_pos hbundle] at h
    cases h
  rw [if_neg hbundle] at h
  obtain ⟨found, -, h⟩ := bind_eq_ok h
  obtain ⟨⟨added, tree⟩, hadd, h⟩ := bind_eq_ok h
  obtain ⟨rfl, rfl⟩ := StorageTree.addNode_no_memory hadd
  obtain ⟨-, rfl⟩ := Prod.mk.inj (Except.ok.inj h)
  exact ⟨rfl, rfl⟩

/-! ## A store with room -/

theorem countP_valid (n : Nat) :
    (List.range (n + 1)).countP (fun id => decide (id ≠ invalidId)) = n := by
  have hall := List.countP_eq_length.mpr fun (id : Nat) (_ : id ∈ List.range n) =>
    show (decide (id + 1 ≠ invalidId)) = true from decide_eq_true (Nat.succ_ne_zero id)
  rw [List.length_range] at hall
  rw [List.range_succ_eq_map, List.countP_cons_of_neg (by decide), List.countP_map]
  exact hall

/-- A store that does not hold every id has one that is free. -/
theorem exists_free {c : BundleStorage β} {s : BundleStore β} (h : Implements c s)
    (hheld : c.held < idCount - 1) :
    ∃ id, id ≠ invalidId ∧ id < idCount ∧ s.bundles id = none := by
  by_contra hfull
  simp only [not_exists, not_and] at hfull
  -- All ids but the invalid one are counted.
  have hsub : (List.range idCount).countP (fun id => decide (id ≠ invalidId)) ≤ c.held := by
    refine List.countP_mono_left fun id hid hne => ?_
    have hsome := hfull id (of_decide_eq_true hne) (List.mem_range.mp hid)
    rw [bundleStorageContains_implements h, BundleStore.bundleStorageContains]
    exact Option.isSome_iff_ne_none.mpr hsome
  rw [show idCount = idCount - 1 + 1 from rfl, countP_valid] at hsub
  omega

theorem Implements.id_lt {c : BundleStorage β} {s : BundleStore β} (h : Implements c s) {id : Nat}
    {bundle : β} (hid : s.bundles id = some bundle) : id < idCount := by
  obtain ⟨x, hx, hholds⟩ := h.tree
  obtain ⟨e, he, rfl, -⟩ := (hholds id bundle).mp hid
  exact (hx.valid e he).2

/-- The store and its map with another `next_id`. -/
theorem Implements.withNextId {c : BundleStorage β} {s : BundleStore β} (h : Implements c s)
    {nextId : Nat} (hlt : nextId < idCount) :
    Implements { c with nextId := nextId } { s with nextId := nextId } :=
  ⟨rfl, hlt, h.bundleBytes, h.tree⟩

/-- What `bundle_storage_add` has done to the store: it has given the bundle an id that was
free, and only this one is bound to the bundle; or nothing, when there is no memory. -/
structure Allocated (c c' : BundleStorage β) (mem : Option NodePtr) (bundle : β)
    (id bundleId : Nat) : Prop where
  fresh : mem ≠ none → id ≠ invalidId ∧ id < idCount ∧ c.bundleStorageContains id = .ok false
  recorded : mem ≠ none → bundleId = id ∧ c'.bundleStorageGet id = .ok (some bundle)
  others : ∀ other, other ≠ id → c'.bundleStorageGet other = c.bundleStorageGet other
  refused : mem = none → id = invalidId ∧ bundleId = invalidId ∧ c'.tree = c.tree ∧
    c'.bundleBytes = c.bundleBytes

/-- Whatever calls there were before and wherever the search starts, a store with fewer bundles
than there are ids has an id for one more. -/
theorem bundleStorageAddId_allocates (calls : List (StorageCall β)) {rs : List Nat}
    {c : BundleStorage β} (hrun : BundleStorage.initial.run calls = .ok (rs, c))
    (hheld : c.held < idCount - 1) {nextId : Nat} (hnext : nextId < idCount)
    {mem : Option NodePtr} (hmem : ∀ p ∈ mem, c.tree.nodes p = none) (bundle : β)
    (payloadLength : Option Nat) :
    ∃ id bundleId c', BundleStorage.bundleStorageAddId { c with nextId := nextId } mem bundle
        invalidId payloadLength = .ok (id, bundleId, c') ∧
      Allocated c c' mem bundle id bundleId := by
  have hreach := run_implements implements_initial calls
  rw [hrun] at hreach
  obtain ⟨s, himp, -⟩ := hreach
  have himp' := himp.withNextId hnext
  have hcases := BundleStore.bundleStorageAdd_cases { s with nextId := nextId } hnext mem.isSome
    bundle invalidId payloadLength
  have hends := BundleStore.bundleStorageAdd_ends { s with nextId := nextId } mem.isSome bundle
    payloadLength
  rcases bundleStorageAdd_implements himp' mem bundle invalidId payloadLength with
    ⟨-, p, hp, hlive⟩ | hadd
  · exact absurd (hmem p hp) hlive
  cases hresult : BundleStore.bundleStorageAdd { s with nextId := nextId } mem.isSome bundle
      invalidId payloadLength with
  | error e =>
    rw [hresult] at hcases
    obtain ⟨free, hfree, hlt, hnone⟩ := exists_free himp hheld
    rcases hcases with ⟨-, hstored⟩ | ⟨-, hall⟩
    · exact absurd rfl hstored
    · exact absurd hnone (hall free hfree hlt)
  | ok result =>
    obtain ⟨id, s'⟩ := result
    rw [hresult] at hadd
    obtain ⟨c', hc', himp''⟩ := hadd
    refine ⟨id, _, c', by rw [BundleStorage.bundleStorageAddId, hc']; rfl, ?_⟩
    rcases hends.ok hresult with ⟨hsome, hvalid, hfree, hs'⟩ | ⟨hnone, hinvalid, hs'⟩
    · have hbundle : s'.bundles id = some bundle := by
        rw [show s' = _ from hs']
        exact Function.update_self id _ s.bundles
      refine ⟨fun _ => ⟨hvalid, himp''.id_lt hbundle, ?_⟩, fun _ => ⟨if_neg hvalid, ?_⟩,
        fun other hother => ?_, fun hmem => ?_⟩
      · rw [bundleStorageContains_implements himp]
        exact congrArg (fun b => Except.ok (Option.isSome b)) hfree
      · rw [bundleStorageGet_implements himp'']
        exact congrArg Except.ok hbundle
      · rw [bundleStorageGet_implements himp'', bundleStorageGet_implements himp,
          show s' = _ from hs']
        exact congrArg Except.ok (Function.update_of_ne hother _ s.bundles)
      · rw [hmem] at hsome
        exact nomatch hsome
    · have hmem : mem = none := by
        cases mem with
        | none => rfl
        | some p => exact nomatch hnone
      subst hmem
      have hkept := bundleStorageAdd_no_memory hc'
      refine ⟨fun hne => absurd rfl hne, fun hne => absurd rfl hne, fun other _ => ?_, fun _ =>
        ⟨hinvalid, if_pos hinvalid, hkept⟩⟩
      rw [bundleStorageGet_implements himp'', bundleStorageGet_implements himp,
        show s' = _ from hs']
      rfl

/-- The store holds at most as many bundles as there are ids in a list of all that are bound. -/
theorem held_le {c : BundleStorage β} {s : BundleStore β} (h : Implements c s) {ids : List Nat}
    (hids : ∀ id, s.bundles id ≠ none → id ∈ ids) : c.held ≤ ids.length := by
  unfold BundleStorage.held
  rw [List.countP_eq_length_filter]
  apply List.Subperm.length_le
  apply List.subperm_of_subset (List.nodup_range.filter _)
  intro id hid
  have hcontained := (List.mem_filter.mp hid).2
  rw [bundleStorageContains_implements h] at hcontained
  exact hids id (Option.isSome_iff_ne_none.mp hcontained)

/-- The third bundle when `next_id` is about to wrap, and when it has wrapped, so that the search
passes the invalid id and the two that are in use. -/
theorem bundleStorageAddId_allocates_third :
    ∃ c : BundleStorage Bool,
      BundleStorage.initial.run [.add (some 1) true invalidId none,
        .add (some 2) false invalidId (some 5)] = .ok ([1, 2], c) ∧
      (∃ id bundleId c', BundleStorage.bundleStorageAddId { c with nextId := idCount - 1 }
          (some 3) true invalidId none = .ok (id, bundleId, c') ∧
        Allocated c c' (some 3) true id bundleId) ∧
      ∃ id bundleId c', BundleStorage.bundleStorageAddId { c with nextId := 0 } (some 3) true
          invalidId none = .ok (id, bundleId, c') ∧
        Allocated c c' (some 3) true id bundleId := by
  have hrun : BundleStorage.initial.run [.add (some 1) true invalidId none,
      .add (some 2) false invalidId (some 5)] = .ok ([1, 2], _) := rfl
  have hreach := run_implements implements_initial [.add (some 1) true invalidId none,
    .add (some 2) false invalidId (some 5)]
  rw [hrun] at hreach
  obtain ⟨s, himp, hbundles⟩ := hreach
  have hheld : _ ≤ [1, 2].length := held_le himp fun id hid => by
    by_contra hnot
    simp only [List.mem_cons, List.not_mem_nil, or_false, not_or] at hnot
    apply hid
    rw [hbundles]
    simp [performed, invalidId, Function.update_of_ne, hnot, BundleStore.initial]
  have hlt := Nat.lt_of_le_of_lt hheld (by decide : [1, 2].length < idCount - 1)
  exact ⟨_, hrun,
    bundleStorageAddId_allocates _ hrun hlt (by decide) (fun p hp => by cases hp; rfl) true none,
    bundleStorageAddId_allocates _ hrun hlt (by decide) (fun p hp => by cases hp; rfl) true none⟩

end Upcn.Store
