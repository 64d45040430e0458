import Mathlib.Logic.Function.Basic
import Upcn.Lib.Outcome
import Upcn.Store.Node

/-!
# The bundle store

The interface of `bundle_storage_manager.c`, twice.

* `BundleStorage` is the file's static variables, and
  `BundleStorage.bundleStorageAdd` and its siblings are its functions, over
  the node heap of `Upcn.Store.Node`.
* `BundleStore` is what they are for: a finite map from ids to bundles.  The
  rest of the development runs over this one.  `Upcn.Store.Refinement` proves
  that the two answer alike.

The store looks at three things of a bundle that are not its own: its id
field, its payload length and whether it has a payload block at all.  The
functions take them as arguments.  The semaphore is left out: every function
holds it from its first access of the tree to its last.
-/

namespace Upcn.Store

variable {β : Type}

/-- The number of values of a `uint32_t`. -/
def bytesCount : Nat := 2 ^ 32

/-- `next_id++`. -/
def succId (id : Nat) : Nat := (id + 1) % idCount

/-- The loop of `bundle_storage_add` that looks for a free id: the id found
and the new `next_id`. -/
def freeId (taken : Nat → Except StoreFault Bool) :
    Nat → Nat → Nat → Except StoreFault (Nat × Nat)
  | 0, _, _ => .error .idsExhausted
  | fuel + 1, id, nextId => do
    if ← taken id then freeId taken fuel nextId (succId nextId)
    else return (id, nextId)

/-! ## The code -/

/-- The static variables of `bundle_storage_manager.c`. -/
structure BundleStorage (β : Type) where
  tree : StorageTree β
  nextId : Nat
  bundleBytes : Nat

namespace BundleStorage

/-- The variables before the first call. -/
def initial : BundleStorage β :=
  ⟨⟨fun _ => none, none⟩, invalidId + 1, 0⟩

/-- `id == INV_ID || find_nodeptr(id, 0) != NULL`. -/
def idTaken (t : StorageTree β) (id : Nat) : Except StoreFault Bool :=
  if id = invalidId then .ok true
  else do
    let slot ← t.findNodeptr id false
    return slot.isSome

/-- `bundle_storage_add`: the id it returns, which is also the one it
stores in the bundle unless it is `INV_ID`.  `mem` is the result of
`malloc`. -/
def bundleStorageAdd (s : BundleStorage β) (mem : Option NodePtr)
    (bundle : β) (bundleId : Nat) (payloadLength : Option Nat) :
    Except StoreFault (Nat × BundleStorage β) := do
  if bundleId ≠ invalidId then throw .alreadyStored
  let (id, nextId) ← freeId (idTaken s.tree) idCount s.nextId
    (succId s.nextId)
  if mem.any fun p => (s.tree.nodes p).isSome then throw .notFresh
  let (added, tree) ← s.tree.addNode mem id bundle
  if added then
    return (id, ⟨tree, nextId,
      (s.bundleBytes + payloadLength.getD 0) % bytesCount⟩)
  else return (invalidId, ⟨tree, nextId, s.bundleBytes⟩)

/-- `bundle_storage_contains`. -/
def bundleStorageContains (s : BundleStorage β) (id : Nat) :
    Except StoreFault Bool :=
  if id = invalidId then .ok false
  else do
    let slot ← s.tree.findNodeptr id false
    return slot.isSome

/-- `bundle_storage_get`. -/
def bundleStorageGet (s : BundleStorage β) (id : Nat) :
    Except StoreFault (Option β) :=
  if id = invalidId then .ok none
  else do
    match ← s.tree.findNodeptr id false with
    | none => return none
    | some slot =>
      let some p ← s.tree.read slot | throw .dangling
      let n ← s.tree.load p
      return some n.bundle

/-- `bundle_storage_delete`: whether there was a bundle with the id.
`payloadLength` reads the payload length of a bundle. -/
def bundleStorageDelete (s : BundleStorage β)
    (payloadLength : β → Option Nat) (id : Nat) :
    Except StoreFault (Bool × BundleStorage β) :=
  if id = invalidId then .ok (false, s)
  else do
    match ← s.tree.findNodeptr id false with
    | none => return (false, s)
    | some delptr =>
      let some p ← s.tree.read delptr | throw .dangling
      let n ← s.tree.load p
      let size := (payloadLength n.bundle).getD 0
      if s.bundleBytes < size then throw .accounting
      let tree ← s.tree.deleteNodeAtPtr delptr
      return (true, ⟨tree, s.nextId, s.bundleBytes - size⟩)

end BundleStorage

/-! ## The finite map -/

/-- The store as a finite map from ids to bundles. -/
structure BundleStore (β : Type) where
  bundles : Nat → Option β
  nextId : Nat
  bundleBytes : Nat

namespace BundleStore

/-- The empty store. -/
def initial : BundleStore β := ⟨fun _ => none, invalidId + 1, 0⟩

/-- The id is not free. -/
def idTaken (s : BundleStore β) (id : Nat) : Bool :=
  id = invalidId || (s.bundles id).isSome

def bundleStorageAdd (s : BundleStore β) (allocated : Bool)
    (bundle : β) (bundleId : Nat) (payloadLength : Option Nat) :
    Except StoreFault (Nat × BundleStore β) := do
  if bundleId ≠ invalidId then throw .alreadyStored
  let (id, nextId) ← freeId (fun id => .ok (s.idTaken id)) idCount s.nextId
    (succId s.nextId)
  if allocated then
    return (id, ⟨Function.update s.bundles id (some bundle), nextId,
      (s.bundleBytes + payloadLength.getD 0) % bytesCount⟩)
  else return (invalidId, { s with nextId := nextId })

def bundleStorageContains (s : BundleStore β) (id : Nat) : Bool :=
  (s.bundles id).isSome

def bundleStorageGet (s : BundleStore β) (id : Nat) : Option β :=
  s.bundles id

def bundleStorageDelete (s : BundleStore β)
    (payloadLength : β → Option Nat) (id : Nat) :
    Except StoreFault (Bool × BundleStore β) :=
  match s.bundles id with
  | none => .ok (false, s)
  | some bundle =>
    let size := (payloadLength bundle).getD 0
    if s.bundleBytes < size then .error .accounting
    else .ok (true, ⟨Function.update s.bundles id none, s.nextId,
      s.bundleBytes - size⟩)

end BundleStore

/-! ## The search for a free id -/

/-- The search ends at an id that is not taken, and at the ids it passes
over all are. -/
theorem freeId_ok {taken : Nat → Bool} {fuel id nextId found next : Nat}
    (h : freeId (fun id => .ok (taken id)) fuel id nextId
      = .ok (found, next)) : taken found = false := by
  induction fuel generalizing id nextId with
  | zero => exact absurd h (by simp [freeId])
  | succ fuel ih =>
    rw [freeId] at h
    cases hid : taken id with
    | true =>
      simp only [hid] at h
      exact ih h
    | false =>
      simp only [hid] at h
      obtain ⟨rfl, -⟩ := Prod.mk.inj (Except.ok.inj h)
      exact hid

/-- The ids stay within range. -/
theorem freeId_lt {taken : Nat → Bool} {fuel id nextId found next : Nat}
    (hid : id < idCount) (hnext : nextId < idCount)
    (h : freeId (fun id => .ok (taken id)) fuel id nextId
      = .ok (found, next)) : found < idCount ∧ next < idCount := by
  induction fuel generalizing id nextId with
  | zero => exact absurd h (by simp [freeId])
  | succ fuel ih =>
    rw [freeId] at h
    cases ht : taken id with
    | true =>
      simp only [ht] at h
      exact ih hnext (Nat.mod_lt _ (by decide)) h
    | false =>
      simp only [ht] at h
      obtain ⟨rfl, rfl⟩ := Prod.mk.inj (Except.ok.inj h)
      exact ⟨hid, hnext⟩

/-- The search fails only when it runs out of ids. -/
theorem freeId_fails {taken : Nat → Bool} {fuel id nextId : Nat}
    {e : StoreFault}
    (h : freeId (fun id => .ok (taken id)) fuel id nextId = .error e) :
    e = .idsExhausted := by
  induction fuel generalizing id nextId with
  | zero =>
    rw [freeId] at h
    exact (Except.error.inj h).symm
  | succ fuel ih =>
    rw [freeId] at h
    cases ht : taken id with
    | false =>
      simp only [ht] at h
      exact absurd h (by simp [bind, Except.bind, pure, Except.pure])
    | true =>
      simp only [ht] at h
      exact ih h

/-- The search that fails has tried as many ids in a row as it had fuel. -/
theorem freeId_error {taken : Nat → Bool} {fuel id : Nat} {e : StoreFault}
    (hid : id < idCount)
    (h : freeId (fun id => .ok (taken id)) fuel id (succId id) = .error e) :
    e = .idsExhausted ∧
      ∀ k, k < fuel → taken ((id + k) % idCount) = true := by
  refine ⟨freeId_fails h, ?_⟩
  induction fuel generalizing id with
  | zero => simp
  | succ fuel ih =>
    rw [freeId] at h
    cases ht : taken id with
    | false =>
      simp only [ht] at h
      exact absurd h (by simp [bind, Except.bind, pure, Except.pure])
    | true =>
      simp only [ht] at h
      have hall := ih (Nat.mod_lt _ (by decide)) h
      intro k hk
      cases k with
      | zero => rwa [Nat.add_zero, Nat.mod_eq_of_lt hid]
      | succ k =>
        have hk' := hall k (by omega)
        rw [show id + (k + 1) = id + 1 + k by omega, ← Nat.mod_add_mod]
        exact hk'

/-- The code hangs in this loop only when every id is taken. -/
theorem freeId_exhausted {taken : Nat → Bool} {start : Nat} {e : StoreFault}
    (hstart : start < idCount)
    (h : freeId (fun id => .ok (taken id)) idCount start (succId start)
      = .error e) :
    e = .idsExhausted ∧ ∀ id, id < idCount → taken id = true := by
  obtain ⟨he, hall⟩ := freeId_error hstart h
  refine ⟨he, fun id hid => ?_⟩
  have hk := hall ((id + idCount - start) % idCount) (Nat.mod_lt _ (by decide))
  rw [Nat.add_mod_mod, show start + (id + idCount - start) = id + idCount by
    omega, Nat.add_mod_right, Nat.mod_eq_of_lt hid] at hk
  exact hk

/-! ## Storing a new bundle -/

open Outcome in
/-- A bundle without an id gets one that is free, or none when no node can
be allocated. -/
theorem BundleStore.bundleStorageAdd_ends (s : BundleStore β)
    (allocated : Bool) (bundle : β) (payloadLength : Option Nat) :
    Ends (fun e => e ≠ .accounting)
      (s.bundleStorageAdd allocated bundle invalidId payloadLength) fun r =>
      (allocated = true ∧ r.1 ≠ invalidId ∧ s.bundles r.1 = none ∧
        r.2 = ⟨Function.update s.bundles r.1 (some bundle), r.2.nextId,
          (s.bundleBytes + payloadLength.getD 0) % bytesCount⟩) ∨
      (allocated = false ∧ r.1 = invalidId ∧
        r.2 = ⟨s.bundles, r.2.nextId, s.bundleBytes⟩) := by
  rw [bundleStorageAdd, if_neg (by simp)]
  cases hfree : freeId (fun id => Except.ok (s.idTaken id)) idCount s.nextId
      (succId s.nextId) with
  | error e =>
    rw [freeId_fails hfree]
    exact ends_error (by simp)
  | ok found =>
    have hnot := freeId_ok hfree
    simp only [idTaken, Bool.or_eq_false_iff, decide_eq_false_iff_not,
      Option.isSome_eq_false_iff, Option.isNone_iff_eq_none] at hnot
    cases allocated with
    | false => exact .inr ⟨rfl, rfl, rfl⟩
    | true => exact .inl ⟨rfl, hnot.1, hnot.2, rfl⟩

/-! ## Room for new bundles -/

namespace BundleStore

/-- So many ids are free. -/
def Room (s : BundleStore β) (n : Nat) : Prop :=
  ∃ ids : List Nat, ids.Nodup ∧ ids.length = n ∧
    ∀ id ∈ ids, id < idCount ∧ s.idTaken id = false

variable {s s' : BundleStore β} {n : Nat}

theorem room_zero (s : BundleStore β) : s.Room 0 := ⟨[], List.nodup_nil, rfl, by simp⟩

theorem room_le {m : Nat} (hle : m ≤ n) (h : s.Room n) : s.Room m := by
  obtain ⟨ids, hnodup, hlength, hids⟩ := h
  refine ⟨ids.take m, hnodup.sublist (List.take_sublist ..), ?_, fun id hid =>
    hids id (List.mem_of_mem_take hid)⟩
  rw [List.length_take]
  omega

/-- With an id that is free a bundle is stored, and the ids stay within range. -/
theorem bundleStorageAdd_of_room (hs : s.nextId < idCount) (hroom : s.Room (n + 1)) (bundle : β)
    (payloadLength : Option Nat) :
    ∃ id s', s.bundleStorageAdd true bundle invalidId payloadLength = .ok (id, s') ∧
      id < idCount ∧ s'.nextId < idCount ∧ s.idTaken id = false ∧
      s'.bundles = Function.update s.bundles id (some bundle) := by
  rw [bundleStorageAdd, if_neg (by simp)]
  cases hfree : freeId (fun id => Except.ok (s.idTaken id)) idCount s.nextId
      (succId s.nextId) with
  | error e =>
    obtain ⟨ids, -, hlength, hids⟩ := hroom
    obtain ⟨id, hid⟩ := List.exists_mem_of_length_pos (by omega : 0 < ids.length)
    have htaken := (freeId_exhausted hs hfree).2 id (hids id hid).1
    rw [(hids id hid).2] at htaken
    cases htaken
  | ok found =>
    obtain ⟨hid, hnext⟩ := freeId_lt hs (Nat.mod_lt _ (by decide)) hfree
    exact ⟨found.1, _, rfl, hid, hnext, freeId_ok hfree, rfl⟩

/-- The id that a new bundle gets was free. -/
theorem room_of_bundleStorageAdd (hs : s.nextId < idCount) {allocated : Bool} {bundle : β}
    {payloadLength : Option Nat} {r : Nat × BundleStore β}
    (h : s.bundleStorageAdd allocated bundle invalidId payloadLength = .ok r) : s.Room 1 := by
  rw [bundleStorageAdd, if_neg (by simp)] at h
  cases hfree : freeId (fun id => Except.ok (s.idTaken id)) idCount s.nextId
      (succId s.nextId) with
  | error e =>
    rw [hfree] at h
    cases h
  | ok found =>
    have hid := (freeId_lt hs (Nat.mod_lt _ (by decide)) hfree).1
    refine ⟨[found.1], List.nodup_singleton _, rfl, fun id hmem => ?_⟩
    obtain rfl := List.mem_singleton.mp hmem
    exact ⟨hid, freeId_ok hfree⟩

/-- A new bundle takes one of the free ids. -/
theorem room_succ {id : Nat} {bundle : β} (hid : id < idCount) (hfree : s.idTaken id = false)
    (h : s'.bundles = Function.update s.bundles id (some bundle)) :
    s.Room (n + 1) ↔ s'.Room n := by
  have hother : ∀ {id'}, id' ≠ id → s'.idTaken id' = s.idTaken id' := by
    intro id' hne
    rw [idTaken, idTaken, h, Function.update_of_ne hne]
  have htaken : s'.idTaken id = true := by
    rw [idTaken, h, Function.update_self]
    simp
  constructor
  · rintro ⟨ids, hnodup, hlength, hids⟩
    refine ⟨(ids.erase id).take n, (hnodup.erase id).sublist (List.take_sublist ..), ?_, ?_⟩
    · have hle := List.length_erase_of_mem (a := id) (l := ids)
      have hle' := List.length_erase_le (a := id) (l := ids)
      rw [List.length_take]
      by_cases hmem : id ∈ ids
      · have := hle hmem
        omega
      · rw [List.erase_of_not_mem hmem]
        omega
    · intro id' hmem
      obtain ⟨hne, hmem⟩ := hnodup.mem_erase_iff.mp (List.mem_of_mem_take hmem)
      rw [hother hne]
      exact hids id' hmem
  · rintro ⟨ids, hnodup, hlength, hids⟩
    have hnot : id ∉ ids := by
      intro hmem
      rw [(hids id hmem).2] at htaken
      cases htaken
    refine ⟨id :: ids, List.nodup_cons.mpr ⟨hnot, hnodup⟩, by simp [hlength], ?_⟩
    intro id' hmem
    rcases List.mem_cons.mp hmem with rfl | hmem
    · exact ⟨hid, hfree⟩
    · have hne : id' ≠ id := fun heq => hnot (heq ▸ hmem)
      rw [← hother hne]
      exact hids id' hmem

theorem room_mono (h : s.Room n) (hfree : ∀ id, s.idTaken id = false → s'.idTaken id = false) :
    s'.Room n := by
  obtain ⟨ids, hnodup, hlength, hids⟩ := h
  exact ⟨ids, hnodup, hlength, fun id hid => ⟨(hids id hid).1, hfree id (hids id hid).2⟩⟩

/-- A new bundle for which there is an id, and whose payload does not make the counter wrap. -/
theorem bundleStorageAdd_returns (hs : s.nextId < idCount) (hroom : s.Room (n + 1)) {size : Nat}
    (hsize : s.bundleBytes + size < bytesCount) (allocated : Bool) (bundle : β) :
    ∃ id s', s.bundleStorageAdd allocated bundle invalidId (some size) = .ok (id, s') ∧
      s'.nextId < idCount ∧ s'.Room n ∧ s.bundleBytes ≤ s'.bundleBytes ∧
      s'.bundleBytes ≤ s.bundleBytes + size := by
  rw [bundleStorageAdd, if_neg (by simp)]
  cases hfree : freeId (fun id => Except.ok (s.idTaken id)) idCount s.nextId
      (succId s.nextId) with
  | error e =>
    obtain ⟨id, s', hadd, -⟩ := bundleStorageAdd_of_room hs hroom bundle (some size)
    rw [bundleStorageAdd, if_neg (by simp), hfree] at hadd
    cases hadd
  | ok found =>
    obtain ⟨hid, hnext⟩ := freeId_lt hs (Nat.mod_lt _ (by decide)) hfree
    cases allocated with
    | false =>
      exact ⟨invalidId, _, rfl, hnext, room_le (Nat.le_succ n) hroom, Nat.le_refl _,
        Nat.le_add_right ..⟩
    | true =>
      have hbytes : (s.bundleBytes + size) % bytesCount = s.bundleBytes + size :=
        Nat.mod_eq_of_lt hsize
      refine ⟨found.1, _, rfl, hnext, (room_succ hid (freeId_ok hfree) rfl).mp hroom, ?_, ?_⟩
      · show s.bundleBytes ≤ (s.bundleBytes + size) % bytesCount
        omega
      · show (s.bundleBytes + size) % bytesCount ≤ s.bundleBytes + size
        omega

end BundleStore

end Upcn.Store
