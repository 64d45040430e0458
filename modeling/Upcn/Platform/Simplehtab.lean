import Mathlib.Data.List.Nodup
import Upcn.Bundle

/-!
# The hash table of strings

`simplehtab.c`.

* `Htab` is the array of chains.  A key is a string, and a value is whatever the
  table is used for.
* The functions are those that compare keys as strings, with every allocation
  succeeding.  The hash function is arbitrary: nothing depends on `hashlittle`.
* `Htab.WellFormed` is the invariant, and `htabGet_htabAdd` and
  `htabGet_htabRemove` are what the rest of the development knows of the table.
-/

namespace Upcn

/-- `struct htab_entrylist`, without the pointer to the next one. -/
structure HtabEntry (α : Type) where
  key : List Char
  value : α
  deriving DecidableEq

/-- `struct htab`. -/
structure Htab (α : Type) where
  slotCount : Nat
  elements : Nat → List (HtabEntry α)

namespace Htab

variable {α : Type}

/-- `htab_init`. -/
def htabInit (slotCount : Nat) : Htab α := ⟨slotCount, fun _ => []⟩

/-- The entries of all chains. -/
def entries (t : Htab α) : List (HtabEntry α) :=
  (List.range t.slotCount).flatMap t.elements

/-- A chain is replaced. -/
def setChain (t : Htab α) (i : Nat) (chain : List (HtabEntry α)) : Htab α :=
  { t with elements := fun j => if j = i then chain else t.elements j }

section
variable (hash : List Char → Nat)

/-- The slot of a key.  The hash is passed on as an `uint16_t`. -/
def slot (t : Htab α) (key : List Char) : Nat := hash key % 2 ^ 16 % t.slotCount

/-- `get_elist_ptr_by_hash`, for the comparison of strings. -/
def getElist (t : Htab α) (key : List Char) : Option (HtabEntry α) :=
  (t.elements (t.slot hash key)).find? fun e => e.key = key

/-- `htab_add`. -/
def htabAdd (t : Htab α) (key : List Char) (value : α) :
    Option (HtabEntry α) × Htab α :=
  match t.getElist hash key with
  | some _ => (none, t)
  | none =>
    let i := t.slot hash key
    (some ⟨key, value⟩, t.setChain i (t.elements i ++ [⟨key, value⟩]))

/-- `htab_get`. -/
def htabGet (t : Htab α) (key : List Char) : Option α :=
  (t.getElist hash key).map HtabEntry.value

/-- `htab_remove`. -/
def htabRemove (t : Htab α) (key : List Char) : Option α × Htab α :=
  match t.getElist hash key with
  | none => (none, t)
  | some e =>
    let i := t.slot hash key
    (some e.value, t.setChain i ((t.elements i).eraseP fun e => e.key = key))

/-- Every key is in the chain of its slot, and in no chain twice. -/
structure WellFormed (t : Htab α) : Prop where
  slots : 0 < t.slotCount
  placed : ∀ i, ∀ e ∈ t.elements i, t.slot hash e.key = i
  distinct : ∀ i, ((t.elements i).map HtabEntry.key).Nodup

end

variable {hash : List Char → Nat} {t : Htab α} {key key' : List Char} {value : α}

@[simp] theorem slotCount_setChain (i : Nat) (chain : List (HtabEntry α)) :
    (t.setChain i chain).slotCount = t.slotCount := rfl

@[simp] theorem slot_setChain (i : Nat) (chain : List (HtabEntry α)) :
    (t.setChain i chain).slot hash key = t.slot hash key := rfl

theorem elements_setChain_self (i : Nat) (chain : List (HtabEntry α)) :
    (t.setChain i chain).elements i = chain := if_pos rfl

theorem elements_setChain_of_ne {i j : Nat} (h : j ≠ i)
    (chain : List (HtabEntry α)) :
    (t.setChain i chain).elements j = t.elements j := if_neg h

theorem wellFormed_htabInit {slotCount : Nat} (h : 0 < slotCount) :
    (htabInit slotCount : Htab α).WellFormed hash where
  slots := h
  placed := fun _ _ he => absurd he List.not_mem_nil
  distinct := fun _ => List.nodup_nil

theorem WellFormed.slot_lt (ht : t.WellFormed hash) (key : List Char) :
    t.slot hash key < t.slotCount := Nat.mod_lt _ ht.slots

/-- The entries are those of the chain of their own key. -/
theorem WellFormed.mem_entries (ht : t.WellFormed hash) {e : HtabEntry α} :
    e ∈ t.entries ↔ e ∈ t.elements (t.slot hash e.key) := by
  rw [entries, List.mem_flatMap]
  constructor
  · intro h
    obtain ⟨i, _, he⟩ := h
    rw [ht.placed i e he]
    exact he
  · intro he
    exact ⟨_, List.mem_range.mpr (ht.slot_lt e.key), he⟩

/-- What is found has the key. -/
theorem getElist_some {e : HtabEntry α} (h : t.getElist hash key = some e) :
    e.key = key ∧ e ∈ t.elements (t.slot hash key) := by
  have hkey := List.find?_some h
  exact ⟨by simpa using hkey, List.mem_of_find?_eq_some h⟩

theorem getElist_none (h : t.getElist hash key = none) :
    ∀ e ∈ t.elements (t.slot hash key), e.key ≠ key := by
  intro e he hkey
  have hnot := List.find?_eq_none.mp h e he
  exact hnot (by simpa using hkey)

/-- In a chain without a key twice, an entry is the one that is found. -/
theorem WellFormed.getElist_of_mem (ht : t.WellFormed hash) {e : HtabEntry α}
    (he : e ∈ t.elements (t.slot hash e.key)) : t.getElist hash e.key = some e := by
  cases hfound : t.getElist hash e.key with
  | none => exact absurd rfl (getElist_none hfound e he)
  | some e' =>
    obtain ⟨hkey, hmem⟩ := getElist_some hfound
    rw [List.inj_on_of_nodup_map (ht.distinct _) hmem he hkey]

/-- `htab_get` finds the entries. -/
theorem WellFormed.htabGet_iff (ht : t.WellFormed hash) :
    t.htabGet hash key = some value ↔ ⟨key, value⟩ ∈ t.entries := by
  rw [ht.mem_entries, htabGet, Option.map_eq_some_iff]
  constructor
  · intro h
    obtain ⟨e, he, rfl⟩ := h
    obtain ⟨rfl, hmem⟩ := getElist_some he
    exact hmem
  · intro h
    exact ⟨_, ht.getElist_of_mem h, rfl⟩

/-- No key occurs twice. -/
theorem WellFormed.nodup_keys (ht : t.WellFormed hash) :
    (t.entries.map HtabEntry.key).Nodup := by
  rw [entries, List.map_flatMap, List.nodup_flatMap]
  constructor
  · intro i _
    exact ht.distinct i
  · refine List.nodup_range.imp fun {i j} hij => ?_
    intro k hi hj
    obtain ⟨e, he, rfl⟩ := List.mem_map.mp hi
    obtain ⟨e', he', hkey⟩ := List.mem_map.mp hj
    apply hij
    rw [← ht.placed i e he, ← ht.placed j e' he', hkey]

/-- A chain is replaced by one of the same slot. -/
theorem WellFormed.setChain (ht : t.WellFormed hash) {i : Nat}
    {chain : List (HtabEntry α)} (hplaced : ∀ e ∈ chain, t.slot hash e.key = i)
    (hdistinct : (chain.map HtabEntry.key).Nodup) :
    (t.setChain i chain).WellFormed hash where
  slots := ht.slots
  placed := by
    intro j e he
    by_cases h : j = i
    · subst h
      rw [elements_setChain_self] at he
      exact hplaced e he
    · rw [elements_setChain_of_ne h] at he
      exact ht.placed j e he
  distinct := by
    intro j
    by_cases h : j = i
    · subst h
      rw [elements_setChain_self]
      exact hdistinct
    · rw [elements_setChain_of_ne h]
      exact ht.distinct j

theorem WellFormed.htabAdd (ht : t.WellFormed hash) :
    (t.htabAdd hash key value).2.WellFormed hash := by
  unfold Htab.htabAdd
  cases hfound : t.getElist hash key with
  | some e => exact ht
  | none =>
    refine ht.setChain ?_ ?_
    · intro e he
      rcases List.mem_append.mp he with hold | hnew
      · exact ht.placed _ e hold
      · rw [List.mem_singleton.mp hnew]
    · rw [List.map_append]
      refine List.Nodup.append (ht.distinct _) (List.nodup_singleton _) ?_
      intro k hk hnew
      obtain ⟨e, he, rfl⟩ := List.mem_map.mp hk
      exact getElist_none hfound e he (List.mem_singleton.mp hnew)

theorem WellFormed.htabRemove (ht : t.WellFormed hash) :
    (t.htabRemove hash key).2.WellFormed hash := by
  unfold Htab.htabRemove
  cases hfound : t.getElist hash key with
  | none => exact ht
  | some e =>
    refine ht.setChain ?_ ?_
    · intro e he
      exact ht.placed _ e (List.mem_of_mem_eraseP he)
    · exact (ht.distinct _).sublist (List.eraseP_sublist.map _)

/-- The chain of another key is found as it was. -/
theorem getElist_setChain_of_ne {i : Nat} (h : t.slot hash key ≠ i)
    (chain : List (HtabEntry α)) :
    (t.setChain i chain).getElist hash key = t.getElist hash key := by
  unfold getElist
  rw [slot_setChain, elements_setChain_of_ne h]

theorem find?_eraseP_of_ne (h : key' ≠ key) (chain : List (HtabEntry α)) :
    (chain.eraseP fun e => e.key = key).find? (fun e => e.key = key')
      = chain.find? fun e => e.key = key' := by
  induction chain with
  | nil => rfl
  | cons e rest ih =>
    by_cases hkey : e.key = key
    · have hother : e.key ≠ key' := fun he => h (he.symm.trans hkey)
      rw [List.eraseP_cons_of_pos (by simpa using hkey),
        List.find?_cons_of_neg (by simpa using hother)]
    · rw [List.eraseP_cons_of_neg (by simpa using hkey)]
      by_cases hother : e.key = key'
      · rw [List.find?_cons_of_pos (by simpa using hother),
          List.find?_cons_of_pos (by simpa using hother)]
      · rw [List.find?_cons_of_neg (by simpa using hother),
          List.find?_cons_of_neg (by simpa using hother), ih]

/-- A key that is removed is no longer found. -/
theorem find?_eraseP_self {chain : List (HtabEntry α)}
    (h : (chain.map HtabEntry.key).Nodup) :
    (chain.eraseP fun e => e.key = key).find? (fun e => e.key = key) = none := by
  induction chain with
  | nil => rfl
  | cons e rest ih =>
    rw [List.map_cons, List.nodup_cons] at h
    by_cases hkey : e.key = key
    · rw [List.eraseP_cons_of_pos (by simpa using hkey), List.find?_eq_none]
      intro e' he' hsame
      have hkey' : e'.key = key := by simpa using hsame
      apply h.1
      rw [hkey, ← hkey']
      exact List.mem_map_of_mem he'
    · rw [List.eraseP_cons_of_neg (by simpa using hkey),
        List.find?_cons_of_neg (by simpa using hkey), ih h.2]

/-- What is found after `htab_add`. -/
theorem htabGet_htabAdd :
    (t.htabAdd hash key value).2.htabGet hash key'
      = if key' = key then some ((t.htabGet hash key).getD value)
        else t.htabGet hash key' := by
  unfold Htab.htabAdd
  cases hfound : t.getElist hash key with
  | some e =>
    have hget : t.htabGet hash key = some e.value := by rw [htabGet, hfound]; rfl
    by_cases h : key' = key
    · rw [if_pos h, h]
      simp only [hget, Option.getD_some]
    · rw [if_neg h]
  | none =>
    have hget : t.htabGet hash key = none := by rw [htabGet, hfound]; rfl
    by_cases hslot : t.slot hash key' = t.slot hash key
    · have hchain : (t.setChain (t.slot hash key)
          (t.elements (t.slot hash key) ++ [⟨key, value⟩])).getElist hash key'
          = (t.getElist hash key').or
              (([⟨key, value⟩] : List (HtabEntry α)).find? fun e => e.key = key') := by
        unfold getElist
        rw [slot_setChain, hslot, elements_setChain_self, List.find?_append]
      by_cases h : key' = key
      · subst h
        rw [if_pos rfl, hget, htabGet, hchain, hfound, Option.none_or,
          List.find?_cons_of_pos (by simp)]
        rfl
      · rw [if_neg h, htabGet, hchain,
          List.find?_cons_of_neg (by simpa using Ne.symm h), List.find?_nil,
          Option.or_none, htabGet]
    · have hne : key' ≠ key := fun h => hslot (by rw [h])
      rw [if_neg hne, htabGet, getElist_setChain_of_ne hslot, htabGet]

/-- What is found after `htab_remove`. -/
theorem WellFormed.htabGet_htabRemove (ht : t.WellFormed hash) :
    (t.htabRemove hash key).2.htabGet hash key'
      = if key' = key then none else t.htabGet hash key' := by
  unfold Htab.htabRemove
  cases hfound : t.getElist hash key with
  | none =>
    by_cases h : key' = key
    · rw [if_pos h, h, htabGet, hfound]
      rfl
    · rw [if_neg h]
  | some e =>
    by_cases hslot : t.slot hash key' = t.slot hash key
    · rw [htabGet]
      unfold getElist
      rw [slot_setChain, hslot, elements_setChain_self]
      by_cases h : key' = key
      · rw [if_pos h, h, find?_eraseP_self (ht.distinct _)]
        rfl
      · rw [if_neg h, find?_eraseP_of_ne h, htabGet, getElist, hslot]
    · have hne : key' ≠ key := fun h => hslot (by rw [h])
      rw [if_neg hne, htabGet, getElist_setChain_of_ne hslot, htabGet]

/-- `htab_get` and `htab_remove` find the same. -/
theorem htabRemove_fst : (t.htabRemove hash key).1 = t.htabGet hash key := by
  unfold Htab.htabRemove htabGet
  cases t.getElist hash key <;> rfl

end Htab

end Upcn
