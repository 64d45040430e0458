import Mathlib.Logic.Function.Basic
import Upcn.Lib.Heap
import Upcn.Platform.Simplehtab

/-!
# The chains of the hash table in memory

`simplehtab.c` with its pointers.

* A `Table` is the array of slots together with the memory that the chains are in.  A
  function is `none` where it accesses an object that is not live, dereferences `NULL`, or
  does not return.
* `Represents` relates a table to the lists of `Htab`, and each function has a lemma that
  says how it moves both.
* In a `Run`, calls of the functions and changes elsewhere in memory alternate, next to a map
  from strings to pointers.
-/

namespace Upcn.HtabChains

/-- `struct htab_entrylist`. -/
structure HtabEntrylist where
  key : Nat
  value : Option Nat
  next : Option Nat

/-- `struct htab`, and the memory: which objects are live, what the strings say and what the
elements hold. -/
structure Table where
  heap : Heap
  text : Nat → List Char
  elem : Nat → HtabEntrylist
  slotCount : Nat
  elements : Nat → Option Nat

/-- A `struct htab_entrylist **`: a slot or the `next` of an element. -/
inductive Place
  | slot (i : Nat)
  | next (p : Nat)

namespace Table

/-! ## Memory -/

/-- An element is read. -/
def read (t : Table) (p : Nat) : Option HtabEntrylist :=
  if t.heap.live p then some (t.elem p) else none

/-- A string is read. -/
def readText (t : Table) (p : Nat) : Option (List Char) :=
  if t.heap.live p then some (t.text p) else none

/-- The pointer at a place. -/
def load (t : Table) : Place → Option (Option Nat)
  | .slot i => if i < t.slotCount then some (t.elements i) else none
  | .next p => (t.read p).map HtabEntrylist.next

/-- The pointer at a place is written. -/
def store (t : Table) (v : Option Nat) : Place → Option Table
  | .slot i =>
    if i < t.slotCount then some { t with elements := Function.update t.elements i v } else none
  | .next p =>
    if t.heap.live p then
      some { t with elem := Function.update t.elem p { t.elem p with next := v } }
    else none

/-- `free`. -/
def release (t : Table) (p : Nat) : Option Table :=
  if t.heap.live p then some { t with heap := t.heap.free (some p) } else none

/-- No chain has more elements than there were objects. -/
def rounds (t : Table) : Nat := t.heap.next + 1

/-! ## The functions -/

/-- `htab_init`. -/
def htabInit (t : Table) (slotCount : Nat) : Table :=
  { t with slotCount, elements := fun i => if i < slotCount then none else t.elements i }

/-- The comparison of `get_elist_ptr_by_hash`. -/
def sameKey (t : Table) (comparePtrOnly : Bool) (stored key : Nat) : Option Bool :=
  if stored = key then some true
  else if comparePtrOnly then some false
  else do
    let a ← t.readText stored
    let b ← t.readText key
    return a = b

/-- The loop of `get_elist_ptr_by_hash`. -/
def getElistLoop (t : Table) (key : Nat) (comparePtrOnly : Bool) :
    Nat → Place → Option (Option Place)
  | 0, _ => none
  | rounds + 1, curElem => do
    match ← t.load curElem with
    | none => return none
    | some p =>
      let e ← t.read p
      if ← t.sameKey comparePtrOnly e.key key then return some curElem
      else getElistLoop t key comparePtrOnly rounds (.next p)

/-- `get_elist_ptr_by_hash`. -/
def getElistPtrByHash (t : Table) (hash key : Nat) (comparePtrOnly : Bool) :
    Option (Option Place) :=
  t.getElistLoop key comparePtrOnly t.rounds (.slot hash)

/-- The loop of `htab_add_known`, which looks for the end of the chain. -/
def lastLoop (t : Table) : Nat → Place → Option Place
  | 0, _ => none
  | rounds + 1, curElem => do
    match ← t.load curElem with
    | none => return curElem
    | some p => lastLoop t rounds (.next p)

/-- The element and its key that `htab_add_known` allocates. -/
def allocate (t : Table) (text : List Char) (valptr : Option Nat) : Table :=
  { t with
    heap := t.heap.grant.grant
    text := Function.update t.text (t.heap.next + 1) text
    elem := Function.update t.elem t.heap.next ⟨t.heap.next + 1, valptr, none⟩ }

/-- `htab_add_known`, where `key_length` is the length of the key. -/
def htabAddKnown (t : Table) (key hash : Nat) (valptr : Option Nat) (comparePtrOnly : Bool) :
    Option (Option Nat × Table) := do
  let shash := hash % t.slotCount
  match ← t.getElistPtrByHash shash key comparePtrOnly with
  | some _ => return (none, t)
  | none =>
    let newElem := t.heap.next
    let text ← t.readText key
    let t := t.allocate text valptr
    let curElem ← t.lastLoop t.rounds (.slot shash)
    let t ← t.store (some newElem) curElem
    return (some newElem, t)

/-- `htab_get_known_pair`. -/
def htabGetKnownPair (t : Table) (key hash : Nat) (comparePtrOnly : Bool) :
    Option (Option Nat) := do
  match ← t.getElistPtrByHash (hash % t.slotCount) key comparePtrOnly with
  | none => return none
  | some elistPtr => t.load elistPtr

/-- `htab_get_known`. -/
def htabGetKnown (t : Table) (key hash : Nat) (comparePtrOnly : Bool) :
    Option (Option Nat) := do
  match ← t.getElistPtrByHash (hash % t.slotCount) key comparePtrOnly with
  | none => return none
  | some elistPtr =>
    match ← t.load elistPtr with
    | none => none
    | some p => return (← t.read p).value

/-- `htab_remove_known`. -/
def htabRemoveKnown (t : Table) (key hash : Nat) (comparePtrOnly : Bool) :
    Option (Option Nat × Table) := do
  match ← t.getElistPtrByHash (hash % t.slotCount) key comparePtrOnly with
  | none => return (none, t)
  | some elistPtr =>
    match ← t.load elistPtr with
    | none => none
    | some p =>
      let e ← t.read p
      let t ← t.release e.key
      let t ← t.release p
      let t ← t.store e.next elistPtr
      return (e.value, t)

/-- The inner loop of `htab_trunc`. -/
def truncLoop (t : Table) : Nat → Option Nat → Option Table
  | _, none => some t
  | 0, some _ => none
  | rounds + 1, some cur => do
    let e ← t.read cur
    let t ← t.release e.key
    let t ← t.release cur
    truncLoop t rounds e.next

/-- The outer loop of `htab_trunc`, for these slots. -/
def truncSlots (t : Table) : List Nat → Option Table
  | [] => some t
  | i :: rest => do
    let cur ← t.load (.slot i)
    let t ← t.truncLoop t.rounds cur
    let t ← t.store none (.slot i)
    truncSlots t rest

/-- `htab_trunc`. -/
def htabTrunc (t : Table) : Option Table := t.truncSlots (List.range t.slotCount)

section
variable (hash : List Char → Nat)

/-- `HASH`, passed on as an `uint16_t`. -/
def hashOf (t : Table) (key : Nat) : Option Nat :=
  (t.readText key).map fun text => hash text % 2 ^ 16

/-- `htab_add`. -/
def htabAdd (t : Table) (key : Nat) (valptr : Option Nat) : Option (Option Nat × Table) := do
  t.htabAddKnown key (← t.hashOf hash key) valptr false

/-- `htab_get`. -/
def htabGet (t : Table) (key : Nat) : Option (Option Nat) := do
  t.htabGetKnown key (← t.hashOf hash key) false

/-- `htab_get_pair`. -/
def htabGetPair (t : Table) (key : Nat) : Option (Option Nat) := do
  t.htabGetKnownPair key (← t.hashOf hash key) false

/-- `htab_remove`. -/
def htabRemove (t : Table) (key : Nat) : Option (Option Nat × Table) := do
  t.htabRemoveKnown key (← t.hashOf hash key) false

end

end Table

/-! ## Calls -/

/-- A call of one of the functions. -/
inductive Call
  | add (key : Nat) (valptr : Option Nat)
  | get (key : Nat)
  | getPair (key : Nat)
  | remove (key : Nat)
  | trunc

/-- What a call returns. -/
inductive Answer
  | elem (p : Option Nat)
  | value (v : Option Nat)
  | void

/-- The key that is passed. -/
def Call.key? : Call → Option Nat
  | .add key _ | .get key | .getPair key | .remove key => some key
  | .trunc => none

/-- The call is made. -/
def Call.run (hash : List Char → Nat) (t : Table) : Call → Option (Answer × Table)
  | .add key valptr => (t.htabAdd hash key valptr).map fun r => (.elem r.1, r.2)
  | .get key => (t.htabGet hash key).map fun v => (.value v, t)
  | .getPair key => (t.htabGetPair hash key).map fun p => (.elem p, t)
  | .remove key => (t.htabRemove hash key).map fun r => (.value r.1, r.2)
  | .trunc => t.htabTrunc.map fun t => (.void, t)

/-! ## Chains -/

/-- What an element says. -/
def Table.entry (t : Table) (p : Nat) : HtabEntry (Option Nat) :=
  ⟨t.text (t.elem p).key, (t.elem p).value⟩

/-- The pointer leads through these elements. -/
def Linked (t : Table) : Option Nat → List Nat → Prop
  | cur, [] => cur = none
  | cur, p :: ps => cur = some p ∧ Linked t (t.elem p).next ps

/-- The place behind these elements. -/
def Place.behind (place : Place) : List Nat → Place
  | [] => place
  | p :: ps => (Place.next p).behind ps

variable {hash : List Char → Nat} {t t' : Table} {cur w : Option Nat} {place : Place}
  {p q key i : Nat} {ps rest : List Nat}

theorem Linked.congr (hnext : ∀ p ∈ ps, (t'.elem p).next = (t.elem p).next)
    (hlinked : Linked t cur ps) : Linked t' cur ps := by
  induction ps generalizing cur with
  | nil => exact hlinked
  | cons p ps ih =>
    obtain ⟨rfl, hrest⟩ := hlinked
    refine ⟨rfl, ?_⟩
    rw [hnext p List.mem_cons_self]
    exact ih (fun q hq => hnext q (List.mem_cons_of_mem _ hq)) hrest

/-- What follows the last of these elements is replaced. -/
theorem Linked.update (hlinked : Linked t cur (ps ++ p :: rest)) (hps : p ∉ ps)
    {ps' : List Nat} (hps' : p ∉ ps') (hw : Linked t w ps') :
    Linked { t with elem := Function.update t.elem p { t.elem p with next := w } } cur
      (ps ++ p :: ps') := by
  induction ps generalizing cur with
  | nil =>
    refine ⟨hlinked.1, ?_⟩
    simp only [Function.update_self]
    refine hw.congr fun q hq => ?_
    have hne : q ≠ p := by
      rintro rfl
      exact hps' hq
    simp only [Function.update_of_ne hne]
  | cons q ps ih =>
    obtain ⟨rfl, hrest⟩ := hlinked
    obtain ⟨hne, hps⟩ := not_or.mp (List.mem_cons.not.mp hps)
    refine ⟨rfl, ?_⟩
    simp only [Function.update_of_ne (Ne.symm hne)]
    exact ih hrest hps

theorem Place.behind_concat (place : Place) (ps : List Nat) (p : Nat) :
    place.behind (ps ++ [p]) = .next p := by
  induction ps generalizing place with
  | nil => rfl
  | cons q ps ih => exact ih (.next q)

theorem Table.read_of_live (hlive : t.heap.live p = true) : t.read p = some (t.elem p) :=
  if_pos hlive

theorem Table.readText_of_live (hlive : t.heap.live p = true) :
    t.readText p = some (t.text p) := if_pos hlive

theorem Table.load_next (hlive : t.heap.live p = true) :
    t.load (.next p) = some (t.elem p).next := by
  rw [Table.load, Table.read_of_live hlive]
  rfl

/-- Keys are the same if they say the same. -/
theorem Table.sameKey_eq {stored : Nat} (hstored : t.heap.live stored = true)
    (hkey : t.heap.live key = true) :
    t.sameKey false stored key = some (decide (t.text stored = t.text key)) := by
  rw [Table.sameKey]
  by_cases heq : stored = key
  · rw [if_pos heq, heq, decide_eq_true rfl]
  · rw [if_neg heq, if_neg Bool.false_ne_true, Table.readText_of_live hstored,
      Table.readText_of_live hkey]
    rfl

/-- What `get_elist_ptr_by_hash` finds: the place of the first element with the key. -/
theorem getElistLoop_cases (hlinked : Linked t cur ps)
    (hlive : ∀ p ∈ ps, t.heap.live p = true ∧ t.heap.live (t.elem p).key = true)
    (hkey : t.heap.live key = true) (hload : t.load place = some cur) {rounds : Nat}
    (hrounds : ps.length < rounds) :
    t.getElistLoop key false rounds place = some none ∧
      (∀ p ∈ ps, (t.entry p).key ≠ t.text key) ∨
    ∃ before p after, ps = before ++ p :: after ∧
      t.getElistLoop key false rounds place = some (some (place.behind before)) ∧
      t.load (place.behind before) = some (some p) ∧
      (∀ q ∈ before, (t.entry q).key ≠ t.text key) ∧ (t.entry p).key = t.text key := by
  induction ps generalizing cur place rounds with
  | nil =>
    obtain ⟨rounds, rfl⟩ := Nat.exists_eq_succ_of_ne_zero (Nat.ne_of_gt hrounds)
    refine .inl ⟨?_, fun p hp => absurd hp List.not_mem_nil⟩
    rw [Table.getElistLoop, hload, show cur = none from hlinked]
    rfl
  | cons p ps ih =>
    obtain ⟨rounds, rfl⟩ := Nat.exists_eq_succ_of_ne_zero (Nat.ne_zero_of_lt hrounds)
    obtain ⟨rfl, hrest⟩ := hlinked
    obtain ⟨hp, hpkey⟩ := hlive p List.mem_cons_self
    have hround : t.getElistLoop key false (rounds + 1) place =
        if (t.entry p).key = t.text key then some (some place)
        else t.getElistLoop key false rounds (.next p) := by
      rw [Table.getElistLoop, hload]
      simp only [Option.bind_eq_bind, Option.bind_some, Table.read_of_live hp,
        Table.sameKey_eq hpkey hkey, decide_eq_true_eq, Option.pure_def]
      rfl
    rw [hround]
    by_cases hsame : (t.entry p).key = t.text key
    · rw [if_pos hsame]
      exact .inr ⟨[], p, ps, rfl, rfl, hload, fun q hq => absurd hq List.not_mem_nil, hsame⟩
    · rw [if_neg hsame]
      rcases ih hrest (fun q hq => hlive q (List.mem_cons_of_mem _ hq)) (Table.load_next hp)
        (Nat.lt_of_succ_lt_succ hrounds) with
        ⟨hloop, hnone⟩ | ⟨before, q, after, rfl, hloop, hfound, hbefore, hq⟩
      · exact .inl ⟨hloop, List.forall_mem_cons.mpr ⟨hsame, hnone⟩⟩
      · exact .inr ⟨p :: before, q, after, rfl, hloop, hfound,
          List.forall_mem_cons.mpr ⟨hsame, hbefore⟩, hq⟩

/-- The end of the chain. -/
theorem lastLoop_eq (hlinked : Linked t cur ps) (hlive : ∀ p ∈ ps, t.heap.live p = true)
    (hload : t.load place = some cur) {rounds : Nat} (hrounds : ps.length < rounds) :
    t.lastLoop rounds place = some (place.behind ps) := by
  induction ps generalizing cur place rounds with
  | nil =>
    obtain ⟨rounds, rfl⟩ := Nat.exists_eq_succ_of_ne_zero (Nat.ne_of_gt hrounds)
    rw [Table.lastLoop, hload, show cur = none from hlinked]
    rfl
  | cons p ps ih =>
    obtain ⟨rounds, rfl⟩ := Nat.exists_eq_succ_of_ne_zero (Nat.ne_zero_of_lt hrounds)
    obtain ⟨rfl, hrest⟩ := hlinked
    rw [Table.lastLoop, hload]
    exact ih hrest (fun q hq => hlive q (List.mem_cons_of_mem _ hq))
      (Table.load_next (hlive p List.mem_cons_self)) (Nat.lt_of_succ_lt_succ hrounds)

/-! ## Tables and lists -/

/-- The chains of the table are those of `l`. -/
structure Represents (hash : List Char → Nat) (t : Table) (chains : Nat → List Nat)
    (l : Htab (Option Nat)) : Prop where
  slotCount : l.slotCount = t.slotCount
  linked : ∀ i < t.slotCount, Linked t (t.elements i) (chains i)
  entries : ∀ i, l.elements i = (chains i).map t.entry
  live : ∀ i, ∀ p ∈ chains i, t.heap.live p = true ∧ t.heap.live (t.elem p).key = true
  apart : ∀ i j, ∀ p ∈ chains i, ∀ q ∈ chains j, p ≠ (t.elem q).key
  wellFormed : l.WellFormed hash

/-- Only which elements follow each other, and which objects are live, may differ. -/
structure SameData (t t' : Table) : Prop where
  text : t'.text = t.text
  slotCount : t'.slotCount = t.slotCount
  key : ∀ p, (t'.elem p).key = (t.elem p).key
  value : ∀ p, (t'.elem p).value = (t.elem p).value

theorem SameData.entry (hsame : SameData t t') (p : Nat) : t'.entry p = t.entry p := by
  rw [Table.entry, Table.entry, hsame.text, hsame.key, hsame.value]

variable {chains : Nat → List Nat} {l : Htab (Option Nat)} {j : Nat} {before : List Nat}

namespace Represents

theorem slot_of_mem (hr : Represents hash t chains l) (hp : p ∈ chains i) :
    l.slot hash (t.entry p).key = i := by
  refine hr.wellFormed.placed i _ ?_
  rw [hr.entries]
  exact List.mem_map_of_mem hp

theorem lt_of_mem (hr : Represents hash t chains l) (hp : p ∈ chains i) : i < t.slotCount := by
  rw [← hr.slot_of_mem hp, ← hr.slotCount]
  exact hr.wellFormed.slot_lt _

/-- No key twice. -/
theorem eq_of_key (hr : Represents hash t chains l) (hp : p ∈ chains i) (hq : q ∈ chains j)
    (hkey : (t.entry p).key = (t.entry q).key) : p = q := by
  have hij : i = j := by rw [← hr.slot_of_mem hp, ← hr.slot_of_mem hq, hkey]
  subst hij
  have hdistinct := hr.wellFormed.distinct i
  rw [hr.entries, List.map_map] at hdistinct
  exact List.inj_on_of_nodup_map hdistinct hp hq hkey

theorem eq_of_mem (hr : Represents hash t chains l) (hi : p ∈ chains i) (hj : p ∈ chains j) :
    i = j := (hr.slot_of_mem hi).symm.trans (hr.slot_of_mem hj)

theorem nodup (hr : Represents hash t chains l) (i : Nat) : (chains i).Nodup := by
  have hdistinct := hr.wellFormed.distinct i
  rw [hr.entries, List.map_map] at hdistinct
  exact hdistinct.of_map _

/-- Every loop ends. -/
theorem length_lt (hr : Represents hash t chains l) (i : Nat) : (chains i).length < t.rounds := by
  have hsub : chains i ⊆ List.range t.heap.next := fun p hp =>
    List.mem_range.mpr (t.heap.fresh p (hr.live i p hp).1)
  have hle := List.Nodup.length_le_of_subset (hr.nodup i) hsub
  rw [List.length_range] at hle
  exact Nat.lt_succ_of_le hle

theorem hashOf_mod (hr : Represents hash t chains l) (text : List Char) :
    hash text % 2 ^ 16 % t.slotCount = l.slot hash text := by
  rw [← hr.slotCount]
  rfl

theorem slot_lt (hr : Represents hash t chains l) (text : List Char) :
    l.slot hash text < t.slotCount := hr.slotCount ▸ hr.wellFormed.slot_lt text

/-- The search in memory and the one in the list. -/
theorem found_cases (hr : Represents hash t chains l) (hkey : t.heap.live key = true) :
    t.getElistPtrByHash (l.slot hash (t.text key)) key false = some none ∧
      l.getElist hash (t.text key) = none ∨
    ∃ before p after, chains (l.slot hash (t.text key)) = before ++ p :: after ∧
      t.getElistPtrByHash (l.slot hash (t.text key)) key false =
        some (some ((Place.slot (l.slot hash (t.text key))).behind before)) ∧
      t.load ((Place.slot (l.slot hash (t.text key))).behind before) = some (some p) ∧
      (∀ q ∈ before, (t.entry q).key ≠ t.text key) ∧ (t.entry p).key = t.text key ∧
      l.getElist hash (t.text key) = some (t.entry p) := by
  have hlt := hr.slot_lt (t.text key)
  generalize hi : l.slot hash (t.text key) = i at hlt ⊢
  have hload : t.load (.slot i) = some (t.elements i) := if_pos hlt
  have hget : l.getElist hash (t.text key) =
      ((chains i).map t.entry).find? fun e => e.key = t.text key := by
    rw [Htab.getElist, hi, hr.entries]
  rcases getElistLoop_cases (hr.linked i hlt) (hr.live i) hkey hload (hr.length_lt i) with
    ⟨hloop, hnone⟩ | ⟨before, p, after, hchain, hloop, hfound, hbefore, hp⟩
  · refine .inl ⟨hloop, ?_⟩
    rw [hget, List.find?_eq_none]
    intro e he
    obtain ⟨p, hp, rfl⟩ := List.mem_map.mp he
    simpa using hnone p hp
  · refine .inr ⟨before, p, after, hchain, hloop, hfound, hbefore, hp, ?_⟩
    have hnone : (before.map t.entry).find? (fun e => e.key = t.text key) = none := by
      rw [List.find?_eq_none]
      intro e he
      obtain ⟨q, hq, rfl⟩ := List.mem_map.mp he
      simpa using hbefore q hq
    rw [hget, hchain, List.map_append, List.find?_append, hnone, Option.none_or, List.map_cons,
      List.find?_cons_of_pos (by simpa using hp)]

end Represents

/-- The pointer behind these elements is replaced by one that leads elsewhere. -/
theorem store_behind {ps' : List Nat}
    (hlinked : ∀ j < t.slotCount, Linked t (t.elements j) (chains j)) (hi : i < t.slotCount)
    (hchain : chains i = before ++ rest) (hlive : ∀ b ∈ before, t.heap.live b = true)
    (hnodup : before.Nodup) (hother : ∀ b ∈ before, ∀ j, b ∈ chains j → j = i)
    (hps' : ∀ b ∈ before, b ∉ ps') (hw : Linked t w ps') :
    ∃ t', t.store w ((Place.slot i).behind before) = some t' ∧ t'.heap = t.heap ∧
      SameData t t' ∧
      ∀ j < t.slotCount, Linked t' (t'.elements j)
        (Function.update chains i (before ++ ps') j) := by
  rcases List.eq_nil_or_concat before with rfl | ⟨front, b, rfl⟩
  · refine ⟨_, if_pos hi, rfl, ⟨rfl, rfl, fun _ => rfl, fun _ => rfl⟩, fun j hj => ?_⟩
    by_cases hji : j = i
    · subst hji
      rw [Function.update_self]
      simp only [Function.update_self]
      exact Linked.congr (t := t) (fun _ _ => rfl) hw
    · rw [Function.update_of_ne hji]
      simp only [Function.update_of_ne hji]
      exact Linked.congr (t := t) (fun _ _ => rfl) (hlinked j hj)
  · rw [List.concat_eq_append] at *
    have hb : b ∈ front ++ [b] := List.mem_append_right _ (List.mem_singleton_self b)
    rw [Place.behind_concat]
    have hdata : ∀ p, ((Function.update t.elem b { t.elem b with next := w }) p).key =
        (t.elem p).key ∧ ((Function.update t.elem b { t.elem b with next := w }) p).value =
        (t.elem p).value := by
      intro p
      by_cases hpb : p = b
      · subst hpb
        rw [Function.update_self]
        exact ⟨rfl, rfl⟩
      · rw [Function.update_of_ne hpb]
        exact ⟨rfl, rfl⟩
    refine ⟨_, if_pos (hlive b hb), rfl, ⟨rfl, rfl, fun p => (hdata p).1, fun p => (hdata p).2⟩,
      fun j hj => ?_⟩
    by_cases hji : j = i
    · subst hji
      rw [Function.update_self, List.append_assoc]
      have hfront : b ∉ front := fun hmem =>
        (List.nodup_append.mp hnodup).2.2 b hmem b (List.mem_singleton_self b) rfl
      have hchain' := hlinked j hj
      rw [hchain, List.append_assoc] at hchain'
      exact hchain'.update hfront (hps' b hb) hw
    · rw [Function.update_of_ne hji]
      refine (hlinked j hj).congr fun p hp => ?_
      have hne : p ≠ b := by
        rintro rfl
        exact hji (hother p hb j hp)
      simp only [Function.update_of_ne hne]

/-! ## Allocation -/

variable {text : List Char} {valptr : Option Nat}

theorem live_allocate (hlive : t.heap.live p = true) :
    (t.allocate text valptr).heap.live p = true := by
  simp [Table.allocate, hlive]

theorem elem_allocate (hlt : p < t.heap.next) :
    (t.allocate text valptr).elem p = t.elem p :=
  Function.update_of_ne (Nat.ne_of_lt hlt) _ _

theorem text_allocate (hlt : p < t.heap.next) :
    (t.allocate text valptr).text p = t.text p :=
  Function.update_of_ne (Nat.ne_of_lt (Nat.lt_succ_of_lt hlt)) _ _

theorem elem_allocate_self :
    (t.allocate text valptr).elem t.heap.next = ⟨t.heap.next + 1, valptr, none⟩ :=
  Function.update_self _ _ _

theorem entry_allocate_self : (t.allocate text valptr).entry t.heap.next = ⟨text, valptr⟩ := by
  rw [Table.entry, elem_allocate_self, HtabEntry.mk.injEq]
  exact ⟨Function.update_self _ _ _, rfl⟩

theorem Represents.lt_next (hr : Represents hash t chains l) (hp : p ∈ chains i) :
    p < t.heap.next ∧ (t.elem p).key < t.heap.next :=
  ⟨t.heap.fresh p (hr.live i p hp).1, t.heap.fresh _ (hr.live i p hp).2⟩

theorem Represents.entry_allocate (hr : Represents hash t chains l) (hp : p ∈ chains i) :
    (t.allocate text valptr).entry p = t.entry p := by
  obtain ⟨hlt, hkey⟩ := hr.lt_next hp
  rw [Table.entry, Table.entry, elem_allocate hlt, text_allocate hkey]

theorem mem_update {ps : List Nat} :
    p ∈ Function.update chains i ps j ↔ if j = i then p ∈ ps else p ∈ chains j := by
  by_cases hji : j = i
  · rw [hji, Function.update_self, if_pos rfl]
  · rw [Function.update_of_ne hji, if_neg hji]

variable (text valptr) in
/-- The new element is linked behind the others. -/
theorem Represents.store_append (hr : Represents hash t chains l) (hi : i < t.slotCount) :
    ∃ t', ((t.allocate text valptr).lastLoop (t.allocate text valptr).rounds (.slot i)).bind
        ((t.allocate text valptr).store (some t.heap.next)) = some t' ∧
      t'.heap = (t.allocate text valptr).heap ∧ SameData (t.allocate text valptr) t' ∧
      ∀ j < t.slotCount, Linked t' (t'.elements j)
        (Function.update chains i (chains i ++ [t.heap.next]) j) := by
  have hlinked : ∀ j < (t.allocate text valptr).slotCount,
      Linked (t.allocate text valptr) ((t.allocate text valptr).elements j) (chains j) :=
    fun j hj => (hr.linked j hj).congr fun p hp => by rw [elem_allocate (hr.lt_next hp).1]
  have hlive : ∀ p ∈ chains i, (t.allocate text valptr).heap.live p = true := fun p hp =>
    live_allocate (hr.live i p hp).1
  have hrounds : (chains i).length < (t.allocate text valptr).rounds :=
    Nat.lt_of_lt_of_le (hr.length_lt i) (Nat.le_add_right _ 2)
  have hload : (t.allocate text valptr).load (.slot i) = some (t.elements i) := if_pos hi
  rw [lastLoop_eq (hlinked i hi) hlive hload hrounds, Option.bind_some]
  have hnew : ∀ b ∈ chains i, b ∉ [t.heap.next] := fun b hb heq =>
    Nat.ne_of_lt (hr.lt_next hb).1 (List.mem_singleton.mp heq)
  have hw : Linked (t.allocate text valptr) (some t.heap.next) [t.heap.next] :=
    ⟨rfl, by rw [elem_allocate_self]; rfl⟩
  exact store_behind hlinked hi (List.append_nil _).symm hlive (hr.nodup i)
    (fun b hb j hj => hr.eq_of_mem hj hb) hnew hw

/-- The table with the new element. -/
theorem Represents.append (hr : Represents hash t chains l) (hi : i < t.slotCount)
    (hwf : (l.setChain i (l.elements i ++ [⟨text, valptr⟩])).WellFormed hash) :
    ∃ t', ((t.allocate text valptr).lastLoop (t.allocate text valptr).rounds (.slot i)).bind
        ((t.allocate text valptr).store (some t.heap.next)) = some t' ∧
      t'.entry t.heap.next = ⟨text, valptr⟩ ∧
      Represents hash t' (Function.update chains i (chains i ++ [t.heap.next]))
        (l.setChain i (l.elements i ++ [⟨text, valptr⟩])) := by
  obtain ⟨t', hstore, hheap, hsame, hlinked⟩ := hr.store_append text valptr hi
  have hkey : ∀ {j p}, p ∈ chains j → (t'.elem p).key = (t.elem p).key := fun hp => by
    rw [hsame.key, elem_allocate (hr.lt_next hp).1]
  have hnewKey : (t'.elem t.heap.next).key = t.heap.next + 1 := by
    rw [hsame.key, elem_allocate_self]
  have hentry : t'.entry t.heap.next = ⟨text, valptr⟩ := by
    rw [hsame.entry, entry_allocate_self]
  have hmem : ∀ {j p}, p ∈ Function.update chains i (chains i ++ [t.heap.next]) j →
      p ∈ chains j ∨ p = t.heap.next := by
    intro j p hp
    rw [mem_update] at hp
    split at hp
    · rename_i hji
      exact hji ▸ (List.mem_append.mp hp).imp_right List.mem_singleton.mp
    · exact .inl hp
  refine ⟨t', hstore, hentry, ?_, ?_, ?_, ?_, ?_, hwf⟩
  · rw [hsame.slotCount]
    exact hr.slotCount
  · rw [hsame.slotCount]
    exact hlinked
  · intro j
    have hold : (chains j).map t'.entry = (chains j).map t.entry :=
      List.map_congr_left fun p hp => (hsame.entry p).trans (hr.entry_allocate hp)
    by_cases hji : j = i
    · subst hji
      rw [Htab.elements_setChain_self, Function.update_self, List.map_append, hold,
        List.map_singleton, hentry, hr.entries]
    · rw [Htab.elements_setChain_of_ne hji, Function.update_of_ne hji, hold, hr.entries]
  · intro j p hp
    rw [hheap]
    rcases hmem hp with hp | rfl
    · rw [hkey hp]
      exact ⟨live_allocate (hr.live j p hp).1, live_allocate (hr.live j p hp).2⟩
    · rw [hnewKey]
      simp [Table.allocate]
  · intro j k p hp q hq
    rcases hmem hp with hp | rfl <;> rcases hmem hq with hq | rfl
    · rw [hkey hq]
      exact hr.apart j k p hp q hq
    · rw [hnewKey]
      exact Nat.ne_of_lt (Nat.lt_succ_of_lt (hr.lt_next hp).1)
    · rw [hkey hq]
      exact Nat.ne_of_gt (hr.lt_next hq).2
    · rw [hnewKey]
      exact Nat.ne_of_lt (Nat.lt_succ_self _)

/-! ## Freeing -/

theorem release_of_live (hlive : t.heap.live p = true) :
    t.release p = some { t with heap := t.heap.free (some p) } := if_pos hlive

/-- An element and its key are freed. -/
theorem release_both (hp : t.heap.live p = true) (hkey : t.heap.live (t.elem p).key = true)
    (hne : p ≠ (t.elem p).key) :
    ∃ heap : Heap, ((t.release (t.elem p).key).bind fun t => t.release p) =
        some { t with heap } ∧
      ∀ o, heap.live o = true ↔ t.heap.live o = true ∧ o ≠ p ∧ o ≠ (t.elem p).key := by
  refine ⟨(t.heap.free (some (t.elem p).key)).free (some p), ?_, fun o => ?_⟩
  · rw [release_of_live hkey, Option.bind_some]
    exact release_of_live (Heap.live_free.mpr ⟨hp, fun heq => hne (Option.some.inj heq).symm⟩)
  · rw [Heap.live_free, Heap.live_free, and_assoc, and_comm (b := some p ≠ some o)]
    simp only [ne_eq, Option.some.injEq, eq_comm]

theorem Linked.tail {after : List Nat} (hlinked : Linked t cur (before ++ p :: after)) :
    Linked t (t.elem p).next after := by
  induction before generalizing cur with
  | nil => exact hlinked.2
  | cons q before ih => exact ih hlinked.2

/-- Elements of one chain are freed with their keys. -/
theorem Represents.shrink (hr : Represents hash t chains l) {kept : List Nat}
    (hkept : kept.Sublist (chains i)) (hsame : SameData t t')
    (hlinked : ∀ j < t.slotCount, Linked t' (t'.elements j) (Function.update chains i kept j))
    (hlive : ∀ o, t.heap.live o = true →
      (∀ p ∈ chains i, p ∉ kept → o ≠ p ∧ o ≠ (t.elem p).key) → t'.heap.live o = true) :
    Represents hash t' (Function.update chains i kept) (l.setChain i (kept.map t.entry)) := by
  have hmem : ∀ {j q}, q ∈ Function.update chains i kept j →
      q ∈ chains j ∧ (j = i → q ∈ kept) := by
    intro j q hq
    rw [mem_update] at hq
    split at hq
    · rename_i hji
      exact ⟨hji ▸ hkept.subset hq, fun _ => hq⟩
    · rename_i hji
      exact ⟨hq, fun heq => absurd heq hji⟩
  -- What is left is none of what is freed.
  have hne : ∀ {j p q}, q ∈ Function.update chains i kept j → p ∈ chains i → p ∉ kept →
      q ≠ p := by
    rintro j p q hq hp hnot rfl
    obtain ⟨hq, hkept⟩ := hmem hq
    exact hnot (hkept (hr.eq_of_mem hq hp))
  refine ⟨?_, ?_, ?_, ?_, ?_, ?_⟩
  · rw [hsame.slotCount]
    exact hr.slotCount
  · rw [hsame.slotCount]
    exact hlinked
  · intro j
    have hentries : ∀ ps : List Nat, ps.map t'.entry = ps.map t.entry := fun ps =>
      List.map_congr_left fun p _ => hsame.entry p
    by_cases hji : j = i
    · rw [hji, Htab.elements_setChain_self, Function.update_self, hentries]
    · rw [Htab.elements_setChain_of_ne hji, Function.update_of_ne hji, hentries, hr.entries]
  · intro j q hq
    have hold := (hmem hq).1
    rw [hsame.key]
    refine ⟨hlive _ (hr.live j q hold).1 fun p hp hnot => ⟨hne hq hp hnot, ?_⟩,
      hlive _ (hr.live j q hold).2 fun p hp hnot => ⟨?_, fun heq => hne hq hp hnot ?_⟩⟩
    · exact hr.apart j i q hold p hp
    · exact (hr.apart i j p hp q hold).symm
    · exact hr.eq_of_key hold hp (congrArg t.text heq)
  · intro j k p hp q hq
    rw [hsame.key]
    exact hr.apart j k p (hmem hp).1 q (hmem hq).1
  · refine hr.wellFormed.setChain (fun e he => ?_) ?_
    · obtain ⟨p, hp, rfl⟩ := List.mem_map.mp he
      exact hr.slot_of_mem (hkept.subset hp)
    · have hdistinct := hr.wellFormed.distinct i
      rw [hr.entries] at hdistinct
      exact hdistinct.sublist ((hkept.map t.entry).map HtabEntry.key)

/-- An element is taken out of its chain. -/
theorem Represents.unlink (hr : Represents hash t chains l) (hi : i < t.slotCount)
    {after : List Nat} (hchain : chains i = before ++ p :: after) :
    ∃ t', ((t.release (t.elem p).key).bind fun t₁ => (t₁.release p).bind fun t₂ =>
        t₂.store (t.elem p).next ((Place.slot i).behind before)) = some t' ∧
      Represents hash t' (Function.update chains i (before ++ after))
        (l.setChain i ((before ++ after).map t.entry)) := by
  have hp : p ∈ chains i := by rw [hchain]; simp
  obtain ⟨hlive, hkeyLive⟩ := hr.live i p hp
  have hnodup := hr.nodup i
  have hlinked := hr.linked i hi
  rw [hchain] at hnodup hlinked
  obtain ⟨heap, hfreed, hheapLive⟩ := release_both hlive hkeyLive (hr.apart i i p hp p hp)
  have hnot : ∀ b ∈ before, b ≠ p ∧ b ∉ after := by
    intro b hb
    have hdisjoint := (List.nodup_append.mp hnodup).2.2 b hb
    exact ⟨hdisjoint p List.mem_cons_self, fun hmem =>
      hdisjoint b (List.mem_cons_of_mem _ hmem) rfl⟩
  have hsub : (before ++ after).Sublist (chains i) := by
    rw [hchain]
    exact (List.Sublist.refl before).append (List.sublist_cons_self p after)
  have hbefore : ∀ b ∈ before, b ∈ chains i := fun b hb =>
    hsub.subset (List.mem_append_left _ hb)
  have hstay : ∀ b ∈ before, heap.live b = true := fun b hb => (hheapLive b).mpr
    ⟨(hr.live i b (hbefore b hb)).1, (hnot b hb).1, hr.apart i i b (hbefore b hb) p hp⟩
  obtain ⟨t', hstore, hheap, hsame, hlinked'⟩ := @store_behind { t with heap }
    (t.elem p).next i (p :: after) chains before after
    (fun j hj => Linked.congr (t := t) (fun _ _ => rfl) (hr.linked j hj)) hi hchain hstay
    (List.nodup_append.mp hnodup).1 (fun b hb j hj => hr.eq_of_mem hj (hbefore b hb))
    (fun b hb => (hnot b hb).2) (Linked.congr (t := t) (fun _ _ => rfl) hlinked.tail)
  refine ⟨t', ?_, hr.shrink hsub ⟨hsame.text, hsame.slotCount, hsame.key, hsame.value⟩ hlinked'
    fun o ho hother => ?_⟩
  · rw [← Option.bind_assoc, hfreed]
    exact hstore
  · have hgone : p ∉ before ++ after := fun hmem => by
      rcases List.mem_append.mp hmem with hb | ha
      · exact (hnot p hb).1 rfl
      · exact (List.nodup_cons.mp (List.nodup_append.mp hnodup).2.1).1 ha
    rw [hheap]
    exact (hheapLive o).mpr ⟨ho, hother p hp hgone⟩

/-- All elements of a chain are freed. -/
theorem truncLoop_eq (hlinked : Linked t cur ps)
    (hlive : ∀ p ∈ ps, t.heap.live p = true ∧ t.heap.live (t.elem p).key = true)
    (hnodup : (ps.map fun p => (t.elem p).key).Nodup)
    (hapart : ∀ p ∈ ps, ∀ q ∈ ps, p ≠ (t.elem q).key) {rounds : Nat}
    (hrounds : ps.length ≤ rounds) :
    ∃ heap : Heap, t.truncLoop rounds cur = some { t with heap } ∧
      ∀ o, t.heap.live o = true → (∀ p ∈ ps, o ≠ p ∧ o ≠ (t.elem p).key) →
        heap.live o = true := by
  induction ps generalizing t cur rounds with
  | nil =>
    refine ⟨t.heap, ?_, fun o ho _ => ho⟩
    rw [show cur = none from hlinked]
    cases rounds <;> rfl
  | cons p ps ih =>
    obtain ⟨rounds, rfl⟩ := Nat.exists_eq_succ_of_ne_zero (Nat.ne_zero_of_lt hrounds)
    obtain ⟨rfl, hrest⟩ := hlinked
    obtain ⟨hp, hpkey⟩ := hlive p List.mem_cons_self
    obtain ⟨hkeys, hnodup'⟩ := List.nodup_cons.mp hnodup
    obtain ⟨heap, hfreed, hheapLive⟩ := release_both hp hpkey
      (hapart p List.mem_cons_self p List.mem_cons_self)
    have hround : t.truncLoop (rounds + 1) (some p) =
        Table.truncLoop { t with heap } rounds (t.elem p).next := by
      obtain ⟨t₁, hkeyFree, hfree⟩ := Option.bind_eq_some_iff.mp hfreed
      rw [Table.truncLoop, Table.read_of_live hp]
      simp only [Option.bind_eq_bind, Option.bind_some, hkeyFree, hfree]
    have hstay : ∀ q ∈ ps, heap.live q = true ∧ heap.live (t.elem q).key = true := by
      intro q hq
      have hq' : q ∈ p :: ps := List.mem_cons_of_mem _ hq
      have hkeyNe : (t.elem q).key ≠ (t.elem p).key := fun heq =>
        hkeys (List.mem_map.mpr ⟨q, hq, heq⟩)
      refine ⟨(hheapLive _).mpr ⟨(hlive q hq').1, ?_, ?_⟩,
        (hheapLive _).mpr ⟨(hlive q hq').2, ?_, hkeyNe⟩⟩
      · rintro rfl
        exact hkeyNe rfl
      · exact hapart q hq' p List.mem_cons_self
      · exact (hapart p List.mem_cons_self q hq').symm
    obtain ⟨heap', hloop, hheap'⟩ := @ih { t with heap } (t.elem p).next
      (Linked.congr (t := t) (fun _ _ => rfl) hrest) hstay hnodup'
      (fun q hq r hr => hapart q (List.mem_cons_of_mem _ hq) r (List.mem_cons_of_mem _ hr))
      rounds (Nat.le_of_succ_le_succ hrounds)
    refine ⟨heap', hround.trans hloop, fun o ho hother => hheap' o ?_ fun q hq =>
      hother q (List.mem_cons_of_mem _ hq)⟩
    exact (hheapLive o).mpr ⟨ho, hother p List.mem_cons_self⟩

/-- A chain is emptied. -/
theorem Represents.truncSlot (hr : Represents hash t chains l) (hi : i < t.slotCount) :
    ∃ t', ((t.load (.slot i)).bind fun cur => (t.truncLoop t.rounds cur).bind fun t₁ =>
        t₁.store none (.slot i)) = some t' ∧ t'.slotCount = t.slotCount ∧
      Represents hash t' (Function.update chains i []) (l.setChain i []) := by
  have hkeys : ((chains i).map fun p => (t.elem p).key).Nodup := by
    have hdistinct := hr.wellFormed.distinct i
    rw [hr.entries, List.map_map] at hdistinct
    refine List.Nodup.of_map t.text ?_
    rw [List.map_map]
    exact hdistinct
  obtain ⟨heap, hloop, hheapLive⟩ := truncLoop_eq (hr.linked i hi) (hr.live i) hkeys
    (hr.apart i i) (Nat.le_of_lt (hr.length_lt i))
  obtain ⟨t', hstore, hheap, hsame, hlinked'⟩ := @store_behind { t with heap } none i
    (chains i) chains [] []
    (fun j hj => Linked.congr (t := t) (fun _ _ => rfl) (hr.linked j hj)) hi rfl
    (fun b hb => absurd hb List.not_mem_nil) List.nodup_nil
    (fun b hb => absurd hb List.not_mem_nil) (fun b hb => absurd hb List.not_mem_nil) rfl
  have hload : t.load (.slot i) = some (t.elements i) := if_pos hi
  refine ⟨t', ?_, hsame.slotCount, hr.shrink (List.nil_sublist _)
    ⟨hsame.text, hsame.slotCount, hsame.key, hsame.value⟩ hlinked' fun o ho hother => ?_⟩
  · rw [hload, Option.bind_some, hloop]
    exact hstore
  · rw [hheap]
    exact hheapLive o ho fun p hp => hother p hp List.not_mem_nil

/-- These chains are emptied. -/
theorem Represents.truncSlots (slots : List Nat) (hr : Represents hash t chains l)
    (hslots : ∀ i ∈ slots, i < t.slotCount) :
    ∃ t' chains' l', t.truncSlots slots = some t' ∧ Represents hash t' chains' l' ∧
      ∀ i, l'.elements i = if i ∈ slots then [] else l.elements i := by
  induction slots generalizing t chains l with
  | nil => exact ⟨t, chains, l, rfl, hr, fun i => (if_neg List.not_mem_nil).symm⟩
  | cons i slots ih =>
    obtain ⟨t₁, hslot, hcount, hr₁⟩ := hr.truncSlot (hslots i List.mem_cons_self)
    obtain ⟨t', chains', l', hrest, hr', helements⟩ := ih hr₁ fun j hj => by
      rw [hcount]
      exact hslots j (List.mem_cons_of_mem _ hj)
    refine ⟨t', chains', l', ?_, hr', fun j => ?_⟩
    · obtain ⟨cur, hload, hslot⟩ := Option.bind_eq_some_iff.mp hslot
      obtain ⟨t₀, hloop, hstore⟩ := Option.bind_eq_some_iff.mp hslot
      rw [Table.truncSlots]
      simp only [Option.bind_eq_bind, hload, hloop, hstore, Option.bind_some]
      exact hrest
    · rw [helements]
      by_cases hj : j ∈ slots
      · rw [if_pos hj, if_pos (List.mem_cons_of_mem _ hj)]
      · rw [if_neg hj]
        by_cases hji : j = i
        · rw [hji, Htab.elements_setChain_self, if_pos List.mem_cons_self]
        · rw [Htab.elements_setChain_of_ne hji, if_neg (by simp [hji, hj])]

/-! ## What the functions do -/

theorem hashOf_eq (hash : List Char → Nat) (hkey : t.heap.live key = true) :
    t.hashOf hash key = some (hash (t.text key) % 2 ^ 16) := by
  rw [Table.hashOf, Table.readText_of_live hkey]
  rfl

namespace Represents

theorem htabGetPair_eq (hr : Represents hash t chains l) (hkey : t.heap.live key = true) :
    t.htabGetPair hash key = some none ∧ l.htabGet hash (t.text key) = none ∨
      ∃ p, t.htabGetPair hash key = some (some p) ∧ (t.entry p).key = t.text key ∧
        l.htabGet hash (t.text key) = some (t.entry p).value := by
  rw [Table.htabGetPair, hashOf_eq hash hkey, Htab.htabGet]
  simp only [Option.bind_eq_bind, Option.bind_some, Table.htabGetKnownPair, hr.hashOf_mod]
  rcases hr.found_cases hkey with ⟨hloop, hnone⟩ | ⟨before, p, after, -, hloop, hload, -, hp, hget⟩
  · rw [hloop, hnone]
    exact .inl ⟨rfl, rfl⟩
  · rw [hloop, hget]
    exact .inr ⟨p, hload, hp, rfl⟩

theorem htabGet_eq (hr : Represents hash t chains l) (hkey : t.heap.live key = true) :
    t.htabGet hash key = some (l.htabGet hash (t.text key)).join := by
  rw [Table.htabGet, hashOf_eq hash hkey, Htab.htabGet]
  simp only [Option.bind_eq_bind, Option.bind_some, Table.htabGetKnown, hr.hashOf_mod]
  rcases hr.found_cases hkey with
    ⟨hloop, hnone⟩ | ⟨before, p, after, hchain, hloop, hload, -, -, hget⟩
  · rw [hloop, hnone]
    rfl
  · have hp : p ∈ chains (l.slot hash (t.text key)) := by rw [hchain]; simp
    rw [hloop, hget]
    simp only [Option.bind_some, hload, Table.read_of_live (hr.live _ p hp).1]
    rfl

/-- `htab_add` appends an entry, unless there is one. -/
theorem htabAdd_eq (hr : Represents hash t chains l) (hkey : t.heap.live key = true)
    (valptr : Option Nat) :
    t.htabAdd hash key valptr = some (none, t) ∧ l.htabGet hash (t.text key) ≠ none ∧
        (l.htabAdd hash (t.text key) valptr).2 = l ∨
      l.htabGet hash (t.text key) = none ∧
        ∃ t' p chains', t.htabAdd hash key valptr = some (some p, t') ∧
          t'.entry p = ⟨t.text key, valptr⟩ ∧
          Represents hash t' chains' (l.htabAdd hash (t.text key) valptr).2 := by
  have hwf : (l.htabAdd hash (t.text key) valptr).2.WellFormed hash := hr.wellFormed.htabAdd
  rw [Table.htabAdd, hashOf_eq hash hkey, Htab.htabGet]
  rw [Htab.htabAdd] at hwf ⊢
  simp only [Option.bind_eq_bind, Option.bind_some, Table.htabAddKnown, hr.hashOf_mod]
  rcases hr.found_cases hkey with ⟨hloop, hnone⟩ | ⟨before, p, after, -, hloop, -, -, -, hget⟩
  · right
    rw [hnone] at hwf
    rw [hloop, hnone]
    simp only [Option.bind_some, Table.readText_of_live hkey]
    obtain ⟨t', hstore, hentry, hr'⟩ := hr.append (hr.slot_lt _) hwf
    refine ⟨rfl, t', t.heap.next, _, ?_, hentry, hr'⟩
    obtain ⟨curElem, hlast, hstore⟩ := Option.bind_eq_some_iff.mp hstore
    rw [hlast, Option.bind_some, hstore]
    rfl
  · left
    rw [hloop, hget]
    exact ⟨rfl, Option.some_ne_none _, rfl⟩

/-- `htab_remove` takes the entry out. -/
theorem htabRemove_eq (hr : Represents hash t chains l) (hkey : t.heap.live key = true) :
    ∃ t' chains', t.htabRemove hash key = some ((l.htabGet hash (t.text key)).join, t') ∧
      Represents hash t' chains' (l.htabRemove hash (t.text key)).2 := by
  rw [Table.htabRemove, hashOf_eq hash hkey, Htab.htabGet, Htab.htabRemove]
  simp only [Option.bind_eq_bind, Option.bind_some, Table.htabRemoveKnown, hr.hashOf_mod]
  rcases hr.found_cases hkey with
    ⟨hloop, hnone⟩ | ⟨before, p, after, hchain, hloop, hload, hbefore, hpkey, hget⟩
  · rw [hloop, hnone]
    exact ⟨t, chains, rfl, hr⟩
  · have hp : p ∈ chains (l.slot hash (t.text key)) := by rw [hchain]; simp
    obtain ⟨t', hunlink, hr'⟩ := hr.unlink (hr.slot_lt (t.text key)) hchain
    have herase : (l.elements (l.slot hash (t.text key))).eraseP (fun e => e.key = t.text key) =
        (before ++ after).map t.entry := by
      rw [hr.entries, hchain, List.map_append, List.eraseP_append_right, List.map_cons,
        List.eraseP_cons_of_pos (by simpa using hpkey), List.map_append]
      intro e he
      obtain ⟨q, hq, rfl⟩ := List.mem_map.mp he
      simpa using hbefore q hq
    rw [hloop, hget]
    simp only [Option.bind_some, hload, Table.read_of_live (hr.live _ p hp).1]
    refine ⟨t', _, ?_, herase ▸ hr'⟩
    obtain ⟨t₁, hkeyFree, hunlink⟩ := Option.bind_eq_some_iff.mp hunlink
    obtain ⟨t₂, hfree, hstore⟩ := Option.bind_eq_some_iff.mp hunlink
    rw [hkeyFree, Option.bind_some, hfree, Option.bind_some, hstore]
    rfl

/-- `htab_trunc` leaves nothing. -/
theorem htabTrunc_eq (hr : Represents hash t chains l) :
    ∃ t' chains' l', t.htabTrunc = some t' ∧ Represents hash t' chains' l' ∧
      ∀ text, l'.htabGet hash text = none := by
  obtain ⟨t', chains', l', htrunc, hr', helements⟩ :=
    hr.truncSlots (List.range t.slotCount) fun i hi => List.mem_range.mp hi
  refine ⟨t', chains', l', htrunc, hr', fun text => ?_⟩
  have hempty : l'.elements (l'.slot hash text) = [] := by
    rw [helements]
    split
    · rfl
    · rename_i hnot
      refine List.eq_nil_iff_forall_not_mem.mpr fun e he => hnot ?_
      rw [hr.entries] at he
      obtain ⟨p, hp, -⟩ := List.mem_map.mp he
      exact List.mem_range.mpr (hr.lt_of_mem hp)
  rw [Htab.htabGet, Htab.getElist, hempty]
  rfl

end Represents

/-! ## Runs -/

/-- A map from strings to pointers. -/
abbrev Map := List Char → Option (Option Nat)

/-- The map behind a call, whose key says what `text` says. -/
def Call.onMap (text : Nat → List Char) (m : Map) : Call → Map
  | .add key valptr =>
    if m (text key) = none then Function.update m (text key) (some valptr) else m
  | .remove key => Function.update m (text key) none
  | .trunc => fun _ => none
  | .get _ | .getPair _ => m

/-- The answer is that of the map, where the call makes `t'` of `t`. -/
def Call.Answered (t t' : Table) (m : Map) : Call → Answer → Prop
  | .add key valptr, .elem p =>
    (m (t.text key) ≠ none → p = none ∧ t' = t) ∧
      (m (t.text key) = none → ∃ q, p = some q ∧ t'.entry q = ⟨t.text key, valptr⟩)
  | .get key, .value v => v = (m (t.text key)).join
  | .getPair key, .elem p =>
    (m (t.text key) = none → p = none) ∧
      ∀ v, m (t.text key) = some v → ∃ q, p = some q ∧ t.entry q = ⟨t.text key, v⟩
  | .remove key, .value v => v = (m (t.text key)).join
  | .trunc, .void => True
  | _, _ => False

/-- An element of a chain, or its key. -/
def Table.Owns (t : Table) (o : Nat) : Prop :=
  ∃ i < t.slotCount, ∃ ps, Linked t (t.elements i) ps ∧ ∃ p ∈ ps, o = p ∨ o = (t.elem p).key

/-- What happens elsewhere in memory. -/
structure Outside (t t' : Table) : Prop where
  slotCount : t'.slotCount = t.slotCount
  elements : ∀ i < t.slotCount, t'.elements i = t.elements i
  live : ∀ o, t.Owns o → t'.heap.live o = t.heap.live o
  text : ∀ o, t.Owns o → t'.text o = t.text o
  elem : ∀ o, t.Owns o → t'.elem o = t.elem o

/-- A table is initialized, calls are made with keys that can be read, and elsewhere in
memory anything happens in between; `m` is the map behind the calls. -/
inductive Run (hash : List Char → Nat) : Table → Map → Prop
  | init (t : Table) {slotCount : Nat} (hslots : 0 < slotCount) :
    Run hash (t.htabInit slotCount) fun _ => none
  | call {t t' : Table} {m : Map} {c : Call} {a : Answer} (hrun : Run hash t m)
    (hkey : ∀ key ∈ c.key?, t.heap.live key = true) (hcall : c.run hash t = some (a, t')) :
    Run hash t' (c.onMap t.text m)
  | outside {t t' : Table} {m : Map} (hrun : Run hash t m) (houtside : Outside t t') :
    Run hash t' m

/-- The chains hold the map: no key is in them twice, and each is in the chain of its slot. -/
structure Holds (hash : List Char → Nat) (t : Table) (m : Map) (chains : Nat → List Nat) :
    Prop where
  linked : ∀ i < t.slotCount, Linked t (t.elements i) (chains i)
  once : (((List.range t.slotCount).flatMap chains).map fun p => (t.entry p).key).Nodup
  placed : ∀ i < t.slotCount, ∀ p ∈ chains i,
    hash (t.entry p).key % 2 ^ 16 % t.slotCount = i
  entries : ∀ text v, m text = some v ↔
    ∃ i < t.slotCount, ∃ p ∈ chains i, t.entry p = ⟨text, v⟩

/-- The table is the map `m`, and every call answers as the map does. -/
structure Behaves (hash : List Char → Nat) (t : Table) (m : Map) : Prop where
  holds : ∃ chains, Holds hash t m chains
  answers : ∀ c : Call, (∀ key ∈ c.key?, t.heap.live key = true) →
    ∃ a t', c.run hash t = some (a, t') ∧ c.Answered t t' m a

variable {m : Map}

theorem represents_init (t : Table) {slotCount : Nat} (hslots : 0 < slotCount) :
    Represents hash (t.htabInit slotCount) (fun _ => []) (Htab.htabInit slotCount) where
  slotCount := rfl
  linked _ hi := if_pos hi
  entries _ := rfl
  live _ _ hp := absurd hp List.not_mem_nil
  apart _ _ _ hp := absurd hp List.not_mem_nil
  wellFormed := Htab.wellFormed_htabInit hslots

theorem Represents.outside (hr : Represents hash t chains l) (houtside : Outside t t') :
    Represents hash t' chains l := by
  have howns : ∀ {i p}, p ∈ chains i → t.Owns p ∧ t.Owns (t.elem p).key := fun {i p} hp =>
    ⟨⟨i, hr.lt_of_mem hp, _, hr.linked i (hr.lt_of_mem hp), p, hp, .inl rfl⟩,
      ⟨i, hr.lt_of_mem hp, _, hr.linked i (hr.lt_of_mem hp), p, hp, .inr rfl⟩⟩
  have helem : ∀ {i p}, p ∈ chains i → t'.elem p = t.elem p := fun hp =>
    houtside.elem _ (howns hp).1
  refine ⟨hr.slotCount.trans houtside.slotCount.symm, fun i hi => ?_, fun i => ?_,
    fun i p hp => ?_, fun i j p hp q hq => ?_, hr.wellFormed⟩
  · rw [houtside.slotCount] at hi
    rw [houtside.elements i hi]
    exact (hr.linked i hi).congr fun p hp => by rw [helem hp]
  · rw [hr.entries]
    refine List.map_congr_left fun p hp => ?_
    rw [Table.entry, Table.entry, helem hp, houtside.text _ (howns hp).2]
  · rw [helem hp, houtside.live _ (howns hp).1, houtside.live _ (howns hp).2]
    exact hr.live i p hp
  · rw [helem hq]
    exact hr.apart i j p hp q hq

theorem onMap_add (hm : ∀ text, l.htabGet hash text = m text) (texts : Nat → List Char)
    (key : Nat) (valptr : Option Nat) (text : List Char) :
    (l.htabAdd hash (texts key) valptr).2.htabGet hash text =
      (Call.add key valptr).onMap texts m text := by
  rw [Htab.htabGet_htabAdd, hm, hm, Call.onMap]
  by_cases hnone : m (texts key) = none
  · rw [if_pos hnone, Function.update_apply, hnone]
    rfl
  · obtain ⟨v, hv⟩ := Option.ne_none_iff_exists'.mp hnone
    rw [if_neg hnone]
    by_cases htext : text = texts key
    · rw [if_pos htext, htext, hv]
      rfl
    · rw [if_neg htext]

/-- A call moves the table, the lists and the map alike. -/
theorem Represents.call (hr : Represents hash t chains l)
    (hm : ∀ text, l.htabGet hash text = m text) {c : Call}
    (hkey : ∀ key ∈ c.key?, t.heap.live key = true) :
    ∃ a t' chains' l', c.run hash t = some (a, t') ∧ Represents hash t' chains' l' ∧
      (∀ text, l'.htabGet hash text = c.onMap t.text m text) ∧ c.Answered t t' m a := by
  cases c with
  | add key valptr =>
    have hmap := onMap_add hm t.text key valptr
    rcases hr.htabAdd_eq (hkey key rfl) valptr with
      ⟨hadd, hknown, hsame⟩ | ⟨hnew, t', p, chains', hadd, hentry, hr'⟩
    · refine ⟨.elem none, t, chains, l, ?_, hr, hsame ▸ hmap, fun _ => ⟨rfl, rfl⟩, fun hnone => ?_⟩
      · rw [Call.run, hadd]
        rfl
      · exact absurd ((hm _).trans hnone) hknown
    · refine ⟨.elem (some p), t', chains', _, ?_, hr', hmap, fun hsome => ?_,
        fun _ => ⟨p, rfl, hentry⟩⟩
      · rw [Call.run, hadd]
        rfl
      · exact absurd ((hm _).symm.trans hnew) hsome
  | get key =>
    refine ⟨.value (m (t.text key)).join, t, chains, l, ?_, hr, hm, rfl⟩
    rw [Call.run, hr.htabGet_eq (hkey key rfl), hm]
    rfl
  | getPair key =>
    rcases hr.htabGetPair_eq (hkey key rfl) with ⟨hget, hnone⟩ | ⟨p, hget, hpkey, hsome⟩
    · rw [hm] at hnone
      refine ⟨.elem none, t, chains, l, ?_, hr, hm, fun _ => rfl, fun v hv => ?_⟩
      · rw [Call.run, hget]
        rfl
      · rw [hnone] at hv
        cases hv
    · rw [hm] at hsome
      refine ⟨.elem (some p), t, chains, l, ?_, hr, hm, fun hnone => ?_, fun v hv => ?_⟩
      · rw [Call.run, hget]
        rfl
      · rw [hnone] at hsome
        cases hsome
      · rw [hsome] at hv
        refine ⟨p, rfl, ?_⟩
        rw [← hpkey, ← Option.some.inj hv]
  | remove key =>
    obtain ⟨t', chains', hremove, hr'⟩ := hr.htabRemove_eq (hkey key rfl)
    refine ⟨.value (m (t.text key)).join, t', chains', _, ?_, hr', fun text => ?_, rfl⟩
    · rw [Call.run, hremove, hm]
      rfl
    · rw [hr.wellFormed.htabGet_htabRemove, hm, Call.onMap, Function.update_apply]
  | trunc =>
    obtain ⟨t', chains', l', htrunc, hr', hempty⟩ := hr.htabTrunc_eq
    refine ⟨.void, t', chains', l', ?_, hr', hempty, trivial⟩
    rw [Call.run, htrunc]
    rfl

/-- In every run, the lists are those of the map. -/
theorem Run.represents (hrun : Run hash t m) :
    ∃ chains l, Represents hash t chains l ∧ ∀ text, l.htabGet hash text = m text := by
  induction hrun with
  | init t hslots => exact ⟨_, _, represents_init t hslots, fun _ => rfl⟩
  | call hrun hkey hcall ih =>
    obtain ⟨chains, l, hr, hm⟩ := ih
    obtain ⟨a, t', chains', l', hcall', hr', hm', -⟩ := hr.call hm hkey
    obtain ⟨-, rfl⟩ := Prod.mk.inj (Option.some.inj (hcall.symm.trans hcall'))
    exact ⟨chains', l', hr', hm'⟩
  | outside hrun houtside ih =>
    obtain ⟨chains, l, hr, hm⟩ := ih
    exact ⟨chains, l, hr.outside houtside, hm⟩

theorem Represents.holds (hr : Represents hash t chains l)
    (hm : ∀ text, l.htabGet hash text = m text) : Holds hash t m chains where
  linked := hr.linked
  once := by
    have hnodup := hr.wellFormed.nodup_keys
    rw [Htab.entries, funext hr.entries, hr.slotCount, ← List.map_flatMap, List.map_map]
      at hnodup
    exact hnodup
  placed i _ p hp := (hr.hashOf_mod _).trans (hr.slot_of_mem hp)
  entries text v := by
    rw [← hm, hr.wellFormed.htabGet_iff, hr.wellFormed.mem_entries, hr.entries, List.mem_map]
    constructor
    · rintro ⟨p, hp, hentry⟩
      exact ⟨_, hr.slot_lt text, p, hp, hentry⟩
    · rintro ⟨i, -, p, hp, hentry⟩
      refine ⟨p, ?_, hentry⟩
      have hslot := hr.slot_of_mem hp
      rw [hentry] at hslot
      exact hslot ▸ hp

/-- The hash table is a map. -/
theorem Run.behaves (hrun : Run hash t m) : Behaves hash t m := by
  obtain ⟨chains, l, hr, hm⟩ := hrun.represents
  refine ⟨⟨chains, hr.holds hm⟩, fun c hkey => ?_⟩
  obtain ⟨a, t', -, -, hcall, -, -, hanswered⟩ := hr.call hm hkey
  exact ⟨a, t', hcall, hanswered⟩

/-- A memory with three strings. -/
def threeStrings : Table where
  heap := ⟨3, fun a => a < 3, false, by simp⟩
  text a := if a = 0 then ['a'] else if a = 1 then ['b'] else ['c']
  elem _ := ⟨0, none, none⟩
  slotCount := 0
  elements _ := none

/-- Three keys in one slot, of which the one in the middle of the chain is removed. -/
theorem Run.behaves_threeStrings : ∃ t₁ t₂ t₃ t₄ m,
    Call.run (fun _ => 0) (threeStrings.htabInit 1) (.add 0 (some 10)) =
        some (.elem (some 3), t₁) ∧
      Call.run (fun _ => 0) t₁ (.add 1 (some 11)) = some (.elem (some 5), t₂) ∧
      Call.run (fun _ => 0) t₂ (.add 2 (some 12)) = some (.elem (some 7), t₃) ∧
      Call.run (fun _ => 0) t₃ (.remove 1) = some (.value (some 11), t₄) ∧
      Behaves (fun _ => 0) t₄ m ∧
      m ['a'] = some (some 10) ∧ m ['b'] = none ∧ m ['c'] = some (some 12) := by
  have hinit : Run (fun _ => 0) (threeStrings.htabInit 1) fun _ => none :=
    .init threeStrings Nat.one_pos
  have hadd := @Run.call _ _ _ _ (.add 0 (some 10)) _ hinit
    (fun _ hkey => Option.some.inj hkey ▸ rfl) rfl
  have hadd' := @Run.call _ _ _ _ (.add 1 (some 11)) _ hadd
    (fun _ hkey => Option.some.inj hkey ▸ rfl) rfl
  have hadd'' := @Run.call _ _ _ _ (.add 2 (some 12)) _ hadd'
    (fun _ hkey => Option.some.inj hkey ▸ rfl) rfl
  have hremove := @Run.call _ _ _ _ (.remove 1) _ hadd''
    (fun _ hkey => Option.some.inj hkey ▸ rfl) rfl
  exact ⟨_, _, _, _, _, rfl, rfl, rfl, rfl, hremove.behaves, rfl, rfl, rfl⟩

end Upcn.HtabChains
