import Mathlib.Data.List.Basic
import Mathlib.Data.List.Forall2
import Mathlib.Data.List.Perm.Basic
import Upcn.Node.Difference

/-!
# The union of two contact lists

The inner loop splits the second list by the start time of the slot: the contacts before
it are inserted, the one that begins with it is merged and freed, and the others stay for
the next slot.
-/

namespace Upcn.NodeLists

variable {str : EidPtr → Eid} {mem : Memory}

/-! ## Endpoints -/

theorem mem_endpointListAdd (list : List EidPtr) (eid : EidPtr) (s : Eid) :
    s ∈ (endpointListAdd str mem list eid).map str ↔
      s ∈ list.map str ∨ mem.endpoint eid = true ∧ str eid = s := by
  rw [endpointListAdd]
  by_cases hany : list.any (fun cur => cur = eid || str cur = str eid) = true
  · rw [if_pos hany]
    have hmem : str eid ∈ list.map str := by
      obtain ⟨cur, hcur, heq⟩ := List.any_eq_true.mp hany
      simp only [Bool.or_eq_true, decide_eq_true_eq] at heq
      rcases heq with rfl | heq
      · exact List.mem_map_of_mem hcur
      · exact heq ▸ List.mem_map_of_mem hcur
    constructor
    · exact .inl
    · rintro (hs | ⟨-, rfl⟩)
      · exact hs
      · exact hmem
  · rw [if_neg hany]
    by_cases hmem : mem.endpoint eid = true
    · rw [if_pos hmem, List.map_append, List.map_cons, List.mem_append, List.mem_cons,
        or_left_comm, ← List.mem_append, ← List.map_append, List.takeWhile_append_dropWhile]
      simp only [hmem, true_and, eq_comm, or_comm]
    · rw [if_neg hmem]
      simp [hmem]

/-- The EIDs of the first list, and those of the second that there was memory for. -/
theorem mem_endpointListUnion (a b : List EidPtr) (s : Eid) :
    s ∈ (endpointListUnion str mem a b).map str ↔
      s ∈ a.map str ∨ ∃ eid ∈ b, mem.endpoint eid = true ∧ str eid = s := by
  induction b generalizing a with
  | nil => simp [endpointListUnion]
  | cons eid b ih =>
    rw [endpointListUnion, List.foldl_cons, ← endpointListUnion, ih, mem_endpointListAdd, or_assoc]
    simp only [List.mem_cons, exists_eq_or_imp]

theorem endpointListAdd_nodup {list : List EidPtr} (eid : EidPtr) (h : (list.map str).Nodup) :
    ((endpointListAdd str mem list eid).map str).Nodup := by
  rw [endpointListAdd]
  by_cases hany : list.any (fun cur => cur = eid || str cur = str eid) = true
  · rw [if_pos hany]
    exact h
  · rw [if_neg hany]
    split
    · have hperm : (list.takeWhile (· ≤ eid) ++ eid :: list.dropWhile (· ≤ eid)).Perm
          (eid :: list) := by
        have hsplit := List.takeWhile_append_dropWhile (p := (· ≤ eid)) (l := list)
        exact List.perm_middle.trans (by rw [hsplit])
      refine (hperm.map str).nodup_iff.mpr (List.nodup_cons.mpr ⟨fun hmem => ?_, h⟩)
      obtain ⟨cur, hcur, heq⟩ := List.mem_map.mp hmem
      exact hany (List.any_eq_true.mpr ⟨cur, hcur, by simp [heq]⟩)
    · exact h

theorem endpointListUnion_nodup {a : List EidPtr} (b : List EidPtr) (h : (a.map str).Nodup) :
    ((endpointListUnion str mem a b).map str).Nodup := by
  induction b generalizing a with
  | nil => exact h
  | cons eid b ih => exact ih (endpointListAdd_nodup eid h)

/-! ## Merging -/

/-- `c` is `old` merged with `new`. -/
structure Merged (str : EidPtr → Eid) (mem : Memory) (old new c : Contact) : Prop where
  eids : ∀ eid, eid ∈ c.contactEndpoints.map str ↔ eid ∈ old.contactEndpoints.map str ∨
    ∃ ptr ∈ new.contactEndpoints, mem.endpoint ptr = true ∧ str ptr = eid
  once : (old.contactEndpoints.map str).Nodup → (c.contactEndpoints.map str).Nodup
  same : old.bitrate = new.bitrate → c = { old with contactEndpoints := c.contactEndpoints }
  bitrate : old.bitrate ≠ new.bitrate → c = recalculateContactCapacity
    { old with contactEndpoints := c.contactEndpoints, bitrate := new.bitrate }

theorem mergeContacts_fst (old new : Contact) :
    (mergeContacts str mem old new).1 = true ↔ old.bitrate ≠ new.bitrate := by
  by_cases h : old.bitrate = new.bitrate <;> simp [mergeContacts, h]

theorem mergeContacts_merged (old new : Contact) :
    Merged str mem old new (mergeContacts str mem old new).2 := by
  have hendpoints : (mergeContacts str mem old new).2.contactEndpoints =
      endpointListUnion str mem old.contactEndpoints new.contactEndpoints := by
    by_cases h : old.bitrate = new.bitrate <;>
      simp [mergeContacts, recalculateContactCapacity, h]
  constructor
  · intro eid
    rw [hendpoints, mem_endpointListUnion]
  · intro hold
    rw [hendpoints]
    exact endpointListUnion_nodup _ hold
  · intro h
    rw [hendpoints]
    simp [mergeContacts, h]
  · intro h
    rw [hendpoints]
    simp [mergeContacts, h]

/-! ## What the loops make of the first list -/

/-- What becomes of `x`. -/
def kept (str : EidPtr → Eid) (mem : Memory) (b : List Entry) (x : Entry) : Entry :=
  match partner b x with
  | none => x
  | some y => { x with data := (mergeContacts str mem x.data y.data).2 }

/-- The bitrate of `x` changes. -/
def changes (b : List Entry) (x : Entry) : Bool :=
  (partner b x).any fun y => x.data.bitrate ≠ y.data.bitrate

@[simp] theorem kept_fromTime (b : List Entry) (x : Entry) :
    (kept str mem b x).data.fromTime = x.data.fromTime := by
  rw [kept]
  split
  · rfl
  · next y _ =>
    by_cases h : x.data.bitrate = y.data.bitrate <;>
      simp [mergeContacts, recalculateContactCapacity, h]

/-- The contacts of a list that begin later than a slot are the only ones that can be
merged with a contact that does. -/
theorem partner_filter {slot x : Entry} (b : List Entry)
    (h : slot.data.fromTime < x.data.fromTime) :
    partner (b.filter fun y => slot.data.fromTime < y.data.fromTime) x = partner b x := by
  rw [partner, List.find?_filter]
  refine congrArg (List.find? · b) (funext fun y => ?_)
  by_cases hsame : x.SameTime y
  · have hlater : slot.data.fromTime < y.data.fromTime := hsame.1 ▸ h
    simp [hsame, hlater]
  · simp [hsame]

/-- `add_to_modified_list`, if the bitrate of the slot changes. -/
def markModified (mem : Memory) (b : List Entry) (slot : Entry)
    (modf : Option (List ContactPtr)) : Option (List ContactPtr) :=
  if changes b slot then addToModifiedList mem slot.ptr modf else modf

section

variable {slot can : Entry} {rest b : List Entry} {modf : Option (List ContactPtr)}

/-- The contact that begins with the slot. -/
theorem mergeInto_eq (hfrom : can.data.fromTime = slot.data.fromTime)
    (hb : ∀ y ∈ b, slot.data.fromTime < y.data.fromTime) :
    mergeInto str mem slot can modf =
      (kept str mem (can :: b) slot, markModified mem (can :: b) slot modf) := by
  by_cases hto : can.data.toTime = slot.data.toTime
  · have hpartner := partner_cons_self (b := b) (show slot.SameTime can from ⟨hfrom, hto⟩)
    have hmodified : (mergeContacts str mem slot.data can.data).1 = changes (can :: b) slot := by
      rw [Bool.eq_iff_iff, mergeContacts_fst, changes, hpartner]
      simp
    rw [mergeInto, if_pos hto, kept, hpartner, markModified, ← hmodified]
  · have hnot : ¬ slot.SameTime can := fun hsame => hto hsame.2
    have hpartner : partner (can :: b) slot = none :=
      (partner_cons_of_not hnot).trans (partner_eq_none hb)
    rw [mergeInto, if_neg hto, kept, hpartner, markModified, changes, hpartner]
    rfl

theorem unionBefore_later (hb : ∀ y ∈ b, slot.data.fromTime < y.data.fromTime) :
    unionBefore str mem b slot modf = some ⟨[], slot, b, modf, []⟩ := by
  cases b with
  | nil => rfl
  | cons can b => rw [unionBefore, if_neg (Nat.not_le.mpr (hb can List.mem_cons_self))]

/-- The second list is not split if it begins later. -/
theorem filter_of_later (hb : ∀ y ∈ b, slot.data.fromTime < y.data.fromTime) :
    b.filter (fun y => y.data.fromTime < slot.data.fromTime) = [] ∧
      b.filter (fun y => y.data.fromTime = slot.data.fromTime) = [] ∧
        b.filter (fun y => slot.data.fromTime < y.data.fromTime) = b :=
  ⟨List.filter_eq_nil_iff.mpr fun y hy => by simpa using Nat.le_of_lt (hb y hy),
    List.filter_eq_nil_iff.mpr fun y hy => by simpa using Nat.ne_of_gt (hb y hy),
    List.filter_eq_self.mpr fun y hy => by simpa using hb y hy⟩

/-- The inner loop. -/
theorem unionBefore_eq (hb : Starts b)
    (hactive : ∀ y ∈ b, y.data.fromTime = slot.data.fromTime → y.data.active = false) :
    unionBefore str mem b slot modf = some {
      inserted := b.filter fun y => y.data.fromTime < slot.data.fromTime
      slot := kept str mem b slot
      left := b.filter fun y => slot.data.fromTime < y.data.fromTime
      modf := markModified mem b slot modf
      freed := (b.filter fun y => y.data.fromTime = slot.data.fromTime).map Entry.ptr } := by
  induction b with
  | nil => rfl
  | cons can b ih =>
    have hlater : ∀ y ∈ b, can.data.fromTime < y.data.fromTime :=
      fun y hy => List.rel_of_pairwise_cons hb hy
    rcases Nat.lt_trichotomy can.data.fromTime slot.data.fromTime with hlt | heq | hgt
    · have hnot : ¬ slot.SameTime can := fun hsame => by
        have hfrom := hsame.1
        omega
      rw [unionBefore, if_pos (Nat.le_of_lt hlt), if_pos hlt,
        ih hb.of_cons fun y hy => hactive y (List.mem_cons_of_mem can hy)]
      simp only [Option.map_some, kept, markModified, changes, partner_cons_of_not hnot]
      rw [List.filter_cons_of_pos (by simpa using hlt),
        List.filter_cons_of_neg (by simpa using Nat.le_of_lt hlt),
        List.filter_cons_of_neg (by simpa using Nat.ne_of_lt hlt)]
      rfl
    · have hrest : ∀ y ∈ b, slot.data.fromTime < y.data.fromTime := heq ▸ hlater
      obtain ⟨hbefore, hsame, hafter⟩ := filter_of_later hrest
      rw [unionBefore, if_pos (Nat.le_of_eq heq), if_neg (Nat.not_lt.mpr (Nat.le_of_eq heq.symm)),
        mergeInto_eq heq hrest]
      dsimp only
      rw [hactive can List.mem_cons_self heq, if_neg Bool.false_ne_true,
        unionBefore_later (by simpa using hrest), List.filter_cons_of_neg (by simp [heq]),
        List.filter_cons_of_neg (by simp [heq]), List.filter_cons_of_pos (by simpa using heq),
        hbefore, hsame, hafter]
      rfl
    · have hrest : ∀ y ∈ can :: b, slot.data.fromTime < y.data.fromTime :=
        List.forall_mem_cons.mpr ⟨hgt, fun y hy => Nat.lt_trans hgt (hlater y hy)⟩
      have hpartner : partner (can :: b) slot = none := partner_eq_none hrest
      obtain ⟨hbefore, hsame, hafter⟩ := filter_of_later hrest
      rw [unionBefore_later hrest, hbefore, hsame, hafter]
      simp only [kept, markModified, changes, hpartner]
      rfl

end

/-! ## The outer loop -/

/-- No contact of the first list begins with `y`. -/
def Fresh (a : List Entry) (y : Entry) : Prop :=
  ∀ x ∈ a, x.data.fromTime ≠ y.data.fromTime

instance (a : List Entry) (y : Entry) : Decidable (Fresh a y) :=
  inferInstanceAs (Decidable (∀ x ∈ a, _))

theorem filter_or_perm {p q r : Entry → Prop} [DecidablePred p] [DecidablePred q]
    [DecidablePred r] {list : List Entry} (hor : ∀ y ∈ list, r y ↔ p y ∨ q y)
    (hdisjoint : ∀ y ∈ list, q y → ¬ p y) :
    (list.filter (r ·)).Perm (list.filter (p ·) ++ list.filter (q ·)) := by
  have hp : (list.filter (r ·)).filter (p ·) = list.filter (p ·) := by
    rw [List.filter_filter]
    exact List.filter_congr fun y hy => by have := hor y hy; simp; tauto
  have hq : (list.filter (r ·)).filter (fun y => !decide (p y)) = list.filter (q ·) := by
    rw [List.filter_filter]
    exact List.filter_congr fun y hy => by
      have h := hor y hy
      have h' := hdisjoint y hy
      by_cases hpy : p y <;> by_cases hqy : q y <;> simp_all
  rw [← hp, ← hq]
  exact (List.filter_append_perm _ _).symm

/-- What the outer loop leaves. -/
structure Union.Joins (str : EidPtr → Eid) (mem : Memory) (r : Union) (a b : List Entry)
    (modf : Option (List ContactPtr)) : Prop where
  sorted : Starts r.list
  list : r.list.Perm (a.map (kept str mem b) ++ b.filter (Fresh a ·))
  modf : r.modf = modf.map fun list =>
    (((a.filter (changes b)).map Entry.ptr).filter mem.modified).reverse ++ list
  freed : r.freed.Perm ((b.filter fun y => ¬ Fresh a y).map Entry.ptr)

section

variable {slot : Entry} {a b : List Entry} {modf : Option (List ContactPtr)}

theorem joins_nil (hb : Starts b) : Union.Joins str mem ⟨b, modf, []⟩ [] b modf := by
  constructor
  · exact hb
  · rw [List.filter_eq_self.mpr fun y _ => by simp [Fresh]]
    exact List.Perm.refl b
  · cases modf <;> rfl
  · rw [List.filter_eq_nil_iff.mpr fun y _ => by simp [Fresh]]
    exact List.Perm.nil

theorem joins_nil_right (ha : Starts a) : Union.Joins str mem ⟨a, modf, []⟩ a [] modf := by
  constructor
  · exact ha
  · rw [List.filter_nil, List.append_nil]
    have hkept : a.map (kept str mem []) = a := List.map_id a
    rw [hkept]
  · have hchanges : a.filter (changes []) = [] :=
      List.filter_eq_nil_iff.mpr fun _ _ => Bool.false_ne_true
    rw [hchanges]
    cases modf <;> rfl
  · exact List.Perm.nil

theorem markModified_append (list : List Entry) :
    (markModified mem b slot modf).map (fun l =>
        ((list.map Entry.ptr).filter mem.modified).reverse ++ l) =
      modf.map fun l => (((if changes b slot then slot :: list else list).map
        Entry.ptr).filter mem.modified).reverse ++ l := by
  by_cases hchanges : changes b slot = true
  · by_cases hmem : mem.modified slot.ptr = true
    · cases modf <;> simp [markModified, hchanges, addToModifiedList, hmem]
    · cases modf <;> simp [markModified, hchanges, addToModifiedList, hmem]
  · cases modf <;> simp [markModified, hchanges]

theorem fresh_cons (y : Entry) :
    Fresh (slot :: a) y ↔ slot.data.fromTime ≠ y.data.fromTime ∧ Fresh a y :=
  List.forall_mem_cons

theorem fresh_of_le {y : Entry} (ha : Starts (slot :: a))
    (hle : y.data.fromTime ≤ slot.data.fromTime) : Fresh a y := fun _ hx =>
  Nat.ne_of_gt (Nat.lt_of_le_of_lt hle (List.rel_of_pairwise_cons ha hx))

/-- The contacts that no element of the first list begins with. -/
theorem fresh_perm (b : List Entry) (ha : Starts (slot :: a)) :
    (b.filter (Fresh (slot :: a) ·)).Perm
      (b.filter (fun y => y.data.fromTime < slot.data.fromTime) ++
        (b.filter fun y => slot.data.fromTime < y.data.fromTime).filter (Fresh a ·)) := by
  rw [List.filter_filter]
  simp only [← Bool.decide_and]
  refine filter_or_perm (fun y _ => ?_) fun y _ hq hp => Nat.lt_asymm hq.2 hp
  rw [fresh_cons]
  constructor
  · rintro ⟨hne, hfresh⟩
    rcases Nat.lt_or_gt_of_ne hne with hlt | hgt
    · exact .inr ⟨hfresh, hlt⟩
    · exact .inl hgt
  · rintro (hlt | ⟨hfresh, hlt⟩)
    · exact ⟨Nat.ne_of_gt hlt, fresh_of_le ha (Nat.le_of_lt hlt)⟩
    · exact ⟨Nat.ne_of_lt hlt, hfresh⟩

/-- The others. -/
theorem taken_perm (b : List Entry) (ha : Starts (slot :: a)) :
    (b.filter fun y => ¬ Fresh (slot :: a) y).Perm
      (b.filter (fun y => y.data.fromTime = slot.data.fromTime) ++
        (b.filter fun y => slot.data.fromTime < y.data.fromTime).filter fun y => ¬ Fresh a y) := by
  rw [List.filter_filter]
  simp only [← Bool.decide_and]
  refine filter_or_perm (fun y _ => ?_) fun y _ hq hp => Nat.ne_of_gt hq.2 hp
  rw [fresh_cons]
  constructor
  · intro htaken
    by_cases heq : y.data.fromTime = slot.data.fromTime
    · exact .inl heq
    · have hold : ¬ Fresh a y := fun hfresh => htaken ⟨fun h => heq h.symm, hfresh⟩
      have hlt : slot.data.fromTime < y.data.fromTime :=
        Nat.not_le.mp fun hle => hold (fresh_of_le ha hle)
      exact .inr ⟨hold, hlt⟩
  · rintro (heq | ⟨hold, -⟩) ⟨hne, hfresh⟩
    · exact hne heq.symm
    · exact hold hfresh

/-- One round of the outer loop. -/
theorem joins_cons {s : Union} (ha : Starts (slot :: a)) (hb : Starts b)
    (hs : s.Joins str mem a (b.filter fun y => slot.data.fromTime < y.data.fromTime)
      (markModified mem b slot modf)) :
    Union.Joins str mem
      ⟨b.filter (fun y => y.data.fromTime < slot.data.fromTime) ++ kept str mem b slot :: s.list,
        s.modf, (b.filter fun y => y.data.fromTime = slot.data.fromTime).map Entry.ptr ++ s.freed⟩
      (slot :: a) b modf := by
  have hlater : ∀ x ∈ a, slot.data.fromTime < x.data.fromTime :=
    fun x hx => List.rel_of_pairwise_cons ha hx
  have hkept : a.map (kept str mem (b.filter fun y => slot.data.fromTime < y.data.fromTime)) =
      a.map (kept str mem b) :=
    List.map_congr_left fun x hx => by simp only [kept, partner_filter b (hlater x hx)]
  have hchanges : a.filter (changes (b.filter fun y => slot.data.fromTime < y.data.fromTime)) =
      a.filter (changes b) :=
    List.filter_congr fun x hx => by simp only [changes, partner_filter b (hlater x hx)]
  have hrest : ∀ y ∈ s.list, slot.data.fromTime < y.data.fromTime := by
    intro y hy
    rcases List.mem_append.mp (hs.list.mem_iff.mp hy) with hy | hy
    · obtain ⟨x, hx, rfl⟩ := List.mem_map.mp hy
      rw [kept_fromTime]
      exact hlater x hx
    · simpa using (List.mem_filter.mp (List.mem_filter.mp hy).1).2
  constructor
  · refine List.pairwise_append.mpr ⟨List.Pairwise.filter _ hb,
      List.pairwise_cons.mpr ⟨fun y hy => ?_, hs.sorted⟩, fun x hx y hy => ?_⟩
    · rw [kept_fromTime]
      exact hrest y hy
    · have hx : x.data.fromTime < slot.data.fromTime := by simpa using (List.mem_filter.mp hx).2
      rcases List.mem_cons.mp hy with rfl | hy
      · rw [kept_fromTime]
        exact hx
      · exact Nat.lt_trans hx (hrest y hy)
  · have hlist := hs.list
    rw [hkept] at hlist
    refine List.perm_middle.trans (List.Perm.cons _ ?_)
    refine ((hlist.append_left _).trans (List.perm_append_comm_assoc _ _ _)).trans ?_
    exact (fresh_perm b ha).symm.append_left _
  · rw [hs.modf, hchanges, markModified_append, List.filter_cons]
  · have hfreed := hs.freed
    refine ((hfreed.append_left _).trans ?_).trans ((taken_perm b ha).symm.map Entry.ptr)
    rw [List.map_append]

/-- The outer loop. -/
theorem unionContacts_joins (ha : Starts a) (hb : Starts b)
    (hactive : ∀ y ∈ b, ¬ Fresh a y → y.data.active = false) :
    ∃ r, unionContacts str mem a b modf = some r ∧ r.Joins str mem a b modf := by
  induction a generalizing b modf with
  | nil => exact ⟨_, rfl, joins_nil hb⟩
  | cons slot a ih =>
    have hslot : ∀ y ∈ b, y.data.fromTime = slot.data.fromTime → y.data.active = false :=
      fun y hy heq => hactive y hy fun hfresh => hfresh slot List.mem_cons_self heq.symm
    have hleft : ∀ y ∈ b.filter (fun y => slot.data.fromTime < y.data.fromTime),
        ¬ Fresh a y → y.data.active = false := fun y hy hold =>
      hactive y (List.mem_filter.mp hy).1 fun hfresh => hold ((fresh_cons y).mp hfresh).2
    obtain ⟨s, hs, hjoins⟩ := ih ha.of_cons (List.Pairwise.filter _ hb) hleft
    rw [unionContacts, unionBefore_eq hb hslot]
    refine ⟨_, ?_, joins_cons ha hb hjoins⟩
    dsimp only [Option.bind_eq_bind, Option.bind_some]
    rw [hs]
    rfl

theorem contactListUnion_joins (ha : Starts a) (hb : Starts b)
    (hactive : ∀ y ∈ b, ¬ Fresh a y → y.data.active = false) :
    ∃ r, contactListUnion str mem a b modf = some r ∧ r.Joins str mem a b modf := by
  rw [contactListUnion, contactListSorted_of_starts ha, contactListSorted_of_starts hb,
    Bool.and_self, if_pos rfl]
  by_cases hnil : a = []
  · subst hnil
    exact ⟨_, if_pos rfl, joins_nil hb⟩
  · rw [if_neg hnil]
    by_cases hnil' : b = []
    · subst hnil'
      exact ⟨_, if_pos rfl, joins_nil_right ha⟩
    · rw [if_neg hnil']
      exact unionContacts_joins ha hb hactive

end

/-! ## What the function does -/

/-- The second list has a contact at the time of `x` with another bitrate. -/
def Recapacitated (b : List Entry) (x : Entry) : Prop :=
  ∃ y ∈ b, x.SameTime y ∧ x.data.bitrate ≠ y.data.bitrate

instance (b : List Entry) (x : Entry) : Decidable (Recapacitated b x) :=
  inferInstanceAs (Decidable (∃ y ∈ b, _))

/-- What `x` becomes. -/
inductive Kept (str : EidPtr → Eid) (mem : Memory) (b : List Entry) (x : Entry) : Entry → Prop where
  | merged {y : Entry} {c : Contact} : y ∈ b → x.SameTime y → Merged str mem x.data y.data c →
      Kept str mem b x ⟨x.ptr, c⟩
  | untouched : (∀ y ∈ b, ¬ x.SameTime y) → Kept str mem b x x

/-- What `contact_list_union` is to leave: each contact of the first list once, those of the
second that begin at a time of their own, and the others freed.  `mem` says which endpoints
and modified contacts there is memory for. -/
structure Union.Of (str : EidPtr → Eid) (mem : Memory) (r : Union) (a b : List Entry)
    (modf : Option (List ContactPtr)) : Prop where
  sorted : Starts r.list
  list : ∃ kept, List.Forall₂ (Kept str mem b) a kept ∧ r.list.Perm (kept ++ b.filter (Fresh a ·))
  modf : r.modf = modf.map fun list =>
    (((a.filter (Recapacitated b ·)).map Entry.ptr).filter mem.modified).reverse ++ list
  freed : r.freed.Perm ((b.filter fun y => ¬ Fresh a y).map Entry.ptr)

theorem kept_kept {b : List Entry} (x : Entry) : Kept str mem b x (kept str mem b x) := by
  rw [kept]
  split
  · next hnone =>
    exact .untouched fun y hy => by simpa using List.find?_eq_none.mp hnone y hy
  · next y hy =>
    exact .merged (List.mem_of_find?_eq_some hy) (by simpa using List.find?_some hy)
      (mergeContacts_merged _ _)

theorem changes_iff {b : List Entry} (hb : Starts b) (x : Entry) :
    changes b x = true ↔ Recapacitated b x := by
  simp only [changes, Recapacitated, partner_any hb, decide_eq_true_eq]

theorem Union.Joins.of {r : Union} {a b : List Entry} {modf : Option (List ContactPtr)}
    (hb : Starts b) (h : r.Joins str mem a b modf) : r.Of str mem a b modf := by
  have hchanges : a.filter (changes b) = a.filter (Recapacitated b ·) :=
    List.filter_congr fun x _ => Bool.eq_iff_iff.mpr (by simpa using changes_iff hb x)
  constructor
  · exact h.sorted
  · refine ⟨a.map (kept str mem b), ?_, h.list⟩
    rw [List.forall₂_map_right_iff, List.forall₂_same]
    exact fun x _ => kept_kept x
  · rw [h.modf, hchanges]
  · exact h.freed

/-- Where the assertion on the contacts that are freed holds, `contact_list_union` does what
it is for. -/
theorem contactListUnion_of (str : EidPtr → Eid) (mem : Memory) (a b : List Entry)
    (modf : Option (List ContactPtr)) (ha : Starts a) (hb : Starts b)
    (hactive : ∀ y ∈ b, ¬ Fresh a y → y.data.active = false) :
    ∃ r, contactListUnion str mem a b modf = some r ∧ r.Of str mem a b modf := by
  obtain ⟨r, hr, hjoins⟩ := contactListUnion_joins ha hb hactive
  exact ⟨r, hr, hjoins.of hb⟩

/-- Another bitrate. -/
def Entry.withBitrate (x : Entry) (bitrate : Nat) : Entry :=
  { x with data := { x.data with bitrate := bitrate } }

/-- A contact whose bitrate changes goes unlisted when there is no memory. -/
theorem not_contactListUnion_of_sufficient :
    ∃ a b : List Entry, Starts a ∧ Starts b ∧
      (∀ y ∈ b, ¬ Fresh a y → y.data.active = false) ∧
      ¬ ∃ r, contactListUnion (fun p => [.ofNat p]) .unmodified a b (some []) = some r ∧
        r.Of (fun p => [.ofNat p]) .sufficient a b (some []) := by
  let a : List Entry := [.at 7 [1]]
  let b : List Entry := [(Entry.at 8 [2]).withBitrate 200]
  refine ⟨a, b, by decide, by decide, by decide, ?_⟩
  rintro ⟨r, hr, hof⟩
  obtain ⟨r', hr', hjoins⟩ :
      ∃ r', contactListUnion (fun p => [.ofNat p]) .unmodified a b (some []) = some r' ∧
        r'.Joins (fun p => [.ofNat p]) .unmodified a b (some []) :=
    contactListUnion_joins (by decide) (by decide) (by decide)
  obtain rfl := Option.some.inj (hr'.symm.trans hr)
  exact absurd (hjoins.modf.symm.trans hof.modf) (by decide)

/-- Of two contacts, the second gets another bitrate from the contact at its time; of the second
list, two contacts are inserted before the first one, and two are behind both. -/
theorem contactListUnion_of_six :
    let a : List Entry := [.during 1 10 20 [], .during 2 40 50 [1]]
    let b : List Entry := [.during 11 1 5 [], .during 12 6 9 [],
      (Entry.during 13 40 50 [2]).withBitrate 200, .during 14 60 70 [], .during 15 80 90 [3]]
    ∃ r, contactListUnion (fun p => [.ofNat p]) .sufficient a b (some []) = some r ∧
      r.Of (fun p => [.ofNat p]) .sufficient a b (some []) ∧
      r.list.map Entry.ptr = [11, 12, 1, 2, 14, 15] ∧ r.modf = some [2] ∧ r.freed = [13] := by
  intro a b
  obtain ⟨r, hr, hof⟩ := contactListUnion_of (fun p => [.ofNat p]) .sufficient a b (some [])
    (by decide) (by decide) (by decide)
  have hresult : (contactListUnion (fun p => [.ofNat p]) .sufficient a b (some [])).map
      (fun r => (r.list.map Entry.ptr, r.modf, r.freed)) =
        some ([11, 12, 1, 2, 14, 15], some [2], [13]) := by decide
  rw [hr] at hresult
  simp only [Option.map_some, Option.some.injEq, Prod.mk.injEq] at hresult
  exact ⟨r, hr, hof, hresult⟩

end Upcn.NodeLists
