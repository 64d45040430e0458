import Mathlib.Data.List.Basic
import Mathlib.Data.List.Forall2
import Upcn.Node.Verify

/-!
# The difference of two contact lists

Both loops keep what they leave behind equal to `leaves`, which looks up each element of
the first list in what is left of the second.
-/

namespace Upcn.NodeLists

variable {str : EidPtr → Eid} {mem : Memory}

/-! ## Lists of contacts that begin one after the other -/

/-- Each contact begins after the one before. -/
def Starts (list : List Entry) : Prop :=
  list.Pairwise fun x y => x.data.fromTime < y.data.fromTime

instance (list : List Entry) : Decidable (Starts list) :=
  inferInstanceAs (Decidable (List.Pairwise _ _))

/-- So do the contacts of a verified node. -/
theorem starts_of_verified {list : List Entry}
    (hsorted : list.Pairwise fun x y => x.data.fromTime ≤ y.data.fromTime)
    (hvalid : ∀ x ∈ list, x.data.fromTime < x.data.toTime)
    (hverified : list.Pairwise fun x y => ¬ x.data.Crosses y.data) : Starts list := by
  refine (hsorted.and hverified).imp_of_mem fun {x y} hx hy hxy => ?_
  have hx := hvalid x hx
  have hy := hvalid y hy
  have hcrosses := hxy.2
  simp only [Contact.Crosses, Contact.Intersects, Contact.Inside] at hcrosses
  omega

theorem sortedFrom_of_starts {list : List Entry} {last : Nat} (h : Starts list)
    (hlast : ∀ x ∈ list, last ≤ x.data.fromTime) : sortedFrom last list = true := by
  induction list generalizing last with
  | nil => rfl
  | cons x rest ih =>
    have hx := hlast x List.mem_cons_self
    rw [sortedFrom, if_neg (Nat.not_lt.mpr hx)]
    exact ih h.of_cons fun y hy => Nat.le_of_lt (List.rel_of_pairwise_cons h hy)

/-- The first assertion of `contact_list_union` and of `contact_list_difference`. -/
theorem contactListSorted_of_starts {list : List Entry} (h : Starts list) :
    contactListSorted list = true :=
  sortedFrom_of_starts h fun _ _ => Nat.zero_le _

/-! ## Endpoints -/

theorem map_endpointListRemove (list : List EidPtr) (eid : EidPtr) :
    (endpointListRemove str list eid).map str = (list.map str).erase (str eid) := by
  induction list with
  | nil => rfl
  | cons cur rest ih =>
    rw [endpointListRemove, List.map_cons, List.erase_cons]
    by_cases heq : str cur = str eid
    · rw [if_pos heq, if_pos (beq_iff_eq.mpr heq)]
    · rw [if_neg heq, if_neg (fun h => heq (beq_iff_eq.mp h)), List.map_cons, ih]

theorem endpointListRemove_sublist (list : List EidPtr) (eid : EidPtr) :
    (endpointListRemove str list eid).Sublist list := by
  induction list with
  | nil => exact List.Sublist.slnil
  | cons cur rest ih =>
    rw [endpointListRemove]
    by_cases heq : str cur = str eid
    · rw [if_pos heq]
      exact List.sublist_cons_self cur rest
    · rw [if_neg heq]
      exact ih.cons_cons cur

theorem map_endpointListDifference (a b : List EidPtr) :
    (endpointListDifference str a b).map str = (a.map str).diff (b.map str) := by
  induction b generalizing a with
  | nil => rfl
  | cons eid b ih =>
    rw [endpointListDifference, List.foldl_cons, ← endpointListDifference, ih,
      map_endpointListRemove, List.map_cons, List.diff_cons]

theorem endpointListDifference_sublist (a b : List EidPtr) :
    (endpointListDifference str a b).Sublist a := by
  induction b generalizing a with
  | nil => exact List.Sublist.refl a
  | cons eid b ih => exact (ih _).trans (endpointListRemove_sublist a eid)

theorem endpointListRemove_eq_filter {list : List EidPtr} (eid : EidPtr)
    (hlist : (list.map str).Nodup) :
    endpointListRemove str list eid = list.filter fun i => str i ≠ str eid := by
  induction list with
  | nil => rfl
  | cons cur rest ih =>
    obtain ⟨hcur, hrest⟩ := List.nodup_cons.mp hlist
    by_cases heq : str cur = str eid
    · rw [endpointListRemove, if_pos heq, List.filter_cons_of_neg (by simpa using heq)]
      refine (List.filter_eq_self.mpr fun i hi => ?_).symm
      have hne : str i ≠ str cur := fun h => hcur (h ▸ List.mem_map_of_mem hi)
      simpa [heq] using hne
    · rw [endpointListRemove, if_neg heq, List.filter_cons_of_pos (by simpa using heq), ih hrest]

/-- A list without duplicates is left with the endpoints whose EIDs are not in the other. -/
theorem endpointListDifference_eq_filter {a : List EidPtr} (b : List EidPtr)
    (ha : (a.map str).Nodup) :
    endpointListDifference str a b = a.filter fun i => str i ∉ b.map str := by
  induction b generalizing a with
  | nil => exact (List.filter_eq_self.mpr fun _ _ => by simp).symm
  | cons eid b ih =>
    have hrest : ((endpointListRemove str a eid).map str).Nodup :=
      ha.sublist ((endpointListRemove_sublist a eid).map str)
    rw [endpointListDifference, List.foldl_cons, ← endpointListDifference, ih hrest,
      endpointListRemove_eq_filter eid ha, List.filter_filter]
    refine List.filter_congr fun i _ => ?_
    simp only [List.map_cons, List.mem_cons, not_or, Bool.decide_and]
    rw [Bool.and_comm]

/-- `new` is `old` without the endpoints of `removed`. -/
structure Without (str : EidPtr → Eid) (old removed new : List EidPtr) : Prop where
  kept : new.Sublist old
  eids : new.map str = (old.map str).diff (removed.map str)
  once : (old.map str).Nodup → new = old.filter fun i => str i ∉ removed.map str

theorem endpointListDifference_without (a b : List EidPtr) :
    Without str a b (endpointListDifference str a b) :=
  ⟨endpointListDifference_sublist a b, map_endpointListDifference a b,
    endpointListDifference_eq_filter b⟩

/-! ## What the loops leave -/

/-- The contact of the second list at the time of `x`. -/
def partner (b : List Entry) (x : Entry) : Option Entry := b.find? fun y => x.SameTime y

/-- What remains of `x`. -/
def remaining (str : EidPtr → Eid) (b : List Entry) (x : Entry) : Option Entry :=
  match partner b x with
  | none => some x
  | some y => if y.data.contactEndpoints = [] then none else some (x.difference str y)

def gone (b : List Entry) (x : Entry) : Bool :=
  (partner b x).any fun y => y.data.contactEndpoints = []

def changed (b : List Entry) (x : Entry) : Bool :=
  (partner b x).any fun y => y.data.contactEndpoints ≠ []

/-- What the loops leave of the elements from the slot on. -/
def leaves (str : EidPtr → Eid) (mem : Memory) (slots b : List Entry)
    (modf : Option (List ContactPtr)) (deleted : Option (List Entry)) : Difference where
  list := slots.filterMap (remaining str b)
  modf := modf.map fun list =>
    (((slots.filter (changed b)).map Entry.ptr).filter mem.modified).reverse ++ list
  deleted := deleted.map fun list => (slots.filter (gone b)).reverse ++ list

/-- The elements that were passed, in front. -/
def Difference.after (passed : List Entry) (r : Difference) : Difference :=
  { r with list := passed ++ r.list }

section

variable {slot can : Entry} {rest slots b : List Entry} {modf : Option (List ContactPtr)}
  {deleted : Option (List Entry)}

theorem partner_cons_of_not (h : ¬ slot.SameTime can) : partner (can :: b) slot = partner b slot :=
  List.find?_cons_of_neg (by simpa using h)

theorem partner_cons_self (h : slot.SameTime can) : partner (can :: b) slot = some can :=
  List.find?_cons_of_pos (by simpa using h)

/-- A contact that has no counterpart is passed over. -/
theorem leaves_cons_of_not (h : ∀ x ∈ slots, ¬ x.SameTime can) :
    leaves str mem slots (can :: b) modf deleted = leaves str mem slots b modf deleted := by
  have hpartner : ∀ x ∈ slots, partner (can :: b) x = partner b x :=
    fun x hx => partner_cons_of_not (h x hx)
  have hlist : slots.filterMap (remaining str (can :: b)) = slots.filterMap (remaining str b) :=
    List.filterMap_congr fun x hx => by simp only [remaining, hpartner x hx]
  have hgone : slots.filter (gone (can :: b)) = slots.filter (gone b) :=
    List.filter_congr fun x hx => by simp only [gone, hpartner x hx]
  have hchanged : slots.filter (changed (can :: b)) = slots.filter (changed b) :=
    List.filter_congr fun x hx => by simp only [changed, hpartner x hx]
  simp only [leaves, hlist, hgone, hchanged]

theorem leaves_of_none (h : partner b slot = none) :
    leaves str mem (slot :: rest) b modf deleted =
      (leaves str mem rest b modf deleted).after [slot] := by
  simp [leaves, Difference.after, remaining, gone, changed, h]

theorem leaves_of_gone {y : Entry} (h : partner b slot = some y)
    (hy : y.data.contactEndpoints = []) :
    leaves str mem (slot :: rest) b modf deleted =
      leaves str mem rest b modf (deleted.map fun list => slot :: list) := by
  simp [leaves, remaining, gone, changed, h, hy, Function.comp_def]

theorem leaves_of_changed {y : Entry} (h : partner b slot = some y)
    (hy : y.data.contactEndpoints ≠ []) :
    leaves str mem (slot :: rest) b modf deleted =
      (leaves str mem rest b (addToModifiedList mem slot.ptr modf) deleted).after
        [slot.difference str y] := by
  by_cases hmem : mem.modified slot.ptr = true
  · simp [leaves, Difference.after, remaining, gone, changed, h, hy, addToModifiedList, hmem,
      Function.comp_def]
  · simp [leaves, Difference.after, remaining, gone, changed, h, hy, addToModifiedList, hmem]

end

/-! ## The loops -/

/-- What the inner loop does to the elements from the slot on. -/
structure Subtraction.Of (str : EidPtr → Eid) (mem : Memory) (r : Subtraction)
    (slots b : List Entry) (modf : Option (List ContactPtr)) (deleted : Option (List Entry)) :
    Prop where
  leaves : leaves str mem slots b modf deleted =
    (leaves str mem r.slots r.left r.modf r.deleted).after r.passed
  slots : r.slots.Sublist slots
  left : r.left.Sublist b
  later : ∀ slot ∈ r.slots.head?, ∀ can ∈ r.left, slot.data.fromTime < can.data.fromTime

theorem partner_eq_none {b : List Entry} {slot : Entry}
    (h : ∀ can ∈ b, slot.data.fromTime < can.data.fromTime) : partner b slot = none := by
  refine List.find?_eq_none.mpr fun can hcan => ?_
  have hlater := h can hcan
  have hnot : ¬ slot.SameTime can := fun hsame => by
    have hfrom := hsame.1
    omega
  simpa using hnot

section

variable {freeB : Bool} {slot can : Entry} {rest slots b : List Entry}
  {modf : Option (List ContactPtr)} {deleted : Option (List Entry)}

/-- One round of the inner loop. -/
theorem differenceBefore_cons (hactive : freeB = true → can.data.active = false) :
    differenceBefore str mem freeB (can :: b) (slot :: rest) modf deleted =
      if can.data.fromTime ≤ slot.data.fromTime then
        if slot.SameTime can then
          if can.data.contactEndpoints = [] then
            differenceBefore str mem freeB b rest modf (deleted.map fun list => slot :: list)
          else
            (differenceBefore str mem freeB b rest (addToModifiedList mem slot.ptr modf)
              deleted).map fun r => { r with passed := slot.difference str can :: r.passed }
        else differenceBefore str mem freeB b (slot :: rest) modf deleted
      else .ok ⟨[], slot :: rest, can :: b, modf, deleted⟩ := by
  have hfree : freeCan freeB can = .ok () := by
    cases freeB with
    | false => rfl
    | true => rw [freeCan, hactive rfl]; rfl
  rw [differenceBefore, if_neg (List.cons_ne_nil slot rest)]
  simp only [readSlot, nextSlot, hfree]
  rfl

/-- The inner loop stops at the end of a list, or before a contact that begins later. -/
theorem differenceBefore_of (hslots : Starts slots) (hb : Starts b)
    (hactive : freeB = true → ∀ can ∈ b, can.data.active = false) :
    ∃ r, differenceBefore str mem freeB b slots modf deleted = .ok r ∧
      r.Of str mem slots b modf deleted := by
  induction b generalizing slots modf deleted with
  | nil =>
    exact ⟨_, rfl, rfl, List.Sublist.refl _, List.Sublist.refl _, fun _ _ _ hcan => nomatch hcan⟩
  | cons can b ih =>
    have hrest : ∀ {slots : List Entry} {modf : Option (List ContactPtr)}
        {deleted : Option (List Entry)}, Starts slots →
        ∃ r, differenceBefore str mem freeB b slots modf deleted = .ok r ∧
          r.Of str mem slots b modf deleted :=
      fun hslots => ih hslots hb.of_cons fun h y hy => hactive h y (List.mem_cons_of_mem _ hy)
    cases slots with
    | nil =>
      exact ⟨_, rfl, rfl, List.Sublist.refl _, List.Sublist.refl _, fun _ hslot => nomatch hslot⟩
    | cons slot rest =>
      rw [differenceBefore_cons fun h => hactive h can List.mem_cons_self]
      by_cases hfrom : can.data.fromTime ≤ slot.data.fromTime
      · rw [if_pos hfrom]
        have hlater : ∀ x ∈ rest, ¬ x.SameTime can := fun x hx hsame => by
          have hlt := List.rel_of_pairwise_cons hslots hx
          have hfrom' := hsame.1
          omega
        by_cases hsame : slot.SameTime can
        · rw [if_pos hsame]
          have hpartner := partner_cons_self (b := b) hsame
          by_cases hempty : can.data.contactEndpoints = []
          · obtain ⟨r, hr, hof⟩ := hrest hslots.of_cons
            rw [if_pos hempty]
            refine ⟨r, hr, ?_, hof.slots.cons slot, hof.left.cons can, hof.later⟩
            rw [leaves_of_gone hpartner hempty, leaves_cons_of_not hlater, hof.leaves]
          · obtain ⟨r, hr, hof⟩ := hrest hslots.of_cons
            rw [if_neg hempty, hr]
            refine ⟨_, rfl, ?_, hof.slots.cons slot, hof.left.cons can, hof.later⟩
            rw [leaves_of_changed hpartner hempty, leaves_cons_of_not hlater, hof.leaves]
            rfl
        · rw [if_neg hsame]
          obtain ⟨r, hr, hof⟩ := hrest hslots
          refine ⟨r, hr, ?_, hof.slots, hof.left.cons can, hof.later⟩
          rw [leaves_cons_of_not (List.forall_mem_cons.mpr ⟨hsame, hlater⟩), hof.leaves]
      · rw [if_neg hfrom]
        refine ⟨_, rfl, rfl, List.Sublist.refl _, List.Sublist.refl _, fun x hx y hy => ?_⟩
        obtain rfl : slot = x := Option.some.inj hx
        rcases List.mem_cons.mp hy with rfl | hy
        · exact Nat.not_le.mp hfrom
        · exact Nat.lt_trans (Nat.not_le.mp hfrom) (List.rel_of_pairwise_cons hb hy)

theorem leaves_nil : leaves str mem [] b modf deleted = ⟨[], modf, deleted⟩ := by
  cases modf <;> cases deleted <;> rfl

/-- The outer loop does not run out of rounds. -/
theorem differenceContacts_eq {fuel : Nat} (hfuel : slots.length ≤ fuel) (hslots : Starts slots)
    (hb : Starts b) (hactive : freeB = true → ∀ can ∈ b, can.data.active = false) :
    differenceContacts str mem freeB fuel slots b modf deleted =
      .ok (leaves str mem slots b modf deleted) := by
  induction fuel generalizing slots b modf deleted with
  | zero =>
    obtain rfl : slots = [] := List.length_eq_zero_iff.mp (Nat.le_zero.mp hfuel)
    rw [leaves_nil]
    rfl
  | succ fuel ih =>
    by_cases hempty : slots = []
    · rw [hempty, leaves_nil]
      rfl
    obtain ⟨⟨passed, slots', left, modf', deleted'⟩, hr, hof⟩ :
        ∃ r, differenceBefore str mem freeB b slots modf deleted = .ok r ∧
          r.Of str mem slots b modf deleted := differenceBefore_of hslots hb hactive
    rw [differenceContacts, if_neg hempty, hr, hof.leaves]
    cases slots' with
    | nil =>
      rw [leaves_nil]
      exact congrArg (fun list => Except.ok (Difference.mk list modf' deleted'))
        (List.append_nil passed).symm
    | cons slot rest =>
      have hlength := hof.slots.length_le
      rw [List.length_cons] at hlength
      have hnext : differenceContacts str mem freeB fuel rest left modf' deleted' =
          .ok (leaves str mem rest left modf' deleted') :=
        ih (by omega) (hslots.sublist hof.slots).of_cons (hb.sublist hof.left)
          fun h y hy => hactive h y (hof.left.subset hy)
      rw [leaves_of_none (partner_eq_none (hof.later slot rfl))]
      calc (do
              let s ← differenceContacts str mem freeB fuel rest left modf' deleted'
              return { s with list := passed ++ slot :: s.list } : Except Fault Difference)
          = .ok { leaves str mem rest left modf' deleted' with
              list := passed ++ slot :: (leaves str mem rest left modf' deleted').list } := by
            rw [hnext]
            rfl
        _ = .ok (((leaves str mem rest left modf' deleted').after [slot]).after passed) := rfl

theorem leaves_nil_right : leaves str mem slots [] modf deleted = ⟨slots, modf, deleted⟩ := by
  induction slots with
  | nil => exact leaves_nil
  | cons slot rest ih =>
    rw [leaves_of_none rfl, ih]
    rfl

theorem contactListDifference_eq (hslots : Starts slots) (hb : Starts b)
    (hactive : freeB = true → ∀ can ∈ b, can.data.active = false) :
    contactListDifference str mem slots b freeB modf deleted =
      .ok (leaves str mem slots b modf deleted) := by
  rw [contactListDifference, contactListSorted_of_starts hslots, contactListSorted_of_starts hb,
    Bool.and_self, if_pos rfl]
  by_cases hempty : slots = [] ∨ b = []
  · rw [if_pos hempty]
    rcases hempty with rfl | rfl
    · rw [leaves_nil]
    · rw [leaves_nil_right]
  · rw [if_neg hempty]
    exact differenceContacts_eq (Nat.le_succ _) hslots hb hactive

end

/-! ## Null slots -/

theorem bind_ne_error {α β : Type} {fault : Fault} {x : Except Fault α} {f : α → Except Fault β}
    (hx : x ≠ .error fault) (hf : ∀ y, f y ≠ .error fault) : (x >>= f) ≠ .error fault := by
  cases x with
  | error e => exact fun h => hx (congrArg Except.error (Except.error.inj h))
  | ok y => exact hf y

theorem freeCan_ne_nullSlot (freeB : Bool) (can : Entry) : freeCan freeB can ≠ .error .nullSlot := by
  rw [freeCan]
  split
  · exact fun h => nomatch h
  · exact fun h => nomatch h

theorem differenceBefore_ne_nullSlot (freeB : Bool) (b slots : List Entry)
    (modf : Option (List ContactPtr)) (deleted : Option (List Entry)) :
    differenceBefore str mem freeB b slots modf deleted ≠ .error .nullSlot := by
  induction b generalizing slots modf deleted with
  | nil => exact fun h => nomatch h
  | cons can b ih =>
    cases slots with
    | nil => exact fun h => nomatch h
    | cons slot rest =>
      rw [differenceBefore, if_neg (List.cons_ne_nil slot rest)]
      refine bind_ne_error (fun h => nomatch h) fun read => ?_
      split
      · split
        · refine bind_ne_error (fun h => nomatch h) fun next => ?_
          refine bind_ne_error (freeCan_ne_nullSlot freeB can) fun _ => ?_
          split
          · exact ih next _ _
          · exact bind_ne_error (ih next _ _) fun _ h => nomatch h
        · exact bind_ne_error (freeCan_ne_nullSlot freeB can) fun _ => ih _ _ _
      · exact fun h => nomatch h

theorem differenceContacts_ne_nullSlot (freeB : Bool) (fuel : Nat) (slots b : List Entry)
    (modf : Option (List ContactPtr)) (deleted : Option (List Entry)) :
    differenceContacts str mem freeB fuel slots b modf deleted ≠ .error .nullSlot := by
  induction fuel generalizing slots b modf deleted with
  | zero => exact fun h => nomatch h
  | succ fuel ih =>
    rw [differenceContacts]
    split
    · exact fun h => nomatch h
    · refine bind_ne_error (differenceBefore_ne_nullSlot freeB b slots modf deleted) fun r => ?_
      cases hslots : r.slots with
      | nil => exact fun h => nomatch h
      | cons slot rest =>
        rw [if_neg (List.cons_ne_nil slot rest)]
        refine bind_ne_error (fun h => nomatch h) fun read => ?_
        refine bind_ne_error (fun h => nomatch h) fun next => ?_
        exact bind_ne_error (ih next _ _ _) fun _ h => nomatch h

/-- Whatever the lists are. -/
theorem contactListDifference_ne_nullSlot (a b : List Entry) (freeB : Bool)
    (modf : Option (List ContactPtr)) (deleted : Option (List Entry)) :
    contactListDifference str mem a b freeB modf deleted ≠ .error .nullSlot := by
  rw [contactListDifference]
  split
  · split
    · exact fun h => nomatch h
    · exact differenceContacts_ne_nullSlot freeB _ a b modf deleted
  · exact fun h => nomatch h

/-! ## What the function does -/

/-- The second list has a contact without endpoints at the time of `x`. -/
def Gone (b : List Entry) (x : Entry) : Prop :=
  ∃ y ∈ b, x.SameTime y ∧ y.data.contactEndpoints = []

/-- The second list has a contact with endpoints at the time of `x`. -/
def Changed (b : List Entry) (x : Entry) : Prop :=
  ∃ y ∈ b, x.SameTime y ∧ y.data.contactEndpoints ≠ []

instance (b : List Entry) (x : Entry) : Decidable (Gone b x) :=
  inferInstanceAs (Decidable (∃ y ∈ b, _))

instance (b : List Entry) (x : Entry) : Decidable (Changed b x) :=
  inferInstanceAs (Decidable (∃ y ∈ b, _))

/-- What `x`, which remains in the list, becomes. -/
inductive Remains (str : EidPtr → Eid) (b : List Entry) (x : Entry) : Entry → Prop where
  | changed {y : Entry} {endpoints : List EidPtr} : y ∈ b → x.SameTime y →
      Without str x.data.contactEndpoints y.data.contactEndpoints endpoints →
      Remains str b x ⟨x.ptr, { x.data with contactEndpoints := endpoints }⟩
  | untouched : (∀ y ∈ b, ¬ x.SameTime y) → Remains str b x x

/-- What `contact_list_difference` is to leave.  `mem` says which of the modified contacts
there is memory to list. -/
structure Difference.Of (str : EidPtr → Eid) (mem : Memory) (r : Difference) (a b : List Entry)
    (modf : Option (List ContactPtr)) (deleted : Option (List Entry)) : Prop where
  list : List.Forall₂ (Remains str b) (a.filter fun x => ¬ Gone b x) r.list
  modf : r.modf = modf.map fun list =>
    (((a.filter (Changed b ·)).map Entry.ptr).filter mem.modified).reverse ++ list
  deleted : r.deleted = deleted.map fun list => (a.filter (Gone b ·)).reverse ++ list

/-- At most one contact of the second list is at the time of `x`. -/
theorem partner_eq_some {b : List Entry} {x y : Entry} (hb : Starts b) (hy : y ∈ b)
    (hsame : x.SameTime y) : partner b x = some y := by
  induction b with
  | nil => cases hy
  | cons can b ih =>
    rcases List.mem_cons.mp hy with rfl | hy
    · exact partner_cons_self hsame
    · have hlt := List.rel_of_pairwise_cons hb hy
      have hnot : ¬ x.SameTime can := fun hcan => by
        rw [hsame.1, hcan.1] at hlt
        exact Nat.lt_irrefl _ hlt
      rw [partner_cons_of_not hnot, ih hb.of_cons hy]

theorem partner_any {b : List Entry} (hb : Starts b) (x : Entry) (p : Entry → Bool) :
    (partner b x).any p = true ↔ ∃ y ∈ b, x.SameTime y ∧ p y = true := by
  rw [Option.any_eq_true]
  constructor
  · rintro ⟨y, hy, hp⟩
    exact ⟨y, List.mem_of_find?_eq_some hy, by simpa using List.find?_some hy, hp⟩
  · rintro ⟨y, hy, hsame, hp⟩
    exact ⟨y, partner_eq_some hb hy hsame, hp⟩

theorem gone_iff {b : List Entry} (hb : Starts b) (x : Entry) : gone b x = true ↔ Gone b x := by
  simp only [gone, Gone, partner_any hb, decide_eq_true_eq]

theorem changed_iff {b : List Entry} (hb : Starts b) (x : Entry) :
    changed b x = true ↔ Changed b x := by
  simp only [changed, Changed, partner_any hb, decide_eq_true_eq]

theorem remaining_eq_none {b : List Entry} (hb : Starts b) {x : Entry} (h : Gone b x) :
    remaining str b x = none := by
  obtain ⟨y, hy, hsame, hempty⟩ := h
  simp only [remaining, partner_eq_some hb hy hsame, hempty, if_true]

theorem remaining_eq_some {b : List Entry} (hb : Starts b) {x : Entry} (h : ¬ Gone b x) :
    ∃ x', remaining str b x = some x' ∧ Remains str b x x' := by
  by_cases hsome : ∃ y ∈ b, x.SameTime y
  · obtain ⟨y, hy, hsame⟩ := hsome
    have hne : y.data.contactEndpoints ≠ [] := fun hempty => h ⟨y, hy, hsame, hempty⟩
    refine ⟨x.difference str y, ?_, .changed hy hsame (endpointListDifference_without _ _)⟩
    simp only [remaining, partner_eq_some hb hy hsame, if_neg hne]
  · have hnone : ∀ y ∈ b, ¬ x.SameTime y := fun y hy hsame => hsome ⟨y, hy, hsame⟩
    have hpartner : partner b x = none :=
      List.find?_eq_none.mpr fun y hy => by simpa using hnone y hy
    exact ⟨x, by simp only [remaining, hpartner], .untouched hnone⟩

theorem forall₂_remaining {b : List Entry} (hb : Starts b) (a : List Entry) :
    List.Forall₂ (Remains str b) (a.filter fun x => ¬ Gone b x)
      (a.filterMap (remaining str b)) := by
  induction a with
  | nil => exact .nil
  | cons x a ih =>
    by_cases hgone : Gone b x
    · rw [List.filter_cons_of_neg (by simpa using hgone),
        List.filterMap_cons_none (remaining_eq_none hb hgone)]
      exact ih
    · obtain ⟨x', hx', hremains⟩ : ∃ x', remaining str b x = some x' ∧ Remains str b x x' :=
        remaining_eq_some hb hgone
      rw [List.filter_cons_of_pos (by simpa using hgone), List.filterMap_cons_some hx']
      exact .cons hremains ih

theorem leaves_of {a b : List Entry} {modf : Option (List ContactPtr)}
    {deleted : Option (List Entry)} (hb : Starts b) :
    (leaves str mem a b modf deleted).Of str mem a b modf deleted := by
  have hgone : a.filter (gone b) = a.filter (Gone b ·) :=
    List.filter_congr fun x _ => Bool.eq_iff_iff.mpr (by simpa using gone_iff hb x)
  have hchanged : a.filter (changed b) = a.filter (Changed b ·) :=
    List.filter_congr fun x _ => Bool.eq_iff_iff.mpr (by simpa using changed_iff hb x)
  constructor
  · exact forall₂_remaining hb a
  · simp only [leaves, hchanged]
  · simp only [leaves, hgone]

/-- Where the assertion on the contacts that are freed holds, `contact_list_difference` does
what it is for, and it never dereferences a null slot. -/
theorem contactListDifference_of (str : EidPtr → Eid) (mem : Memory) (a b : List Entry)
    (freeB : Bool) (modf : Option (List ContactPtr)) (deleted : Option (List Entry))
    (ha : Starts a) (hb : Starts b) :
    contactListDifference str mem a b freeB modf deleted ≠ .error .nullSlot ∧
      ((freeB = true → ∀ can ∈ b, can.data.active = false) →
        ∃ r, contactListDifference str mem a b freeB modf deleted = .ok r ∧
          r.Of str mem a b modf deleted) :=
  ⟨contactListDifference_ne_nullSlot a b freeB modf deleted,
    fun hactive => ⟨_, contactListDifference_eq ha hb hactive, leaves_of hb⟩⟩

/-- The element at `ptr`, from `1` to `10`. -/
def Entry.at (ptr : ContactPtr) (endpoints : List EidPtr) : Entry :=
  ⟨ptr, { Contact.between 1 10 with contactEndpoints := endpoints }⟩

/-- No memory for an element of the list of modified contacts. -/
def Memory.unmodified : Memory where
  endpoint _ := true
  modified _ := false

/-- A contact that is modified goes unlisted when there is no memory. -/
theorem not_contactListDifference_of_sufficient :
    ∃ a b : List Entry, Starts a ∧ Starts b ∧
      ¬ ∃ r, contactListDifference (fun p => [.ofNat p]) .unmodified a b false (some []) (some [])
        = .ok r ∧ r.Of (fun p => [.ofNat p]) .sufficient a b (some []) (some []) := by
  refine ⟨[.at 7 [1, 2]], [.at 8 [1]], by decide, by decide, ?_⟩
  rintro ⟨r, hr, hof⟩
  have hmodf := hof.modf
  rw [contactListDifference_eq (by decide) (by decide) (by decide)] at hr
  obtain rfl := Except.ok.inj hr
  exact absurd hmodf (by decide)

/-- The element at `ptr`, from `fromTime` to `toTime`. -/
def Entry.during (ptr : ContactPtr) (fromTime toTime : Nat) (endpoints : List EidPtr) : Entry :=
  ⟨ptr, { Contact.between fromTime toTime with contactEndpoints := endpoints }⟩

/-- Of four contacts, the first loses an endpoint and the second and the fourth are deleted; the
second list has contacts at other times before, between and behind them. -/
theorem contactListDifference_of_four :
    let a : List Entry := [.during 1 10 20 [1, 2], .during 2 30 40 [3], .during 3 50 60 [4],
      .during 4 70 80 []]
    let b : List Entry := [.during 11 1 5 [], .during 12 6 9 [], .during 13 10 20 [1],
      .during 14 30 40 [], .during 15 50 55 [], .during 16 70 80 [], .during 17 90 95 []]
    ∃ r, contactListDifference (fun p => [.ofNat p]) .sufficient a b true (some []) (some [])
        = .ok r ∧ r.Of (fun p => [.ofNat p]) .sufficient a b (some []) (some []) ∧
      r.list = [.during 1 10 20 [2], .during 3 50 60 [4]] ∧ r.modf = some [1] ∧
      r.deleted = some [.during 4 70 80 [], .during 2 30 40 [3]] := by
  intro a b
  obtain ⟨r, hr, hof⟩ := (contactListDifference_of (fun p => [.ofNat p]) .sufficient a b true
    (some []) (some []) (by decide) (by decide)).2 (by decide)
  have hresult : contactListDifference (fun p => [.ofNat p]) .sufficient a b true (some [])
      (some []) = .ok ⟨[.during 1 10 20 [2], .during 3 50 60 [4]], some [1],
        some [.during 4 70 80 [], .during 2 30 40 [3]]⟩ := by decide
  obtain rfl := Except.ok.inj (hr.symm.trans hresult)
  exact ⟨_, hr, hof, rfl, rfl, rfl⟩

end Upcn.NodeLists
