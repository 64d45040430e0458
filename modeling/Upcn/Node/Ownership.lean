import Mathlib.Data.List.Nodup
import Mathlib.Data.List.Perm.Basic
import Upcn.Lib.Heap
import Upcn.Node.Verify

/-!
# Who owns the endpoints

`endpoint_list_union`, `endpoint_list_difference` and `endpoint_list_strip_and_sort` with the
memory of their lists.

* An `Elem` is an element of a list, with its address and the string that it points to.
  Elements and strings are objects of a `Heap`, where every access to an object that is not
  live is a fault; `str` is what a string says.
* `Settled` is what an operation owes to the objects of its arguments: each of them is in a
  list afterwards or was freed, once.
* `Moves` is the relation that the steps of union and of stripping keep.
  `difference_spec` says which objects are live behind a difference: the strings of the
  elements that are removed stay.
-/

namespace Upcn.NodeLists

/-- An element of `struct endpoint_list`. -/
structure Elem where
  ptr : Nat
  eid : EidPtr
  deriving DecidableEq

variable (str : EidPtr → Eid) (granted : Nat → Bool)

namespace Owned

/-! ## The functions -/

/-- `endpoint_list_free` for an element with this EID, or `NULL`. -/
def endpointListFree (h : Heap) (e : Nat) (eid : Option EidPtr) : Heap :=
  ((h.use (some e)).free eid).free (some e)

/-- The loop of `endpoint_list_add`, as far as it looks for the EID: it finds the pointer
itself (`false`), another string (`true`) or neither. -/
def addSearch (h : Heap) (eid : EidPtr) : List Elem → Heap × Option Bool
  | [] => (h, none)
  | cur :: rest =>
    let h := h.use (some cur.ptr)
    if cur.eid = eid then (h, some false)
    else
      let h := (h.use (some cur.eid)).use (some eid)
      if str cur.eid = str eid then (h, some true) else addSearch h eid rest

/-- `endpoint_list_add`.  The list is ordered by addresses. -/
def endpointListAdd (h : Heap) (list : List Elem) (eid : EidPtr) : Heap × List Elem :=
  match addSearch str h eid list with
  | (h, some false) => (h, list)
  | (h, some true) => (h.free (some eid), list)
  | (h, none) =>
    match h.malloc granted with
    | (none, h) => (h.free (some eid), list)
    | (some newEntry, h) =>
      (h, list.takeWhile (·.eid ≤ eid) ++ ⟨newEntry, eid⟩ :: list.dropWhile (·.eid ≤ eid))

/-- `endpoint_list_union`. -/
def endpointListUnion (h : Heap) (a : List Elem) : List Elem → Heap × List Elem
  | [] => (h, a)
  | curCan :: b =>
    let added := endpointListAdd str granted (h.use (some curCan.ptr)) a curCan.eid
    -- `cur_can->eid = NULL`
    endpointListUnion (endpointListFree added.1 curCan.ptr none) added.2 b

/-- `endpoint_list_remove`: the element is freed. -/
def endpointListRemove (h : Heap) (eid : EidPtr) : List Elem → Heap × List Elem
  | [] => (h, [])
  | cur :: rest =>
    let h := ((h.use (some cur.ptr)).use (some cur.eid)).use (some eid)
    if str cur.eid = str eid then (h.free (some cur.ptr), rest)
    else
      let removed := endpointListRemove h eid rest
      (removed.1, cur :: removed.2)

/-- `endpoint_list_difference`. -/
def endpointListDifference (freeB : Bool) (h : Heap) (a : List Elem) :
    List Elem → Heap × List Elem
  | [] => (h, a)
  | curCan :: b =>
    let removed := endpointListRemove str (h.use (some curCan.ptr)) curCan.eid a
    let h :=
      if freeB then endpointListFree removed.1 curCan.ptr (some curCan.eid)
      else removed.1.use (some curCan.ptr)
    endpointListDifference freeB h removed.2 b

/-- The inner loop of `endpoint_list_strip_and_sort`. -/
def stripOther (h : Heap) (cur : Elem) : List Elem → Heap × List Elem
  | [] => (h, [])
  | i :: rest =>
    let h := (((h.use (some i.ptr)).use (some i.eid)).use (some cur.ptr)).use (some cur.eid)
    if str i.eid = str cur.eid then
      stripOther (endpointListFree h i.ptr (some i.eid)) cur rest
    else
      let other := stripOther h cur rest
      (other.1, i :: other.2)

theorem length_stripOther (h : Heap) (cur : Elem) (rest : List Elem) :
    (stripOther str h cur rest).2.length ≤ rest.length := by
  induction rest generalizing h with
  | nil => exact Nat.le_refl _
  | cons i rest ih =>
    rw [stripOther]
    split
    · exact Nat.le_succ_of_le (ih _)
    · exact Nat.succ_le_succ (ih _)

/-- The outer loop. -/
def strip (h : Heap) : List Elem → Heap × List Elem
  | [] => (h, [])
  | cur :: rest =>
    let other := stripOther str (h.use (some cur.ptr)) cur rest
    let stripped := strip other.1 other.2
    (stripped.1, cur :: stripped.2)
  termination_by list => list.length
  decreasing_by exact Nat.lt_succ_of_le (length_stripOther _ _ _ _)

/-- `endpoint_list_strip_and_sort`. -/
def endpointListStripAndSort (h : Heap) (el : List Elem) : Heap × List Elem :=
  let stripped := strip str h el
  (stripped.1, llsort (·.eid) stripped.2)

end Owned

/-! ## What they should do -/

/-- The objects of a list. -/
def objects (list : List Elem) : List Nat := list.map (·.ptr) ++ list.map (·.eid)

/-- The EIDs of a list. -/
def eids (list : List Elem) : List Eid := list.map fun e => str e.eid

/-- The objects of a list are live, and the elements are different objects. -/
structure Holds (h : Heap) (list : List Elem) : Prop where
  live : ∀ o ∈ objects list, h.live o = true
  ptrs : (list.map (·.ptr)).Nodup
  apart : ∀ e ∈ list, ∀ e' ∈ list, e.ptr ≠ e'.eid

/-- Of the objects of `list`, those of `left` are live and the others were freed, once. -/
structure Settled (list left : List Elem) (h : Heap) : Prop where
  once : h.fault = false
  live : ∀ o ∈ objects list, (h.live o = true ↔ o ∈ objects left)
  left : ∀ o ∈ objects left, h.live o = true

/-- The EIDs of `list` are those with `P`, each of them once. -/
def Exactly (P : Eid → Prop) (list : List Elem) : Prop :=
  (eids str list).Nodup ∧ ∀ s, s ∈ eids str list ↔ P s

/-- The union of the EIDs, and nothing is lost. -/
def UnionRight (h : Heap) (a b : List Elem) : Prop :=
  let union := Owned.endpointListUnion str granted h a b
  Exactly str (fun s => s ∈ eids str a ∨ s ∈ eids str b) union.2 ∧
    Settled (a ++ b) union.2 union.1

/-- The difference of the EIDs, and nothing is lost. -/
def DifferenceRight (h : Heap) (a b : List Elem) (freeB : Bool) : Prop :=
  let difference := Owned.endpointListDifference str freeB h a b
  Exactly str (fun s => s ∈ eids str a ∧ s ∉ eids str b) difference.2 ∧
    Settled (a ++ b) (if freeB then difference.2 else difference.2 ++ b) difference.1

/-- Each EID once, and nothing is lost. -/
def StripRight (h : Heap) (el : List Elem) : Prop :=
  let stripped := Owned.endpointListStripAndSort str h el
  Exactly str (fun s => s ∈ eids str el) stripped.2 ∧ Settled el stripped.2 stripped.1

/-- Two lists of endpoints without duplicates, as they are handed to an operation. -/
structure Given (h : Heap) (a b : List Elem) : Prop where
  sound : h.fault = false
  holds : Holds h (a ++ b)
  first : (eids str a).Nodup
  second : (eids str b).Nodup

/-! ## Objects -/

variable {str} {granted}
variable {h h' h'' : Heap} {l l' l'' m m' rest : List Elem} {e cur i : Elem} {o : Nat}

theorem mem_objects : o ∈ objects l ↔ ∃ e ∈ l, e.ptr = o ∨ e.eid = o := by
  rw [objects, List.mem_append, List.mem_map, List.mem_map, ← exists_or]
  simp only [and_or_left]

theorem mem_objects_cons : o ∈ objects (e :: l) ↔ (e.ptr = o ∨ e.eid = o) ∨ o ∈ objects l := by
  rw [mem_objects, mem_objects, List.exists_mem_cons_iff]

theorem mem_objects_perm (hperm : l.Perm m) : o ∈ objects l ↔ o ∈ objects m := by
  rw [mem_objects, mem_objects]
  simp only [hperm.mem_iff]

namespace Holds

theorem perm (hl : Holds h l) (hperm : l.Perm m) : Holds h m where
  live o ho := hl.live o ((mem_objects_perm hperm).mpr ho)
  ptrs := (hperm.map _).nodup_iff.mp hl.ptrs
  apart e he e' he' := hl.apart e (hperm.mem_iff.mpr he) e' (hperm.mem_iff.mpr he')

theorem ptr_live (hl : Holds h l) (he : e ∈ l) : h.live e.ptr = true :=
  hl.live _ (mem_objects.mpr ⟨e, he, .inl rfl⟩)

theorem eid_live (hl : Holds h l) (he : e ∈ l) : h.live e.eid = true :=
  hl.live _ (mem_objects.mpr ⟨e, he, .inr rfl⟩)

theorem tail (hl : Holds h (e :: l)) : Holds h l where
  live o ho := hl.live o (mem_objects_cons.mpr (.inr ho))
  ptrs := (List.nodup_cons.mp hl.ptrs).2
  apart e he e' he' := hl.apart e (List.mem_cons_of_mem _ he) e' (List.mem_cons_of_mem _ he')

/-- The address of an element is none of the other objects. -/
theorem ptr_not_mem (hl : Holds h (e :: l)) : e.ptr ∉ objects l := by
  intro hmem
  obtain ⟨e', he', hptr | heid⟩ := mem_objects.mp hmem
  · exact (List.nodup_cons.mp hl.ptrs).1 (List.mem_map.mpr ⟨e', he', hptr⟩)
  · exact hl.apart e List.mem_cons_self e' (List.mem_cons_of_mem _ he') heid.symm

/-- Neither is its EID if no other element has it. -/
theorem eid_not_mem (hl : Holds h (e :: l)) (heid : e.eid ∉ l.map (·.eid)) :
    e.eid ∉ objects l := by
  intro hmem
  obtain ⟨e', he', hptr | heid'⟩ := mem_objects.mp hmem
  · exact hl.apart e' (List.mem_cons_of_mem _ he') e List.mem_cons_self hptr
  · exact heid (heid' ▸ List.mem_map_of_mem he')

/-- The objects of `l` are still live. -/
theorem of_live (hl : Holds h l) (hlive : ∀ o ∈ objects l, h'.live o = true) : Holds h' l where
  live := hlive
  ptrs := hl.ptrs
  apart := hl.apart

end Holds

/-! ## Steps -/

/-- The objects of `l` became those of `l'`: those that are not among them were freed. -/
structure Moves (h : Heap) (l : List Elem) (h' : Heap) (l' : List Elem) : Prop where
  fault : h'.fault = h.fault
  next : h.next ≤ h'.next
  holds : Holds h' l'
  sub : ∀ o ∈ objects l', o < h.next → o ∈ objects l
  live : ∀ o < h.next, (h'.live o = true ↔
    h.live o = true ∧ (o ∈ objects l → o ∈ objects l'))

namespace Moves

theorem refl (hl : Holds h l) : Moves h l h l :=
  ⟨rfl, Nat.le_refl _, hl, fun _ ho _ => ho, fun _ _ => by simp⟩

theorem trans (hfirst : Moves h l h' l') (hsecond : Moves h' l' h'' l'') :
    Moves h l h'' l'' where
  fault := hsecond.fault.trans hfirst.fault
  next := Nat.le_trans hfirst.next hsecond.next
  holds := hsecond.holds
  sub o ho hlt := hfirst.sub o (hsecond.sub o ho (Nat.lt_of_lt_of_le hlt hfirst.next)) hlt
  live o hlt := by
    have hlt' := Nat.lt_of_lt_of_le hlt hfirst.next
    have hsub := hfirst.sub o
    have hsub' := hsecond.sub o
    rw [hsecond.live o hlt', hfirst.live o hlt]
    constructor
    · rintro ⟨⟨hlive, hkeep⟩, hkeep'⟩
      exact ⟨hlive, fun ho => hkeep' (hkeep ho)⟩
    · rintro ⟨hlive, hkeep⟩
      exact ⟨⟨hlive, fun ho => hsub' (hkeep ho) hlt'⟩, fun ho => hkeep (hsub ho hlt)⟩

theorem perm (hmoves : Moves h l h' l') (hl : l.Perm m) (hl' : l'.Perm m') :
    Moves h m h' m' where
  fault := hmoves.fault
  next := hmoves.next
  holds := hmoves.holds.perm hl'
  sub o ho hlt := (mem_objects_perm hl).mp (hmoves.sub o ((mem_objects_perm hl').mpr ho) hlt)
  live o hlt := by
    rw [hmoves.live o hlt, mem_objects_perm hl, mem_objects_perm hl']

/-- An element with an EID of its own stays. -/
theorem cons (hmoves : Moves h l h' l') (hl : Holds h (e :: l)) (heid : e.eid ∉ l.map (·.eid)) :
    Moves h (e :: l) h' (e :: l') := by
  have hptr := hl.ptr_not_mem
  have heid := hl.eid_not_mem heid
  have hptrLt := h.fresh _ (hl.ptr_live List.mem_cons_self)
  have heidLt := h.fresh _ (hl.eid_live List.mem_cons_self)
  have hptr' : e.ptr ∉ objects l' := fun ho => hptr (hmoves.sub _ ho hptrLt)
  have heid' : e.eid ∉ objects l' := fun ho => heid (hmoves.sub _ ho heidLt)
  refine ⟨hmoves.fault, hmoves.next, ⟨fun o ho => ?_, ?_, ?_⟩, fun o ho hlt => ?_,
    fun o hlt => ?_⟩
  · rcases mem_objects_cons.mp ho with (rfl | rfl) | ho
    · exact (hmoves.live _ hptrLt).mpr
        ⟨hl.ptr_live List.mem_cons_self, fun ho => absurd ho hptr⟩
    · exact (hmoves.live _ heidLt).mpr
        ⟨hl.eid_live List.mem_cons_self, fun ho => absurd ho heid⟩
    · exact hmoves.holds.live o ho
  · refine List.nodup_cons.mpr ⟨fun hmem => ?_, hmoves.holds.ptrs⟩
    exact hptr' (List.mem_append_left _ hmem)
  · have hself := hl.apart e List.mem_cons_self e List.mem_cons_self
    intro x hx y hy
    rcases List.mem_cons.mp hx with rfl | hx' <;> rcases List.mem_cons.mp hy with rfl | hy'
    · exact hself
    · exact fun heq => hptr' (mem_objects.mpr ⟨y, hy', .inr heq.symm⟩)
    · exact fun heq => heid' (mem_objects.mpr ⟨x, hx', .inl heq⟩)
    · exact hmoves.holds.apart x hx' y hy'
  · rcases mem_objects_cons.mp ho with ho | ho
    · exact mem_objects_cons.mpr (.inl ho)
    · exact mem_objects_cons.mpr (.inr (hmoves.sub o ho hlt))
  · rw [hmoves.live o hlt, mem_objects_cons, mem_objects_cons]
    refine and_congr_right fun _ => ⟨fun hkeep ho => ho.imp_right hkeep, fun hkeep ho => ?_⟩
    rcases hkeep (.inr ho) with (rfl | rfl) | ho'
    · exact absurd ho hptr
    · exact absurd ho heid
    · exact ho'

/-- Nothing is lost. -/
theorem settled (hmoves : Moves h l h' l') (hl : Holds h l) (hsound : h.fault = false) :
    Settled l l' h' where
  once := hmoves.fault.trans hsound
  live o ho := by
    rw [hmoves.live o (h.fresh o (hl.live o ho))]
    exact ⟨fun hkeep => hkeep.2 ho, fun hkeep => ⟨hl.live o ho, fun _ => hkeep⟩⟩
  left := hmoves.holds.live

/-- Objects of the first element are freed. -/
theorem of_freed (ps : List Nat) (hl : Holds h (e :: l)) (hfault : h'.fault = h.fault)
    (hnext : h'.next = h.next)
    (hlive : ∀ o, h'.live o = true ↔ h.live o = true ∧ o ∉ ps)
    (hgone : ∀ o ∈ ps, o ∉ objects l) (hfirst : ∀ o ∈ ps, e.ptr = o ∨ e.eid = o)
    (hrest : ∀ o, e.ptr = o ∨ e.eid = o → o ∉ ps → o ∈ objects l) : Moves h (e :: l) h' l where
  fault := hfault
  next := Nat.le_of_eq hnext.symm
  holds := hl.tail.of_live fun o ho => (hlive o).mpr
    ⟨hl.tail.live o ho, fun hps => hgone o hps ho⟩
  sub o ho _ := mem_objects_cons.mpr (.inr ho)
  live o _ := by
    rw [hlive, mem_objects_cons]
    refine and_congr_right fun _ => ⟨fun hps ho => ?_, fun hkeep hps => ?_⟩
    · exact ho.elim (fun ho => hrest o ho hps) id
    · exact hgone o hps (hkeep (.inl (hfirst o hps)))

/-- An element is freed, whose EID another one has. -/
theorem free_ptr (hl : Holds h (e :: l)) (heid : e.eid ∈ l.map (·.eid)) :
    Moves h (e :: l) (h.free (some e.ptr)) l := by
  have hptrLive := hl.ptr_live (e := e) List.mem_cons_self
  refine of_freed [e.ptr] hl (Heap.fault_free ?_) Heap.next_free ?_ ?_ ?_ ?_
  · rintro a ha
    rwa [← Option.some.inj ha]
  · intro o
    rw [Heap.live_free, List.mem_singleton, Ne, Option.some.injEq, eq_comm (a := o)]
  · intro o ho
    rw [List.mem_singleton.mp ho]
    exact hl.ptr_not_mem
  · intro o ho
    exact .inl (List.mem_singleton.mp ho).symm
  · rintro o (rfl | rfl) hps
    · exact absurd (List.mem_singleton_self _) hps
    · exact List.mem_append_right _ heid

/-- An element is freed together with its EID. -/
theorem free_both (hl : Holds h (e :: l)) (heid : e.eid ∉ l.map (·.eid)) :
    Moves h (e :: l) ((h.free (some e.eid)).free (some e.ptr)) l := by
  have hptrLive := hl.ptr_live (e := e) List.mem_cons_self
  have heidLive := hl.eid_live (e := e) List.mem_cons_self
  have hne := hl.apart e List.mem_cons_self e List.mem_cons_self
  have hfirst : (h.free (some e.eid)).fault = h.fault := Heap.fault_free fun a ha =>
    Option.some.inj ha ▸ heidLive
  refine of_freed [e.eid, e.ptr] hl ((Heap.fault_free ?_).trans hfirst)
    (Heap.next_free.trans Heap.next_free) ?_ ?_ ?_ ?_
  · rintro a ha
    obtain rfl := Option.some.inj ha
    exact Heap.live_free.mpr ⟨hptrLive, fun heq => hne (Option.some.inj heq).symm⟩
  · intro o
    rw [Heap.live_free, Heap.live_free, and_assoc]
    simp only [List.mem_cons, List.not_mem_nil, or_false, not_or, ne_eq, Option.some.injEq,
      eq_comm]
  · intro o ho
    rcases List.mem_cons.mp ho with rfl | ho
    · exact hl.eid_not_mem heid
    · rw [List.mem_singleton.mp ho]
      exact hl.ptr_not_mem
  · intro o ho
    rcases List.mem_cons.mp ho with rfl | ho
    · exact .inr rfl
    · exact .inl (List.mem_singleton.mp ho).symm
  · rintro o (rfl | rfl) hps
    · exact absurd (List.mem_cons_of_mem _ (List.mem_singleton_self _)) hps
    · exact absurd List.mem_cons_self hps

theorem deny (hl : Holds h l) : Moves h l h.deny l :=
  ⟨rfl, Nat.le_succ _, hl.of_live hl.live, fun _ ho _ => ho, fun _ _ => by simp⟩

/-- A new element takes over the EID of one that is freed. -/
theorem grant (hl : Holds h (e :: l)) :
    Moves h (e :: l) (h.grant.free (some e.ptr)) (⟨h.next, e.eid⟩ :: l) := by
  have hptrLive := hl.ptr_live (e := e) List.mem_cons_self
  have hptr := hl.ptr_not_mem
  have hptrLt := h.fresh _ hptrLive
  have hself := hl.apart e List.mem_cons_self e List.mem_cons_self
  have holdLive : ∀ o ∈ objects (e :: l), o ≠ e.ptr →
      (h.grant.free (some e.ptr)).live o = true := fun o ho hne => Heap.live_free.mpr
    ⟨by simp [hl.live o ho], fun heq => hne (Option.some.inj heq).symm⟩
  have hlt : ∀ o ∈ objects (e :: l), o < h.next := fun o ho => h.fresh o (hl.live o ho)
  have hnew : h.next ∉ objects (e :: l) := fun ho => Nat.lt_irrefl _ (hlt _ ho)
  refine ⟨?_, ?_, ⟨fun o ho => ?_, ?_, ?_⟩, fun o ho hold => ?_, fun o hold => ?_⟩
  · refine (Heap.fault_free fun a ha => ?_).trans Heap.fault_grant
    rw [← Option.some.inj ha]
    simp [hptrLive]
  · rw [Heap.next_free, Heap.next_grant]
    exact Nat.le_succ _
  · rcases mem_objects_cons.mp ho with (rfl | rfl) | ho
    · refine Heap.live_free.mpr ⟨by simp, fun heq => ?_⟩
      exact Nat.ne_of_lt hptrLt (Option.some.inj heq)
    · exact holdLive _ (mem_objects_cons.mpr (.inl (.inr rfl))) (Ne.symm hself)
    · exact holdLive o (mem_objects_cons.mpr (.inr ho)) fun heq => hptr (heq ▸ ho)
  · refine List.nodup_cons.mpr ⟨fun hmem => hnew ?_, (List.nodup_cons.mp hl.ptrs).2⟩
    exact mem_objects_cons.mpr (.inr (List.mem_append_left _ hmem))
  · intro x hx y hy
    have heid : ∀ y ∈ (⟨h.next, e.eid⟩ : Elem) :: l, ∃ y' ∈ e :: l, y'.eid = y.eid := by
      intro y hy
      rcases List.mem_cons.mp hy with rfl | hy
      · exact ⟨e, List.mem_cons_self, rfl⟩
      · exact ⟨y, List.mem_cons_of_mem _ hy, rfl⟩
    obtain ⟨y', hy', heq⟩ := heid y hy
    rw [← heq]
    rcases List.mem_cons.mp hx with rfl | hx
    · exact fun heq' => hnew (mem_objects.mpr ⟨y', hy', .inr heq'.symm⟩)
    · exact hl.apart x (List.mem_cons_of_mem _ hx) y' hy'
  · rcases mem_objects_cons.mp ho with (rfl | rfl) | ho
    · exact absurd hold (Nat.lt_irrefl _)
    · exact mem_objects_cons.mpr (.inl (.inr rfl))
    · exact mem_objects_cons.mpr (.inr ho)
  · have hne : ¬ h.next = o := fun heq => Nat.lt_irrefl o (heq ▸ hold)
    rw [Heap.live_free, Heap.live_grant, mem_objects_cons, mem_objects_cons]
    have hbeq : (o == h.next) = false := beq_false_of_ne (Ne.symm hne)
    rw [hbeq, Bool.false_or, Ne, Option.some.injEq]
    refine and_congr_right fun _ => ⟨fun hptrNe ho => ?_, fun hkeep heq => ?_⟩
    · rcases ho with (hptr | heid) | ho
      · exact absurd hptr hptrNe
      · exact .inl (.inr heid)
      · exact .inr ho
    · subst heq
      rcases hkeep (.inl (.inl rfl)) with (hnext | heid) | ho
      · exact hne hnext
      · exact hself heid.symm
      · exact hptr ho

end Moves

/-! ## Union -/

variable {a b : List Elem} {eid : EidPtr}

theorem mem_eids (he : e ∈ l) : str e.eid ∈ eids str l := List.mem_map_of_mem he

theorem addSearch_cases (hlist : ∀ e ∈ l, h.live e.ptr = true ∧ h.live e.eid = true)
    (heid : h.live eid = true) :
    Owned.addSearch str h eid l = (h, some false) ∧ (∃ x ∈ l, x.eid = eid) ∨
    Owned.addSearch str h eid l = (h, some true) ∧
      (∃ x ∈ l, str x.eid = str eid ∧ x.eid ≠ eid) ∨
    Owned.addSearch str h eid l = (h, none) ∧ str eid ∉ eids str l := by
  induction l with
  | nil => exact .inr (.inr ⟨rfl, List.not_mem_nil⟩)
  | cons cur rest ih =>
    obtain ⟨hptr, hcur⟩ := hlist cur List.mem_cons_self
    rw [Owned.addSearch, Heap.use_of_live hptr, Heap.use_of_live hcur, Heap.use_of_live heid]
    dsimp only
    by_cases hsame : cur.eid = eid
    · rw [if_pos hsame]
      exact .inl ⟨rfl, cur, List.mem_cons_self, hsame⟩
    rw [if_neg hsame]
    by_cases hequal : str cur.eid = str eid
    · rw [if_pos hequal]
      exact .inr (.inl ⟨rfl, cur, List.mem_cons_self, hequal, hsame⟩)
    rw [if_neg hequal]
    rcases ih fun e he => hlist e (List.mem_cons_of_mem _ he) with
      ⟨hsearch, x, hx, heq⟩ | ⟨hsearch, x, hx, heq⟩ | ⟨hsearch, hnot⟩
    · exact .inl ⟨hsearch, x, List.mem_cons_of_mem _ hx, heq⟩
    · exact .inr (.inl ⟨hsearch, x, List.mem_cons_of_mem _ hx, heq⟩)
    · refine .inr (.inr ⟨hsearch, fun hmem => ?_⟩)
      rcases List.mem_cons.mp hmem with heq | hmem
      · exact hequal heq.symm
      · exact hnot hmem

variable (str granted) in
/-- A candidate is added, with an element of its own, if its EID is new and there is memory. -/
structure Added (h : Heap) (a : List Elem) (can : Elem) (b : List Elem) (h' : Heap)
    (a' : List Elem) : Prop where
  moves : Moves h (a ++ can :: b) h' (a' ++ b)
  next : h'.next = h.next + if str can.eid ∈ eids str a then 0 else 1
  eids : (eids str a').Perm ((if str can.eid ∉ eids str a ∧ granted h.next = true then
    [str can.eid] else []) ++ eids str a)

theorem endpointListFree_null {p : Nat} (hlive : h.live p = true) :
    Owned.endpointListFree h p none = h.free (some p) := by
  rw [Owned.endpointListFree, Heap.use_of_live hlive, Heap.free_none]

theorem live_free_eid {can : Elem} (hl : Holds h (can :: l)) :
    (h.free (some can.eid)).live can.ptr = true :=
  Heap.live_free.mpr ⟨hl.ptr_live List.mem_cons_self, fun heq =>
    hl.apart can List.mem_cons_self can List.mem_cons_self (Option.some.inj heq).symm⟩

section
variable (granted) {can x : Elem}

/-- The list has the string itself: the element is freed. -/
theorem added_same (hl : Holds h (can :: (a ++ b))) (hx : x ∈ a) (heq : x.eid = can.eid) :
    Added str granted h a can b (h.free (some can.ptr)) a := by
  have hknown : str can.eid ∈ eids str a := heq ▸ mem_eids hx
  refine ⟨(Moves.free_ptr hl ?_).perm List.perm_middle.symm (List.Perm.refl _), ?_, ?_⟩
  · exact List.mem_map.mpr ⟨x, List.mem_append_left _ hx, heq⟩
  · rw [if_pos hknown, Heap.next_free]
    rfl
  · rw [if_neg fun hnew => hnew.1 hknown]
    exact List.Perm.refl _

/-- It has another string with the EID: the element is freed with its own. -/
theorem added_equal (hl : Holds h (can :: (a ++ b))) (hknown : str can.eid ∈ eids str a)
    (hother : can.eid ∉ (a ++ b).map (·.eid)) :
    Added str granted h a can b ((h.free (some can.eid)).free (some can.ptr)) a := by
  refine ⟨(Moves.free_both hl hother).perm List.perm_middle.symm (List.Perm.refl _), ?_, ?_⟩
  · rw [if_pos hknown, Heap.next_free, Heap.next_free]
    rfl
  · rw [if_neg fun hnew => hnew.1 hknown]
    exact List.Perm.refl _

/-- The EID is new, and there is no memory for an element. -/
theorem added_denied (hl : Holds h (can :: (a ++ b))) (hnew : str can.eid ∉ eids str a)
    (hother : can.eid ∉ (a ++ b).map (·.eid)) (hmem : granted h.next = false) :
    Added str granted h a can b ((h.deny.free (some can.eid)).free (some can.ptr)) a := by
  have hdenied := Moves.deny hl
  have hfreed := hdenied.trans (Moves.free_both hdenied.holds hother)
  refine ⟨hfreed.perm List.perm_middle.symm (List.Perm.refl _), ?_, ?_⟩
  · rw [if_neg hnew, Heap.next_free, Heap.next_free]
    rfl
  · rw [if_neg fun hadd => Bool.false_ne_true (hmem.symm.trans hadd.2)]
    exact List.Perm.refl _

/-- The EID is new, and a new element takes it over. -/
theorem added_granted (hl : Holds h (can :: (a ++ b))) (hnew : str can.eid ∉ eids str a)
    (hmem : granted h.next = true) :
    Added str granted h a can b (h.grant.free (some can.ptr))
      (a.takeWhile (·.eid ≤ can.eid) ++ ⟨h.next, can.eid⟩ :: a.dropWhile (·.eid ≤ can.eid)) := by
  have hinsert : (a.takeWhile (·.eid ≤ can.eid) ++
      ⟨h.next, can.eid⟩ :: a.dropWhile (·.eid ≤ can.eid)).Perm (⟨h.next, can.eid⟩ :: a) := by
    have hsplit := List.takeWhile_append_dropWhile (p := (·.eid ≤ can.eid)) (l := a)
    exact List.perm_middle.trans (by rw [hsplit])
  refine ⟨(Moves.grant hl).perm List.perm_middle.symm (hinsert.append_right b).symm, ?_, ?_⟩
  · rw [if_neg hnew, Heap.next_free]
    rfl
  · rw [if_pos ⟨hnew, hmem⟩]
    exact hinsert.map _

theorem endpointListAdd_added (hl : Holds h (a ++ can :: b)) (ha : (eids str a).Nodup)
    (hb : (eids str (can :: b)).Nodup) :
    Added str granted h a can b
      (Owned.endpointListFree (Owned.endpointListAdd str granted (h.use (some can.ptr)) a
        can.eid).1 can.ptr none)
      (Owned.endpointListAdd str granted (h.use (some can.ptr)) a can.eid).2 := by
  have hl' : Holds h (can :: (a ++ b)) := hl.perm List.perm_middle
  have hptr := hl'.ptr_live (e := can) List.mem_cons_self
  have hlist : ∀ e ∈ a, h.live e.ptr = true ∧ h.live e.eid = true := fun e he =>
    ⟨hl.ptr_live (List.mem_append_left _ he), hl.eid_live (List.mem_append_left _ he)⟩
  -- Behind the candidate, only an element of the first list can have its string.
  have hother : (∀ x ∈ a, x.eid ≠ can.eid) → can.eid ∉ (a ++ b).map (·.eid) := by
    intro hnot hmem
    obtain ⟨x, hx, heq⟩ := List.mem_map.mp hmem
    rcases List.mem_append.mp hx with hx | hx
    · exact hnot x hx heq
    · exact (List.nodup_cons.mp hb).1 (List.mem_map.mpr ⟨x, hx, congrArg str heq⟩)
  rw [Heap.use_of_live hptr, Owned.endpointListAdd]
  rcases addSearch_cases hlist (hl'.eid_live List.mem_cons_self) with
    ⟨hsearch, x, hx, heq⟩ | ⟨hsearch, x, hx, heq, hdiff⟩ | ⟨hsearch, hnew⟩
  · rw [hsearch]
    dsimp only
    rw [endpointListFree_null hptr]
    exact added_same granted hl' hx heq
  · have hnot : ∀ y ∈ a, y.eid ≠ can.eid := fun y hy hsame => by
      have hxy := List.inj_on_of_nodup_map ha hx hy (heq.trans (congrArg str hsame.symm))
      exact hdiff (hxy ▸ hsame)
    rw [hsearch]
    dsimp only
    rw [endpointListFree_null (live_free_eid hl')]
    exact added_equal granted hl' (List.mem_map.mpr ⟨x, hx, heq⟩) (hother hnot)
  · have hnot : ∀ x ∈ a, x.eid ≠ can.eid := fun x hx heq => hnew (heq ▸ mem_eids hx)
    rw [hsearch]
    dsimp only
    cases hmem : granted h.next with
    | false =>
      rw [show h.malloc granted = (none, h.deny) from if_neg (by simp [hmem])]
      dsimp only
      rw [endpointListFree_null (live_free_eid (Moves.deny hl').holds)]
      exact added_denied granted hl' hnew (hother hnot) hmem
    | true =>
      rw [show h.malloc granted = (some h.next, h.grant) from if_pos hmem]
      dsimp only
      rw [endpointListFree_null (by simp [hptr])]
      exact added_granted granted hl' hnew hmem

end

/-- The EIDs of `b` that are new, as far as there is memory for their elements from the
address `next` on. -/
def newEids (str : EidPtr → Eid) (granted : Nat → Bool) (known : List Eid) :
    Nat → List Elem → List Eid
  | _, [] => []
  | next, can :: b =>
    if known.contains (str can.eid) then newEids str granted known next b
    else (if granted next then [str can.eid] else []) ++ newEids str granted known (next + 1) b

theorem newEids_cons (known : List Eid) (next : Nat) (can : Elem) (b : List Elem) :
    newEids str granted known next (can :: b) =
      if str can.eid ∈ known then newEids str granted known next b
      else (if granted next then [str can.eid] else []) ++
        newEids str granted known (next + 1) b := by
  simp only [newEids, List.contains_iff_mem]

theorem newEids_congr {known known' : List Eid} (next : Nat) (b : List Elem)
    (heq : ∀ e ∈ b, (str e.eid ∈ known ↔ str e.eid ∈ known')) :
    newEids str granted known next b = newEids str granted known' next b := by
  induction b generalizing next with
  | nil => rfl
  | cons can b ih =>
    have ih := fun next => ih next fun e he => heq e (List.mem_cons_of_mem _ he)
    rw [newEids_cons, newEids_cons, ih, ih]
    simp only [heq can List.mem_cons_self]

theorem newEids_sublist (known : List Eid) (next : Nat) (b : List Elem) :
    (newEids str granted known next b).Sublist (eids str b) := by
  induction b generalizing next with
  | nil => exact List.Sublist.slnil
  | cons can b ih =>
    rw [newEids_cons]
    split_ifs
    · exact (ih next).cons _
    · exact (ih (next + 1)).cons_cons _
    · exact (ih (next + 1)).cons _

theorem newEids_not_mem {known : List Eid} {next : Nat} {s : Eid}
    (hs : s ∈ newEids str granted known next b) : s ∉ known := by
  induction b generalizing next with
  | nil => cases hs
  | cons can b ih =>
    rw [newEids_cons] at hs
    split_ifs at hs with hknown hmem
    · exact ih hs
    · rcases List.mem_cons.mp hs with rfl | hs
      · exact hknown
      · exact ih hs
    · exact ih hs

variable (granted) in
theorem endpointListUnion_spec (hl : Holds h (a ++ b)) (ha : (eids str a).Nodup)
    (hb : (eids str b).Nodup) :
    Moves h (a ++ b) (Owned.endpointListUnion str granted h a b).1
        (Owned.endpointListUnion str granted h a b).2 ∧
      (eids str (Owned.endpointListUnion str granted h a b).2).Perm
        (newEids str granted (eids str a) h.next b ++ eids str a) := by
  induction b generalizing h a with
  | nil =>
    rw [List.append_nil] at hl ⊢
    exact ⟨Moves.refl hl, List.Perm.refl _⟩
  | cons can b ih =>
    have hadded := endpointListAdd_added granted hl ha hb
    rw [Owned.endpointListUnion]
    generalize Owned.endpointListFree (Owned.endpointListAdd str granted
      (h.use (some can.ptr)) a can.eid).1 can.ptr none = h' at hadded ⊢
    generalize (Owned.endpointListAdd str granted (h.use (some can.ptr)) a can.eid).2 = a'
      at hadded ⊢
    obtain ⟨hnew, hb'⟩ := List.nodup_cons.mp hb
    have ha' : (eids str a').Nodup := by
      refine hadded.eids.nodup_iff.mpr ?_
      split_ifs with hadd
      · exact List.nodup_cons.mpr ⟨hadd.1, ha⟩
      · exact ha
    obtain ⟨hmoves, heids⟩ := ih hadded.moves.holds ha' hb'
    refine ⟨hadded.moves.trans hmoves, heids.trans ?_⟩
    have hsame : newEids str granted (eids str a') h'.next b =
        newEids str granted (eids str a) h'.next b := by
      refine newEids_congr _ _ fun e he => ?_
      rw [hadded.eids.mem_iff]
      split_ifs
      · have hne : str e.eid ≠ str can.eid := fun heq =>
          hnew (List.mem_map.mpr ⟨e, he, heq⟩)
        simp [hne]
      · exact Iff.rfl
    rw [hsame, hadded.next, newEids_cons]
    refine (List.Perm.append_left _ hadded.eids).trans ?_
    by_cases hknown : str can.eid ∈ eids str a
    · rw [if_pos hknown, if_pos hknown, if_neg fun hadd => hadd.1 hknown]
      exact List.Perm.refl _
    · rw [if_neg hknown, if_neg hknown]
      simp only [hknown, not_false_eq_true, true_and]
      rw [← List.append_assoc]
      exact List.perm_append_comm.append_right _

/-- There is memory for an element for each new EID. -/
def RoomFor (str : EidPtr → Eid) (granted : Nat → Bool) (h : Heap) (a b : List Elem) : Prop :=
  ∀ k < (b.filter fun e => !(eids str a).contains (str e.eid)).length,
    granted (h.next + k) = true

theorem mem_newEids_iff {known : List Eid} (next : Nat) (hb : (eids str b).Nodup) :
    (∀ e ∈ b, str e.eid ∈ known ∨ str e.eid ∈ newEids str granted known next b) ↔
      ∀ k < (b.filter fun e => !known.contains (str e.eid)).length,
        granted (next + k) = true := by
  induction b generalizing next with
  | nil => simp
  | cons can b ih =>
    obtain ⟨hnew, hb'⟩ := List.nodup_cons.mp hb
    have hother : ∀ e ∈ b, str e.eid ≠ str can.eid := fun e he heq =>
      hnew (List.mem_map.mpr ⟨e, he, heq⟩)
    rw [newEids_cons, List.forall_mem_cons]
    by_cases hknown : str can.eid ∈ known
    · rw [List.filter_cons_of_neg (by simpa using hknown), if_pos hknown, ← ih next hb']
      simp only [hknown, true_or, true_and]
    · rw [List.filter_cons_of_pos (by simpa using hknown), if_neg hknown, List.length_cons]
      cases hmem : granted next with
      | true =>
        have hrest : (∀ e ∈ b, str e.eid ∈ known ∨ str e.eid ∈ (if true = true then
            [str can.eid] else []) ++ newEids str granted known (next + 1) b) ↔
            ∀ e ∈ b, str e.eid ∈ known ∨
              str e.eid ∈ newEids str granted known (next + 1) b := by
          refine forall₂_congr fun e he => ?_
          simp [hother e he]
        rw [hrest, ih (next + 1) hb']
        constructor
        · rintro ⟨-, hall⟩ k hk
          cases k with
          | zero => exact hmem
          | succ k =>
            rw [Nat.add_comm k 1, ← Nat.add_assoc]
            exact hall k (by omega)
        · intro hall
          refine ⟨.inr (by simp), fun k hk => ?_⟩
          rw [Nat.add_assoc, Nat.add_comm 1 k]
          exact hall (k + 1) (by omega)
      | false =>
        refine iff_of_false ?_ fun hall => ?_
        · rintro ⟨hcan | hcan, -⟩
          · exact hknown hcan
          · rw [if_neg Bool.false_ne_true, List.nil_append] at hcan
            exact hnew ((newEids_sublist _ _ _).subset hcan)
        · have hzero := hall 0 (Nat.succ_pos _)
          rw [Nat.add_zero, hmem] at hzero
          cases hzero

theorem unionRight_iff (hg : Given str h a b) :
    UnionRight str granted h a b ↔ RoomFor str granted h a b := by
  obtain ⟨hmoves, heids⟩ := endpointListUnion_spec granted hg.holds hg.first
    hg.second
  have hsettled := hmoves.settled hg.holds hg.sound
  rw [RoomFor, ← mem_newEids_iff _ hg.second]
  constructor
  · rintro ⟨⟨-, hexactly⟩, -⟩ e he
    have hmem := heids.mem_iff.mp ((hexactly (str e.eid)).mpr (.inr (mem_eids he)))
    exact (List.mem_append.mp hmem).symm
  · intro hroom
    refine ⟨⟨heids.nodup_iff.mpr ?_, fun s => ?_⟩, hsettled⟩
    · refine List.Nodup.append (hg.second.sublist (newEids_sublist _ _ _)) hg.first ?_
      exact fun s hs hknown => newEids_not_mem hs hknown
    · rw [heids.mem_iff, List.mem_append]
      constructor
      · rintro (hnew | hknown)
        · exact .inr ((newEids_sublist _ _ _).subset hnew)
        · exact .inl hknown
      · rintro (hknown | hs)
        · exact .inr hknown
        · obtain ⟨e, he, rfl⟩ := List.mem_map.mp hs
          exact (hroom e he).symm

/-! ## Difference -/

/-- What is found is freed, as far as it is an element. -/
theorem endpointListRemove_spec (hlist : ∀ e ∈ l, h.live e.ptr = true ∧ h.live e.eid = true)
    (heid : h.live eid = true) (hl : (eids str l).Nodup) :
    (Owned.endpointListRemove str h eid l).2 = l.filter (fun e => str e.eid ≠ str eid) ∧
      ((Owned.endpointListRemove str h eid l).1 = h ∧ str eid ∉ eids str l ∨
        ∃ x ∈ l, str x.eid = str eid ∧
          (Owned.endpointListRemove str h eid l).1 = h.free (some x.ptr)) := by
  induction l with
  | nil => exact ⟨rfl, .inl ⟨rfl, List.not_mem_nil⟩⟩
  | cons cur rest ih =>
    obtain ⟨hptr, hcur⟩ := hlist cur List.mem_cons_self
    obtain ⟨hnew, hrest⟩ := List.nodup_cons.mp hl
    rw [Owned.endpointListRemove, Heap.use_of_live hptr, Heap.use_of_live hcur,
      Heap.use_of_live heid]
    dsimp only
    by_cases hequal : str cur.eid = str eid
    · rw [if_pos hequal, List.filter_cons_of_neg (by simpa using hequal)]
      refine ⟨(List.filter_eq_self.mpr fun e he => ?_).symm,
        .inr ⟨cur, List.mem_cons_self, hequal, rfl⟩⟩
      have hne : str e.eid ≠ str eid := fun heq =>
        hnew (List.mem_map.mpr ⟨e, he, heq.trans hequal.symm⟩)
      simpa using hne
    · rw [if_neg hequal, List.filter_cons_of_pos (by simpa using hequal)]
      obtain ⟨hlist', hheap⟩ := ih (fun e he => hlist e (List.mem_cons_of_mem _ he)) hrest
      refine ⟨congrArg (cur :: ·) hlist', ?_⟩
      rcases hheap with ⟨hsame, hnot⟩ | ⟨x, hx, heq, hfree⟩
      · refine .inl ⟨hsame, fun hmem => ?_⟩
        rcases List.mem_cons.mp hmem with heq | hmem
        · exact hequal heq.symm
        · exact hnot hmem
      · exact .inr ⟨x, List.mem_cons_of_mem _ hx, heq, hfree⟩

/-- The elements of `a` with an EID that `b` does not have. -/
def unmatched (str : EidPtr → Eid) (a b : List Elem) : List Elem :=
  a.filter fun e => !(eids str b).contains (str e.eid)

/-- The address of an element of `a` with an EID that `b` has. -/
def Matched (str : EidPtr → Eid) (a b : List Elem) (o : Nat) : Prop :=
  ∃ x ∈ a, str x.eid ∈ eids str b ∧ x.ptr = o

theorem unmatched_cons (can : Elem) :
    unmatched str (a.filter fun e => str e.eid ≠ str can.eid) b = unmatched str a (can :: b) := by
  rw [unmatched, unmatched, List.filter_filter]
  refine List.filter_congr fun e _ => ?_
  rw [eids, eids, List.map_cons, Bool.eq_iff_iff]
  simp only [Bool.and_eq_true, Bool.not_eq_true', ← Bool.not_eq_true, List.contains_iff_mem,
    decide_eq_true_eq, List.mem_cons, not_or, ne_eq, and_comm]

theorem matched_cons (can : Elem) (o : Nat) :
    Matched str a (can :: b) o ↔ (∃ x ∈ a, str x.eid = str can.eid ∧ x.ptr = o) ∨
      Matched str (a.filter fun e => str e.eid ≠ str can.eid) b o := by
  simp only [Matched, eids, List.map_cons, List.mem_cons, List.mem_filter, decide_eq_true_eq]
  constructor
  · rintro ⟨x, hx, heq, hptr⟩
    by_cases hcan : str x.eid = str can.eid
    · exact .inl ⟨x, hx, hcan, hptr⟩
    · exact .inr ⟨x, ⟨hx, hcan⟩, heq.resolve_left hcan, hptr⟩
  · rintro (⟨x, hx, heq, hptr⟩ | ⟨x, ⟨hx, -⟩, hmem, hptr⟩)
    · exact ⟨x, hx, .inl heq, hptr⟩
    · exact ⟨x, hx, .inr hmem, hptr⟩

theorem Holds.sublist (hl : Holds h l) (hsub : m.Sublist l) : Holds h m where
  live o ho := by
    obtain ⟨e, he, heq⟩ := mem_objects.mp ho
    exact hl.live o (mem_objects.mpr ⟨e, hsub.subset he, heq⟩)
  ptrs := hl.ptrs.sublist (hsub.map _)
  apart e he e' he' := hl.apart e (hsub.subset he) e' (hsub.subset he')

/-- Two elements with the same address are the same. -/
theorem Holds.eq_of_ptr (hl : Holds h l) {e e' : Elem} (he : e ∈ l) (he' : e' ∈ l)
    (heq : e.ptr = e'.ptr) : e = e' := List.inj_on_of_nodup_map hl.ptrs he he' heq

theorem Holds.ptr_ne (hl : Holds h (a ++ b)) {e e' : Elem} (he : e ∈ a) (he' : e' ∈ b) :
    e.ptr ≠ e'.ptr := by
  have hnd := hl.ptrs
  rw [List.map_append] at hnd
  exact (List.nodup_append.mp hnd).2.2 _ (List.mem_map_of_mem he) _ (List.mem_map_of_mem he')

theorem endpointListFree_both (hptr : h.live e.ptr = true) (heid : h.live e.eid = true)
    (hne : e.ptr ≠ e.eid) :
    (Owned.endpointListFree h e.ptr (some e.eid)).fault = h.fault ∧
      ∀ o, (Owned.endpointListFree h e.ptr (some e.eid)).live o = true ↔
        h.live o = true ∧ ¬(e.ptr = o ∨ e.eid = o) := by
  have hptr' : (h.free (some e.eid)).live e.ptr = true :=
    Heap.live_free.mpr ⟨hptr, fun heq => hne (Option.some.inj heq).symm⟩
  rw [Owned.endpointListFree, Heap.use_of_live hptr]
  constructor
  · rw [Heap.fault_free fun a ha => Option.some.inj ha ▸ hptr',
      Heap.fault_free fun a ha => Option.some.inj ha ▸ heid]
  · intro o
    rw [Heap.live_free, Heap.live_free, and_assoc, not_or, and_comm (a := some e.eid ≠ some o)]
    simp only [ne_eq, Option.some.injEq]

/-- The heap behind `endpoint_list_remove`. -/
theorem heap_endpointListRemove (hlist : ∀ e ∈ a, h.live e.ptr = true ∧ h.live e.eid = true)
    (heid : h.live eid = true) (ha : (eids str a).Nodup) :
    (Owned.endpointListRemove str h eid a).1.fault = h.fault ∧
      ∀ o, (Owned.endpointListRemove str h eid a).1.live o = true ↔ h.live o = true ∧
        ¬ ∃ x ∈ a, str x.eid = str eid ∧ x.ptr = o := by
  rcases (endpointListRemove_spec hlist heid ha).2 with ⟨hsame, hnot⟩ | ⟨x, hx, heq, hfree⟩
  · rw [hsame]
    refine ⟨rfl, fun o => (and_iff_left ?_).symm⟩
    rintro ⟨x, hx, heq, -⟩
    exact hnot (List.mem_map.mpr ⟨x, hx, heq⟩)
  · rw [hfree]
    refine ⟨Heap.fault_free fun a ha => Option.some.inj ha ▸ (hlist x hx).1, fun o => ?_⟩
    rw [Heap.live_free, Ne, Option.some.injEq]
    refine and_congr_right fun _ => not_congr ⟨fun hptr => ⟨x, hx, heq, hptr⟩, ?_⟩
    rintro ⟨x', hx', heq', hptr⟩
    rwa [List.inj_on_of_nodup_map ha hx hx' (heq.trans heq'.symm)]

/-- One round: what was found in `a` is freed, and the candidate if it is asked for. -/
theorem heap_differenceRound {can : Elem} (freeB : Bool) (hl : Holds h (a ++ can :: b))
    (ha : (eids str a).Nodup) :
    ∃ h', (if freeB = true then
        Owned.endpointListFree (Owned.endpointListRemove str h can.eid a).1 can.ptr (some can.eid)
        else (Owned.endpointListRemove str h can.eid a).1.use (some can.ptr)) = h' ∧
      h'.fault = h.fault ∧
      ∀ o, h'.live o = true ↔ h.live o = true ∧
        (¬ ∃ x ∈ a, str x.eid = str can.eid ∧ x.ptr = o) ∧
          ¬ (freeB = true ∧ (can.ptr = o ∨ can.eid = o)) := by
  have hmid : can ∈ a ++ can :: b := List.mem_append_right _ List.mem_cons_self
  have hlist : ∀ e ∈ a, h.live e.ptr = true ∧ h.live e.eid = true := fun e he =>
    ⟨hl.ptr_live (List.mem_append_left _ he), hl.eid_live (List.mem_append_left _ he)⟩
  obtain ⟨hfault, hlive⟩ := heap_endpointListRemove hlist (hl.eid_live hmid) ha
  generalize (Owned.endpointListRemove str h can.eid a).1 = h₁ at hfault hlive ⊢
  have hptr : h₁.live can.ptr = true := (hlive _).mpr
    ⟨hl.ptr_live hmid, fun ⟨x, hx, _, heq⟩ => hl.ptr_ne hx List.mem_cons_self heq⟩
  have heid : h₁.live can.eid = true := (hlive _).mpr
    ⟨hl.eid_live hmid, fun ⟨x, hx, _, heq⟩ =>
      hl.apart x (List.mem_append_left _ hx) can hmid heq⟩
  refine ⟨_, rfl, ?_⟩
  cases freeB with
  | true =>
    obtain ⟨hfault', hlive'⟩ := endpointListFree_both hptr heid (hl.apart can hmid can hmid)
    rw [if_pos rfl]
    refine ⟨hfault'.trans hfault, fun o => ?_⟩
    rw [hlive', hlive, and_assoc]
    simp only [true_and]
  | false =>
    rw [if_neg Bool.false_ne_true, Heap.use_of_live hptr]
    refine ⟨hfault, fun o => ?_⟩
    rw [hlive]
    simp

/-- The objects of the next round are still there. -/
theorem holds_differenceRound {can : Elem} {freeB : Bool} (hl : Holds h (a ++ can :: b))
    (hb : str can.eid ∉ eids str b)
    (hlive : ∀ o, h'.live o = true ↔ h.live o = true ∧
      (¬ ∃ x ∈ a, str x.eid = str can.eid ∧ x.ptr = o) ∧
        ¬ (freeB = true ∧ (can.ptr = o ∨ can.eid = o))) :
    Holds h' (a.filter (fun e => str e.eid ≠ str can.eid) ++ b) := by
  have hl' : Holds h (can :: (a.filter (fun e => str e.eid ≠ str can.eid) ++ b)) :=
    (hl.perm List.perm_middle).sublist
      ((List.filter_sublist.append (List.Sublist.refl b)).cons_cons can)
  refine hl'.tail.of_live fun o ho => (hlive o).mpr ⟨hl'.tail.live o ho, ?_, ?_⟩
  · rintro ⟨x, hx, heq, rfl⟩
    obtain ⟨e, he, hptr | heid⟩ := mem_objects.mp ho
    · rcases List.mem_append.mp he with he | he
      · obtain ⟨he, hkept⟩ := List.mem_filter.mp he
        rw [hl.eq_of_ptr (List.mem_append_left _ he) (List.mem_append_left _ hx) hptr] at hkept
        exact absurd heq (of_decide_eq_true hkept)
      · exact hl.ptr_ne hx (List.mem_cons_of_mem _ he) hptr.symm
    · refine hl.apart x (List.mem_append_left _ hx) e ?_ heid.symm
      exact ((List.filter_sublist.append (List.sublist_cons_self can b)).subset he)
  · rintro ⟨-, rfl | rfl⟩
    · exact hl'.ptr_not_mem ho
    · refine hl'.eid_not_mem (fun hmem => ?_) ho
      obtain ⟨e, he, heq⟩ := List.mem_map.mp hmem
      rcases List.mem_append.mp he with he | he
      · exact of_decide_eq_true (List.mem_filter.mp he).2 (congrArg str heq)
      · exact hb (List.mem_map.mpr ⟨e, he, congrArg str heq⟩)

/-- The elements of `a` with an EID of `b` are freed, and `b` if it is asked for.  Their
strings are not. -/
theorem difference_spec (freeB : Bool) (hl : Holds h (a ++ b)) (ha : (eids str a).Nodup)
    (hb : (eids str b).Nodup) :
    (Owned.endpointListDifference str freeB h a b).2 = unmatched str a b ∧
      (Owned.endpointListDifference str freeB h a b).1.fault = h.fault ∧
      ∀ o, (Owned.endpointListDifference str freeB h a b).1.live o = true ↔
        h.live o = true ∧ ¬ Matched str a b o ∧ ¬ (freeB = true ∧ o ∈ objects b) := by
  induction b generalizing h a with
  | nil =>
    refine ⟨?_, rfl, fun o => ?_⟩
    · exact (List.filter_eq_self.mpr fun e _ => by simp [eids]).symm
    · simp [Owned.endpointListDifference, Matched, eids, objects]
  | cons can b ih =>
    obtain ⟨hnew, hb'⟩ := List.nodup_cons.mp hb
    have hmid : can ∈ a ++ can :: b := List.mem_append_right _ List.mem_cons_self
    have hlist : ∀ e ∈ a, h.live e.ptr = true ∧ h.live e.eid = true := fun e he =>
      ⟨hl.ptr_live (List.mem_append_left _ he), hl.eid_live (List.mem_append_left _ he)⟩
    obtain ⟨h', hround, hfault, hlive⟩ := heap_differenceRound freeB hl ha
    rw [Owned.endpointListDifference, Heap.use_of_live (hl.ptr_live hmid),
      (endpointListRemove_spec hlist (hl.eid_live hmid) ha).1, hround]
    obtain ⟨hlist', hfault', hlive'⟩ := ih (holds_differenceRound hl hnew hlive)
      (ha.sublist (List.filter_sublist.map _)) hb'
    refine ⟨hlist'.trans (unmatched_cons can), hfault'.trans hfault, fun o => ?_⟩
    rw [hlive', hlive, matched_cons, mem_objects_cons, and_assoc, and_assoc, not_or, and_assoc]
    refine and_congr_right fun _ => and_congr_right fun _ => ?_
    rw [and_left_comm, ← not_or, ← and_or_left]

/-- An EID that both lists have is the same string in both. -/
def SharedOnly (str : EidPtr → Eid) (a b : List Elem) : Prop :=
  ∀ x ∈ a, ∀ y ∈ b, str x.eid = str y.eid → x.eid = y.eid

theorem mem_unmatched : e ∈ unmatched str a b ↔ e ∈ a ∧ str e.eid ∉ eids str b := by
  rw [unmatched, List.mem_filter, Bool.not_eq_true', ← Bool.not_eq_true, List.contains_iff_mem]

theorem exactly_unmatched (ha : (eids str a).Nodup) :
    Exactly str (fun s => s ∈ eids str a ∧ s ∉ eids str b) (unmatched str a b) := by
  refine ⟨ha.sublist (List.filter_sublist.map _), fun s => ?_⟩
  constructor
  · intro hs
    obtain ⟨e, he, rfl⟩ := List.mem_map.mp hs
    obtain ⟨he, hnot⟩ := mem_unmatched.mp he
    exact ⟨mem_eids he, hnot⟩
  · rintro ⟨hs, hnot⟩
    obtain ⟨e, he, rfl⟩ := List.mem_map.mp hs
    exact mem_eids (mem_unmatched.mpr ⟨he, hnot⟩)

theorem mem_left {freeB : Bool} :
    e ∈ (if freeB = true then m else m ++ b) ↔ e ∈ m ∨ freeB = false ∧ e ∈ b := by
  cases freeB <;> simp

/-- What is left is none of what `difference_spec` says is freed. -/
theorem left_kept {freeB : Bool} (hl : Holds h (a ++ b))
    (ho : o ∈ objects (if freeB = true then unmatched str a b else unmatched str a b ++ b)) :
    o ∈ objects (a ++ b) ∧ ¬ Matched str a b o ∧ ¬ (freeB = true ∧ o ∈ objects b) := by
  obtain ⟨e, he, heq⟩ := mem_objects.mp ho
  replace he := mem_left.mp he
  have hmem : e ∈ a ++ b := by
    rcases he with he | ⟨-, he⟩
    · exact List.mem_append_left _ (mem_unmatched.mp he).1
    · exact List.mem_append_right _ he
  refine ⟨mem_objects.mpr ⟨e, hmem, heq⟩, ?_, ?_⟩
  · rintro ⟨x, hx, hknown, rfl⟩
    have hx' : x ∈ a ++ b := List.mem_append_left _ hx
    rcases heq with hptr | heid
    · rcases he with he | ⟨-, he⟩
      · rw [hl.eq_of_ptr hmem hx' hptr] at he
        exact (mem_unmatched.mp he).2 hknown
      · exact hl.ptr_ne hx he hptr.symm
    · exact hl.apart x hx' e hmem heid.symm
  · rintro ⟨rfl, hob⟩
    obtain ⟨y, hy, hyo⟩ := mem_objects.mp hob
    have hy' : y ∈ a ++ b := List.mem_append_right _ hy
    obtain ⟨hea, hnot⟩ := mem_unmatched.mp (he.resolve_right fun hfalse => nomatch hfalse.1)
    rcases heq with rfl | rfl <;> rcases hyo with hptr | heid
    · exact hl.ptr_ne hea hy hptr.symm
    · exact hl.apart e hmem y hy' heid.symm
    · exact hl.apart y hy' e hmem hptr
    · exact hnot (List.mem_map.mpr ⟨y, hy, congrArg str heid⟩)

/-- The string of an element that is removed is lost, unless it is one of `b`. -/
theorem sharedOnly_of_differenceRight {freeB : Bool} (hg : Given str h a b)
    (hright : DifferenceRight str h a b freeB) : SharedOnly str a b := by
  have hl := hg.holds
  obtain ⟨hlist, hfault, hlive⟩ := difference_spec freeB hl hg.first hg.second
  rw [DifferenceRight, hlist] at hright
  intro x hx y hy heq
  have hx' : x ∈ a ++ b := List.mem_append_left _ hx
  have hknown : str x.eid ∈ eids str b := List.mem_map.mpr ⟨y, hy, heq.symm⟩
  by_contra hne
  have hnotB : x.eid ∉ objects b := by
    intro ho
    obtain ⟨y', hy', hptr | heid⟩ := mem_objects.mp ho
    · exact hl.apart y' (List.mem_append_right _ hy') x hx' hptr
    · have hsame := List.inj_on_of_nodup_map hg.second hy' hy ((congrArg str heid).trans heq)
      exact hne (hsame ▸ heid.symm)
  have hleft := (hright.2.live _ (mem_objects.mpr ⟨x, hx', .inr rfl⟩)).mp <|
    (hlive _).mpr ⟨hl.eid_live hx', fun ⟨x', hx'', _, hptr⟩ =>
      hl.apart x' (List.mem_append_left _ hx'') x hx' hptr, fun hfreed => hnotB hfreed.2⟩
  obtain ⟨e, he, heq'⟩ := mem_objects.mp hleft
  rcases mem_left.mp he with he | ⟨-, he⟩
  · obtain ⟨hea, hnot⟩ := mem_unmatched.mp he
    rcases heq' with hptr | heid
    · exact hl.apart e (List.mem_append_left _ hea) x hx' hptr
    · exact hnot (heid ▸ hknown)
  · exact hnotB (mem_objects.mpr ⟨e, he, heq'⟩)

/-- What is neither freed as an element of `a` nor with `b` is left. -/
theorem left_of_kept {freeB : Bool} (hshared : SharedOnly str a b) (ho : o ∈ objects (a ++ b))
    (hnot : ¬ Matched str a b o) (hnotB : ¬ (freeB = true ∧ o ∈ objects b)) :
    o ∈ objects (if freeB = true then unmatched str a b else unmatched str a b ++ b) := by
  have hfromB : ∀ y ∈ b, y.ptr = o ∨ y.eid = o →
      o ∈ objects (if freeB = true then unmatched str a b else unmatched str a b ++ b) := by
    intro y hy hyo
    refine mem_objects.mpr ⟨y, mem_left.mpr (.inr ⟨?_, hy⟩), hyo⟩
    exact Bool.eq_false_iff.mpr fun hfree => hnotB ⟨hfree, mem_objects.mpr ⟨y, hy, hyo⟩⟩
  obtain ⟨e, he, heq⟩ := mem_objects.mp ho
  rcases List.mem_append.mp he with hea | heb
  · by_cases hknown : str e.eid ∈ eids str b
    · obtain ⟨y, hy, hsame⟩ := List.mem_map.mp hknown
      rcases heq with hptr | heid
      · exact absurd ⟨e, hea, hknown, hptr⟩ hnot
      · exact hfromB y hy (.inr ((hshared e hea y hy hsame.symm).symm.trans heid))
    · exact mem_objects.mpr ⟨e, mem_left.mpr (.inl (mem_unmatched.mpr ⟨hea, hknown⟩)), heq⟩
  · exact hfromB e heb heq

theorem differenceRight_iff {freeB : Bool} (hg : Given str h a b) :
    DifferenceRight str h a b freeB ↔ SharedOnly str a b := by
  refine ⟨sharedOnly_of_differenceRight hg, fun hshared => ?_⟩
  have hl := hg.holds
  obtain ⟨hlist, hfault, hlive⟩ := difference_spec freeB hl hg.first hg.second
  rw [DifferenceRight, hlist]
  refine ⟨exactly_unmatched hg.first, hfault.trans hg.sound, fun o ho => ?_, fun o ho => ?_⟩
  · rw [hlive]
    refine ⟨fun hkept => left_of_kept hshared ho hkept.2.1 hkept.2.2, fun hleft => ?_⟩
    exact ⟨hl.live o ho, (left_kept hl hleft).2⟩
  · obtain ⟨hmem, hkept⟩ := left_kept hl ho
    exact (hlive o).mpr ⟨hl.live o hmem, hkept⟩

/-! ## Stripping -/

theorem ages_endpointListFree (h : Heap) (p : Nat) (eid : Option EidPtr) :
    h.Ages (Owned.endpointListFree h p eid) :=
  ((Heap.ages_use _ _).trans (Heap.ages_free _ _)).trans (Heap.ages_free _ _)

/-- The four accesses of a comparison. -/
theorem ages_compare (h : Heap) (i cur : Elem) :
    h.Ages ((((h.use (some i.ptr)).use (some i.eid)).use (some cur.ptr)).use (some cur.eid)) :=
  ((Heap.ages_use _ _).trans (Heap.ages_use _ _)).trans
    ((Heap.ages_use _ _).trans (Heap.ages_use _ _))

variable (str) in
theorem stripOther_ages (h : Heap) (cur : Elem) (rest : List Elem) :
    h.Ages (Owned.stripOther str h cur rest).1 := by
  induction rest generalizing h with
  | nil => exact Heap.Ages.refl h
  | cons i rest ih =>
    rw [Owned.stripOther]
    split
    · exact ((ages_compare h i cur).trans (ages_endpointListFree _ _ _)).trans (ih _)
    · exact (ages_compare h i cur).trans (ih _)

theorem strip_ages (h : Heap) (list : List Elem) : h.Ages (Owned.strip str h list).1 := by
  fun_induction Owned.strip str h list with
  | case1 h => exact Heap.Ages.refl h
  | case2 h cur rest other stripped ih =>
    exact ((Heap.ages_use h _).trans (stripOther_ages str _ cur rest)).trans ih

theorem stripOther_list (h : Heap) (cur : Elem) (rest : List Elem) :
    (Owned.stripOther str h cur rest).2 = rest.filter (fun i => str i.eid ≠ str cur.eid) := by
  induction rest generalizing h with
  | nil => rfl
  | cons i rest ih =>
    rw [Owned.stripOther]
    split
    · rename_i heq
      rw [ih, List.filter_cons_of_neg (by simpa using heq)]
    · rename_i hne
      rw [List.filter_cons_of_pos (by simpa using hne), ← ih]

variable (str) in
/-- Each EID once. -/
theorem strip_exactly (h : Heap) (list : List Elem) :
    Exactly str (fun s => s ∈ eids str list) (Owned.strip str h list).2 := by
  fun_induction Owned.strip str h list with
  | case1 h => exact ⟨List.nodup_nil, fun _ => Iff.rfl⟩
  | case2 h cur rest other stripped ih =>
    have hlist : other.2 = rest.filter (fun i => str i.eid ≠ str cur.eid) :=
      stripOther_list _ cur rest
    have hmem : ∀ s, s ∈ eids str other.2 ↔ s ∈ eids str rest ∧ s ≠ str cur.eid := by
      intro s
      rw [hlist]
      simp only [eids, List.mem_map, List.mem_filter, decide_eq_true_eq]
      constructor
      · rintro ⟨i, ⟨hi, hne⟩, rfl⟩
        exact ⟨⟨i, hi, rfl⟩, hne⟩
      · rintro ⟨⟨i, hi, rfl⟩, hne⟩
        exact ⟨i, ⟨hi, hne⟩, rfl⟩
    refine ⟨List.nodup_cons.mpr ⟨fun hcur => ?_, ih.1⟩, fun s => ?_⟩
    · exact ((hmem _).mp ((ih.2 _).mp hcur)).2 rfl
    · have hrest := (ih.2 s).trans (hmem s)
      show s ∈ str cur.eid :: eids str stripped.2 ↔ s ∈ str cur.eid :: eids str rest
      rw [List.mem_cons, List.mem_cons, hrest]
      by_cases hs : s = str cur.eid <;> simp [hs]

/-- If no two elements share a string, the inner loop frees what it removes. -/
theorem stripOther_moves (hl : Holds h (cur :: rest))
    (heids : ((cur :: rest).map (·.eid)).Nodup) :
    Moves h (cur :: rest) (Owned.stripOther str h cur rest).1
      (cur :: (Owned.stripOther str h cur rest).2) := by
  induction rest generalizing h with
  | nil => exact Moves.refl hl
  | cons i rest ih =>
    have hswap : (cur :: i :: rest).Perm (i :: cur :: rest) := List.Perm.swap i cur rest
    have hl' := hl.perm hswap
    have heids' := (hswap.map (·.eid)).nodup_iff.mp heids
    obtain ⟨hi, hrest⟩ := List.nodup_cons.mp heids'
    rw [Owned.stripOther, Heap.use_of_live (hl'.ptr_live List.mem_cons_self),
      Heap.use_of_live (hl'.eid_live List.mem_cons_self),
      Heap.use_of_live (hl.ptr_live List.mem_cons_self),
      Heap.use_of_live (hl.eid_live List.mem_cons_self)]
    dsimp only
    split
    · rw [Owned.endpointListFree, Heap.use_of_live (hl'.ptr_live List.mem_cons_self)]
      have hfree := Moves.free_both hl' hi
      exact (hfree.trans (ih hfree.holds hrest)).perm hswap.symm (List.Perm.refl _)
    · exact ((ih hl'.tail hrest).cons hl' hi).perm hswap.symm (List.Perm.swap _ _ _)

variable (str) in
theorem strip_moves {list : List Elem} (hl : Holds h list) (heids : (list.map (·.eid)).Nodup) :
    Moves h list (Owned.strip str h list).1 (Owned.strip str h list).2 := by
  fun_induction Owned.strip str h list with
  | case1 h => exact Moves.refl hl
  | case2 h cur rest other stripped ih =>
    have huse := Heap.use_of_live (hl.ptr_live List.mem_cons_self)
    have hother : Moves h (cur :: rest) other.1 (cur :: other.2) := by
      simp only [other, huse]
      exact stripOther_moves hl heids
    have hsub : (cur :: other.2).Sublist (cur :: rest) :=
      (stripOther_list _ cur rest ▸ List.filter_sublist).cons_cons cur
    have heids' := heids.sublist (hsub.map (·.eid))
    have hrest := ih hother.holds.tail (List.nodup_cons.mp heids').2
    exact hother.trans (hrest.cons hother.holds (List.nodup_cons.mp heids').1)

variable (str) in
/-- A string that was freed is read again if another element has it. -/
theorem stripOther_fault {eid : EidPtr} (cur : Elem) (hdead : h.live eid = false)
    (hmem : eid ∈ rest.map (·.eid)) : (Owned.stripOther str h cur rest).1.fault = true := by
  induction rest generalizing h with
  | nil => cases hmem
  | cons i rest ih =>
    have hages := ages_compare h i cur
    rw [Owned.stripOther]
    rcases List.mem_cons.mp hmem with rfl | hmem
    · have hread : ((((h.use (some i.ptr)).use (some i.eid)).use (some cur.ptr)).use
          (some cur.eid)).fault = true := by
        have hdead' := (Heap.ages_use h (some i.ptr)).dead hdead
        exact ((Heap.ages_use _ _).trans (Heap.ages_use _ _)).fault
          (Heap.fault_use_of_dead hdead')
      split
      · exact (stripOther_ages str _ cur rest).fault ((ages_endpointListFree _ _ _).fault hread)
      · exact (stripOther_ages str _ cur rest).fault hread
    · split
      · exact ih ((hages.trans (ages_endpointListFree _ _ _)).dead hdead) hmem
      · exact ih (hages.dead hdead) hmem

theorem endpointListFree_dead (h : Heap) (p : Nat) (eid : EidPtr) :
    (Owned.endpointListFree h p (some eid)).live eid = false := by
  refine (Heap.ages_free _ _).dead (Bool.eq_false_iff.mpr fun hlive => ?_)
  exact (Heap.live_free.mp hlive).2 rfl

/-- Without a fault, and with the string of `cur` live, no string was shared. -/
theorem stripOther_nodup (hfault : (Owned.stripOther str h cur rest).1.fault = false)
    (hlive : (Owned.stripOther str h cur rest).1.live cur.eid = true)
    (hleft : ((cur :: (Owned.stripOther str h cur rest).2).map (·.eid)).Nodup) :
    ((cur :: rest).map (·.eid)).Nodup := by
  induction rest generalizing h with
  | nil => exact hleft
  | cons i rest ih =>
    have hcons : i.eid ∉ (cur :: rest).map (·.eid) → ((cur :: rest).map (·.eid)).Nodup →
        ((cur :: i :: rest).map (·.eid)).Nodup := fun hi hrest =>
      ((List.Perm.swap i cur rest).map (·.eid)).nodup_iff.mpr (List.nodup_cons.mpr ⟨hi, hrest⟩)
    rw [Owned.stripOther] at hfault hlive hleft
    dsimp only at hfault hlive hleft
    generalize (((h.use (some i.ptr)).use (some i.eid)).use (some cur.ptr)).use
      (some cur.eid) = h₁ at hfault hlive hleft
    have hfreed := endpointListFree_dead h₁ i.ptr i.eid
    split at hfault
    · rename_i hequal
      rw [if_pos hequal] at hlive hleft
      refine hcons (fun hmem => ?_) (ih hfault hlive hleft)
      rcases List.mem_cons.mp hmem with hcur | hmem
      · have hdead := (stripOther_ages str _ cur rest).dead hfreed
        have hread := congrArg
          (Owned.stripOther str (Owned.endpointListFree h₁ i.ptr (some i.eid)) cur rest).1.live
          hcur
        exact Bool.false_ne_true (hdead.symm.trans (hread.trans hlive))
      · have htrue := stripOther_fault str cur hfreed hmem
        exact Bool.false_ne_true (hfault.symm.trans htrue)
    · rename_i hdiffer
      rw [if_neg hdiffer] at hlive hleft
      have hswap := ((List.Perm.swap i cur _).map (·.eid)).nodup_iff.mp hleft
      obtain ⟨hi, hleft'⟩ := List.nodup_cons.mp hswap
      refine hcons (fun hmem => hi ?_) (ih hfault hlive hleft')
      rcases List.mem_cons.mp hmem with hcur | hmem
      · exact List.mem_cons.mpr (.inl hcur)
      · obtain ⟨e, he, heq⟩ := List.mem_map.mp hmem
        refine List.mem_cons_of_mem _ (List.mem_map.mpr ⟨e, ?_, heq⟩)
        rw [stripOther_list, List.mem_filter, decide_eq_true_eq]
        exact ⟨he, fun hequal => hdiffer ((congrArg str heq).symm.trans hequal)⟩

theorem strip_nodup {list : List Elem} (hfault : (Owned.strip str h list).1.fault = false)
    (hlive : ∀ e ∈ (Owned.strip str h list).2, (Owned.strip str h list).1.live e.eid = true) :
    (list.map (·.eid)).Nodup := by
  fun_induction Owned.strip str h list with
  | case1 h => exact List.nodup_nil
  | case2 h cur rest other stripped ih =>
    have hages : other.1.Ages stripped.1 := strip_ages other.1 other.2
    have hrest := ih hfault fun e he => hlive e (List.mem_cons_of_mem _ he)
    refine stripOther_nodup (hages.sound hfault) (hages.live _ (hlive cur List.mem_cons_self)) ?_
    refine List.nodup_cons.mpr ⟨fun hmem => ?_, hrest⟩
    obtain ⟨e, he, heq⟩ := List.mem_map.mp hmem
    rw [stripOther_list, List.mem_filter, decide_eq_true_eq] at he
    exact he.2 (congrArg str heq)

theorem stripRight_iff {el : List Elem} (hsound : h.fault = false) (hel : Holds h el) :
    StripRight str h el ↔ (el.map (·.eid)).Nodup := by
  have hperm := llsort_perm (·.eid) (Owned.strip str h el).2
  constructor
  · rintro ⟨-, hsettled⟩
    refine strip_nodup hsettled.once fun e he => hsettled.left _ ?_
    exact (mem_objects_perm hperm).mpr (mem_objects.mpr ⟨e, he, .inr rfl⟩)
  · intro heids
    have hmoves := (strip_moves str hel heids).perm (List.Perm.refl _) hperm.symm
    obtain ⟨hnodup, hmem⟩ := strip_exactly str h el
    refine ⟨⟨(hperm.map _).nodup_iff.mpr hnodup, fun s => ?_⟩, hmoves.settled hel hsound⟩
    rw [← hmem]
    exact (hperm.map _).mem_iff

/-- The operations on the lists of endpoints. -/
theorem endpointLists_iff {freeB : Bool} {el : List Elem} (hg : Given str h a b)
    (hel : Holds h el) :
    (UnionRight str granted h a b ↔ RoomFor str granted h a b) ∧
      (DifferenceRight str h a b freeB ↔ SharedOnly str a b) ∧
      (StripRight str h el ↔ (el.map (·.eid)).Nodup) :=
  ⟨unionRight_iff hg, differenceRight_iff hg, stripRight_iff hg.sound hel⟩

/-- Two elements and their strings. -/
def fourObjects : Heap := ⟨4, fun a => decide (a < 4), false, by simp⟩

theorem given_fourObjects : Given (fun _ => "dtn:a".toList) fourObjects [⟨0, 1⟩] [⟨2, 3⟩] where
  sound := rfl
  holds := ⟨by decide, by decide, by decide⟩
  first := List.nodup_singleton _
  second := List.nodup_singleton _

theorem endpointLists_iff_fourObjects :
    (UnionRight (fun _ => "dtn:a".toList) (fun _ => true) fourObjects [⟨0, 1⟩] [⟨2, 3⟩] ↔
        RoomFor (fun _ => "dtn:a".toList) (fun _ => true) fourObjects [⟨0, 1⟩] [⟨2, 3⟩]) ∧
      (DifferenceRight (fun _ => "dtn:a".toList) fourObjects [⟨0, 1⟩] [⟨2, 3⟩] true ↔
        SharedOnly (fun _ => "dtn:a".toList) [⟨0, 1⟩] [⟨2, 3⟩]) ∧
      (StripRight (fun _ => "dtn:a".toList) fourObjects [⟨0, 1⟩, ⟨2, 3⟩] ↔ [1, 3].Nodup) :=
  endpointLists_iff given_fourObjects given_fourObjects.holds

/-- The string of the element that is removed is in no list, and was not freed. -/
theorem not_differenceRight_fourObjects :
    Given (fun _ => "dtn:a".toList) fourObjects [⟨0, 1⟩] [⟨2, 3⟩] ∧
      (Owned.endpointListDifference (fun _ => "dtn:a".toList) true fourObjects [⟨0, 1⟩]
        [⟨2, 3⟩]).1.live 1 = true ∧
      ¬ DifferenceRight (fun _ => "dtn:a".toList) fourObjects [⟨0, 1⟩] [⟨2, 3⟩] true := by
  have hlive : (Owned.endpointListDifference (fun _ => "dtn:a".toList) true fourObjects
      [⟨0, 1⟩] [⟨2, 3⟩]).1.live 1 = true := by decide
  refine ⟨given_fourObjects, hlive, ?_⟩
  rintro ⟨-, hsettled⟩
  have hleft := (hsettled.live 1 (by decide)).mp hlive
  exact absurd hleft (by decide)

end Upcn.NodeLists
