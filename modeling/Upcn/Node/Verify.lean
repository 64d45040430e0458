import Mathlib.Data.List.Basic
import Mathlib.Data.List.Forall2
import Mathlib.Data.List.Perm.Basic
import Upcn.Node.Lists

/-!
# The verification of a node

`node_prepare_and_verify` compares each contact with those behind it, by whether the start
or the end of the first is within the second.  After sorting, this misses the pairs in
which the second lies strictly inside the first.
-/

namespace Upcn.NodeLists

variable {str : EidPtr → Eid}

/-! ## Sorting -/

theorem llsort_perm {α : Type} (key : α → Nat) (list : List α) : (llsort key list).Perm list :=
  List.mergeSort_perm list _

theorem llsort_sorted {α : Type} (key : α → Nat) (list : List α) :
    (llsort key list).Pairwise fun x y => key x ≤ key y := by
  have htrans : ∀ x y z : α, decide (key x ≤ key y) = true → decide (key y ≤ key z) = true →
      decide (key x ≤ key z) = true := fun x y z hxy hyz => by
    simp only [decide_eq_true_eq] at *
    omega
  have htotal : ∀ x y : α, (decide (key x ≤ key y) || decide (key y ≤ key x)) = true :=
    fun x y => by
      simp only [Bool.or_eq_true, decide_eq_true_eq]
      omega
  exact (List.pairwise_mergeSort htrans htotal list).imp fun hxy => by simpa using hxy

/-! ## Endpoint lists -/

/-- Each EID once, and the same EIDs. -/
structure Stripped (str : EidPtr → Eid) (old new : List EidPtr) : Prop where
  once : (new.map str).Nodup
  same : ∀ eid, eid ∈ new.map str ↔ eid ∈ old.map str

theorem mem_endpointListOther {cur i : EidPtr} {rest : List EidPtr} :
    i ∈ endpointListOther str cur rest ↔ i ∈ rest ∧ str i ≠ str cur := by
  simp [endpointListOther]

theorem endpointListStrip_subset (list : List EidPtr) :
    ∀ i ∈ endpointListStrip str list, i ∈ list := by
  fun_induction endpointListStrip str list with
  | case1 => simp
  | case2 cur rest ih =>
    intro i hi
    rcases List.mem_cons.mp hi with rfl | hi
    · exact List.mem_cons_self
    · exact List.mem_cons_of_mem _ (mem_endpointListOther.mp (ih i hi)).1

theorem endpointListStrip_stripped (list : List EidPtr) :
    Stripped str list (endpointListStrip str list) := by
  fun_induction endpointListStrip str list with
  | case1 => exact ⟨List.nodup_nil, fun _ => Iff.rfl⟩
  | case2 cur rest ih =>
    constructor
    · have hcur : str cur ∉ (endpointListStrip str (endpointListOther str cur rest)).map str := by
        intro hmem
        obtain ⟨i, hi, heq⟩ := List.mem_map.mp hmem
        exact (mem_endpointListOther.mp (endpointListStrip_subset _ i hi)).2 heq
      exact List.nodup_cons.mpr ⟨hcur, ih.once⟩
    · intro eid
      rw [List.map_cons, List.map_cons, List.mem_cons, List.mem_cons, ih.same]
      constructor
      · rintro (rfl | hmem)
        · exact .inl rfl
        · obtain ⟨i, hi, rfl⟩ := List.mem_map.mp hmem
          exact .inr (List.mem_map_of_mem (mem_endpointListOther.mp hi).1)
      · rintro (rfl | hmem)
        · exact .inl rfl
        · obtain ⟨i, hi, rfl⟩ := List.mem_map.mp hmem
          by_cases heq : str i = str cur
          · exact .inl heq
          · exact .inr (List.mem_map_of_mem (mem_endpointListOther.mpr ⟨hi, heq⟩))

/-- Sorting changes neither. -/
theorem endpointListStripAndSort_stripped (el : List EidPtr) :
    Stripped str el (endpointListStripAndSort str el) := by
  have hperm := (llsort_perm id (endpointListStrip str el)).map str
  have hstrip : Stripped str el _ := endpointListStrip_stripped el
  constructor
  · exact hperm.nodup_iff.mpr hstrip.once
  · exact fun eid => hperm.mem_iff.trans (hstrip.same eid)

/-! ## Overlapping contacts -/

namespace Contact

/-- The contacts intersect as closed intervals. -/
def Intersects (x y : Contact) : Prop := x.fromTime ≤ y.toTime ∧ y.fromTime ≤ x.toTime

/-- `x` lies strictly inside `y`. -/
def Inside (x y : Contact) : Prop := y.fromTime < x.fromTime ∧ x.toTime < y.toTime

/-- The contacts intersect, and neither lies strictly inside the other. -/
def Crosses (x y : Contact) : Prop := x.Intersects y ∧ ¬ x.Inside y ∧ ¬ y.Inside x

instance (x y : Contact) : Decidable (x.Intersects y) := inferInstanceAs (Decidable (_ ∧ _))

instance (x y : Contact) : Decidable (x.Inside y) := inferInstanceAs (Decidable (_ ∧ _))

instance (x y : Contact) : Decidable (x.Crosses y) := inferInstanceAs (Decidable (_ ∧ _))

theorem Crosses.symm {x y : Contact} (h : x.Crosses y) : y.Crosses x :=
  ⟨⟨h.1.2, h.1.1⟩, h.2.2, h.2.1⟩

end Contact

/-- What the test of a contact against a later one comes to. -/
theorem contactsOverlap_iff {x y : Contact} (hsorted : x.fromTime ≤ y.fromTime)
    (hx : x.fromTime < x.toTime) (hy : y.fromTime < y.toTime) :
    contactsOverlap x y = true ↔ x.Crosses y := by
  simp only [contactsOverlap, Contact.Crosses, Contact.Intersects, Contact.Inside,
    Bool.or_eq_true, Bool.and_eq_true, decide_eq_true_eq]
  omega

@[simp] theorem contactsOverlap_stripAndSort (x y : Contact) :
    contactsOverlap (x.stripAndSort str) y = contactsOverlap x y := rfl

/-! ## The loop -/

theorem verifyContacts_fst (list : List Contact) :
    (verifyContacts str list).1 = true ↔ list.Pairwise fun x y => contactsOverlap x y = false := by
  induction list with
  | nil => simp [verifyContacts]
  | cons c rest ih =>
    rw [List.pairwise_cons, ← ih, verifyContacts]
    by_cases hany : rest.any (contactsOverlap (c.stripAndSort str)) = true
    · rw [if_pos hany]
      obtain ⟨y, hy, hoverlap⟩ := List.any_eq_true.mp hany
      constructor
      · intro hfalse
        cases hfalse
      · rintro ⟨hnone, -⟩
        have hno := hnone y hy
        rw [contactsOverlap_stripAndSort] at hoverlap
        rw [hoverlap] at hno
        cases hno
    · rw [if_neg hany]
      have hnone : ∀ y ∈ rest, contactsOverlap c y = false := by
        simpa using hany
      exact ⟨fun h => ⟨hnone, h⟩, fun h => h.2⟩

theorem verifyContacts_snd {list : List Contact} (h : (verifyContacts str list).1 = true) :
    (verifyContacts str list).2 = list.map (Contact.stripAndSort str) := by
  induction list with
  | nil => rfl
  | cons c rest ih =>
    rw [verifyContacts] at h ⊢
    by_cases hany : rest.any (contactsOverlap (c.stripAndSort str)) = true
    · rw [if_pos hany] at h
      cases h
    · rw [if_neg hany] at h ⊢
      rw [List.map_cons]
      exact congrArg (List.cons _) (ih h)

/-! ## The node -/

/-- `new` is `old` sorted, with its lists of endpoints stripped. -/
structure Node.Prepared (str : EidPtr → Eid) (old new : Node) : Prop where
  endpoints : Stripped str old.endpoints new.endpoints
  sorted : new.contacts.Pairwise fun x y => x.fromTime ≤ y.fromTime
  contacts : ∃ list : List Contact, list.Perm old.contacts ∧
    List.Forall₂ (fun c c' => Stripped str c.contactEndpoints c'.contactEndpoints ∧
      c' = { c with contactEndpoints := c'.contactEndpoints }) list new.contacts

/-- A verified node is prepared. -/
theorem nodePrepareAndVerify_prepared {node : Node}
    (h : (nodePrepareAndVerify str node).1 = true) :
    node.Prepared str (nodePrepareAndVerify str node).2 := by
  have hcontacts : (nodePrepareAndVerify str node).2.contacts =
      (llsort Contact.fromTime node.contacts).map (Contact.stripAndSort str) :=
    verifyContacts_snd h
  constructor
  · exact endpointListStripAndSort_stripped node.endpoints
  · rw [hcontacts, List.pairwise_map]
    exact llsort_sorted Contact.fromTime node.contacts
  · refine ⟨llsort Contact.fromTime node.contacts, llsort_perm _ _, ?_⟩
    rw [hcontacts, List.forall₂_map_right_iff, List.forall₂_same]
    exact fun c _ => ⟨endpointListStripAndSort_stripped c.contactEndpoints, rfl⟩

/-- What the verification looks for. -/
theorem nodePrepareAndVerify_iff {node : Node}
    (hvalid : ∀ c ∈ node.contacts, c.fromTime < c.toTime) :
    (nodePrepareAndVerify str node).1 = true ↔
      node.contacts.Pairwise fun x y => ¬ x.Crosses y := by
  have hperm := llsort_perm Contact.fromTime node.contacts
  have hsorted := llsort_sorted Contact.fromTime node.contacts
  calc (nodePrepareAndVerify str node).1 = true
      ↔ (llsort Contact.fromTime node.contacts).Pairwise fun x y => contactsOverlap x y = false :=
        verifyContacts_fst (llsort Contact.fromTime node.contacts)
    _ ↔ (llsort Contact.fromTime node.contacts).Pairwise fun x y => ¬ x.Crosses y := by
        have hiff : ∀ {x y : Contact}, x ∈ llsort Contact.fromTime node.contacts →
            y ∈ llsort Contact.fromTime node.contacts → x.fromTime ≤ y.fromTime →
            (contactsOverlap x y = false ↔ ¬ x.Crosses y) := fun hx hy hle => by
          have hx := hvalid _ (hperm.mem_iff.mp hx)
          have hy := hvalid _ (hperm.mem_iff.mp hy)
          rw [← contactsOverlap_iff hle hx hy, Bool.not_eq_true]
        constructor
        · exact fun hpairs => (hsorted.and hpairs).imp_of_mem fun hx hy hxy =>
            (hiff hx hy hxy.1).mp hxy.2
        · exact fun hpairs => (hsorted.and hpairs).imp_of_mem fun hx hy hxy =>
            (hiff hx hy hxy.1).mpr hxy.2
    _ ↔ node.contacts.Pairwise fun x y => ¬ x.Crosses y :=
        hperm.pairwise_iff fun hxy hyx => hxy hyx.symm

/-- The node is accepted if and only if no two of its contacts intersect, and an accepted
node is prepared. -/
def VerifiedRightly (str : EidPtr → Eid) (node : Node) : Prop :=
  ((nodePrepareAndVerify str node).1 = true ↔
    node.contacts.Pairwise fun x y => ¬ x.Intersects y) ∧
  ((nodePrepareAndVerify str node).1 = true → node.Prepared str (nodePrepareAndVerify str node).2)

/-- The verification is right unless some contact lies strictly inside another and no two
cross. -/
theorem verifiedRightly_iff (str : EidPtr → Eid) (node : Node)
    (hvalid : ∀ c ∈ node.contacts, c.fromTime < c.toTime) :
    VerifiedRightly str node ↔
      (node.contacts.Pairwise fun x y => ¬ x.Inside y ∧ ¬ y.Inside x) ∨
        ¬ node.contacts.Pairwise fun x y => ¬ x.Crosses y := by
  rw [VerifiedRightly, and_iff_left nodePrepareAndVerify_prepared,
    nodePrepareAndVerify_iff hvalid]
  have hnone : (node.contacts.Pairwise fun x y => ¬ x.Intersects y) ↔
      (node.contacts.Pairwise fun x y => ¬ x.Inside y ∧ ¬ y.Inside x) ∧
        node.contacts.Pairwise fun x y => ¬ x.Crosses y := by
    rw [← List.pairwise_and_iff]
    have hiff : ∀ {x y : Contact}, x ∈ node.contacts → y ∈ node.contacts →
        (¬ x.Intersects y ↔ (¬ x.Inside y ∧ ¬ y.Inside x) ∧ ¬ x.Crosses y) := by
      intro x y hx hy
      have hx := hvalid x hx
      have hy := hvalid y hy
      simp only [Contact.Crosses, Contact.Intersects, Contact.Inside]
      omega
    constructor
    · exact fun h => h.imp_of_mem fun hx hy => (hiff hx hy).mp
    · exact fun h => h.imp_of_mem fun hx hy => (hiff hx hy).mpr
  rw [hnone]
  tauto

/-- A contact without endpoints. -/
def Contact.between (fromTime toTime : Nat) : Contact where
  fromTime := fromTime
  toTime := toTime
  bitrate := 100
  totalCapacity := 0
  remainingCapacityP0 := 0
  remainingCapacityP1 := 0
  remainingCapacityP2 := 0
  contactEndpoints := []
  active := false

/-- A contact that lies inside another one goes unnoticed. -/
theorem not_verifiedRightly_inside :
    ¬ VerifiedRightly (fun _ => []) ⟨[], [.between 1 10, .between 3 5]⟩ := by
  intro h
  have hverified :
      (nodePrepareAndVerify (fun _ => []) ⟨[], [.between 1 10, .between 3 5]⟩).1 = true :=
    (nodePrepareAndVerify_iff (by decide)).mpr (by decide)
  exact absurd (h.1.mp hverified) (by decide)

theorem verifiedRightly_iff_apart :
    VerifiedRightly (fun _ => []) ⟨[1, 2], [.between 3 5, .between 6 7]⟩ :=
  (verifiedRightly_iff (fun _ => []) ⟨[1, 2], [.between 3 5, .between 6 7]⟩ (by decide)).mpr
    (.inl (by decide))

end Upcn.NodeLists
