import Mathlib.Data.List.Basic
import Mathlib.Tactic.Linarith
import Upcn.Lib.Outcome
import Upcn.Router.Table

/-!
# Admission to the contact list

What `check_for_invalid_overlaps` tells, and what the insertion of a contact
keeps.

* `Owned` says how nodes, contacts and lists refer to each other.
* `Admitted` is the property of the global contact list: it is sorted, the
  contacts of one node do not overlap, and at no time too many contacts are
  in progress.
* `checkForInvalidOverlaps_false` is the specification of the check.  The
  counter of the code has eight bits, so it only bounds the number of
  overlaps modulo 256.
-/

namespace Upcn

namespace RoutingTable

variable {t t' : RoutingTable} {maxConcurrentContacts : Nat} {mem : Memory}
  {c d : ContactPtr} {n : NodePtr} {k e : Contact}

/-! ## The contact list -/

/-- The time that a list is ordered by. -/
def keyOf (t : RoutingTable) (key : Contact → Nat) (c : ContactPtr) : Nat :=
  (t.contacts c).elim 0 key

/-- The list is ordered by `key`. -/
def SortedBy (t : RoutingTable) (key : Contact → Nat) (list : List ContactPtr) :
    Prop :=
  list.Pairwise fun c d => t.keyOf key c ≤ t.keyOf key d

theorem keyOf_of_some (h : t.contacts c = some k) (key : Contact → Nat) :
    t.keyOf key c = key k := by
  rw [keyOf, h]
  rfl

/-- Both contacts are in progress at some time. -/
def Contact.overlaps (e k : Contact) : Bool :=
  decide (e.fromTime < k.toTime) && decide (k.fromTime < e.toTime)

/-- The contact at `c` is in progress at `time`. -/
def inProgress (t : RoutingTable) (time : Nat) (c : ContactPtr) : Bool :=
  (t.contacts c).any fun k => decide (k.fromTime ≤ time) && decide (time < k.toTime)

/-- The contact at `c` overlaps `k`. -/
def overlapping (t : RoutingTable) (k : Contact) (c : ContactPtr) : Bool :=
  (t.contacts c).any fun e => Contact.overlaps e k

/-- The property that the check is for. -/
structure Admitted (t : RoutingTable) (maxConcurrentContacts : Nat) : Prop where
  /-- The global list is sorted by start time. -/
  sorted : t.SortedBy (·.fromTime) t.contactList
  /-- Two contacts of one node do not overlap in more than a point. -/
  apart : ∀ c ∈ t.contactList, ∀ d ∈ t.contactList, c ≠ d → ∀ k e,
    t.contacts c = some k → t.contacts d = some e → k.node = e.node →
    ¬ max k.fromTime e.fromTime < min k.toTime e.toTime
  /-- At no time more contacts are in progress than there may be. -/
  bounded : ∀ time, t.contactList.countP (t.inProgress time)
    ≤ maxConcurrentContacts

/-- How nodes, contacts and the two global lists refer to each other. -/
structure Owned (t : RoutingTable) : Prop where
  nodup : t.nodeList.Nodup
  node : ∀ n ∈ t.nodeList, ∃ node, t.nodes n = some node ∧ node.contacts.Nodup ∧
    ∀ c ∈ node.contacts, ∃ k, t.contacts c = some k ∧ k.node = some n
  listed : ∀ c ∈ t.contactList, ∃ n ∈ t.nodeList, ∃ node, t.nodes n = some node ∧
    c ∈ node.contacts
  list : t.contactList.Nodup

theorem Owned.contact (h : t.Owned) (hc : c ∈ t.contactList) :
    ∃ k n node, t.contacts c = some k ∧ k.node = some n ∧ n ∈ t.nodeList ∧
      t.nodes n = some node ∧ c ∈ node.contacts := by
  obtain ⟨n, hn, node, hnode, hmem⟩ := h.listed c hc
  obtain ⟨node', hnode', -, hall⟩ := h.node n hn
  obtain rfl : node = node' := Option.some.inj (hnode.symm.trans hnode')
  obtain ⟨k, hk, hkn⟩ := hall c hmem
  exact ⟨k, n, node, hk, hkn, hn, hnode, hmem⟩

theorem Owned.live (h : t.Owned) (hc : c ∈ t.contactList) :
    ∃ k, t.contacts c = some k := by
  obtain ⟨k, -, -, hk, -⟩ := h.contact hc
  exact ⟨k, hk⟩

/-- Everything but the hash table is the same. -/
structure SameLists (t t' : RoutingTable) : Prop where
  nodes : t'.nodes = t.nodes
  contacts : t'.contacts = t.contacts
  nodeList : t'.nodeList = t.nodeList
  contactList : t'.contactList = t.contactList

theorem SameLists.refl (t : RoutingTable) : t.SameLists t := ⟨rfl, rfl, rfl, rfl⟩

theorem SameLists.trans {t'' : RoutingTable} (h : t.SameLists t')
    (h' : t'.SameLists t'') : t.SameLists t'' :=
  ⟨h'.nodes.trans h.nodes, h'.contacts.trans h.contacts,
    h'.nodeList.trans h.nodeList, h'.contactList.trans h.contactList⟩

/-! ## The place of a contact in an ordered list -/

/-- `findPlace` finds the contact in the list, or a place that keeps the list
ordered. -/
theorem findPlace_spec {key : Contact → Nat} {list : List ContactPtr}
    {place : Option (List ContactPtr)} (h : t.findPlace key c list = some place)
    (hc : t.contacts c = some k) (hsorted : t.SortedBy key list) :
    (place = none ∧ c ∈ list) ∨
      ∃ list', place = some list' ∧ c ∉ list ∧ list'.Perm (c :: list) ∧
        t.SortedBy key list' ∧ list.Sublist list' := by
  induction list generalizing place with
  | nil =>
    obtain rfl := Option.some.inj h
    exact .inr ⟨[c], rfl, by simp, List.Perm.refl _, List.pairwise_singleton _ _,
      List.nil_sublist _⟩
  | cons d rest ih =>
    rw [findPlace] at h
    split at h
    · rename_i hdc
      obtain rfl := Option.some.inj h
      exact .inl ⟨rfl, by simp [hdc]⟩
    · rename_i hdc
      obtain ⟨e, he, h⟩ := Option.bind_eq_some_iff.mp h
      obtain ⟨k', hk', h⟩ := Option.bind_eq_some_iff.mp h
      obtain rfl : k = k' := Option.some.inj (hc.symm.trans hk')
      have hrest : t.SortedBy key rest := List.Pairwise.of_cons hsorted
      have hd := (List.pairwise_cons.mp hsorted).1
      split at h
      · rename_i hlt
        obtain rfl := Option.some.inj h
        have hkd : t.keyOf key c < t.keyOf key d := by
          rw [keyOf_of_some hc, keyOf_of_some he]
          exact hlt
        refine .inr ⟨c :: d :: rest, rfl, ?_, List.Perm.refl _, ?_,
          List.sublist_cons_self _ _⟩
        · intro hmem
          rcases List.mem_cons.mp hmem with rfl | hmem
          · exact hdc rfl
          · have hle := hd c hmem
            omega
        · refine List.Pairwise.cons ?_ hsorted
          intro x hx
          rcases List.mem_cons.mp hx with rfl | hx
          · omega
          · have hle := hd x hx
            omega
      · rename_i hle
        obtain ⟨place', hplace, h⟩ := Option.bind_eq_some_iff.mp h
        obtain rfl := Option.some.inj h
        rcases ih hplace hrest with ⟨rfl, hmem⟩ | ⟨list', rfl, hnot, hperm, hs, hsub⟩
        · exact .inl ⟨rfl, List.mem_cons_of_mem _ hmem⟩
        · refine .inr ⟨d :: list', rfl, ?_, ?_, ?_, hsub.cons_cons d⟩
          · intro hmem
            rcases List.mem_cons.mp hmem with rfl | hmem
            · exact hdc rfl
            · exact hnot hmem
          · exact (hperm.cons d).trans (List.Perm.swap c d rest)
          · refine List.Pairwise.cons ?_ hs
            intro x hx
            rcases List.mem_cons.mp (hperm.mem_iff.mp hx) with rfl | hx
            · rw [keyOf_of_some hc, keyOf_of_some he]
              omega
            · exact hd x hx

/-! ## The check -/

/-- The number of listed contacts that overlap `k`. -/
def overlapCount (t : RoutingTable) (k : Contact) : Nat :=
  t.contactList.countP (t.overlapping k)

theorem overlapping_of_some (h : t.contacts c = some e) (k : Contact) :
    t.overlapping k c = Contact.overlaps e k := by
  rw [overlapping, h]
  rfl

theorem not_overlapping_of_key (h : t.contacts c = some e)
    (hle : k.toTime ≤ e.fromTime) : t.overlapping k c = false := by
  rw [overlapping_of_some h]
  simp only [Contact.overlaps, Bool.and_eq_false_iff, decide_eq_false_iff_not]
  omega

/-- In an ordered list, the contacts behind one that starts at the end of `k`
or later do not overlap `k`. -/
theorem countP_overlapping_of_later {list : List ContactPtr}
    (hlive : ∀ c ∈ list, ∃ k, t.contacts c = some k)
    (hsorted : t.SortedBy (·.fromTime) (c :: list)) (h : t.contacts c = some e)
    (hle : k.toTime ≤ e.fromTime) :
    ∀ d ∈ c :: list, t.overlapping k d = false := by
  intro d hd
  rcases List.mem_cons.mp hd with rfl | hd
  · exact not_overlapping_of_key h hle
  · obtain ⟨e', he'⟩ := hlive d hd
    have hkey := (List.pairwise_cons.mp hsorted).1 d hd
    rw [keyOf_of_some h, keyOf_of_some he'] at hkey
    exact not_overlapping_of_key he' (by omega)

theorem countOverlaps_false {list : List ContactPtr} {overlaps : UInt8}
    (hlive : ∀ c ∈ list, ∃ k, t.contacts c = some k)
    (hsorted : t.SortedBy (·.fromTime) list)
    (h : t.countOverlaps maxConcurrentContacts k list overlaps = some false) :
    (∀ c ∈ list, ∀ e, t.contacts c = some e → Contact.overlaps e k = true →
        e.node ≠ k.node) ∧
      (overlaps.toNat + list.countP (t.overlapping k)) % 256
        < maxConcurrentContacts := by
  induction list generalizing overlaps with
  | nil =>
    have hlt : ¬ maxConcurrentContacts ≤ overlaps.toNat := by
      simpa [countOverlaps] using h
    have h256 := overlaps.toNat_lt
    refine ⟨by simp, ?_⟩
    rw [List.countP_nil, Nat.add_zero, Nat.mod_eq_of_lt h256]
    omega
  | cons d rest ih =>
    obtain ⟨e, he⟩ := hlive d List.mem_cons_self
    have hrest : ∀ c ∈ rest, ∃ k, t.contacts c = some k :=
      fun c hc => hlive c (List.mem_cons_of_mem _ hc)
    have hsr : t.SortedBy (·.fromTime) rest := List.Pairwise.of_cons hsorted
    rw [countOverlaps, he] at h
    simp only [Option.bind_eq_bind, Option.bind_some] at h
    split at h
    · rename_i hfrom
      split at h
      · rename_i hto
        split at h
        · exact absurd h (by simp)
        · rename_i hnode
          obtain ⟨hall, hcount⟩ := ih hrest hsr h
          have hover : t.overlapping k d = true := by
            rw [overlapping_of_some he]
            simp [Contact.overlaps, hfrom, hto]
          refine ⟨?_, ?_⟩
          · intro c hc e' he' hover'
            rcases List.mem_cons.mp hc with rfl | hc
            · rw [he] at he'
              rw [← Option.some.inj he']
              exact hnode
            · exact hall c hc e' he' hover'
          · rw [List.countP_cons_of_pos hover]
            have hadd : (overlaps + 1).toNat = (overlaps.toNat + 1) % 256 := by
              rw [UInt8.toNat_add]
              rfl
            rw [hadd] at hcount
            omega
      · rename_i hto
        obtain ⟨hall, hcount⟩ := ih hrest hsr h
        have hover : ¬ t.overlapping k d = true := by
          rw [overlapping_of_some he]
          simp [Contact.overlaps, hto]
        refine ⟨?_, ?_⟩
        · intro c hc e' he' hover'
          rcases List.mem_cons.mp hc with rfl | hc
          · rw [overlapping_of_some he] at hover
            rw [he] at he'
            rw [← Option.some.inj he'] at hover'
            exact absurd hover' hover
          · exact hall c hc e' he' hover'
        · rw [List.countP_cons_of_neg hover]
          exact hcount
    · rename_i hfrom
      have hnone := countP_overlapping_of_later (k := k) hrest hsorted he (by omega)
      have hlt : ¬ maxConcurrentContacts ≤ overlaps.toNat := by simpa using h
      have h256 := overlaps.toNat_lt
      refine ⟨?_, ?_⟩
      · intro c hc e' he' hover'
        have hc' := hnone c hc
        rw [overlapping_of_some he', hover'] at hc'
        cases hc'
      · have hzero : (d :: rest).countP (t.overlapping k) = 0 :=
          List.countP_eq_zero.mpr fun x hx => by simp [hnone x hx]
        rw [hzero, Nat.add_zero, Nat.mod_eq_of_lt h256]
        omega

theorem skipPassed_spec {list list' : List ContactPtr}
    (h : t.skipPassed k list = some list') :
    ∃ passed, list = passed ++ list' ∧
      ∀ c ∈ passed, t.overlapping k c = false := by
  induction list with
  | nil =>
    obtain rfl := Option.some.inj h
    exact ⟨[], rfl, by simp⟩
  | cons d rest ih =>
    rw [skipPassed] at h
    obtain ⟨e, he, h⟩ := Option.bind_eq_some_iff.mp h
    split at h
    · rename_i hlt
      obtain ⟨passed, hpassed, hall⟩ := ih h
      refine ⟨d :: passed, by rw [hpassed, List.cons_append], ?_⟩
      intro c hc
      rcases List.mem_cons.mp hc with rfl | hc
      · rw [overlapping_of_some he]
        simp only [Contact.overlaps, Bool.and_eq_false_iff,
          decide_eq_false_iff_not]
        omega
      · exact hall c hc
    · obtain rfl := Option.some.inj h
      exact ⟨[], rfl, by simp⟩

/-- When the check finds nothing wrong, no listed contact of the node
overlaps `k`, and the number of contacts that do is below the limit modulo
256. -/
theorem checkForInvalidOverlaps_false (hpos : 0 < maxConcurrentContacts)
    (hlive : ∀ c ∈ t.contactList, ∃ k, t.contacts c = some k)
    (hsorted : t.SortedBy (·.fromTime) t.contactList)
    (h : t.checkForInvalidOverlaps maxConcurrentContacts k = some false) :
    (∀ c ∈ t.contactList, ∀ e, t.contacts c = some e →
        Contact.overlaps e k = true → e.node ≠ k.node) ∧
      t.overlapCount k % 256 < maxConcurrentContacts := by
  rw [checkForInvalidOverlaps] at h
  obtain ⟨list, hskip, h⟩ := Option.bind_eq_some_iff.mp h
  obtain ⟨passed, hlist, hpassed⟩ := skipPassed_spec hskip
  have hzero : passed.countP (t.overlapping k) = 0 :=
    List.countP_eq_zero.mpr fun x hx => by simp [hpassed x hx]
  have hnot : ∀ c ∈ passed, ∀ e, t.contacts c = some e →
      ¬ Contact.overlaps e k = true := by
    intro c hc e he hover
    have hfalse := hpassed c hc
    rw [overlapping_of_some he, hover] at hfalse
    cases hfalse
  have hlive' : ∀ c ∈ list, ∃ k, t.contacts c = some k :=
    fun c hc => hlive c (by rw [hlist]; exact List.mem_append_right _ hc)
  have hsorted' : t.SortedBy (·.fromTime) list := by
    rw [SortedBy, hlist] at hsorted
    exact (List.pairwise_append.mp hsorted).2.1
  suffices hsuff : (∀ c ∈ list, ∀ e, t.contacts c = some e →
      Contact.overlaps e k = true → e.node ≠ k.node) ∧
      list.countP (t.overlapping k) % 256 < maxConcurrentContacts by
    refine ⟨?_, ?_⟩
    · intro c hc e he hover
      rw [hlist] at hc
      rcases List.mem_append.mp hc with hc | hc
      · exact absurd hover (hnot c hc e he)
      · exact hsuff.1 c hc e he hover
    · rw [overlapCount, hlist, List.countP_append, hzero, Nat.zero_add]
      exact hsuff.2
  cases list with
  | nil => exact ⟨by simp, by simpa using hpos⟩
  | cons cur rest =>
    obtain ⟨e, he, h⟩ := Option.bind_eq_some_iff.mp h
    split at h
    · rename_i hle
      have hnone := countP_overlapping_of_later
        (fun c hc => hlive' c (List.mem_cons_of_mem _ hc)) hsorted' he hle
      refine ⟨?_, ?_⟩
      · intro c hc e' he' hover
        have hfalse := hnone c hc
        rw [overlapping_of_some he', hover] at hfalse
        cases hfalse
      · have hcount : (cur :: rest).countP (t.overlapping k) = 0 :=
          List.countP_eq_zero.mpr fun x hx => by simp [hnone x hx]
        rw [hcount]
        exact hpos
    · have hspec := countOverlaps_false hlive' hsorted' h
      simpa using hspec

/-! ## Insertion -/

/-- The eight bits of the counter are enough for the check of `k`: it does
not come out below the limit when there are more overlaps. -/
def CheckFits (t : RoutingTable) (maxConcurrentContacts : Nat) (k : Contact) :
    Prop :=
  t.overlapCount k % 256 < maxConcurrentContacts →
    t.overlapCount k < maxConcurrentContacts

theorem overlapping_of_inProgress {time : Nat} (hc : t.contacts c = some k)
    (htime : t.inProgress time c = true) (d : ContactPtr)
    (hd : t.inProgress time d = true) : t.overlapping k d = true := by
  simp only [inProgress, hc, Option.any_some, Bool.and_eq_true,
    decide_eq_true_eq] at htime
  cases he : t.contacts d with
  | none => simp [inProgress, he] at hd
  | some e =>
    simp only [inProgress, he, Option.any_some, Bool.and_eq_true,
      decide_eq_true_eq] at hd
    rw [overlapping_of_some he]
    simp only [Contact.overlaps, Bool.and_eq_true, decide_eq_true_eq]
    omega

/-- A contact that passes the check can be put into the list. -/
theorem Admitted.insert (hadm : t.Admitted maxConcurrentContacts)
    (hpos : 0 < maxConcurrentContacts)
    (hlive : ∀ c ∈ t.contactList, ∃ k, t.contacts c = some k)
    (hc : t.contacts c = some k) (hfits : t.CheckFits maxConcurrentContacts k)
    (hcheck : t.checkForInvalidOverlaps maxConcurrentContacts k = some false)
    {list : List ContactPtr} (hperm : list.Perm (c :: t.contactList))
    (hsorted : t.SortedBy (·.fromTime) list) :
    ({ t with contactList := list } : RoutingTable).Admitted
      maxConcurrentContacts := by
  obtain ⟨hnodes, hmod⟩ :=
    checkForInvalidOverlaps_false hpos hlive hadm.sorted hcheck
  have hcount := hfits hmod
  have hnew : ∀ d ∈ t.contactList, ∀ e, t.contacts d = some e →
      e.node = k.node → ¬ max k.fromTime e.fromTime < min k.toTime e.toTime := by
    intro d hd e he hnode hover
    refine hnodes d hd e he ?_ hnode
    simp only [Contact.overlaps, Bool.and_eq_true, decide_eq_true_eq]
    omega
  refine ⟨hsorted, ?_, fun time => ?_⟩
  · intro x hx y hy hne kx ky hkx hky hnode
    rcases List.mem_cons.mp (hperm.mem_iff.mp hx) with rfl | hx
    · obtain rfl : k = kx := Option.some.inj (hc.symm.trans hkx)
      rcases List.mem_cons.mp (hperm.mem_iff.mp hy) with rfl | hy
      · exact absurd rfl hne
      · exact hnew y hy ky hky hnode.symm
    · rcases List.mem_cons.mp (hperm.mem_iff.mp hy) with rfl | hy
      · obtain rfl : k = ky := Option.some.inj (hc.symm.trans hky)
        have hnot := hnew x hx kx hkx hnode
        rwa [max_comm, min_comm] at hnot
      · exact hadm.apart x hx y hy hne kx ky hkx hky hnode
  · have hbound := hadm.bounded time
    change list.countP (t.inProgress time) ≤ maxConcurrentContacts
    rw [hperm.countP_eq]
    by_cases htime : t.inProgress time c = true
    · rw [List.countP_cons_of_pos htime]
      have hle : t.contactList.countP (t.inProgress time) ≤ t.overlapCount k :=
        List.countP_mono_left fun d _ hd => overlapping_of_inProgress hc htime d hd
      omega
    · rw [List.countP_cons_of_neg htime]
      exact hbound

/-- The property only depends on the times and nodes of the contacts that are
listed, and it stays when some are taken out. -/
theorem Admitted.of_sublist (hadm : t.Admitted maxConcurrentContacts)
    (hsub : t'.contactList.Sublist t.contactList)
    (hsame : ∀ c ∈ t'.contactList, ∃ k k', t.contacts c = some k ∧
      t'.contacts c = some k' ∧ k'.fromTime = k.fromTime ∧
      k'.toTime = k.toTime ∧ k'.node = k.node) :
    t'.Admitted maxConcurrentContacts := by
  refine ⟨?_, ?_, fun time => ?_⟩
  · have hsorted := hadm.sorted.sublist hsub
    refine hsorted.imp_of_mem fun {c d} hc hd hle => ?_
    obtain ⟨k, k', hk, hk', hfrom, -⟩ := hsame c hc
    obtain ⟨e, e', he, he', hfrom', -⟩ := hsame d hd
    rw [keyOf_of_some hk, keyOf_of_some he] at hle
    rw [keyOf_of_some hk', keyOf_of_some he', hfrom, hfrom']
    exact hle
  · intro c hc d hd hne k' e' hk' he' hnode
    obtain ⟨k, k'', hk, hk'', hkf, hkt, hkn⟩ := hsame c hc
    obtain ⟨e, e'', he, he'', hef, het, hen⟩ := hsame d hd
    obtain rfl : k'' = k' := Option.some.inj (hk''.symm.trans hk')
    obtain rfl : e'' = e' := Option.some.inj (he''.symm.trans he')
    rw [hkf, hkt, hef, het]
    exact hadm.apart c (hsub.subset hc) d (hsub.subset hd) hne k e hk he
      (by rw [← hkn, ← hen, hnode])
  · have hcongr : t'.contactList.countP (t'.inProgress time)
        = t'.contactList.countP (t.inProgress time) := by
      refine List.countP_congr fun c hc => ?_
      obtain ⟨k, k', hk, hk', hf, ht, -⟩ := hsame c hc
      rw [inProgress, inProgress, hk, hk']
      simp only [Option.any_some, hf, ht]
    rw [hcongr]
    exact (hsub.countP_le).trans (hadm.bounded time)

/-! ## The hash table does not matter here -/

theorem addContactToNodeInHtab_same {eid : Eid}
    (h : t.addContactToNodeInHtab mem eid c = some t') : t.SameLists t' := by
  unfold addContactToNodeInHtab at h
  dsimp only at h
  split at h
  · obtain rfl := Option.some.inj h
    exact .refl t
  · obtain ⟨contacts, -, h⟩ := Option.bind_eq_some_iff.mp h
    obtain rfl := Option.some.inj h
    exact ⟨rfl, rfl, rfl, rfl⟩

theorem removeContactFromNodeInHtab_same (t : RoutingTable) (c : ContactPtr)
    (eid : Eid) : t.SameLists (t.removeContactFromNodeInHtab c eid) := by
  unfold removeContactFromNodeInHtab
  split
  · exact .refl t
  · split
    · dsimp only
      split <;> exact ⟨rfl, rfl, rfl, rfl⟩
    · exact .refl t

theorem link_same {eids : List Eid}
    (h : eids.foldlM (fun t eid => t.addContactToNodeInHtab mem eid c) t
      = some t') : t.SameLists t' :=
  Outcome.foldlM_some_induction (motive := fun _ s => t.SameLists s)
    (fun _ _ _ _ hs hstep => hs.trans (addContactToNodeInHtab_same hstep)) h
    (.refl t)

theorem unlink_same (t : RoutingTable) (c : ContactPtr) (eids : List Eid) :
    t.SameLists (eids.foldl (fun t eid => t.removeContactFromNodeInHtab c eid) t) := by
  induction eids generalizing t with
  | nil => exact .refl t
  | cons eid rest ih =>
    exact (removeContactFromNodeInHtab_same t c eid).trans (ih _)

theorem SameLists.owned (h : t.SameLists t') (ht : t.Owned) : t'.Owned where
  nodup := by
    rw [h.nodeList]
    exact ht.nodup
  node := by
    rw [h.nodeList, h.nodes, h.contacts]
    exact ht.node
  listed := by
    rw [h.contactList, h.nodeList, h.nodes]
    exact ht.listed
  list := by
    rw [h.contactList]
    exact ht.list

theorem SameLists.admitted (h : t.SameLists t') (hlive : ∀ c ∈ t.contactList,
    ∃ k, t.contacts c = some k) (ht : t.Admitted maxConcurrentContacts) :
    t'.Admitted maxConcurrentContacts := by
  refine ht.of_sublist (by rw [h.contactList]) fun c hc => ?_
  rw [h.contactList] at hc
  obtain ⟨k, hk⟩ := hlive c hc
  exact ⟨k, k, hk, by rw [h.contacts, hk], rfl, rfl, rfl⟩

/-! ## `add_node_to_tables` -/

/-- What the loop of `add_node_to_tables` does for one contact: nothing, or
the contact is put into its place in the global list. -/
theorem addContactToTables_spec {node : Node}
    (h : t.addContactToTables maxConcurrentContacts mem node c = some t') :
    ∃ k, t.contacts c = some k ∧
      ((t.checkForInvalidOverlaps maxConcurrentContacts k = some true ∧ t' = t) ∨
        t.checkForInvalidOverlaps maxConcurrentContacts k = some false ∧
          ∃ linked, (reachableEids node k).foldlM
              (fun t eid => t.addContactToNodeInHtab mem eid c) t = some linked ∧
            linked.addContactToOrderedList mem c = some t') := by
  obtain ⟨k, hk, h⟩ := Option.bind_eq_some_iff.mp h
  obtain ⟨check, hcheck, h⟩ := Option.bind_eq_some_iff.mp h
  refine ⟨k, hk, ?_⟩
  cases check with
  | true =>
    rw [if_pos rfl] at h
    exact .inl ⟨hcheck, (Option.some.inj h).symm⟩
  | false =>
    rw [if_neg (by simp)] at h
    obtain ⟨linked, hlinked, h⟩ := Option.bind_eq_some_iff.mp h
    exact .inr ⟨hcheck, linked, hlinked, h⟩

/-- `add_contact_to_ordered_list` leaves the list, or puts the contact into
its place. -/
theorem addContactToOrderedList_spec
    (h : t.addContactToOrderedList mem c = some t') (hc : t.contacts c = some k)
    (hsorted : t.SortedBy (·.fromTime) t.contactList) :
    (t' = t ∧ (c ∈ t.contactList ∨ mem.contactEntry c = false)) ∨
      ∃ list, t' = { t with contactList := list } ∧ c ∉ t.contactList ∧
        list.Perm (c :: t.contactList) ∧ t.SortedBy (·.fromTime) list := by
  obtain ⟨place, hplace, h⟩ := Option.bind_eq_some_iff.mp h
  rcases findPlace_spec hplace hc hsorted with
    ⟨rfl, hmem⟩ | ⟨list, rfl, hnot, hperm, hs, -⟩
  · exact .inl ⟨(Option.some.inj h).symm, .inl hmem⟩
  · dsimp only at h
    split at h
    · exact .inr ⟨list, (Option.some.inj h).symm, hnot, hperm, hs⟩
    · rename_i hentry
      exact .inl ⟨(Option.some.inj h).symm, .inr (by simpa using hentry)⟩

theorem Owned.insert (ht : t.Owned) {node : Node} (hn : n ∈ t.nodeList)
    (hnode : t.nodes n = some node) (hc : c ∈ node.contacts)
    (hnot : c ∉ t.contactList) {list : List ContactPtr}
    (hperm : list.Perm (c :: t.contactList)) :
    ({ t with contactList := list } : RoutingTable).Owned where
  nodup := ht.nodup
  node := ht.node
  listed := by
    intro d hd
    rcases List.mem_cons.mp (hperm.mem_iff.mp hd) with rfl | hd
    · exact ⟨n, hn, node, hnode, hc⟩
    · exact ht.listed d hd
  list := hperm.nodup_iff.mpr (List.nodup_cons.mpr ⟨hnot, ht.list⟩)

/-- What a contact of a listed node looks like. -/
theorem Owned.of_mem (ht : t.Owned) {node : Node} (hn : n ∈ t.nodeList)
    (hnode : t.nodes n = some node) (hc : c ∈ node.contacts) :
    ∃ k, t.contacts c = some k ∧ k.node = some n := by
  obtain ⟨node', hnode', -, hall⟩ := ht.node n hn
  obtain rfl : node = node' := Option.some.inj (hnode.symm.trans hnode')
  exact hall c hc

/-- One turn of the loop keeps the property of the global list. -/
theorem addContactToTables_keeps (hpos : 0 < maxConcurrentContacts)
    (ht : t.Owned) (hadm : t.Admitted maxConcurrentContacts) {node : Node}
    (hn : n ∈ t.nodeList) (hnode : t.nodes n = some node)
    (hc : c ∈ node.contacts)
    (hfits : ∀ k, t.contacts c = some k → t.CheckFits maxConcurrentContacts k)
    (h : t.addContactToTables maxConcurrentContacts mem node c = some t') :
    t'.Owned ∧ t'.Admitted maxConcurrentContacts ∧ t'.nodes = t.nodes ∧
      t'.contacts = t.contacts ∧ t'.nodeList = t.nodeList := by
  have hlive : ∀ c ∈ t.contactList, ∃ k, t.contacts c = some k :=
    fun c hc => ht.live hc
  obtain ⟨k, hk, ⟨-, rfl⟩ | ⟨hcheck, linked, hlinked, hadd⟩⟩ :=
    addContactToTables_spec h
  · exact ⟨ht, hadm, rfl, rfl, rfl⟩
  · have hsame := link_same hlinked
    have hkl : linked.contacts c = some k := by rw [hsame.contacts, hk]
    have hadml := hsame.admitted hlive hadm
    rcases addContactToOrderedList_spec hadd hkl hadml.sorted with
      ⟨rfl, -⟩ | ⟨list, rfl, hnot, hperm, hs⟩
    · exact ⟨hsame.owned ht, hadml, hsame.nodes, hsame.contacts,
        hsame.nodeList⟩
    · rw [hsame.contactList] at hnot hperm
      have hsorted : t.SortedBy (·.fromTime) list := by
        refine hs.imp fun {x y} hle => ?_
        simpa only [keyOf, hsame.contacts] using hle
      have hins := hadm.insert hpos hlive hk (hfits k hk) hcheck hperm hsorted
      have hown := ht.insert hn hnode hc hnot hperm
      have hlists : ({ t with contactList := list } : RoutingTable).SameLists
          { linked with contactList := list } :=
        ⟨hsame.nodes, hsame.contacts, hsame.nodeList, rfl⟩
      refine ⟨hlists.owned hown, hlists.admitted ?_ hins, hsame.nodes,
        hsame.contacts, hsame.nodeList⟩
      exact fun d hd => hown.live hd

/-- The counter is wide enough in each of the checks of
`add_node_to_tables`. -/
def ChecksFit (maxConcurrentContacts : Nat) (mem : Memory) (node : Node) :
    List ContactPtr → RoutingTable → Prop
  | [], _ => True
  | c :: rest, t =>
    (∀ k, t.contacts c = some k → t.CheckFits maxConcurrentContacts k) ∧
      ∀ t', t.addContactToTables maxConcurrentContacts mem node c = some t' →
        ChecksFit maxConcurrentContacts mem node rest t'

theorem addNodeToTables_keeps (hpos : 0 < maxConcurrentContacts)
    (ht : t.Owned) (hadm : t.Admitted maxConcurrentContacts) {node : Node}
    (hn : n ∈ t.nodeList) (hnode : t.nodes n = some node)
    (hfits : ChecksFit maxConcurrentContacts mem node node.contacts t)
    (h : t.addNodeToTables maxConcurrentContacts mem n = some t') :
    t'.Owned ∧ t'.Admitted maxConcurrentContacts ∧ t'.nodes = t.nodes ∧
      t'.contacts = t.contacts ∧ t'.nodeList = t.nodeList := by
  rw [addNodeToTables, hnode] at h
  have hloop := Outcome.foldlM_some_induction
    (motive := fun rest s => (∀ c ∈ rest, c ∈ node.contacts) ∧
      ChecksFit maxConcurrentContacts mem node rest s ∧ s.Owned ∧
      s.Admitted maxConcurrentContacts ∧ s.nodes = t.nodes ∧
      s.contacts = t.contacts ∧ s.nodeList = t.nodeList) ?_ h
    ⟨fun c hc => hc, hfits, ht, hadm, rfl, rfl, rfl⟩
  · exact hloop.2.2
  · rintro c rest s s' ⟨hrest, hfit, hown, ha, hnodes, hcontacts, hlist⟩ hstep
    obtain ⟨hown', ha', hn', hc', hl'⟩ := addContactToTables_keeps hpos hown ha
      (hlist ▸ hn) (hnodes ▸ hnode) (hrest c List.mem_cons_self) hfit.1 hstep
    exact ⟨fun d hd => hrest d (List.mem_cons_of_mem _ hd), hfit.2 s' hstep,
      hown', ha', hn'.trans hnodes, hc'.trans hcontacts, hl'.trans hlist⟩

end RoutingTable

end Upcn
