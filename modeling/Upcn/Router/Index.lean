import Upcn.Router.Operations

/-!
# The hash table from EIDs to contacts

`TableIs t M` says that the entries of the hash table are as they should be,
and that they list the contact `c` under `eid` exactly if `M eid c`.  Linking a
contact adds to `M`, unlinking takes from it.  `Coherent` is the instance in
which `M` is what the nodes and contacts say.
-/

namespace Upcn

namespace RoutingTable

variable {t t' : RoutingTable} {M M' : Eid → ContactPtr → Prop} {c : ContactPtr}
  {k : Contact} {eid : Eid} {eids : List Eid} {entry : NodeTableEntry}

/-- An entry of the hash table: not empty, without duplicates, sorted by the end
of the contacts, and counted. -/
structure EntryOk (t : RoutingTable) (entry : NodeTableEntry) : Prop where
  nonempty : entry.contacts ≠ []
  nodup : entry.contacts.Nodup
  sorted : t.SortedBy (·.toTime) entry.contacts
  counted : entry.refCount.toNat = entry.contacts.length

/-- The hash table lists the contact under the EID. -/
def ListedUnder (t : RoutingTable) (eid : Eid) (c : ContactPtr) : Prop :=
  ∃ entry, t.eidTable eid = some entry ∧ c ∈ entry.contacts

structure TableIs (t : RoutingTable) (M : Eid → ContactPtr → Prop) : Prop where
  entries : ∀ eid entry, t.eidTable eid = some entry → t.EntryOk entry
  mem : ∀ eid c, t.ListedUnder eid c ↔ M eid c

theorem TableIs.congr (h : t.TableIs M) (hM : ∀ e x, M e x ↔ M' e x) :
    t.TableIs M' :=
  ⟨h.entries, fun e x => (h.mem e x).trans (hM e x)⟩

theorem TableIs.mem_entry (h : t.TableIs M) (he : t.eidTable eid = some entry)
    (hc : c ∈ entry.contacts) : M eid c :=
  (h.mem eid c).mp ⟨entry, he, hc⟩

theorem listedUnder_of_some (he : t.eidTable eid = some entry) :
    t.ListedUnder eid c ↔ c ∈ entry.contacts := by
  constructor
  · rintro ⟨entry', he', hc⟩
    obtain rfl : entry = entry' := Option.some.inj (he.symm.trans he')
    exact hc
  · intro hc
    exact ⟨entry, he, hc⟩

theorem not_listedUnder_of_none (he : t.eidTable eid = none) :
    ¬ t.ListedUnder eid c := by
  rintro ⟨entry, he', -⟩
  rw [he] at he'
  cases he'

/-- Only the end times of the listed contacts matter to the table. -/
theorem TableIs.of_same (h : t.TableIs M) (htable : t'.eidTable = t.eidTable)
    (hkey : ∀ e x, M e x → t'.keyOf (·.toTime) x = t.keyOf (·.toTime) x) :
    t'.TableIs M where
  entries := by
    intro e entry he
    rw [htable] at he
    have hok := h.entries e entry he
    refine ⟨hok.nonempty, hok.nodup, ?_, hok.counted⟩
    refine hok.sorted.imp_of_mem fun {a b} ha hb hle => ?_
    rw [hkey e a (h.mem_entry he ha), hkey e b (h.mem_entry he hb)]
    exact hle
  mem := by
    intro e x
    rw [← h.mem e x, ListedUnder, ListedUnder, htable]

/-- A write to one entry of the table. -/
def setEntry (t : RoutingTable) (eid : Eid) (entry : Option NodeTableEntry) :
    RoutingTable :=
  { t with eidTable := Function.update t.eidTable eid entry }

theorem eidTable_setEntry_self (entry : Option NodeTableEntry) :
    (t.setEntry eid entry).eidTable eid = entry :=
  Function.update_self ..

theorem eidTable_setEntry_of_ne {e : Eid} (he : e ≠ eid)
    (entry : Option NodeTableEntry) :
    (t.setEntry eid entry).eidTable e = t.eidTable e :=
  Function.update_of_ne he ..

theorem EntryOk.setEntry {e : Option NodeTableEntry} (h : t.EntryOk entry) :
    (t.setEntry eid e).EntryOk entry :=
  ⟨h.nonempty, h.nodup, h.sorted, h.counted⟩

/-- A write to one entry changes what is listed under its EID. -/
theorem TableIs.setEntry (h : t.TableIs M) {entry : Option NodeTableEntry}
    (hok : ∀ new, entry = some new → t.EntryOk new)
    (hmem : ∀ x, (∃ new, entry = some new ∧ x ∈ new.contacts) ↔ M' eid x)
    (hM : ∀ e x, e ≠ eid → (M e x ↔ M' e x)) :
    (t.setEntry eid entry).TableIs M' where
  entries := by
    intro e new he
    by_cases hne : e = eid
    · subst hne
      rw [eidTable_setEntry_self] at he
      exact (hok new he).setEntry
    · rw [eidTable_setEntry_of_ne hne] at he
      exact (h.entries e new he).setEntry
  mem := by
    intro e x
    by_cases hne : e = eid
    · subst hne
      rw [ListedUnder, eidTable_setEntry_self]
      exact hmem x
    · rw [← hM e x hne, ← h.mem e x, ListedUnder, eidTable_setEntry_of_ne hne,
        ListedUnder]

/-! ## Linking a contact -/

/-- Another contact fits into the counters of the entries. -/
def Room (t : RoutingTable) (c : ContactPtr) (eids : List Eid) : Prop :=
  ∀ eid ∈ eids, ∀ entry, t.eidTable eid = some entry → c ∉ entry.contacts →
    entry.contacts.length + 1 < 2 ^ 16

theorem link_tableIs (h : t.TableIs M) (hk : t.contacts c = some k)
    (hroom : t.Room c [eid])
    (hlink : t.addContactToNodeInHtab .sufficient eid c = some t') :
    t'.TableIs (fun e x => M e x ∨ e = eid ∧ x = c) ∧
      ∀ e, e ≠ eid → t'.eidTable e = t.eidTable e := by
  have hM : ∀ e x, e ≠ eid → (M e x ↔ M e x ∨ e = eid ∧ x = c) := by
    intro e x he
    simp [he]
  -- an entry that is made for the contact starts out empty
  have hentry : ∃ entry : NodeTableEntry, (t.eidTable eid).getD ⟨0, []⟩ = entry ∧
      entry.contacts.Nodup ∧ t.SortedBy (·.toTime) entry.contacts ∧
      entry.refCount.toNat = entry.contacts.length ∧
      (∀ x, x ∈ entry.contacts ↔ M eid x) ∧
      (c ∉ entry.contacts → entry.contacts.length + 1 < 2 ^ 16) := by
    cases he : t.eidTable eid with
    | none =>
      refine ⟨⟨0, []⟩, rfl, List.nodup_nil, List.Pairwise.nil, rfl, fun x => ?_,
        fun _ => by decide⟩
      rw [← h.mem eid x]
      simpa using not_listedUnder_of_none he
    | some entry =>
      have hok := h.entries eid entry he
      refine ⟨entry, rfl, hok.nodup, hok.sorted, hok.counted, fun x => ?_,
        hroom eid (List.mem_singleton_self eid) entry he⟩
      rw [← h.mem eid x, listedUnder_of_some he]
  obtain ⟨entry, hgetD, hnodup, hsorted, hcount, hmem, hlen⟩ := hentry
  have hlink' : (do
      let contacts ← t.findPlace (·.toTime) c entry.contacts
      let entry := contacts.elim entry fun contacts => ⟨entry.refCount + 1, contacts⟩
      return t.setEntry eid (some entry)) = some t' := by
    rw [← hlink, addContactToNodeInHtab]
    cases he : t.eidTable eid with
    | none =>
      rw [he] at hgetD
      obtain rfl : entry = ⟨0, []⟩ := hgetD.symm
      show _ = t.findPlace (·.toTime) c [] >>= _
      rcases t.findPlace (·.toTime) c [] with - | - | contacts <;> rfl
    | some old =>
      rw [he] at hgetD
      obtain rfl : entry = old := hgetD.symm
      show _ = t.findPlace (·.toTime) c entry.contacts >>= _
      rcases t.findPlace (·.toTime) c entry.contacts with - | - | contacts <;> rfl
  obtain ⟨place, hplace, hset⟩ := Option.bind_eq_some_iff.mp hlink'
  obtain rfl := Option.some.inj hset
  refine ⟨h.setEntry ?_ ?_ hM, fun e he => eidTable_setEntry_of_ne he _⟩
  all_goals
    rcases findPlace_spec hplace hk hsorted with
      ⟨rfl, hc⟩ | ⟨list, rfl, hc, hperm, hsorted', -⟩
  · rintro new hnew
    obtain rfl := Option.some.inj hnew
    exact ⟨List.ne_nil_of_mem hc, hnodup, hsorted, hcount⟩
  · rintro new hnew
    obtain rfl := Option.some.inj hnew
    have hlength : list.length = entry.contacts.length + 1 := hperm.length_eq
    refine ⟨?_, hperm.nodup_iff.mpr (List.nodup_cons.mpr ⟨hc, hnodup⟩), hsorted', ?_⟩
    · refine List.ne_nil_of_length_pos ?_
      show 0 < list.length
      omega
    · have hlt := hlen hc
      show (entry.refCount + 1).toNat = list.length
      rw [UInt16.toNat_add, hcount, hlength]
      exact Nat.mod_eq_of_lt hlt
  · intro x
    constructor
    · rintro ⟨new, hnew, hx⟩
      obtain rfl := Option.some.inj hnew
      exact .inl ((hmem x).mp hx)
    · rintro (hx | ⟨-, rfl⟩)
      · exact ⟨entry, rfl, (hmem x).mpr hx⟩
      · exact ⟨entry, rfl, hc⟩
  · intro x
    have hx : x ∈ list ↔ x = c ∨ x ∈ entry.contacts := by
      rw [hperm.mem_iff, List.mem_cons]
    constructor
    · rintro ⟨new, hnew, hmx⟩
      obtain rfl := Option.some.inj hnew
      rcases hx.mp hmx with rfl | hmx
      · exact .inr ⟨rfl, rfl⟩
      · exact .inl ((hmem x).mp hmx)
    · rintro (hmx | ⟨-, rfl⟩)
      · exact ⟨_, rfl, hx.mpr (.inr ((hmem x).mpr hmx))⟩
      · exact ⟨_, rfl, hx.mpr (.inl rfl)⟩

/-- The loops of `add_node_to_tables` over EIDs. -/
theorem linkAll_tableIs (h : t.TableIs M) (hk : t.contacts c = some k)
    (hroom : t.Room c eids)
    (hlink : eids.foldlM (fun t eid => t.addContactToNodeInHtab .sufficient eid c) t
      = some t') : t'.TableIs fun e x => M e x ∨ e ∈ eids ∧ x = c := by
  induction eids generalizing t M with
  | nil =>
    obtain rfl := Option.some.inj hlink
    exact h.congr fun e x => by simp
  | cons eid rest ih =>
    rw [List.foldlM_cons] at hlink
    obtain ⟨t₁, h₁, hrest⟩ := Option.bind_eq_some_iff.mp hlink
    obtain ⟨htable, hother⟩ := link_tableIs h hk
      (fun e he => hroom e (List.mem_singleton.mp he ▸ List.mem_cons_self)) h₁
    have hk₁ : t₁.contacts c = some k := by
      rw [(addContactToNodeInHtab_same h₁).contacts, hk]
    have hroom₁ : t₁.Room c rest := by
      intro e he entry hentry hc
      by_cases hne : e = eid
      · subst hne
        exact absurd ((listedUnder_of_some hentry).mp
          ((htable.mem e c).mpr (.inr ⟨rfl, rfl⟩))) hc
      · rw [hother e hne] at hentry
        exact hroom e (List.mem_cons_of_mem _ he) entry hentry hc
    refine (ih htable hk₁ hroom₁ hrest).congr fun e x => ?_
    rw [List.mem_cons]
    tauto

/-! ## Unlinking a contact -/

theorem unlink_tableIs (h : t.TableIs M) (c : ContactPtr) (eid : Eid) :
    (t.removeContactFromNodeInHtab c eid).TableIs
      fun e x => M e x ∧ ¬ (e = eid ∧ x = c) := by
  have hM : ∀ e x, e ≠ eid → (M e x ↔ M e x ∧ ¬ (e = eid ∧ x = c)) := by
    intro e x he
    simp [he]
  unfold removeContactFromNodeInHtab
  split
  · rename_i he
    refine h.congr fun e x => ?_
    refine ⟨fun hx => ⟨hx, ?_⟩, fun hx => hx.1⟩
    rintro ⟨rfl, rfl⟩
    exact not_listedUnder_of_none he ((h.mem e x).mpr hx)
  · rename_i entry he
    have hok := h.entries eid entry he
    have hmem : ∀ x, x ∈ entry.contacts ↔ M eid x := fun x => by
      rw [← h.mem eid x, listedUnder_of_some he]
    split
    · rename_i hc
      have hlength : (entry.contacts.erase c).length + 1 = entry.contacts.length := by
        rw [List.length_erase_of_mem hc]
        have := List.length_pos_of_mem hc
        omega
      have hlt : entry.contacts.length < 2 ^ 16 := by
        rw [← hok.counted]
        exact entry.refCount.toNat_lt
      have hcount : (entry.refCount - 1).toNat = (entry.contacts.erase c).length := by
        have hone : (1 : UInt16) ≤ entry.refCount := by
          rw [UInt16.le_iff_toNat_le, hok.counted, ← hlength]
          exact Nat.le_add_left 1 _
        rw [UInt16.toNat_sub_of_le _ _ hone, hok.counted, ← hlength]
        exact Nat.add_sub_cancel ..
      have herase : ∀ x, x ∈ entry.contacts.erase c ↔
          M eid x ∧ ¬ (eid = eid ∧ x = c) := by
        intro x
        rw [hok.nodup.mem_erase_iff, hmem x]
        tauto
      dsimp only
      split
      · rename_i hzero
        have hempty : entry.contacts.erase c = [] := by
          refine List.eq_nil_of_length_eq_zero ?_
          rw [← hcount]
          exact Nat.le_zero.mp (UInt16.le_iff_toNat_le.mp hzero)
        refine h.setEntry (by simp) (fun x => ?_) hM
        rw [← herase x, hempty]
        simp
      · rename_i hpos
        refine h.setEntry ?_ (fun x => ?_) hM
        · rintro new hnew
          obtain rfl := Option.some.inj hnew
          refine ⟨fun hnil => hpos ?_, hok.nodup.erase c, ?_, hcount⟩
          · refine UInt16.le_iff_toNat_le.mpr ?_
            have hnil' : entry.contacts.erase c = [] := hnil
            rw [hcount, hnil']
            exact Nat.le_refl 0
          · exact hok.sorted.sublist List.erase_sublist
        · rw [← herase x]
          simp
    · rename_i hc
      refine h.congr fun e x => ?_
      refine ⟨fun hx => ⟨hx, ?_⟩, fun hx => hx.1⟩
      rintro ⟨rfl, rfl⟩
      exact hc ((hmem x).mpr hx)

/-- The loops of `remove_node_from_tables` over EIDs. -/
theorem unlinkAll_tableIs (h : t.TableIs M) (c : ContactPtr) (eids : List Eid) :
    (eids.foldl (fun t eid => t.removeContactFromNodeInHtab c eid) t).TableIs
      fun e x => M e x ∧ ¬ (e ∈ eids ∧ x = c) := by
  induction eids generalizing t M with
  | nil => exact h.congr fun e x => by simp
  | cons eid rest ih =>
    refine (ih (unlink_tableIs h c eid)).congr fun e x => ?_
    rw [List.mem_cons]
    tauto

end RoutingTable

end Upcn
