import Mathlib.Data.List.Nodup
import Upcn.Router.Concurrency
import Upcn.Router.Index

/-!
# Coherence of the routing table

The nodes, the contacts, the global list and the hash table hold the same
relation.  The operations keep it that way, except that an endpoint that comes
to a contact in the list, when a node is merged into the one the contact belongs
to, does not reach the hash table: the contact overlaps itself, and
`add_node_to_tables` goes on with the next one.
-/

namespace Upcn

namespace RoutingTable

variable {maxConcurrentContacts : Nat} {t t' s s' : RoutingTable} {mem : Memory}
  {n cur : NodePtr} {node newNode : Node} {data : ContactPtr → Contact}
  {c x : ContactPtr} {k : Contact} {eid : Eid} {rest : List ContactPtr}

/-- `eid` is the EID of the node of the contact, one of the endpoints of that
node, or one of the endpoints of the contact. -/
def Reaches (t : RoutingTable) (eid : Eid) (c : ContactPtr) : Prop :=
  ∃ k, t.contacts c = some k ∧ (eid ∈ k.contactEndpoints ∨
    ∃ n node, k.node = some n ∧ t.nodes n = some node ∧
      (eid = node.eid ∨ eid ∈ node.endpoints))

/-- The routing table as it should be. -/
structure Coherent (t : RoutingTable) : Prop where
  listed : ∀ eid c,
    (∃ entry, t.eidTable eid = some entry ∧ entry.contacts.count c = 1) ↔
      c ∈ t.contactList ∧ t.Reaches eid c
  live : ∀ eid entry, t.eidTable eid = some entry → ∀ c ∈ entry.contacts,
    ∃ k, t.contacts c = some k
  entries : ∀ eid entry, t.eidTable eid = some entry → t.EntryOk entry

theorem reaches_iff (hk : t.contacts c = some k) (hn : k.node = some n)
    (hnode : t.nodes n = some node) :
    t.Reaches eid c ↔ eid ∈ reachableEids node k := by
  rw [reachableEids, List.cons_append, List.mem_cons, List.mem_append]
  constructor
  · rintro ⟨k', hk', he⟩
    obtain rfl : k = k' := Option.some.inj (hk.symm.trans hk')
    rcases he with he | ⟨n', node', hn', hnode', he⟩
    · exact .inr (.inr he)
    · obtain rfl : n = n' := Option.some.inj (hn.symm.trans hn')
      obtain rfl : node = node' := Option.some.inj (hnode.symm.trans hnode')
      rcases he with he | he
      · exact .inl he
      · exact .inr (.inl he)
  · intro he
    refine ⟨k, hk, ?_⟩
    rcases he with he | he | he
    · exact .inr ⟨n, node, hn, hnode, .inl he⟩
    · exact .inr ⟨n, node, hn, hnode, .inr he⟩
    · exact .inl he

/-- The hash table lists the contacts of the global list, each under the EIDs
that it reaches. -/
def Indexed (t : RoutingTable) : Prop :=
  t.TableIs fun eid c => c ∈ t.contactList ∧ t.Reaches eid c

/-- The invariant of a run. -/
structure Consistent (t : RoutingTable) : Prop where
  owned : t.Owned
  sorted : t.SortedBy (·.fromTime) t.contactList
  indexed : t.Indexed

theorem Consistent.coherent (h : t.Consistent) : t.Coherent where
  listed := by
    intro eid c
    rw [← h.indexed.mem eid c]
    constructor
    · rintro ⟨entry, he, hcount⟩
      exact ⟨entry, he, List.count_pos_iff.mp (by omega)⟩
    · rintro ⟨entry, he, hc⟩
      have hnodup := (h.indexed.entries eid entry he).nodup
      exact ⟨entry, he, List.count_eq_one_of_mem hnodup hc⟩
  live := by
    intro eid entry he c hc
    exact h.owned.live (h.indexed.mem_entry he hc).1
  entries := h.indexed.entries

/-! ## What does not matter to the hash table -/

/-- The contact has the same times in both states, and reaches the same
EIDs. -/
def Alike (t t' : RoutingTable) (c : ContactPtr) : Prop :=
  ∃ k k' n node node', t.contacts c = some k ∧ t'.contacts c = some k' ∧
    k.node = some n ∧ k'.node = some n ∧ t.nodes n = some node ∧
    t'.nodes n = some node' ∧ k'.fromTime = k.fromTime ∧ k'.toTime = k.toTime ∧
    ∀ eid, eid ∈ reachableEids node' k' ↔ eid ∈ reachableEids node k

theorem Alike.reaches (h : Alike t t' c) : t'.Reaches eid c ↔ t.Reaches eid c := by
  obtain ⟨k, k', n, node, node', hk, hk', hn, hn', hnode, hnode', -, -, he⟩ := h
  rw [reaches_iff hk hn hnode, reaches_iff hk' hn' hnode', he]

theorem Alike.toTime (h : Alike t t' c) :
    t'.keyOf (·.toTime) c = t.keyOf (·.toTime) c := by
  obtain ⟨k, k', n, node, node', hk, hk', -, -, -, -, -, ht, -⟩ := h
  rw [keyOf_of_some hk, keyOf_of_some hk', ht]

theorem Alike.fromTime (h : Alike t t' c) :
    t'.keyOf (·.fromTime) c = t.keyOf (·.fromTime) c := by
  obtain ⟨k, k', n, node, node', hk, hk', -, -, -, -, hf, -, -⟩ := h
  rw [keyOf_of_some hk, keyOf_of_some hk', hf]

theorem Indexed.of_alike (h : t.Indexed) (htable : t'.eidTable = t.eidTable)
    (hlist : t'.contactList = t.contactList)
    (halike : ∀ c ∈ t.contactList, Alike t t' c) : t'.Indexed := by
  have hsame := TableIs.of_same h htable fun e c hc => (halike c hc.1).toTime
  refine hsame.congr fun e c => ?_
  rw [hlist]
  constructor
  · rintro ⟨hc, hr⟩
    exact ⟨hc, (halike c hc).reaches.mpr hr⟩
  · rintro ⟨hc, hr⟩
    exact ⟨hc, (halike c hc).reaches.mp hr⟩

theorem sortedBy_of_alike (h : t.SortedBy (·.fromTime) t.contactList)
    (hlist : t'.contactList.Sublist t.contactList)
    (halike : ∀ c ∈ t'.contactList, t'.keyOf (·.fromTime) c = t.keyOf (·.fromTime) c) :
    t'.SortedBy (·.fromTime) t'.contactList := by
  refine (h.sublist hlist).imp_of_mem fun {a b} ha hb hle => ?_
  rw [halike a ha, halike b hb]
  exact hle

theorem Owned.alike (ht : t.Owned) (hc : c ∈ t.contactList)
    (hsame : t'.contacts c = t.contacts c)
    (hnodes : ∀ m ∈ t.nodeList, t'.nodes m = t.nodes m) : Alike t t' c := by
  obtain ⟨k, m, nd, hk, hkm, hm, hnd, -⟩ := ht.contact hc
  exact ⟨k, k, m, nd, nd, hk, hsame.trans hk, hkm, hkm, hnd,
    (hnodes m hm).trans hnd, rfl, rfl, fun _ => Iff.rfl⟩

/-- An operation on other nodes and contacts than those in the lists. -/
theorem Consistent.of_same (h : t.Consistent) (howned : t'.Owned)
    (htable : t'.eidTable = t.eidTable) (hlist : t'.contactList = t.contactList)
    (hcontacts : ∀ c ∈ t.contactList, t'.contacts c = t.contacts c)
    (hnodes : ∀ m ∈ t.nodeList, t'.nodes m = t.nodes m) : t'.Consistent := by
  have halike : ∀ c ∈ t.contactList, Alike t t' c := fun c hc =>
    h.owned.alike hc (hcontacts c hc) hnodes
  refine ⟨howned, sortedBy_of_alike h.sorted (by rw [hlist]) fun c hc => ?_,
    h.indexed.of_alike htable hlist halike⟩
  rw [hlist] at hc
  exact (halike c hc).fromTime

/-! ## `add_node_to_tables` -/

/-- In each check of `add_node_to_tables` that lets the contact pass, the
entries of the hash table can count one more contact. -/
def LinksFit (maxConcurrentContacts : Nat) (node : Node) :
    List ContactPtr → RoutingTable → Prop
  | [], _ => True
  | c :: rest, t =>
    (∀ k, t.contacts c = some k →
        t.checkForInvalidOverlaps maxConcurrentContacts k = some false →
        t.Room c (reachableEids node k)) ∧
      ∀ t', t.addContactToTables maxConcurrentContacts .sufficient node c = some t' →
        LinksFit maxConcurrentContacts node rest t'

theorem addContactToTables_consistent (ht : t.Consistent) (hn : n ∈ t.nodeList)
    (hnode : t.nodes n = some node) (hc : c ∈ node.contacts)
    (hroom : ∀ k, t.contacts c = some k →
      t.checkForInvalidOverlaps maxConcurrentContacts k = some false →
      t.Room c (reachableEids node k))
    (h : t.addContactToTables maxConcurrentContacts .sufficient node c = some t') :
    t'.Consistent ∧ t'.nodes = t.nodes ∧ t'.nodeList = t.nodeList := by
  obtain ⟨k, hk, ⟨-, rfl⟩ | ⟨hcheck, linked, hlinked, hadd⟩⟩ :=
    addContactToTables_spec h
  · exact ⟨ht, rfl, rfl⟩
  obtain ⟨k', hk', hkn⟩ := ht.owned.of_mem hn hnode hc
  obtain rfl : k = k' := Option.some.inj (hk.symm.trans hk')
  have hsame := link_same hlinked
  have hlinkedK : linked.contacts c = some k := by rw [hsame.contacts, hk]
  have htable := linkAll_tableIs ht.indexed hk (hroom k hk hcheck) hlinked
  have howned := hsame.owned ht.owned
  have hreaches : ∀ e y, linked.Reaches e y ↔ t.Reaches e y := by
    intro e y
    rw [Reaches, Reaches, hsame.contacts, hsame.nodes]
  have hreach : ∀ e, t.Reaches e c ↔ e ∈ reachableEids node k :=
    fun e => reaches_iff hk hkn hnode
  have hsorted : linked.SortedBy (·.fromTime) linked.contactList := by
    refine sortedBy_of_alike ht.sorted (by rw [hsame.contactList]) fun y _ => ?_
    rw [keyOf, keyOf, hsame.contacts]
  rcases addContactToOrderedList_spec hadd hlinkedK hsorted with
    ⟨rfl, hmem⟩ | ⟨list, rfl, hnot, hperm, hsorted'⟩
  · refine ⟨⟨howned, hsorted, htable.congr fun e y => ?_⟩, hsame.nodes,
      hsame.nodeList⟩
    have hlisted : c ∈ t.contactList := by
      rw [← hsame.contactList]
      exact hmem.resolve_right (by simp [Memory.sufficient])
    rw [hreaches, hsame.contactList]
    constructor
    · rintro (hy | ⟨he, rfl⟩)
      · exact hy
      · exact ⟨hlisted, (hreach e).mpr he⟩
    · exact .inl
  · have hnode' : linked.nodes n = some node := by rw [hsame.nodes, hnode]
    have hn' : n ∈ linked.nodeList := by rwa [hsame.nodeList]
    refine ⟨⟨howned.insert hn' hnode' hc hnot hperm, hsorted', ?_⟩, hsame.nodes,
      hsame.nodeList⟩
    have hinserted : TableIs { linked with contactList := list } _ :=
      TableIs.of_same htable rfl fun _ _ _ => rfl
    refine hinserted.congr fun e y => ?_
    show _ ↔ y ∈ list ∧ linked.Reaches e y
    rw [hperm.mem_iff, List.mem_cons, hsame.contactList, hreaches]
    constructor
    · rintro (⟨hy, hr⟩ | ⟨he, rfl⟩)
      · exact ⟨.inr hy, hr⟩
      · exact ⟨.inl rfl, (hreach e).mpr he⟩
    · rintro ⟨rfl | hy, hr⟩
      · exact .inr ⟨(hreach e).mp hr, rfl⟩
      · exact .inl ⟨hy, hr⟩

theorem addNodeToTables_consistent (ht : t.Consistent) (hn : n ∈ t.nodeList)
    (hnode : t.nodes n = some node)
    (hfits : LinksFit maxConcurrentContacts node node.contacts t)
    (h : t.addNodeToTables maxConcurrentContacts .sufficient n = some t') :
    t'.Consistent ∧ t'.nodes = t.nodes ∧ t'.nodeList = t.nodeList := by
  rw [addNodeToTables, hnode] at h
  have hloop := Outcome.foldlM_some_induction
    (motive := fun rest s => (∀ c ∈ rest, c ∈ node.contacts) ∧
      LinksFit maxConcurrentContacts node rest s ∧ s.Consistent ∧
      s.nodes = t.nodes ∧ s.nodeList = t.nodeList) ?_ h
    ⟨fun _ hc => hc, hfits, ht, rfl, rfl⟩
  · exact hloop.2.2
  · rintro c rest s s' ⟨hrest, hfit, hs, hnodes, hnl⟩ hstep
    obtain ⟨hs', hnodes', hnl'⟩ := addContactToTables_consistent hs
      (by rw [hnl]; exact hn) (by rw [hnodes, hnode]) (hrest c List.mem_cons_self)
      hfit.1 hstep
    exact ⟨fun d hd => hrest d (List.mem_cons_of_mem _ hd), hfit.2 s' hstep, hs',
      hnodes'.trans hnodes, hnl'.trans hnl⟩

/-! ## Taking contacts out -/

/-- A contact of the global list is taken out of all tables. -/
theorem removeContactFromTables_indexed (hs : s.Indexed) (hk : s.contacts c = some k)
    (hkn : k.node = some n) {old : Node} (hold : s.nodes n = some old)
    (heids : reachableEids old k = reachableEids node k) (hnodup : s.contactList.Nodup)
    (h : s.removeContactFromTables node c = some s') : s'.Indexed := by
  obtain ⟨k', hk', h⟩ := Option.bind_eq_some_iff.mp h
  obtain rfl : k = k' := Option.some.inj (hk.symm.trans hk')
  obtain rfl := Option.some.inj h
  have hsame := unlink_same s c (reachableEids node k)
  have htable := unlinkAll_tableIs hs c (reachableEids node k)
  refine TableIs.congr (TableIs.of_same htable rfl fun _ _ _ => rfl) fun e y => ?_
  rw [Reaches, Reaches, hsame.contacts, hsame.nodes, hsame.contactList,
    hnodup.mem_erase_iff]
  constructor
  · rintro ⟨⟨hy, hr⟩, hne⟩
    refine ⟨⟨?_, hy⟩, hr⟩
    rintro rfl
    rw [← heids] at hne
    exact hne ⟨(reaches_iff hk hkn hold).mp hr, rfl⟩
  · rintro ⟨⟨hne, hy⟩, hr⟩
    exact ⟨⟨hy, hr⟩, fun he => hne he.2⟩

/-- During the loop of `remove_node_from_tables`, a contact that is still in the
list has a node. -/
theorem Removing.rooted {dropContacts : Bool} {list : List NodePtr}
    (h : Removing t node n dropContacts rest s)
    (ht : ({ t with nodeList := list } : RoutingTable).Owned)
    (hx : x ∈ s.contactList) :
    ∃ k m nd, s.contacts x = some k ∧ k.node = some m ∧ s.nodes m = some nd := by
  obtain ⟨k, m, nd, hk, hkm, hm, hnd, hmem⟩ := ht.contact (h.sublist.subset hx)
  have hsame : s.contacts x = t.contacts x := by
    by_cases hxn : x ∈ node.contacts
    · exact h.coming x (h.left x hx hxn)
    · exact h.others x hxn
  by_cases hmn : m = n
  · subst hmn
    obtain ⟨contacts, hobject, -⟩ := h.object
    exact ⟨k, m, _, hsame.trans hk, hkm, hobject⟩
  · exact ⟨k, m, nd, hsame.trans hk, hkm, (h.nodes m hmn).trans hnd⟩

theorem Removing.step_indexed {dropContacts : Bool} {list : List NodePtr}
    (h : Removing t node n dropContacts (c :: rest) s)
    (ht : ({ t with nodeList := list } : RoutingTable).Owned)
    (hn : n ∈ list) (hnode : t.nodes n = some node) (hs : s.Indexed)
    (hstep : removeStep node n dropContacts s c = some s') : s'.Indexed := by
  obtain ⟨s₁, h₁, h₂⟩ := Option.bind_eq_some_iff.mp hstep
  obtain ⟨contacts, hobject, -⟩ := h.object
  have hc : c ∈ node.contacts := h.coming_sublist.subset List.mem_cons_self
  obtain ⟨k, hk, hkn⟩ := ht.of_mem hn hnode hc
  have hks : s.contacts c = some k := (h.coming c List.mem_cons_self).trans hk
  have hlist : t.contactList.Nodup := ht.list
  have hnodup : s.contactList.Nodup := h.sublist.nodup hlist
  have hindexed := removeContactFromTables_indexed hs hks hkn hobject rfl hnodup h₁
  cases dropContacts with
  | false =>
    obtain rfl := Option.some.inj h₂
    exact hindexed
  | true =>
    obtain ⟨_, _, hnodes₁, hcontacts₁, -, hlist₁, -⟩ := removeContactFromTables_spec h₁
    have hobject₁ : s₁.nodes n = some { node with contacts := contacts } := by
      rw [hnodes₁, hobject]
    obtain ⟨-, hm, ⟨contacts', hobject', -⟩, hz, hlist, htable⟩ :=
      dropContact_spec hobject₁ h₂
    refine hindexed.of_alike htable hlist fun y hy => ?_
    rw [hlist₁, hnodup.mem_erase_iff] at hy
    obtain ⟨ky, m, nd, hky, hkm, hnd⟩ := h.rooted ht hy.2
    have hky₁ : s₁.contacts y = some ky := by rw [hcontacts₁, hky]
    by_cases hmn : m = n
    · subst hmn
      exact ⟨ky, ky, m, _, _, hky₁, (hz y hy.1).trans hky₁, hkm, hkm, hobject₁,
        hobject', rfl, rfl, fun _ => Iff.rfl⟩
    · have hnd₁ : s₁.nodes m = some nd := by rw [hnodes₁, hnd]
      exact ⟨ky, ky, m, nd, nd, hky₁, (hz y hy.1).trans hky₁, hkm, hkm, hnd₁,
        (hm m hmn).trans hnd₁, rfl, rfl, fun _ => Iff.rfl⟩

theorem removeNodeFromTables_indexed {dropContacts : Bool} {list : List NodePtr}
    (hs : ({ s with nodeList := list } : RoutingTable).Consistent)
    (hn : n ∈ list) (hnode : s.nodes n = some node)
    (h : s.removeNodeFromTables n dropContacts = some s') :
    Removing s node n dropContacts [] s' ∧ s'.Indexed := by
  obtain ⟨node', hnode', hnodup, -⟩ := hs.owned.node n hn
  obtain rfl : node = node' := Option.some.inj (hnode.symm.trans hnode')
  obtain ⟨node', hnode', h⟩ := Option.bind_eq_some_iff.mp h
  obtain rfl : node = node' := Option.some.inj (hnode.symm.trans hnode')
  have hindexed : s.Indexed :=
    TableIs.congr (TableIs.of_same hs.indexed rfl fun _ _ _ => rfl) fun _ _ => Iff.rfl
  exact Outcome.foldlM_some_induction
    (motive := fun rest r => Removing s node n dropContacts rest r ∧ r.Indexed)
    (fun _ _ _ _ hr hstep => ⟨hr.1.step hnodup hs.owned.list hstep,
      hr.1.step_indexed hs.owned hn hnode hr.2 hstep⟩) h
    ⟨removing_start hnode dropContacts, hindexed⟩

/-- When the loop is over, the nodes of the contacts in the list are others. -/
theorem Removing.others_rooted {dropContacts : Bool} {list : List NodePtr}
    (h : Removing t node n dropContacts [] s)
    (ht : ({ t with nodeList := list } : RoutingTable).Owned)
    (hnode : t.nodes n = some node) (hx : x ∈ s.contactList) :
    x ∉ node.contacts ∧ ∃ k m nd, s.contacts x = some k ∧ k.node = some m ∧ m ≠ n ∧
      m ∈ list ∧ t.nodes m = some nd ∧ s.nodes m = some nd ∧ x ∈ nd.contacts := by
  have hxn : x ∉ node.contacts := fun hxn => by cases h.left x hx hxn
  obtain ⟨k, m, nd, hk, hkm, hm, hnd, hmem⟩ := ht.contact (h.sublist.subset hx)
  have hmn : m ≠ n := by
    rintro rfl
    obtain rfl : node = nd := Option.some.inj (hnode.symm.trans hnd)
    exact hxn hmem
  exact ⟨hxn, k, m, nd, (h.others x hxn).trans hk, hkm, hmn, hm, hnd,
    (h.nodes m hmn).trans hnd, hmem⟩

/-- After a node has been taken out of the tables, nothing that happens to it and
to its contacts matters. -/
theorem Removing.finish {dropContacts : Bool} {list : List NodePtr}
    (h : Removing t node n dropContacts [] s)
    (ht : ({ t with nodeList := list } : RoutingTable).Consistent)
    (hnode : t.nodes n = some node) (hs : s.Indexed) (howned : t'.Owned)
    (htable : t'.eidTable = s.eidTable) (hlist : t'.contactList = s.contactList)
    (hcontacts : ∀ z ∈ s.contactList, t'.contacts z = s.contacts z)
    (hnodes : ∀ m, m ≠ n → t'.nodes m = t.nodes m) : t'.Consistent := by
  have halike : ∀ z ∈ s.contactList, Alike s t' z := by
    intro z hz
    obtain ⟨-, k, m, nd, hk, hkm, hmn, -, hnd, hnds, -⟩ :=
      h.others_rooted ht.owned hnode hz
    exact ⟨k, k, m, nd, nd, hk, (hcontacts z hz).trans hk, hkm, hkm, hnds,
      (hnodes m hmn).trans hnd, rfl, rfl, fun _ => Iff.rfl⟩
  refine ⟨howned, ?_, hs.of_alike htable hlist halike⟩
  refine sortedBy_of_alike ht.sorted (hlist ▸ h.sublist) fun z hz => ?_
  rw [hlist] at hz
  rw [(halike z hz).fromTime]
  show (s.contacts z).elim 0 _ = (t.contacts z).elim 0 _
  rw [h.others z (h.others_rooted ht.owned hnode hz).1]

/-- `remove_node_from_tables` and `free_node`. -/
theorem removeAndFree_consistent {s₁ : RoutingTable} {list : List NodePtr}
    (hs : ({ s with nodeList := list } : RoutingTable).Consistent)
    (hcur : cur ∈ list) (hnode : s.nodes cur = some node)
    (h₁ : s.removeNodeFromTables cur true = some s₁)
    (h₂ : s₁.freeNode cur = some s') (howned : t'.Owned)
    (hnodes : t'.nodes = s'.nodes) (hcontacts : t'.contacts = s'.contacts)
    (hlist : t'.contactList = s'.contactList) (htable : t'.eidTable = s'.eidTable) :
    t'.Consistent := by
  obtain ⟨hrem, hindexed⟩ := removeNodeFromTables_indexed hs hcur hnode h₁
  obtain ⟨contacts, hobject, hsub, -⟩ := hrem.object
  obtain ⟨hz, hm, -, hcl, hft⟩ := freeNode_spec hobject h₂
  refine hrem.finish hs hnode hindexed howned (htable.trans hft) (hlist.trans hcl)
    (fun z hzl => ?_) fun m hmc => ?_
  · have hzn := (hrem.others_rooted hs.owned hnode hzl).1
    rw [hcontacts]
    exact hz z fun hzc => hzn (hsub.subset hzc)
  · rw [hnodes]
    exact (hm m hmc).trans (hrem.nodes m hmc)

theorem deleteWholeNode_consistent (h : t.deleteWholeNode cur = some t')
    (ht : t.Consistent) (hcur : cur ∈ t.nodeList) (hnode : t.nodes cur = some node) :
    t'.Consistent := by
  have howned := (deleteWholeNode_spec h ht.owned hnode hcur).owned ht.owned hcur hnode
  obtain ⟨s₁, h₁, h₂⟩ := Option.bind_eq_some_iff.mp h
  exact removeAndFree_consistent (s := { t with nodeList := t.nodeList.erase cur })
    ht hcur hnode h₁ h₂ howned rfl rfl rfl rfl

theorem takeOver_consistent (h : s.takeOver cur n = some t') (hs : s.Consistent)
    (hcur : cur ∈ s.nodeList) (hold : s.nodes cur = some node) (howned : t'.Owned) :
    t'.Consistent := by
  obtain ⟨s₁, h₁, h⟩ := Option.bind_eq_some_iff.mp h
  obtain ⟨s₂, h₂, h⟩ := Option.bind_eq_some_iff.mp h
  obtain rfl := Option.some.inj h
  exact removeAndFree_consistent hs hcur hold h₁ h₂ howned
    rfl rfl rfl rfl

/-- What `routing_table_delete_node` does after it has taken the node out of the
tables leaves the tables as they are. -/
theorem deleteParts_tables (h : s.deleteParts cur n = some t')
    (hnode : s.nodes cur = some node) (hnew : s.nodes n = some newNode)
    (hlist : s.contactList.Nodup)
    (hnodup : (node.contacts ++ newNode.contacts).Nodup) :
    ∃ s₁, s.removeNodeFromTables cur false = some s₁ ∧
      t'.eidTable = s₁.eidTable ∧ t'.contactList = s₁.contactList := by
  have hnd := (List.nodup_append.mp hnodup).1
  obtain ⟨new₁, hnew₁, h⟩ := Option.bind_eq_some_iff.mp h
  obtain rfl : newNode = new₁ := Option.some.inj (hnew.symm.trans hnew₁)
  obtain ⟨s₁, h₁, h⟩ := Option.bind_eq_some_iff.mp h
  obtain ⟨contacts, hobject, -, hkeep⟩ :=
    (removeNodeFromTables_spec hnode hnd hlist h₁).object
  rw [hkeep rfl] at hobject
  obtain ⟨node₁, hnode₁, h⟩ := Option.bind_eq_some_iff.mp h
  obtain rfl : node = node₁ := Option.some.inj (hobject.symm.trans hnode₁)
  obtain ⟨⟨s₂, left, deleted⟩, h₂, h⟩ := Option.bind_eq_some_iff.mp h
  obtain ⟨s₃, h₃, h₄⟩ := Option.bind_eq_some_iff.mp h
  unfold contactListDifference at h₂
  split at h₂
  · obtain ⟨-, hedit⟩ := differenceContacts_spec h₂ hnodup
    obtain ⟨node₂, -, h₃⟩ := Option.bind_eq_some_iff.mp h₃
    obtain rfl := Option.some.inj h₃
    obtain ⟨-, hsame⟩ := freeSome_spec (fun r c r' hr => by
      obtain ⟨k, -, hr⟩ := Option.bind_eq_some_iff.mp hr
      split at hr
      · exact .inl (Option.some.inj hr).symm
      · exact .inr hr) h₄
    exact ⟨s₁, h₁, hsame.eidTable.trans hedit.same.eidTable,
      hsame.contactList.trans hedit.same.contactList⟩
  · cases h₂

theorem deleteParts_consistent (h : s.deleteParts cur n = some t')
    (hs : s.Consistent) (hcur : cur ∈ s.nodeList) (hnode : s.nodes cur = some node)
    (hnew : s.nodes n = some newNode)
    (hnodup : (node.contacts ++ newNode.contacts).Nodup)
    (hdisj : ∀ m ∈ s.nodeList, ∀ nd, s.nodes m = some nd → ∀ z ∈ nd.contacts,
      z ∉ newNode.contacts) : t'.Consistent := by
  obtain ⟨howned, -, -, hlisted, hnodes, -⟩ :=
    deleteParts_owned h hs.owned hcur hnode hnew hnodup hdisj
  obtain ⟨s₁, h₁, htable, hlist⟩ :=
    deleteParts_tables h hnode hnew hs.owned.list hnodup
  obtain ⟨hrem, hindexed⟩ := removeNodeFromTables_indexed hs hcur hnode h₁
  refine hrem.finish hs hnode hindexed howned htable hlist (fun z hz => ?_) hnodes
  rw [hrem.others z (hrem.others_rooted hs.owned hnode hz).1]
  exact (hlisted z (hlist ▸ hz)).2

/-! ## Merging -/

/-- No contact of the node that is in the list gets an EID it does not have
yet. -/
def GainsNothing (t : RoutingTable) (node newNode : Node)
    (data : ContactPtr → Contact) : Prop :=
  ∀ z ∈ node.contacts, z ∈ t.contactList → ∀ k, t.contacts z = some k →
    (∀ eid ∈ newNode.endpoints, eid ∈ reachableEids node k) ∧
    ∀ y ∈ newNode.contacts, (data y).fromTime = k.fromTime →
      (data y).toTime = k.toTime →
      ∀ eid ∈ (data y).contactEndpoints, eid ∈ reachableEids node k

/-- The EIDs of a contact after the union. -/
theorem mem_reachableEids_union {k k' : Contact} {b list : List ContactPtr}
    (hgrown : Grown s b k k') (m : Option NodePtr)
    (hend : ∀ eid ∈ newNode.endpoints, eid ∈ reachableEids node k)
    (hcon : ∀ y ∈ b, ∀ ky, s.contacts y = some ky → ky.fromTime = k.fromTime →
      ky.toTime = k.toTime → ∀ eid ∈ ky.contactEndpoints, eid ∈ reachableEids node k)
    (eid : Eid) :
    eid ∈ reachableEids { node with
        endpoints := endpointListUnion mem node.endpoints newNode.endpoints
        contacts := list } { k' with node := m } ↔
      eid ∈ reachableEids node k := by
  constructor
  · intro he
    rw [reachableEids, List.cons_append, List.mem_cons, List.mem_append] at he
    rcases he with rfl | he | he
    · exact List.mem_cons_self
    · rcases mem_of_endpointListUnion he with he | he
      · exact List.mem_cons_of_mem _ (List.mem_append_left _ he)
      · exact hend eid he
    · rcases hgrown.new eid he with he | ⟨y, hy, ky, hky, hf, ht, he⟩
      · exact List.mem_cons_of_mem _ (List.mem_append_right _ he)
      · exact hcon y hy ky hky hf ht eid he
  · intro he
    rw [reachableEids, List.cons_append, List.mem_cons, List.mem_append] at he ⊢
    rcases he with rfl | he | he
    · exact .inl rfl
    · exact .inr (.inl (subset_endpointListUnion _ _ _ eid he))
    · exact .inr (.inr (hgrown.old eid he))

theorem mergeNode_consistent (h : s.mergeNode mem cur n = some t')
    (hs : s.Consistent) (hmem : cur ∈ s.nodeList) (hcur : s.nodes cur = some node)
    (hnew : s.nodes n = some newNode)
    (hnodup : (node.contacts ++ newNode.contacts).Nodup)
    (hdisj : ∀ m ∈ s.nodeList, ∀ nd, s.nodes m = some nd → ∀ z ∈ nd.contacts,
      z ∉ newNode.contacts)
    (hdata : ∀ y ∈ newNode.contacts, s.contacts y = some (data y))
    (hgain : s.GainsNothing node newNode data) : t'.Consistent := by
  have howned := mergeNode_owned h hs.owned hmem hcur hnew hnodup hdisj
  obtain ⟨list, b', -, -, hnodes, -, hlist, htable, hold, -, hother⟩ :=
    mergeNode_spec h hcur hnew hnodup fun z hz => by
      obtain ⟨k, hk, -⟩ := hs.owned.of_mem hmem hcur hz
      exact ⟨k, hk⟩
  have halike : ∀ z ∈ s.contactList, Alike s t' z := by
    intro z hz
    obtain ⟨k, m, nd, hk, hkm, hm, hnd, hzm⟩ := hs.owned.contact hz
    by_cases hzc : z ∈ node.contacts
    · obtain rfl : m = cur := hs.owned.node_unique hm hnd hmem hcur hzm hzc
      obtain ⟨k', hgrown, hk'⟩ := hold z hzc k hk
      obtain ⟨hend, hcon⟩ := hgain z hzc hz k hk
      refine ⟨k, _, m, node, _, hk, hk', hkm, rfl, hcur,
        by rw [hnodes, Function.update_self], hgrown.fromTime, hgrown.toTime,
        mem_reachableEids_union hgrown _ hend fun y hy ky hky => ?_⟩
      obtain rfl := Option.some.inj ((hdata y hy).symm.trans hky)
      exact hcon y hy
    · have hmc : m ≠ cur := by
        rintro rfl
        obtain rfl : node = nd := Option.some.inj (hcur.symm.trans hnd)
        exact hzc hzm
      refine ⟨k, k, m, nd, nd, hk, ?_, hkm, hkm, hnd, ?_, rfl, rfl, fun _ => Iff.rfl⟩
      · rw [hother z hzc (hdisj m hm nd hnd z hzm), hk]
      · rw [hnodes, Function.update_of_ne hmc, hnd]
  refine ⟨howned, sortedBy_of_alike hs.sorted (by rw [hlist]) fun z hz => ?_,
    hs.indexed.of_alike htable hlist halike⟩
  rw [hlist] at hz
  exact (halike z hz).fromTime

/-! ## The end of a contact -/

/-- The EIDs that `routing_table_delete_contact` takes from the node. -/
theorem unlinkFromNode_tableIs {M : Eid → ContactPtr → Prop} (h : t.TableIs M)
    (hunlink : t.unlinkFromNode c k = some t') :
    ∃ eids, t'.TableIs (fun e y => M e y ∧ ¬ (e ∈ eids ∧ y = c)) ∧
      (∀ n node, k.node = some n → t.nodes n = some node →
        eids = node.eid :: node.endpoints) ∧
      ∀ m nd, t.nodes m = some nd → ∃ nd', t'.nodes m = some nd' ∧
        nd'.eid = nd.eid ∧ nd'.endpoints = nd.endpoints := by
  unfold unlinkFromNode at hunlink
  cases hkn : k.node with
  | none =>
    rw [hkn] at hunlink
    obtain rfl := Option.some.inj hunlink
    exact ⟨[], h.congr fun e y => by simp, fun _ _ hn => (by cases hn),
      fun m nd hnd => ⟨nd, hnd, rfl, rfl⟩⟩
  | some n =>
    rw [hkn] at hunlink
    obtain ⟨node, hnode, hunlink⟩ := Option.bind_eq_some_iff.mp hunlink
    have hsame := unlink_same t c (node.eid :: node.endpoints)
    have htable := unlinkAll_tableIs h c (node.eid :: node.endpoints)
    obtain ⟨node', hnode', hunlink⟩ := Option.bind_eq_some_iff.mp hunlink
    obtain rfl := Option.some.inj hunlink
    rw [hsame.nodes] at hnode'
    obtain rfl : node = node' := Option.some.inj (hnode.symm.trans hnode')
    refine ⟨_, TableIs.of_same htable rfl fun _ _ _ => rfl, ?_, fun m nd hnd => ?_⟩
    · intro m nd hm hnd
      obtain rfl := Option.some.inj hm
      obtain rfl : node = nd := Option.some.inj (hnode.symm.trans hnd)
      rfl
    · by_cases hmn : m = n
      · subst hmn
        obtain rfl : node = nd := Option.some.inj (hnode.symm.trans hnd)
        exact ⟨_, Function.update_self .., rfl, rfl⟩
      · refine ⟨nd, ?_, rfl, rfl⟩
        exact (Function.update_of_ne hmn ..).trans ((congrFun hsame.nodes m).trans hnd)

theorem deleteContact_consistent (h : t.routingTableDeleteContact c = some t')
    (ht : t.Consistent) : t'.Consistent := by
  obtain ⟨howned, hlist, hothers⟩ := deleteContact_owned h ht.owned
  obtain ⟨k, hk, h⟩ := Option.bind_eq_some_iff.mp h
  obtain ⟨t₁, h₁, h⟩ := Option.bind_eq_some_iff.mp h
  obtain ⟨eids, htable₁, heids, hnodes₁⟩ := unlinkFromNode_tableIs ht.indexed h₁
  obtain ⟨hcontacts₁, -, -, -⟩ := unlinkFromNode_spec h₁
  have hsame := unlink_same t₁ c k.contactEndpoints
  have htable := unlinkAll_tableIs htable₁ c k.contactEndpoints
  obtain ⟨-, -, hfree⟩ := freeContact_spec h
  have hreaches : ∀ y ∈ t.contactList, y ≠ c → Alike t t' y := by
    intro y hy hyc
    obtain ⟨ky, m, nd, hky, hkm, -, hnd, -⟩ := ht.owned.contact hy
    obtain ⟨nd', hnd', heid, hend⟩ := hnodes₁ m nd hnd
    refine ⟨ky, ky, m, nd, nd', hky, (hothers y hyc).trans hky, hkm, hkm, hnd, ?_,
      rfl, rfl, fun e => ?_⟩
    · rw [hfree.nodes]
      exact (congrFun hsame.nodes m).trans hnd'
    · rw [reachableEids, reachableEids, heid, hend]
  have herase : ∀ y, y ∈ t'.contactList ↔ y ≠ c ∧ y ∈ t.contactList := by
    intro y
    rw [hlist, ht.owned.list.mem_erase_iff]
  refine ⟨howned, sortedBy_of_alike ht.sorted ?_ fun y hy => ?_, ?_⟩
  · rw [hlist]
    exact List.erase_sublist
  · obtain ⟨hyc, hyl⟩ := (herase y).mp hy
    exact (hreaches y hyl hyc).fromTime
  · -- what is left in the table is what is left in the list
    have hleft : ∀ e y, (((y ∈ t.contactList ∧ t.Reaches e y) ∧
          ¬ (e ∈ eids ∧ y = c)) ∧ ¬ (e ∈ k.contactEndpoints ∧ y = c)) ↔
        (y ≠ c ∧ y ∈ t.contactList) ∧ t.Reaches e y := by
      intro e y
      constructor
      · rintro ⟨⟨⟨hy, hr⟩, he₁⟩, he₂⟩
        refine ⟨⟨?_, hy⟩, hr⟩
        rintro rfl
        obtain ⟨k', m, nd, hk', hkm, -, hnd, -⟩ := ht.owned.contact hy
        obtain rfl : k = k' := Option.some.inj (hk.symm.trans hk')
        have hmem := (reaches_iff hk hkm hnd).mp hr
        rw [reachableEids, ← heids m nd hkm hnd, List.mem_append] at hmem
        rcases hmem with hmem | hmem
        · exact he₁ ⟨hmem, rfl⟩
        · exact he₂ ⟨hmem, rfl⟩
      · rintro ⟨⟨hyc, hy⟩, hr⟩
        exact ⟨⟨⟨hy, hr⟩, fun he => hyc he.2⟩, fun he => hyc he.2⟩
    refine TableIs.congr (TableIs.of_same htable hfree.eidTable fun e y hy => ?_)
      fun e y => ?_
    · obtain ⟨⟨hyc, hyl⟩, -⟩ := (hleft e y).mp hy
      refine (hreaches y hyl hyc).toTime.trans ?_
      rw [keyOf, keyOf, hsame.contacts, hcontacts₁]
    · rw [hleft e y, herase y]
      constructor
      · rintro ⟨⟨hyc, hyl⟩, hr⟩
        exact ⟨⟨hyc, hyl⟩, (hreaches y hyl hyc).reaches.mpr hr⟩
      · rintro ⟨⟨hyc, hyl⟩, hr⟩
        exact ⟨⟨hyc, hyl⟩, (hreaches y hyl hyc).reaches.mp hr⟩

/-! ## One operation -/

/-- All allocations of the operation succeed. -/
def AllocationsSucceed : Operation → Prop
  | .addNode mem _ _ _ | .replaceNode mem _ _ _ | .deleteNode mem _ _ _ =>
    mem = .sufficient
  | _ => True

/-- A node that is merged into one of the list brings no EID to a contact in the
list. -/
def NothingGained (t : RoutingTable) : Operation → Prop
  | .addNode _ n node data => ∀ cur old,
      (t.place n node data).getNodeEntryByEid node.eid t.nodeList = some (some cur) →
      t.nodes cur = some old → t.GainsNothing old node data
  | _ => True

/-- The counters of the hash table are wide enough. -/
def CountersFit (maxConcurrentContacts : Nat) (t : RoutingTable) (op : Operation) :
    Prop :=
  ∀ s mem n node, t.tableCall op = some (s, mem, n) → s.nodes n = some node →
    LinksFit maxConcurrentContacts node node.contacts s

theorem Fresh.place_consistent (h : t.Fresh n node data) (ht : t.Consistent) :
    (t.place n node data).Consistent :=
  ht.of_same (h.place_owned ht.owned) rfl rfl
    (fun _ hc => contacts_place_of_not_mem (h.contact_not_listed ht.owned hc))
    fun _ hm => nodes_place_of_ne (ne_of_mem_of_not_mem hm (h.not_listed ht.owned))

theorem freeNodeCell_consistent (ht : t.Consistent) (hn : n ∉ t.nodeList) :
    (t.freeNodeCell n).Consistent := by
  obtain ⟨howned, -⟩ : (t.freeNodeCell n).Owned ∧ (t.Admitted 0 → _) :=
    ht.owned.freeNodeCell hn
  refine ht.of_same howned rfl rfl (fun _ _ => rfl) fun m hm => ?_
  exact Function.update_of_ne (ne_of_mem_of_not_mem hm hn) ..

theorem freeNode_consistent (ht : t.Consistent) (hn : n ∉ t.nodeList)
    (hnode : t.nodes n = some node)
    (hdisj : ∀ m ∈ t.nodeList, ∀ nd, t.nodes m = some nd → ∀ z ∈ nd.contacts,
      z ∉ node.contacts) (h : t.freeNode n = some t') : t'.Consistent := by
  obtain ⟨howned, -⟩ : t'.Owned ∧ (t.Admitted 0 → t'.Admitted 0) :=
    ht.owned.freeNode hn hnode hdisj h
  obtain ⟨hz, hm, -, hcl, htable⟩ := freeNode_spec hnode h
  refine ht.of_same howned htable hcl (fun c hc => ?_)
    fun m hml => hm m (ne_of_mem_of_not_mem hml hn)
  obtain ⟨m, hml, nd, hnd, hmem⟩ := ht.owned.listed c hc
  exact hz c (hdisj m hml nd hnd c hmem)

/-- A new node whose EID is not in the list. -/
theorem addNewNode_consistent (hfresh : t.Fresh n node data) (ht : t.Consistent)
    (hfits : LinksFit maxConcurrentContacts node node.contacts
      { t.place n node data with nodeList := n :: t.nodeList })
    (h : (t.place n node data).addNewNode maxConcurrentContacts .sufficient n
      = some t') : t'.Consistent := by
  have hplace := hfresh.place_consistent ht
  have hnode : (t.place n node data).nodes n = some node := nodes_place_self
  have hjoin := hplace.owned.join (hfresh.not_listed ht.owned) hnode hfresh.nodup
    hfresh.owner (List.Perm.refl _)
  have hjoined := hplace.of_same hjoin rfl rfl (fun _ _ => rfl) fun _ _ => rfl
  exact (addNodeToTables_consistent hjoined List.mem_cons_self hnode hfits h).1

theorem addNode_consistent (hfresh : t.Fresh n newNode data) (ht : t.Consistent)
    (hgain : t.NothingGained (.addNode .sufficient n newNode data))
    (hfits : CountersFit maxConcurrentContacts t (.addNode .sufficient n newNode data))
    (h : (t.place n newNode data).routingTableAddNode maxConcurrentContacts
      .sufficient n = some t') : t'.Consistent := by
  have hplace := hfresh.place_consistent ht
  have hn := hfresh.not_listed ht.owned
  rcases addNode_cases hfresh ht.owned h with ⟨hfound, h⟩ |
    ⟨cur, node, t₁, t₂, hfound, hcur, hold, hnode, hnodup, h₁, hcall, hlist, h₂, rfl⟩
  · have hnode : (t.place n newNode data).nodes n = some newNode := nodes_place_self
    exact addNewNode_consistent hfresh ht (hfits _ .sufficient n newNode
      (Option.bind_eq_some_iff.mpr ⟨none, hfound, rfl⟩) hnode) h
  · have hgain' : (t.place n newNode data).GainsNothing node newNode data := by
      intro z hz hzl k hk
      rw [contacts_place_of_not_mem (hfresh.disjoint ht.owned hcur hold hz)] at hk
      exact hgain cur node hfound hold z hz hzl k hk
    have hmerged := mergeNode_consistent h₁ hplace hcur hnode nodes_place_self hnodup
      (hfresh.disjoint_place ht.owned) (fun _ => contacts_place_of_mem) hgain'
    rw [← hlist] at hcur hn
    obtain ⟨node', hnode', -⟩ := hmerged.owned.node cur hcur
    obtain ⟨hadded, -, hnl₂⟩ := addNodeToTables_consistent hmerged hcur hnode'
      (hfits t₁ _ cur node' hcall hnode') h₂
    refine freeNodeCell_consistent hadded ?_
    rw [hnl₂]
    exact hn

theorem replaceNode_consistent (hfresh : t.Fresh n newNode data) (ht : t.Consistent)
    (hfits : CountersFit maxConcurrentContacts t
      (.replaceNode .sufficient n newNode data))
    (h : (t.place n newNode data).routingTableReplaceNode maxConcurrentContacts
      .sufficient n = some t') : t'.Consistent := by
  have hplace := hfresh.place_consistent ht
  have hn := hfresh.not_listed ht.owned
  rcases replaceNode_cases hfresh ht.owned h with ⟨hfound, h⟩ |
    ⟨cur, node, t₁, hcur, hnode, htake, hcall, h₂⟩
  · have hnode : (t.place n newNode data).nodes n = some newNode := nodes_place_self
    exact addNewNode_consistent hfresh ht (hfits _ .sufficient n newNode
      (Option.bind_eq_some_iff.mpr ⟨none, hfound, rfl⟩) hnode) h
  · obtain ⟨howned, hmem, hnode', -⟩ :
        _ ∧ _ ∧ _ ∧ ((t.place n newNode data).Admitted 0 → _) :=
      takeOver_owned htake hplace.owned hcur hnode hn nodes_place_self hfresh.nodup
        hfresh.owner
    have htaken := takeOver_consistent htake hplace hcur hnode howned
    exact (addNodeToTables_consistent htaken hmem hnode'
      (hfits _ _ n newNode hcall hnode') h₂).1

theorem deleteNode_consistent (hfresh : t.Fresh n newNode data) (ht : t.Consistent)
    (hfits : CountersFit maxConcurrentContacts t
      (.deleteNode .sufficient n newNode data))
    (h : (t.place n newNode data).routingTableDeleteNode maxConcurrentContacts
      .sufficient n = some t') : t'.Consistent := by
  have hplace := hfresh.place_consistent ht
  have hn := hfresh.not_listed ht.owned
  have hdisj := hfresh.disjoint_place ht.owned
  rcases deleteNode_cases hfresh ht.owned h with h |
    ⟨cur, node, t₁, hcur, hne, hnode, hnodup, ⟨hempty, h₁, h₂⟩ | ⟨t₂, h₁, hcall, h₂, rfl⟩⟩
  · exact freeNode_consistent hplace hn nodes_place_self hdisj h
  · have hwithout := deleteWholeNode_spec h₁ hplace.owned hnode hcur
    have hdeleted := deleteWholeNode_consistent h₁ hplace hcur hnode
    refine freeNode_consistent hdeleted ?_
      ((hwithout.nodes n hne.symm).trans nodes_place_self)
      (fun _ _ _ _ z _ => by simp [hempty]) h₂
    rw [hwithout.nodeList]
    exact fun hm => hn (List.mem_of_mem_erase hm)
  · obtain ⟨-, hlist, -, -, -, node', hnode'⟩ :=
      deleteParts_owned h₁ hplace.owned hcur hnode nodes_place_self hnodup hdisj
    have hdeleted := deleteParts_consistent h₁ hplace hcur hnode nodes_place_self hnodup hdisj
    have hcur₁ : cur ∈ t₁.nodeList := by
      rw [hlist]
      exact hcur
    obtain ⟨hadded, -, hnl₂⟩ := addNodeToTables_consistent hdeleted hcur₁ hnode'
      (hfits t₁ _ cur node' hcall hnode') h₂
    refine freeNodeCell_consistent hadded ?_
    rw [hnl₂, hlist]
    exact hn

theorem setActive_consistent {active : Bool} (ht : t.Consistent)
    (h : t.modifyContact c (fun k => { k with active := active }) = some t') :
    t'.Consistent := by
  obtain ⟨k, hk, hk', hz, hsame⟩ := modifyContact_spec h
  have hcontact : ∀ z kz, t.contacts z = some kz →
      ∃ a, t'.contacts z = some { kz with active := a } := by
    intro z kz hkz
    by_cases hzc : z = c
    · subst hzc
      obtain rfl : k = kz := Option.some.inj (hk.symm.trans hkz)
      exact ⟨active, hk'⟩
    · exact ⟨kz.active, by rw [hz z hzc, hkz]⟩
  obtain ⟨howned, -⟩ : t'.Owned ∧ (t.Admitted 0 → t'.Admitted 0) :=
    ht.owned.of_same hsame.nodeList hsame.contactList
      (fun m _ => congrFun hsame.nodes m) fun m _ nd _ z _ kz hkz => by
        obtain ⟨a, ha⟩ := hcontact z kz hkz
        exact ⟨_, ha, rfl, rfl, rfl⟩
  have halike : ∀ z ∈ t.contactList, Alike t t' z := by
    intro z hzl
    obtain ⟨kz, m, nd, hkz, hkm, -, hnd, -⟩ := ht.owned.contact hzl
    obtain ⟨a, ha⟩ := hcontact z kz hkz
    exact ⟨kz, _, m, nd, nd, hkz, ha, hkm, hkm, hnd, by rw [hsame.nodes, hnd], rfl,
      rfl, fun _ => Iff.rfl⟩
  refine ⟨howned, sortedBy_of_alike ht.sorted (by rw [hsame.contactList])
    fun z hzl => ?_, ht.indexed.of_alike hsame.eidTable hsame.contactList halike⟩
  rw [hsame.contactList] at hzl
  exact (halike z hzl).fromTime

end RoutingTable

end Upcn
