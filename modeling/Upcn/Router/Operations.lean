import Upcn.Router.Ownership

/-!
# The operations on the routing table

`Operation` lists what happens to the routing table during a run: a command
with a new node, the deletion of a node or of a contact, and the contact
manager marking a contact as active.  A new node arrives with its contacts at
addresses that are not in use.

`tableCall` is the call of `add_node_to_tables` that an operation makes, if it
makes one.  The lemmas here say that up to this call an operation only takes
contacts out of the global list, and that nodes, contacts and lists keep
referring to each other.
-/

namespace Upcn

/-- What happens to the routing table. -/
inductive Operation where
  /-- `ROUTER_COMMAND_ADD`. -/
  | addNode (mem : Memory) (n : NodePtr) (node : Node) (data : ContactPtr → Contact)
  /-- `ROUTER_COMMAND_UPDATE`. -/
  | replaceNode (mem : Memory) (n : NodePtr) (node : Node)
      (data : ContactPtr → Contact)
  /-- `ROUTER_COMMAND_DELETE`. -/
  | deleteNode (mem : Memory) (n : NodePtr) (node : Node)
      (data : ContactPtr → Contact)
  /-- `ROUTER_SIGNAL_WITHDRAW_NODE`. -/
  | deleteNodeByEid (eid : Eid)
  /-- The end of a contact. -/
  | deleteContact (c : ContactPtr)
  /-- The contact manager starts or ends a contact. -/
  | setActive (c : ContactPtr) (active : Bool)

namespace RoutingTable

/-- The memory with a new node and its contacts. -/
def place (t : RoutingTable) (n : NodePtr) (node : Node)
    (data : ContactPtr → Contact) : RoutingTable :=
  { t with
    nodes := Function.update t.nodes n (some node)
    contacts := fun c => if c ∈ node.contacts then some (data c) else t.contacts c }

/-- The addresses of a new node and its contacts are not in use, and the
contacts belong to the node. -/
structure Fresh (t : RoutingTable) (n : NodePtr) (node : Node)
    (data : ContactPtr → Contact) : Prop where
  unused : t.nodes n = none
  nodup : node.contacts.Nodup
  own : ∀ c ∈ node.contacts, t.contacts c = none ∧ (data c).node = some n ∧
    (data c).active = false

/-- What the caller of an operation provides for. -/
def Allowed (t : RoutingTable) : Operation → Prop
  | .addNode _ n node data | .replaceNode _ n node data
  | .deleteNode _ n node data => t.Fresh n node data
  | _ => True

variable (maxConcurrentContacts : Nat)

/-- The state after an operation. -/
def perform (t : RoutingTable) : Operation → Option RoutingTable
  | .addNode mem n node data =>
    (t.place n node data).routingTableAddNode maxConcurrentContacts mem n
  | .replaceNode mem n node data =>
    (t.place n node data).routingTableReplaceNode maxConcurrentContacts mem n
  | .deleteNode mem n node data =>
    (t.place n node data).routingTableDeleteNode maxConcurrentContacts mem n
  | .deleteNodeByEid eid => t.routingTableDeleteNodeByEid eid
  | .deleteContact c => t.routingTableDeleteContact c
  | .setActive c active => t.modifyContact c fun k => { k with active := active }

/-- The state after `routing_table_replace_node` has taken the old node
out. -/
def takeOver (t : RoutingTable) (cur new : NodePtr) : Option RoutingTable := do
  let t ← t.removeNodeFromTables cur true
  let t ← t.freeNode cur
  return { t with nodeList := t.nodeList.map fun n => if n = cur then new else n }

/-- The state in which an operation calls `add_node_to_tables`, and the
node. -/
def tableCall (t : RoutingTable) : Operation → Option (RoutingTable × Memory × NodePtr)
  | .addNode mem n node data => do
    let t := t.place n node data
    match ← t.getNodeEntryByEid node.eid t.nodeList with
    | none =>
      if mem.nodeEntry then some ({ t with nodeList := n :: t.nodeList }, mem, n)
      else none
    | some cur => (t.mergeNode mem cur n).map fun t => (t, mem, cur)
  | .replaceNode mem n node data => do
    let t := t.place n node data
    match ← t.getNodeEntryByEid node.eid t.nodeList with
    | none =>
      if mem.nodeEntry then some ({ t with nodeList := n :: t.nodeList }, mem, n)
      else none
    | some cur => (t.takeOver cur n).map fun t => (t, mem, n)
  | .deleteNode mem n node data => do
    let t := t.place n node data
    match ← t.getNodeEntryByEid node.eid t.nodeList with
    | none => none
    | some cur =>
      if node.endpoints = [] ∧ node.contacts = [] then none
      else (t.deleteParts cur n).map fun t => (t, mem, cur)
  | _ => none

/-- In each check that the operation makes, the counter is wide enough. -/
def OperationFits (t : RoutingTable) (op : Operation) : Prop :=
  ∀ s mem n node, t.tableCall op = some (s, mem, n) → s.nodes n = some node →
    ChecksFit maxConcurrentContacts mem node node.contacts s

/-- The states that operations lead to which all meet `condition`. -/
inductive Reachable (condition : RoutingTable → Operation → Prop) :
    RoutingTable → Prop where
  | init : Reachable condition .init
  | step {t t' : RoutingTable} {op : Operation} (ht : Reachable condition t)
      (hop : t.Allowed op) (hcondition : condition t op)
      (h : t.perform maxConcurrentContacts op = some t') : Reachable condition t'

variable {maxConcurrentContacts} {t t' s : RoutingTable} {mem : Memory}
  {n cur : NodePtr} {node newNode : Node} {data : ContactPtr → Contact}
  {c : ContactPtr}

/-! ## A new node in memory -/

theorem Fresh.not_listed (h : t.Fresh n node data) (ht : t.Owned) :
    n ∉ t.nodeList := by
  intro hn
  obtain ⟨nd, hnd, -⟩ := ht.node n hn
  rw [h.unused] at hnd
  cases hnd

/-- The contacts of the nodes in the list are others than those of a new
node. -/
theorem Fresh.disjoint (h : t.Fresh n node data) (ht : t.Owned)
    (hcur : cur ∈ t.nodeList) {old : Node} (hold : t.nodes cur = some old)
    (hc : c ∈ old.contacts) : c ∉ node.contacts := by
  intro hmem
  obtain ⟨k, hk, -⟩ := ht.of_mem hcur hold hc
  rw [(h.own c hmem).1] at hk
  cases hk

theorem Fresh.contact_not_listed (h : t.Fresh n node data) (ht : t.Owned)
    (hc : c ∈ t.contactList) : c ∉ node.contacts := by
  obtain ⟨k, m, nd, -, -, hm, hnd, hmem⟩ := ht.contact hc
  exact h.disjoint ht hm hnd hmem

theorem nodes_place_self : (t.place n node data).nodes n = some node :=
  Function.update_self ..

theorem nodes_place_of_ne {m : NodePtr} (hm : m ≠ n) :
    (t.place n node data).nodes m = t.nodes m :=
  Function.update_of_ne hm ..

theorem contacts_place_of_mem (hc : c ∈ node.contacts) :
    (t.place n node data).contacts c = some (data c) := if_pos hc

theorem contacts_place_of_not_mem (hc : c ∉ node.contacts) :
    (t.place n node data).contacts c = t.contacts c := if_neg hc

theorem Fresh.place_owned (h : t.Fresh n node data) (ht : t.Owned) :
    (t.place n node data).Owned where
  nodup := ht.nodup
  node := by
    intro m hm
    have hne : m ≠ n := fun he => h.not_listed ht (he ▸ hm)
    obtain ⟨nd, hnd, hnodup, hall⟩ := ht.node m hm
    refine ⟨nd, by rw [nodes_place_of_ne hne, hnd], hnodup, fun c hc => ?_⟩
    rw [contacts_place_of_not_mem (h.disjoint ht hm hnd hc)]
    exact hall c hc
  listed := by
    intro c hc
    obtain ⟨m, hm, nd, hnd, hmem⟩ := ht.listed c hc
    have hne : m ≠ n := fun he => h.not_listed ht (he ▸ hm)
    exact ⟨m, hm, nd, by rw [nodes_place_of_ne hne, hnd], hmem⟩
  list := ht.list

/-- The listed contacts do not change. -/
def SameListed (t t' : RoutingTable) : Prop :=
  ∀ c ∈ t.contactList, t'.contacts c = t.contacts c

theorem Fresh.sameListed (h : t.Fresh n node data) (ht : t.Owned) :
    t.SameListed (t.place n node data) :=
  fun _ hc => contacts_place_of_not_mem (h.contact_not_listed ht hc)

theorem Admitted.of_sameListed (hadm : t.Admitted maxConcurrentContacts)
    (ht : t.Owned) (hsub : t'.contactList.Sublist t.contactList)
    (hsame : t.SameListed t') : t'.Admitted maxConcurrentContacts := by
  refine hadm.of_sublist hsub fun c hc => ?_
  obtain ⟨k, hk⟩ := ht.live (hsub.subset hc)
  exact ⟨k, k, hk, by rw [hsame c (hsub.subset hc), hk], rfl, rfl, rfl⟩

/-- A node in memory whose contacts are not in use elsewhere may join the
list. -/
theorem Owned.join (ht : t.Owned) (hn : n ∉ t.nodeList)
    (hnode : t.nodes n = some node) (hnodup : node.contacts.Nodup)
    (hall : ∀ c ∈ node.contacts, ∃ k, t.contacts c = some k ∧ k.node = some n)
    {list : List NodePtr} (hperm : list.Perm (n :: t.nodeList)) :
    ({ t with nodeList := list } : RoutingTable).Owned where
  nodup := hperm.nodup_iff.mpr (List.nodup_cons.mpr ⟨hn, ht.nodup⟩)
  node := by
    intro m hm
    rcases List.mem_cons.mp (hperm.mem_iff.mp hm) with rfl | hm
    · exact ⟨node, hnode, hnodup, hall⟩
    · exact ht.node m hm
  listed := by
    intro c hc
    obtain ⟨m, hm, nd, hnd, hmem⟩ := ht.listed c hc
    exact ⟨m, hperm.mem_iff.mpr (List.mem_cons_of_mem _ hm), nd, hnd, hmem⟩
  list := ht.list

theorem Fresh.owner (h : t.Fresh n node data) :
    ∀ c ∈ node.contacts, ∃ k, (t.place n node data).contacts c = some k ∧
      k.node = some n :=
  fun c hc => ⟨data c, contacts_place_of_mem hc, (h.own c hc).2.1⟩

/-- `get_node_entry_by_eid` finds a node of the list. -/
theorem getNodeEntryByEid_spec {eid : Eid} {list : List NodePtr}
    (h : t.getNodeEntryByEid eid list = some (some cur)) :
    cur ∈ list ∧ ∃ node, t.nodes cur = some node ∧ node.eid = eid := by
  induction list with
  | nil => simp [getNodeEntryByEid] at h
  | cons m rest ih =>
    obtain ⟨node, hnode, h⟩ := Option.bind_eq_some_iff.mp h
    split at h
    · rename_i heid
      obtain rfl : m = cur := by simpa using h
      exact ⟨List.mem_cons_self, node, hnode, heid⟩
    · obtain ⟨hmem, hrest⟩ := ih h
      exact ⟨List.mem_cons_of_mem _ hmem, hrest⟩

/-! ## Merging a node into one that is in the list -/

theorem mergeNode_spec (h : s.mergeNode mem cur n = some t')
    (hcur : s.nodes cur = some node) (hnew : s.nodes n = some newNode)
    (hnodup : (node.contacts ++ newNode.contacts).Nodup)
    (hlive : ∀ z ∈ node.contacts, ∃ k, s.contacts z = some k) :
    ∃ list b', b'.Sublist newNode.contacts ∧
      list.Perm (node.contacts ++ b') ∧
      t'.nodes = Function.update s.nodes cur (some { node with
        endpoints := endpointListUnion mem node.endpoints newNode.endpoints
        contacts := list }) ∧
      t'.nodeList = s.nodeList ∧ t'.contactList = s.contactList ∧
      t'.eidTable = s.eidTable ∧
      (∀ z ∈ node.contacts, ∀ k, s.contacts z = some k →
        ∃ k', Grown s newNode.contacts k k' ∧
          t'.contacts z = some { k' with node := some cur }) ∧
      (∀ z ∈ b', ∃ k, t'.contacts z = some k ∧ k.node = some cur) ∧
      ∀ z, z ∉ node.contacts → z ∉ newNode.contacts →
        t'.contacts z = s.contacts z := by
  obtain ⟨node₁, hnode₁, h⟩ := Option.bind_eq_some_iff.mp h
  obtain rfl : node = node₁ := Option.some.inj (hcur.symm.trans hnode₁)
  obtain ⟨new₁, hnew₁, h⟩ := Option.bind_eq_some_iff.mp h
  obtain rfl : newNode = new₁ := Option.some.inj (hnew.symm.trans hnew₁)
  obtain ⟨⟨t₁, list⟩, h₁, h⟩ := Option.bind_eq_some_iff.mp h
  obtain ⟨t₂, h₂, h₃⟩ := Option.bind_eq_some_iff.mp h
  unfold contactListUnion at h₁
  split at h₁
  · obtain ⟨b', hb', hperm, hold, hnewc, hother, hsame⟩ :=
      unionContacts_spec h₁ hnodup hlive
    obtain ⟨node₂, hnode₂, h₂⟩ := Option.bind_eq_some_iff.mp h₂
    rw [hsame.nodes, hcur] at hnode₂
    obtain rfl := Option.some.inj hnode₂
    obtain rfl := Option.some.inj h₂
    obtain ⟨hin, hout, hsame₃⟩ := setNode_spec h₃
    have hmem : ∀ z, z ∈ list ↔ z ∈ node.contacts ∨ z ∈ b' := by
      intro z
      rw [hperm.mem_iff, List.mem_append]
    refine ⟨list, b', hb', hperm, ?_, ?_, ?_, ?_, ?_, ?_, ?_⟩
    · rw [hsame₃.nodes]
      exact congrArg (Function.update · cur _) hsame.nodes
    · rw [hsame₃.nodeList]
      exact hsame.nodeList
    · rw [hsame₃.contactList]
      exact hsame.contactList
    · rw [hsame₃.eidTable]
      exact hsame.eidTable
    · intro z hz k hk
      obtain ⟨k', hk', hgrown⟩ := hold z hz k hk
      obtain ⟨k₁, hk₁, hk₁'⟩ := hin z ((hmem z).mpr (.inl hz))
      obtain rfl : k' = k₁ := Option.some.inj (hk'.symm.trans hk₁)
      exact ⟨k', hgrown, hk₁'⟩
    · intro z hz
      obtain ⟨k₁, -, hk₁'⟩ := hin z ((hmem z).mpr (.inr hz))
      exact ⟨_, hk₁', rfl⟩
    · intro z hz hzn
      have hzl : z ∉ list := by
        rw [hmem]
        rintro (hm | hm)
        · exact hz hm
        · exact hzn (hb'.subset hm)
      rw [hout z hzl]
      exact hother z hz hzn
  · cases h₁

/-- The contacts of a new node, next to those of a node in the list. -/
theorem Fresh.nodup_append (h : t.Fresh n newNode data) (ht : t.Owned)
    (hcur : cur ∈ t.nodeList) (hnode : t.nodes cur = some node) :
    (node.contacts ++ newNode.contacts).Nodup := by
  obtain ⟨node', hnode', hnodup, -⟩ := ht.node cur hcur
  obtain rfl : node = node' := Option.some.inj (hnode.symm.trans hnode')
  refine List.nodup_append.mpr ⟨hnodup, h.nodup, ?_⟩
  rintro z hz w hw rfl
  exact h.disjoint ht hcur hnode hz hw

/-- After the union, all contacts of the node are its own. -/
theorem mergeNode_owned (h : s.mergeNode mem cur n = some t') (hs : s.Owned)
    (hmem : cur ∈ s.nodeList) (hcur : s.nodes cur = some node)
    (hnew : s.nodes n = some newNode)
    (hnodup : (node.contacts ++ newNode.contacts).Nodup)
    (hdisj : ∀ m ∈ s.nodeList, ∀ nd, s.nodes m = some nd → ∀ z ∈ nd.contacts,
      z ∉ newNode.contacts) : t'.Owned := by
  obtain ⟨list, b', hb', hperm, hnodes, hnodeList, hlist, -, hold, hown, hother⟩ :=
    mergeNode_spec h hcur hnew hnodup fun z hz => by
      obtain ⟨k, hk, -⟩ := hs.of_mem hmem hcur hz
      exact ⟨k, hk⟩
  have hne : ∀ m ∈ s.nodeList, m ≠ cur → ∀ nd, s.nodes m = some nd →
      t'.nodes m = some nd ∧ ∀ z ∈ nd.contacts, t'.contacts z = s.contacts z := by
    intro m hm hmc nd hnd
    refine ⟨by rw [hnodes, Function.update_of_ne hmc, hnd], fun z hz => ?_⟩
    refine hother z (fun hzc => ?_) (hdisj m hm nd hnd z hz)
    exact hmc (hs.node_unique hm hnd hmem hcur hz hzc)
  refine ⟨hnodeList ▸ hs.nodup, ?_, ?_, hlist ▸ hs.list⟩
  · intro m hm
    rw [hnodeList] at hm
    by_cases hmc : m = cur
    · subst hmc
      refine ⟨_, by rw [hnodes, Function.update_self], ?_, fun z hz => ?_⟩
      · exact hperm.nodup_iff.mpr (hnodup.sublist (hb'.append_left _))
      · rcases List.mem_append.mp (hperm.mem_iff.mp hz) with hz | hz
        · obtain ⟨k, hk, -⟩ := hs.of_mem hmem hcur hz
          obtain ⟨k', -, hk'⟩ := hold z hz k hk
          exact ⟨_, hk', rfl⟩
        · exact hown z hz
    · obtain ⟨nd, hnd, hndup, hall⟩ := hs.node m hm
      obtain ⟨hnd', hsame⟩ := hne m hm hmc nd hnd
      refine ⟨nd, hnd', hndup, fun z hz => ?_⟩
      rw [hsame z hz]
      exact hall z hz
  · intro z hz
    rw [hlist] at hz
    rw [hnodeList]
    obtain ⟨m, hm, nd, hnd, hzm⟩ := hs.listed z hz
    by_cases hmc : m = cur
    · subst hmc
      obtain rfl : node = nd := Option.some.inj (hcur.symm.trans hnd)
      refine ⟨m, hm, _, by rw [hnodes, Function.update_self], ?_⟩
      exact hperm.mem_iff.mpr (List.mem_append_left _ hzm)
    · exact ⟨m, hm, nd, (hne m hm hmc nd hnd).1, hzm⟩

theorem mergeNode_admitted (h : s.mergeNode mem cur n = some t') (hs : s.Owned)
    (hmem : cur ∈ s.nodeList) (hcur : s.nodes cur = some node)
    (hnew : s.nodes n = some newNode)
    (hnodup : (node.contacts ++ newNode.contacts).Nodup)
    (hdisj : ∀ m ∈ s.nodeList, ∀ nd, s.nodes m = some nd → ∀ z ∈ nd.contacts,
      z ∉ newNode.contacts) (hadm : s.Admitted maxConcurrentContacts) :
    t'.Admitted maxConcurrentContacts := by
  obtain ⟨list, b', -, -, -, -, hlist, -, hold, -, hother⟩ :=
    mergeNode_spec h hcur hnew hnodup fun z hz => by
      obtain ⟨k, hk, -⟩ := hs.of_mem hmem hcur hz
      exact ⟨k, hk⟩
  refine hadm.of_sublist (by rw [hlist]) fun z hz => ?_
  rw [hlist] at hz
  obtain ⟨k, m, nd, hk, hkm, hm, hnd, hzm⟩ := hs.contact hz
  by_cases hzc : z ∈ node.contacts
  · obtain ⟨k', hgrown, hk'⟩ := hold z hzc k hk
    obtain ⟨k₁, hk₁, hkn⟩ := hs.of_mem hmem hcur hzc
    obtain rfl : k = k₁ := Option.some.inj (hk.symm.trans hk₁)
    exact ⟨k, _, hk, hk', hgrown.fromTime, hgrown.toTime, hkn.symm⟩
  · exact ⟨k, k, hk, by rw [hother z hzc (hdisj m hm nd hnd z hzm), hk], rfl, rfl,
      rfl⟩

/-! ## Taking a node out -/

/-- The removal of a node from the tables, and its deallocation. -/
theorem removeAndFree_spec {s₁ : RoutingTable} (hnode : s.nodes cur = some node)
    (hnodup : node.contacts.Nodup) (hlist : s.contactList.Nodup)
    (h₁ : s.removeNodeFromTables cur true = some s₁)
    (h₂ : s₁.freeNode cur = some t') :
    Without s cur node { t' with nodeList := s.nodeList.erase cur } ∧
      t'.nodeList = s.nodeList ∧ t'.eidTable = s₁.eidTable := by
  have hrem := removeNodeFromTables_spec hnode hnodup hlist h₁
  obtain ⟨contacts, hobject, hsub, -⟩ := hrem.object
  obtain ⟨hz, hm, hnl, hcl, htable⟩ := freeNode_spec hobject h₂
  refine ⟨⟨rfl, fun m hmc => ?_, fun z hzc => ?_, ?_, fun z hzl hzc => ?_,
    fun z hzl hzc => ?_⟩, hnl.trans hrem.nodeList, htable⟩
  · exact (hm m hmc).trans (hrem.nodes m hmc)
  · exact (hz z fun hmc => hzc (hsub.subset hmc)).trans (hrem.others z hzc)
  · exact hcl ▸ hrem.sublist
  · have hin : z ∈ s₁.contactList := hcl ▸ hzl
    exact absurd (hrem.left z hin hzc) (by simp)
  · have hin := hrem.list z hzl hzc
    exact hcl ▸ hin

theorem deleteWholeNode_spec (h : t.deleteWholeNode cur = some t') (ht : t.Owned)
    (hnode : t.nodes cur = some node) (hcur : cur ∈ t.nodeList) :
    Without t cur node t' := by
  obtain ⟨s₁, h₁, h₂⟩ := Option.bind_eq_some_iff.mp h
  obtain ⟨node', hnode', hnodup, -⟩ := ht.node cur hcur
  obtain rfl : node = node' := Option.some.inj (hnode.symm.trans hnode')
  obtain ⟨hwithout, hnl, -⟩ := removeAndFree_spec
    (s := { t with nodeList := t.nodeList.erase cur }) hnode hnodup ht.list h₁ h₂
  exact ⟨hnl, hwithout.nodes, hwithout.contacts, hwithout.sublist, hwithout.gone,
    hwithout.list⟩

/-- In a list without duplicates, the new node takes the place of the old
one. -/
theorem map_replace_perm {list : List NodePtr} (hnodup : list.Nodup)
    (hcur : cur ∈ list) :
    (list.map fun m => if m = cur then n else m).Perm (n :: list.erase cur) := by
  induction list with
  | nil => cases hcur
  | cons m rest ih =>
    obtain ⟨hm, hrest⟩ := List.nodup_cons.mp hnodup
    rw [List.map_cons]
    by_cases hmc : m = cur
    · subst hmc
      rw [if_pos rfl, List.erase_cons_head]
      have hid : (rest.map fun x => if x = m then n else x) = rest := by
        conv_rhs => rw [← List.map_id rest]
        refine List.map_congr_left fun x hx => ?_
        have hne : x ≠ m := ne_of_mem_of_not_mem hx hm
        exact if_neg hne
      rw [hid]
    · have hcur' : cur ∈ rest := by
        rcases List.mem_cons.mp hcur with he | hin
        · exact absurd he.symm hmc
        · exact hin
      rw [if_neg hmc, List.erase_cons_tail (by simpa using hmc)]
      exact ((ih hrest hcur').cons m).trans (List.Perm.swap n m _)

theorem takeOver_owned (h : s.takeOver cur n = some t') (hs : s.Owned)
    (hcur : cur ∈ s.nodeList) (hold : s.nodes cur = some node)
    (hn : n ∉ s.nodeList) (hnew : s.nodes n = some newNode)
    (hnewdup : newNode.contacts.Nodup)
    (hown : ∀ c ∈ newNode.contacts, ∃ k, s.contacts c = some k ∧ k.node = some n) :
    t'.Owned ∧ n ∈ t'.nodeList ∧ t'.nodes n = some newNode ∧
      (s.Admitted maxConcurrentContacts → t'.Admitted maxConcurrentContacts) := by
  obtain ⟨s₁, h₁, h⟩ := Option.bind_eq_some_iff.mp h
  obtain ⟨s₂, h₂, h⟩ := Option.bind_eq_some_iff.mp h
  obtain rfl := Option.some.inj h
  obtain ⟨node', hnode', hnodup, -⟩ := hs.node cur hcur
  obtain rfl : node = node' := Option.some.inj (hold.symm.trans hnode')
  obtain ⟨hwithout, hnl, -⟩ := removeAndFree_spec hold hnodup hs.list h₁ h₂
  have hne : n ≠ cur := fun he => hn (he ▸ hcur)
  have hown' : ∀ c ∈ newNode.contacts, ∃ k, s₂.contacts c = some k ∧
      k.node = some n := by
    intro c hc
    obtain ⟨k, hk, hkn⟩ := hown c hc
    refine ⟨k, ?_, hkn⟩
    refine (hwithout.contacts c fun hcn => ?_).trans hk
    obtain ⟨k', hk', hkc⟩ := hs.of_mem hcur hold hcn
    obtain rfl : k = k' := Option.some.inj (hk.symm.trans hk')
    exact hne (Option.some.inj (hkn.symm.trans hkc))
  have hnode₂ : s₂.nodes n = some newNode := (hwithout.nodes n hne).trans hnew
  have hperm : (s₂.nodeList.map fun m => if m = cur then n else m).Perm
      (n :: s.nodeList.erase cur) := by
    rw [hnl]
    exact map_replace_perm hs.nodup hcur
  have hjoin := (hwithout.owned hs hcur hold).join
    (fun hm => hn (List.mem_of_mem_erase hm)) hnode₂ hnewdup hown' hperm
  refine ⟨hjoin, hperm.mem_iff.mpr List.mem_cons_self, hnode₂, fun hadm => ?_⟩
  have hadm' := hwithout.admitted hs hadm
  exact ⟨hadm'.sorted, hadm'.apart, hadm'.bounded⟩

/-! ## Deleting parts of a node -/

theorem deleteParts_owned (h : s.deleteParts cur n = some t') (hs : s.Owned)
    (hcur : cur ∈ s.nodeList) (hnode : s.nodes cur = some node)
    (hnew : s.nodes n = some newNode)
    (hnodup : (node.contacts ++ newNode.contacts).Nodup)
    (hdisj : ∀ m ∈ s.nodeList, ∀ nd, s.nodes m = some nd → ∀ z ∈ nd.contacts,
      z ∉ newNode.contacts) :
    t'.Owned ∧ t'.nodeList = s.nodeList ∧ t'.contactList.Sublist s.contactList ∧
      (∀ z ∈ t'.contactList, z ∉ node.contacts ∧ t'.contacts z = s.contacts z) ∧
      (∀ m, m ≠ cur → t'.nodes m = s.nodes m) ∧ ∃ node', t'.nodes cur = some node' := by
  have hnd := (List.nodup_append.mp hnodup).1
  obtain ⟨new₁, hnew₁, h⟩ := Option.bind_eq_some_iff.mp h
  obtain rfl : newNode = new₁ := Option.some.inj (hnew.symm.trans hnew₁)
  obtain ⟨s₁, h₁, h⟩ := Option.bind_eq_some_iff.mp h
  have hrem := removeNodeFromTables_spec hnode hnd hs.list h₁
  obtain ⟨contacts, hobject, -, hkeep⟩ := hrem.object
  rw [hkeep rfl] at hobject
  obtain ⟨node₁, hnode₁, h⟩ := Option.bind_eq_some_iff.mp h
  obtain rfl : node = node₁ := Option.some.inj (hobject.symm.trans hnode₁)
  obtain ⟨⟨s₂, left, deleted⟩, h₂, h⟩ := Option.bind_eq_some_iff.mp h
  obtain ⟨s₃, h₃, h₄⟩ := Option.bind_eq_some_iff.mp h
  unfold contactListDifference at h₂
  split at h₂
  · obtain ⟨hperm, hedit⟩ := differenceContacts_spec h₂ hnodup
    obtain ⟨node₂, hnode₂, h₃⟩ := Option.bind_eq_some_iff.mp h₃
    rw [hedit.same.nodes, hobject] at hnode₂
    obtain rfl := Option.some.inj hnode₂
    obtain rfl := Option.some.inj h₃
    have hfree := freeSome_spec ?_ h₄
    · obtain ⟨hz, hsame⟩ := hfree
      have hleft := List.nodup_append.mp (hperm.nodup_iff.mpr hnd)
      have hsub : ∀ z ∈ left, z ∈ node.contacts :=
        fun z hzl => hperm.mem_iff.mp (List.mem_append_left _ hzl)
      have hdel : ∀ z, z ∉ node.contacts → z ∉ deleted :=
        fun z hzn hzd => hzn (hperm.mem_iff.mp (List.mem_append_right _ hzd))
      have hnodes : t'.nodes = Function.update s₁.nodes cur (some { node with
          endpoints := endpointListDifference node.endpoints newNode.endpoints
          contacts := left }) := by
        rw [hsame.nodes]
        exact congrArg (Function.update · cur _) hedit.same.nodes
      have hnl : t'.nodeList = s.nodeList := by
        rw [hsame.nodeList]
        exact hedit.same.nodeList.trans hrem.nodeList
      have hcl : t'.contactList = s₁.contactList := by
        rw [hsame.contactList]
        exact hedit.same.contactList
      have hother : ∀ z, z ∉ node.contacts → z ∉ newNode.contacts →
          t'.contacts z = s.contacts z := by
        intro z hzn hznew
        rw [hz z (hdel z hzn), ← hrem.others z hzn]
        exact hedit.other z hzn hznew
      have hmne : ∀ m, m ≠ cur → t'.nodes m = s.nodes m := by
        intro m hmc
        rw [hnodes, Function.update_of_ne hmc, hrem.nodes m hmc]
      have hin : ∀ z ∈ t'.contactList, z ∈ s.contactList ∧ z ∉ node.contacts := by
        intro z hzl
        rw [hcl] at hzl
        refine ⟨hrem.sublist.subset hzl, fun hzn => ?_⟩
        exact absurd (hrem.left z hzl hzn) (by simp)
      have howner : ∀ z ∈ t'.contactList, ∃ m ∈ s.nodeList, m ≠ cur ∧
          ∃ nd, s.nodes m = some nd ∧ z ∈ nd.contacts := by
        intro z hzl
        obtain ⟨hzs, hzn⟩ := hin z hzl
        obtain ⟨m, hm, nd, hndm, hzm⟩ := hs.listed z hzs
        refine ⟨m, hm, ?_, nd, hndm, hzm⟩
        rintro rfl
        obtain rfl : node = nd := Option.some.inj (hnode.symm.trans hndm)
        exact hzn hzm
      refine ⟨⟨hnl ▸ hs.nodup, fun m hm => ?_, fun z hzl => ?_, ?_⟩, hnl, ?_,
        fun z hzl => ?_, hmne, ⟨_, by rw [hnodes, Function.update_self]⟩⟩
      · rw [hnl] at hm
        by_cases hmc : m = cur
        · subst hmc
          refine ⟨_, by rw [hnodes, Function.update_self], hleft.1, fun z hzl => ?_⟩
          obtain ⟨k, hk, hkn⟩ := hs.of_mem hcur hnode (hsub z hzl)
          have hk₁ : s₁.contacts z = some k := by rw [hrem.kept rfl, hk]
          obtain ⟨k', hk', htimes⟩ := hedit.kept z (hsub z hzl) k hk₁
          refine ⟨k', ?_, by rw [htimes.node, hkn]⟩
          rw [hz z fun hzd => hleft.2.2 z hzl z hzd rfl]
          exact hk'
        · obtain ⟨nd, hndm, hndup, hall⟩ := hs.node m hm
          refine ⟨nd, by rw [hmne m hmc, hndm], hndup, fun z hzm => ?_⟩
          rw [hother z (fun hzn => hmc (hs.node_unique hm hndm hcur hnode hzm hzn))
            (hdisj m hm nd hndm z hzm)]
          exact hall z hzm
      · obtain ⟨m, hm, hmc, nd, hndm, hzm⟩ := howner z hzl
        exact ⟨m, hnl ▸ hm, nd, by rw [hmne m hmc, hndm], hzm⟩
      · rw [hcl]
        exact hrem.sublist.nodup hs.list
      · rw [hcl]
        exact hrem.sublist
      · obtain ⟨m, hm, -, nd, hndm, hzm⟩ := howner z hzl
        exact ⟨(hin z hzl).2, hother z (hin z hzl).2 (hdisj m hm nd hndm z hzm)⟩
    · intro r c r' hr
      obtain ⟨k, -, hr⟩ := Option.bind_eq_some_iff.mp hr
      split at hr
      · exact .inl (Option.some.inj hr).symm
      · exact .inr hr
  · cases h₂

/-! ## Deleting a contact -/

theorem unlinkFromNode_spec {k : Contact} (h : t.unlinkFromNode c k = some t') :
    t'.contacts = t.contacts ∧ t'.nodeList = t.nodeList ∧
      t'.contactList = t.contactList ∧
      ∀ m nd, t.nodes m = some nd → ∃ nd', t'.nodes m = some nd' ∧
        nd'.contacts = if k.node = some m then nd.contacts.erase c
          else nd.contacts := by
  unfold unlinkFromNode at h
  cases hkn : k.node with
  | none =>
    rw [hkn] at h
    obtain rfl := Option.some.inj h
    exact ⟨rfl, rfl, rfl, fun m nd hnd => ⟨nd, hnd, by simp⟩⟩
  | some n =>
    rw [hkn] at h
    obtain ⟨node, hnode, h⟩ := Option.bind_eq_some_iff.mp h
    have hsame := unlink_same t c (node.eid :: node.endpoints)
    obtain ⟨node', hnode', h⟩ := Option.bind_eq_some_iff.mp h
    obtain rfl := Option.some.inj h
    refine ⟨hsame.contacts, hsame.nodeList, hsame.contactList, ?_⟩
    intro m nd hnd
    by_cases hm : m = n
    · subst hm
      have hnd' : nd = node' := by
        rw [hsame.nodes, hnd] at hnode'
        exact Option.some.inj hnode'
      exact ⟨_, Function.update_self .., by rw [if_pos rfl, hnd']⟩
    · refine ⟨nd, ?_, by rw [if_neg fun he => hm (Option.some.inj he).symm]⟩
      exact (Function.update_of_ne hm ..).trans ((congrFun hsame.nodes m).trans hnd)

theorem deleteContact_owned (h : t.routingTableDeleteContact c = some t')
    (ht : t.Owned) :
    t'.Owned ∧ t'.contactList = t.contactList.erase c ∧
      ∀ z, z ≠ c → t'.contacts z = t.contacts z := by
  obtain ⟨k, hk, h⟩ := Option.bind_eq_some_iff.mp h
  obtain ⟨t₁, h₁, h⟩ := Option.bind_eq_some_iff.mp h
  have hfirst := unlinkFromNode_spec h₁
  obtain ⟨hcontacts, hnl, hcl, hnodes⟩ := hfirst
  have hsame := unlink_same t₁ c k.contactEndpoints
  obtain ⟨-, hz, hfree⟩ := freeContact_spec h
  have hcl' : t'.contactList = t.contactList.erase c := by
    rw [hfree.contactList]
    exact congrArg (·.erase c) (hsame.contactList.trans hcl)
  have hnl' : t'.nodeList = t.nodeList := by
    rw [hfree.nodeList]
    exact hsame.nodeList.trans hnl
  have hc' : ∀ z, z ≠ c → t'.contacts z = t.contacts z := by
    intro z hzc
    rw [hz z hzc]
    exact congrFun (hsame.contacts.trans hcontacts) z
  have hn' : ∀ m nd, t.nodes m = some nd → ∃ nd', t'.nodes m = some nd' ∧
      nd'.contacts = if k.node = some m then nd.contacts.erase c
        else nd.contacts := by
    intro m nd hnd
    obtain ⟨nd', hnd', hcs⟩ := hnodes m nd hnd
    refine ⟨nd', ?_, hcs⟩
    rw [hfree.nodes]
    exact (congrFun hsame.nodes m).trans hnd'
  refine ⟨⟨hnl' ▸ ht.nodup, fun m hm => ?_, fun z hzl => ?_, ?_⟩, hcl', hc'⟩
  · rw [hnl'] at hm
    obtain ⟨nd, hnd, hndup, hall⟩ := ht.node m hm
    obtain ⟨nd', hnd', hcs⟩ := hn' m nd hnd
    have hmem : ∀ z ∈ nd'.contacts, z ∈ nd.contacts ∧ z ≠ c := by
      intro z hzm
      rw [hcs] at hzm
      split at hzm
      · exact ((hndup.mem_erase_iff).mp hzm).symm
      · rename_i hkm
        refine ⟨hzm, ?_⟩
        rintro rfl
        obtain ⟨k', hk', hkn⟩ := hall z hzm
        obtain rfl : k = k' := Option.some.inj (hk.symm.trans hk')
        exact hkm hkn
    refine ⟨nd', hnd', ?_, fun z hzm => ?_⟩
    · rw [hcs]
      split
      · exact hndup.erase c
      · exact hndup
    · rw [hc' z (hmem z hzm).2]
      exact hall z (hmem z hzm).1
  · rw [hcl'] at hzl
    obtain ⟨hzc, hzs⟩ := (ht.list.mem_erase_iff).mp hzl
    obtain ⟨m, hm, nd, hnd, hzm⟩ := ht.listed z hzs
    obtain ⟨nd', hnd', hcs⟩ := hn' m nd hnd
    refine ⟨m, hnl' ▸ hm, nd', hnd', ?_⟩
    rw [hcs]
    split
    · exact (List.mem_erase_of_ne hzc).mpr hzm
    · exact hzm
  · rw [hcl']
    exact ht.list.erase c

/-! ## One operation -/

/-- What an operation does outside of the nodes in the list and their contacts
does not matter. -/
theorem Owned.of_same (ht : t.Owned) (hnl : t'.nodeList = t.nodeList)
    (hcl : t'.contactList = t.contactList)
    (hn : ∀ m ∈ t.nodeList, t'.nodes m = t.nodes m)
    (hc : ∀ m ∈ t.nodeList, ∀ nd, t.nodes m = some nd → ∀ z ∈ nd.contacts,
      ∀ k, t.contacts z = some k → ∃ k', t'.contacts z = some k' ∧
        k'.fromTime = k.fromTime ∧ k'.toTime = k.toTime ∧ k'.node = k.node) :
    t'.Owned ∧ (t.Admitted maxConcurrentContacts →
      t'.Admitted maxConcurrentContacts) := by
  refine ⟨⟨hnl ▸ ht.nodup, fun m hm => ?_, fun z hz => ?_, hcl ▸ ht.list⟩,
    fun hadm => ?_⟩
  · rw [hnl] at hm
    obtain ⟨nd, hnd, hndup, hall⟩ := ht.node m hm
    refine ⟨nd, by rw [hn m hm, hnd], hndup, fun z hz => ?_⟩
    obtain ⟨k, hk, hkn⟩ := hall z hz
    obtain ⟨k', hk', -, -, hnode⟩ := hc m hm nd hnd z hz k hk
    exact ⟨k', hk', hnode.trans hkn⟩
  · rw [hcl] at hz
    obtain ⟨m, hm, nd, hnd, hzm⟩ := ht.listed z hz
    exact ⟨m, hnl ▸ hm, nd, by rw [hn m hm, hnd], hzm⟩
  · refine hadm.of_sublist (by rw [hcl]) fun z hz => ?_
    rw [hcl] at hz
    obtain ⟨k, m, nd, hk, -, hm, hnd, hzm⟩ := ht.contact hz
    obtain ⟨k', hk', htimes⟩ := hc m hm nd hnd z hzm k hk
    exact ⟨k, k', hk, hk', htimes⟩

/-- `free_node` for a node that is not in the list. -/
theorem Owned.freeNode (ht : t.Owned) (hn : n ∉ t.nodeList)
    (hnode : t.nodes n = some node)
    (hdisj : ∀ m ∈ t.nodeList, ∀ nd, t.nodes m = some nd → ∀ z ∈ nd.contacts,
      z ∉ node.contacts) (h : t.freeNode n = some t') :
    t'.Owned ∧ (t.Admitted maxConcurrentContacts →
      t'.Admitted maxConcurrentContacts) := by
  obtain ⟨hz, hm, hnl, hcl, -⟩ := freeNode_spec hnode h
  refine ht.of_same hnl hcl (fun m hml => hm m (ne_of_mem_of_not_mem hml hn)) ?_
  intro m hml nd hnd z hzm k hk
  exact ⟨k, by rw [hz z (hdisj m hml nd hnd z hzm), hk], rfl, rfl, rfl⟩

theorem Owned.freeNodeCell (ht : t.Owned) (hn : n ∉ t.nodeList) :
    (t.freeNodeCell n).Owned ∧ (t.Admitted maxConcurrentContacts →
      (t.freeNodeCell n).Admitted maxConcurrentContacts) := by
  refine ht.of_same rfl rfl (fun m hm => ?_)
    fun _ _ _ _ _ _ k hk => ⟨k, hk, rfl, rfl, rfl⟩
  exact Function.update_of_ne (ne_of_mem_of_not_mem hm hn) ..

theorem Fresh.disjoint_place (h : t.Fresh n newNode data) (ht : t.Owned) :
    ∀ m ∈ (t.place n newNode data).nodeList, ∀ nd,
      (t.place n newNode data).nodes m = some nd → ∀ z ∈ nd.contacts,
        z ∉ newNode.contacts := by
  intro m hm nd hnd z hz
  have hne : m ≠ n := ne_of_mem_of_not_mem hm (h.not_listed ht)
  rw [nodes_place_of_ne hne] at hnd
  exact h.disjoint ht hm hnd hz

/-- The invariant of the routing table. -/
structure Kept (t : RoutingTable) (maxConcurrentContacts : Nat) : Prop where
  owned : t.Owned
  admitted : t.Admitted maxConcurrentContacts

theorem Fresh.place_kept (h : t.Fresh n node data)
    (ht : t.Kept maxConcurrentContacts) :
    (t.place n node data).Kept maxConcurrentContacts :=
  ⟨h.place_owned ht.owned, ht.admitted.of_sameListed ht.owned
    (List.Sublist.refl _) (h.sameListed ht.owned)⟩

theorem addNewNode_kept (hpos : 0 < maxConcurrentContacts)
    (hfresh : t.Fresh n node data) (ht : t.Kept maxConcurrentContacts)
    (hfits : mem.nodeEntry = true →
      ChecksFit maxConcurrentContacts mem node node.contacts
        { t.place n node data with nodeList := n :: t.nodeList })
    (h : (t.place n node data).addNewNode maxConcurrentContacts mem n = some t') :
    t'.Kept maxConcurrentContacts := by
  have hkept := hfresh.place_kept ht
  have hn := hfresh.not_listed ht.owned
  have hnode : (t.place n node data).nodes n = some node := nodes_place_self
  rw [addNewNode] at h
  split at h
  · rename_i hmem
    have hjoin := hkept.owned.join hn hnode hfresh.nodup hfresh.owner
      (List.Perm.refl _)
    have hadm := hkept.admitted
    obtain ⟨howned, hadm', -⟩ := addNodeToTables_keeps hpos hjoin
      ⟨hadm.sorted, hadm.apart, hadm.bounded⟩ List.mem_cons_self hnode
      (hfits hmem) h
    exact ⟨howned, hadm'⟩
  · obtain ⟨howned, hadm⟩ := hkept.owned.freeNode hn hnode
      (hfresh.disjoint_place ht.owned) h
    exact ⟨howned, hadm hkept.admitted⟩

/-- The node that `get_node_entry_by_eid` finds is another than the new
one. -/
theorem Fresh.found (hfresh : t.Fresh n newNode data) (ht : t.Owned)
    (h : (t.place n newNode data).getNodeEntryByEid newNode.eid
      (t.place n newNode data).nodeList = some (some cur)) :
    cur ∈ t.nodeList ∧ cur ≠ n ∧ ∃ node, t.nodes cur = some node ∧
      (t.place n newNode data).nodes cur = some node ∧
      (node.contacts ++ newNode.contacts).Nodup := by
  obtain ⟨hcur, node, hnode, -⟩ := getNodeEntryByEid_spec h
  have hne : cur ≠ n := ne_of_mem_of_not_mem hcur (hfresh.not_listed ht)
  have hnode' := hnode
  rw [nodes_place_of_ne hne] at hnode'
  exact ⟨hcur, hne, node, hnode', hnode, hfresh.nodup_append ht hcur hnode'⟩

/-- What `routing_table_add_node` does: the node is a new one, or it is merged into the one
with its EID. -/
theorem addNode_cases (hfresh : t.Fresh n newNode data) (ht : t.Owned)
    (h : (t.place n newNode data).routingTableAddNode maxConcurrentContacts mem n
      = some t') :
    (t.place n newNode data).getNodeEntryByEid newNode.eid
          (t.place n newNode data).nodeList = some none ∧
        (t.place n newNode data).addNewNode maxConcurrentContacts mem n = some t' ∨
      ∃ cur node t₁ t₂,
        (t.place n newNode data).getNodeEntryByEid newNode.eid
          (t.place n newNode data).nodeList = some (some cur) ∧
        cur ∈ t.nodeList ∧ t.nodes cur = some node ∧
        (t.place n newNode data).nodes cur = some node ∧
        (node.contacts ++ newNode.contacts).Nodup ∧
        (t.place n newNode data).mergeNode mem cur n = some t₁ ∧
        t.tableCall (.addNode mem n newNode data) = some (t₁, mem, cur) ∧
        t₁.nodeList = t.nodeList ∧
        t₁.addNodeToTables maxConcurrentContacts mem cur = some t₂ ∧
        t' = t₂.freeNodeCell n := by
  obtain ⟨node₁, hnode₁, h⟩ := Option.bind_eq_some_iff.mp h
  obtain rfl : newNode = node₁ := Option.some.inj (nodes_place_self.symm.trans hnode₁)
  obtain ⟨found, hfound, h⟩ := Option.bind_eq_some_iff.mp h
  cases found with
  | none => exact .inl ⟨hfound, h⟩
  | some cur =>
    obtain ⟨hcur, -, node, hold, hnode, hnodup⟩ := hfresh.found ht hfound
    obtain ⟨t₁, h₁, h⟩ := Option.bind_eq_some_iff.mp h
    obtain ⟨t₂, h₂, h⟩ := Option.bind_eq_some_iff.mp h
    have hcall : t.tableCall (.addNode mem n newNode data) = some (t₁, mem, cur) :=
      Option.bind_eq_some_iff.mpr
        ⟨some cur, hfound, congrArg (·.map fun t => (t, mem, cur)) h₁⟩
    obtain ⟨-, -, -, -, -, hlist, -⟩ := mergeNode_spec h₁ hnode hnode₁ hnodup
      fun z hz => by
        obtain ⟨k, hk, -⟩ := (hfresh.place_owned ht).of_mem hcur hnode hz
        exact ⟨k, hk⟩
    exact .inr ⟨cur, node, t₁, t₂, hfound, hcur, hold, hnode, hnodup, h₁, hcall, hlist, h₂,
      (Option.some.inj h).symm⟩

/-- What `routing_table_replace_node` does: the node is a new one, or it takes the place of
the one with its EID. -/
theorem replaceNode_cases (hfresh : t.Fresh n newNode data) (ht : t.Owned)
    (h : (t.place n newNode data).routingTableReplaceNode maxConcurrentContacts mem n
      = some t') :
    (t.place n newNode data).getNodeEntryByEid newNode.eid
          (t.place n newNode data).nodeList = some none ∧
        (t.place n newNode data).addNewNode maxConcurrentContacts mem n = some t' ∨
      ∃ cur node t₁, cur ∈ t.nodeList ∧ (t.place n newNode data).nodes cur = some node ∧
        (t.place n newNode data).takeOver cur n = some t₁ ∧
        t.tableCall (.replaceNode mem n newNode data) = some (t₁, mem, n) ∧
        t₁.addNodeToTables maxConcurrentContacts mem n = some t' := by
  obtain ⟨node₁, hnode₁, h⟩ := Option.bind_eq_some_iff.mp h
  obtain rfl : newNode = node₁ := Option.some.inj (nodes_place_self.symm.trans hnode₁)
  obtain ⟨found, hfound, h⟩ := Option.bind_eq_some_iff.mp h
  cases found with
  | none => exact .inl ⟨hfound, h⟩
  | some cur =>
    obtain ⟨hcur, -, node, -, hnode, -⟩ := hfresh.found ht hfound
    obtain ⟨t₁, h₁, h⟩ := Option.bind_eq_some_iff.mp h
    obtain ⟨t₂, h₂, h₃⟩ := Option.bind_eq_some_iff.mp h
    have htake : (t.place n newNode data).takeOver cur n = some { t₂ with
        nodeList := t₂.nodeList.map fun m => if m = cur then n else m } := by
      rw [takeOver, h₁, Option.bind_eq_bind, Option.bind_some, h₂]
      rfl
    have hcall : t.tableCall (.replaceNode mem n newNode data) = some (_, mem, n) :=
      Option.bind_eq_some_iff.mpr
        ⟨some cur, hfound, congrArg (·.map fun t => (t, mem, n)) htake⟩
    exact .inr ⟨cur, node, _, hcur, hnode, htake, hcall, h₃⟩

/-- What `routing_table_delete_node` does: there is no node with the EID, or it is deleted,
or parts of it are. -/
theorem deleteNode_cases (hfresh : t.Fresh n newNode data) (ht : t.Owned)
    (h : (t.place n newNode data).routingTableDeleteNode maxConcurrentContacts mem n
      = some t') :
    (t.place n newNode data).freeNode n = some t' ∨
      ∃ cur node t₁, cur ∈ t.nodeList ∧ cur ≠ n ∧
        (t.place n newNode data).nodes cur = some node ∧
        (node.contacts ++ newNode.contacts).Nodup ∧
        (newNode.contacts = [] ∧ (t.place n newNode data).deleteWholeNode cur = some t₁ ∧
            t₁.freeNode n = some t' ∨
          ∃ t₂, (t.place n newNode data).deleteParts cur n = some t₁ ∧
            t.tableCall (.deleteNode mem n newNode data) = some (t₁, mem, cur) ∧
            t₁.addNodeToTables maxConcurrentContacts mem cur = some t₂ ∧
            t' = t₂.freeNodeCell n) := by
  obtain ⟨node₁, hnode₁, h⟩ := Option.bind_eq_some_iff.mp h
  obtain rfl : newNode = node₁ := Option.some.inj (nodes_place_self.symm.trans hnode₁)
  obtain ⟨found, hfound, h⟩ := Option.bind_eq_some_iff.mp h
  cases found with
  | none => exact .inl h
  | some cur =>
    obtain ⟨hcur, hne, node, -, hnode, hnodup⟩ := hfresh.found ht hfound
    dsimp only at h
    split at h
    · rename_i hempty
      obtain ⟨t₁, h₁, h₂⟩ := Option.bind_eq_some_iff.mp h
      exact .inr ⟨cur, node, t₁, hcur, hne, hnode, hnodup, .inl ⟨hempty.2, h₁, h₂⟩⟩
    · rename_i hparts
      obtain ⟨t₁, h₁, h⟩ := Option.bind_eq_some_iff.mp h
      obtain ⟨t₂, h₂, h⟩ := Option.bind_eq_some_iff.mp h
      have hcall : t.tableCall (.deleteNode mem n newNode data)
          = some (t₁, mem, cur) := by
        refine Option.bind_eq_some_iff.mpr ⟨some cur, hfound, ?_⟩
        dsimp only
        rw [if_neg hparts, h₁]
        rfl
      exact .inr ⟨cur, node, t₁, hcur, hne, hnode, hnodup,
        .inr ⟨t₂, h₁, hcall, h₂, (Option.some.inj h).symm⟩⟩

theorem addNode_kept (hpos : 0 < maxConcurrentContacts)
    (hfresh : t.Fresh n newNode data) (ht : t.Kept maxConcurrentContacts)
    (hfits : t.OperationFits maxConcurrentContacts (.addNode mem n newNode data))
    (h : (t.place n newNode data).routingTableAddNode maxConcurrentContacts mem n
      = some t') : t'.Kept maxConcurrentContacts := by
  have hkept := hfresh.place_kept ht
  have hn := hfresh.not_listed ht.owned
  rcases addNode_cases hfresh ht.owned h with ⟨hfound, h⟩ |
    ⟨cur, node, t₁, t₂, -, hcur, -, hnode, hnodup, h₁, hcall, hlist, h₂, rfl⟩
  · refine addNewNode_kept hpos hfresh ht (fun hmem => ?_) h
    have hnode : (t.place n newNode data).nodes n = some newNode := nodes_place_self
    exact hfits _ mem n newNode
      (Option.bind_eq_some_iff.mpr ⟨none, hfound, if_pos hmem⟩) hnode
  · have hdisj := hfresh.disjoint_place ht.owned
    have howned₁ := mergeNode_owned h₁ hkept.owned hcur hnode nodes_place_self
      hnodup hdisj
    have hadm₁ := mergeNode_admitted h₁ hkept.owned hcur hnode nodes_place_self
      hnodup hdisj hkept.admitted
    rw [← hlist] at hcur hn
    obtain ⟨node', hnode', -⟩ := howned₁.node cur hcur
    have hfits₁ := hfits t₁ mem cur node' hcall hnode'
    obtain ⟨howned₂, hadm₂, -, -, hnl₂⟩ :=
      addNodeToTables_keeps hpos howned₁ hadm₁ hcur hnode' hfits₁ h₂
    rw [← hnl₂] at hn
    obtain ⟨howned₃, hadm₃⟩ := howned₂.freeNodeCell hn
    exact ⟨howned₃, hadm₃ hadm₂⟩

theorem replaceNode_kept (hpos : 0 < maxConcurrentContacts)
    (hfresh : t.Fresh n newNode data) (ht : t.Kept maxConcurrentContacts)
    (hfits : t.OperationFits maxConcurrentContacts (.replaceNode mem n newNode data))
    (h : (t.place n newNode data).routingTableReplaceNode maxConcurrentContacts mem n
      = some t') : t'.Kept maxConcurrentContacts := by
  have hkept := hfresh.place_kept ht
  have hn := hfresh.not_listed ht.owned
  rcases replaceNode_cases hfresh ht.owned h with ⟨hfound, h⟩ |
    ⟨cur, node, t₁, hcur, hnode, htake, hcall, h₂⟩
  · refine addNewNode_kept hpos hfresh ht (fun hmem => ?_) h
    have hnode : (t.place n newNode data).nodes n = some newNode := nodes_place_self
    exact hfits _ mem n newNode
      (Option.bind_eq_some_iff.mpr ⟨none, hfound, if_pos hmem⟩) hnode
  · obtain ⟨howned, hmem, hnode', hadm⟩ := takeOver_owned htake hkept.owned hcur
      hnode hn nodes_place_self hfresh.nodup hfresh.owner
    have hfits₁ := hfits _ mem n newNode hcall hnode'
    obtain ⟨howned', hadm', -⟩ := addNodeToTables_keeps hpos howned
      (hadm hkept.admitted) hmem hnode' hfits₁ h₂
    exact ⟨howned', hadm'⟩

theorem deleteNode_kept (hpos : 0 < maxConcurrentContacts)
    (hfresh : t.Fresh n newNode data) (ht : t.Kept maxConcurrentContacts)
    (hfits : t.OperationFits maxConcurrentContacts (.deleteNode mem n newNode data))
    (h : (t.place n newNode data).routingTableDeleteNode maxConcurrentContacts mem n
      = some t') : t'.Kept maxConcurrentContacts := by
  have hkept := hfresh.place_kept ht
  have hn := hfresh.not_listed ht.owned
  have hdisj := hfresh.disjoint_place ht.owned
  rcases deleteNode_cases hfresh ht.owned h with h |
    ⟨cur, node, t₁, hcur, hne, hnode, hnodup, ⟨hempty, h₁, h₂⟩ | ⟨t₂, h₁, hcall, h₂, rfl⟩⟩
  · obtain ⟨howned, hadm⟩ := hkept.owned.freeNode hn nodes_place_self hdisj h
    exact ⟨howned, hadm hkept.admitted⟩
  · have hwithout := deleteWholeNode_spec h₁ hkept.owned hnode hcur
    have howned₁ := hwithout.owned hkept.owned hcur hnode
    have hadm₁ := hwithout.admitted hkept.owned hkept.admitted
    have hn₁ : n ∉ t₁.nodeList := by
      rw [hwithout.nodeList]
      exact fun hm => hn (List.mem_of_mem_erase hm)
    have hnode₁ : t₁.nodes n = some newNode :=
      (hwithout.nodes n hne.symm).trans nodes_place_self
    obtain ⟨howned₂, hadm₂⟩ := howned₁.freeNode hn₁ hnode₁
      (fun _ _ _ _ z _ => by simp [hempty]) h₂
    exact ⟨howned₂, hadm₂ hadm₁⟩
  · obtain ⟨howned₁, hlist, hsub, hlisted, -, node', hnode'⟩ :=
      deleteParts_owned h₁ hkept.owned hcur hnode nodes_place_self hnodup hdisj
    have hadm₁ : t₁.Admitted maxConcurrentContacts := by
      refine hkept.admitted.of_sublist hsub fun z hz => ?_
      obtain ⟨k, hk⟩ := hkept.owned.live (hsub.subset hz)
      exact ⟨k, k, hk, by rw [(hlisted z hz).2, hk], rfl, rfl, rfl⟩
    have hcur₁ : cur ∈ t₁.nodeList := by
      rw [hlist]
      exact hcur
    have hfits₁ := hfits t₁ mem cur node' hcall hnode'
    obtain ⟨howned₂, hadm₂, -, -, hnl₂⟩ :=
      addNodeToTables_keeps hpos howned₁ hadm₁ hcur₁ hnode' hfits₁ h₂
    have hn₂ : n ∉ t₂.nodeList := by
      rw [hnl₂, hlist]
      exact hn
    obtain ⟨howned₃, hadm₃⟩ := howned₂.freeNodeCell hn₂
    exact ⟨howned₃, hadm₃ hadm₂⟩

/-- No operation breaks the invariant, as long as the counter of the check is
wide enough. -/
theorem perform_kept (hpos : 0 < maxConcurrentContacts) {op : Operation}
    (ht : t.Kept maxConcurrentContacts) (hop : t.Allowed op)
    (hfits : t.OperationFits maxConcurrentContacts op)
    (h : t.perform maxConcurrentContacts op = some t') :
    t'.Kept maxConcurrentContacts := by
  cases op with
  | addNode mem n node data => exact addNode_kept hpos hop ht hfits h
  | replaceNode mem n node data => exact replaceNode_kept hpos hop ht hfits h
  | deleteNode mem n node data => exact deleteNode_kept hpos hop ht hfits h
  | deleteNodeByEid eid =>
    obtain ⟨found, hfound, h⟩ := Option.bind_eq_some_iff.mp h
    cases found with
    | none =>
      obtain rfl := Option.some.inj h
      exact ht
    | some cur =>
      obtain ⟨hcur, node, hnode, -⟩ := getNodeEntryByEid_spec hfound
      have hwithout := deleteWholeNode_spec h ht.owned hnode hcur
      exact ⟨hwithout.owned ht.owned hcur hnode, hwithout.admitted ht.owned ht.admitted⟩
  | deleteContact c =>
    obtain ⟨howned, hlist, hz⟩ := deleteContact_owned h ht.owned
    refine ⟨howned, ht.admitted.of_sublist ?_ fun z hzl => ?_⟩
    · rw [hlist]
      exact List.erase_sublist
    · rw [hlist] at hzl
      obtain ⟨hzc, hzm⟩ := (ht.owned.list.mem_erase_iff).mp hzl
      obtain ⟨k, hk⟩ := ht.owned.live hzm
      exact ⟨k, k, hk, by rw [hz z hzc, hk], rfl, rfl, rfl⟩
  | setActive c active =>
    obtain ⟨k, hk, hk', hz, hsame⟩ := modifyContact_spec h
    obtain ⟨howned, hadm⟩ := ht.owned.of_same hsame.nodeList hsame.contactList
      (fun m _ => congrFun hsame.nodes m) fun m _ nd _ z _ kz hkz => by
        by_cases hzc : z = c
        · subst hzc
          obtain rfl : k = kz := Option.some.inj (hk.symm.trans hkz)
          exact ⟨_, hk', rfl, rfl, rfl⟩
        · exact ⟨kz, by rw [hz z hzc, hkz], rfl, rfl, rfl⟩
    exact ⟨howned, hadm ht.admitted⟩

theorem init_kept : RoutingTable.init.Kept maxConcurrentContacts where
  owned := ⟨List.nodup_nil, by simp [init], by simp [init], List.nodup_nil⟩
  admitted := ⟨List.Pairwise.nil, by simp [init], by simp [init]⟩

end RoutingTable

end Upcn
