import Upcn.Router.Operations

/-!
# Contacts in progress

The operations keep the global contact list sorted, keep the contacts of a
node apart and bound the number of contacts in progress, in every run in which
the 8-bit counter of `check_for_invalid_overlaps` is wide enough.  With 256
overlapping contacts in the list it is not: it is back at zero, and the contact
is added.
-/

namespace Upcn

namespace RoutingTable

variable {maxConcurrentContacts : Nat} {t : RoutingTable}

theorem Reachable.kept (hpos : 0 < maxConcurrentContacts)
    (h : Reachable maxConcurrentContacts
      (fun t op => t.OperationFits maxConcurrentContacts op) t) :
    t.Kept maxConcurrentContacts := by
  induction h with
  | init => exact init_kept
  | step _ hop hfits h ih => exact perform_kept hpos ih hop hfits h

/-- The global contact list satisfies what it is to satisfy, in every state of
a run in which the counter does not wrap around. -/
theorem reachable_admitted (hpos : 0 < maxConcurrentContacts)
    (h : Reachable maxConcurrentContacts
      (fun t op => t.OperationFits maxConcurrentContacts op) t) :
    t.Admitted maxConcurrentContacts :=
  (h.kept hpos).admitted

/-- The command that adds the node `n`, without endpoints. -/
def addCommand (n : NodePtr) (contacts : List ContactPtr) (fromTime toTime : Nat → Nat) :
    Operation :=
  .addNode .sufficient n ⟨"dtn:".toList ++ [Char.ofNat (65 + n)], [], contacts⟩
    fun c => ⟨some n, fromTime c, toTime c, [], false⟩

theorem checkFits_of_length {k : Contact} (h : t.contactList.length < 256) :
    t.CheckFits maxConcurrentContacts k := by
  intro hmod
  have hle : t.overlapCount k ≤ t.contactList.length := List.countP_le_length
  rwa [Nat.mod_eq_of_lt (by omega)] at hmod

theorem findPlace_length {key : Contact → Nat} {c : ContactPtr} {list found : List ContactPtr}
    (h : t.findPlace key c list = some (some found)) : found.length = list.length + 1 := by
  induction list generalizing found with
  | nil =>
    cases h
    rfl
  | cons d rest ih =>
    rw [findPlace] at h
    split at h
    · cases h
    · obtain ⟨e, -, h⟩ := Option.bind_eq_some_iff.mp h
      obtain ⟨k, -, h⟩ := Option.bind_eq_some_iff.mp h
      split at h
      · cases h
        rfl
      · obtain ⟨place, hplace, h⟩ := Option.bind_eq_some_iff.mp h
        obtain ⟨later, rfl, rfl⟩ := Option.map_eq_some_iff.mp (Option.some.inj h)
        rw [List.length_cons, ih hplace, List.length_cons]

/-- A turn of `add_node_to_tables` adds one contact at most. -/
theorem addContactToTables_length {t' : RoutingTable} {mem : Memory} {node : Node} {c : ContactPtr}
    (h : t.addContactToTables maxConcurrentContacts mem node c = some t') :
    t'.contactList.length ≤ t.contactList.length + 1 := by
  obtain ⟨k, hk, ⟨-, rfl⟩ | ⟨-, linked, hlinked, hadd⟩⟩ := addContactToTables_spec h
  · omega
  · have hsame := link_same hlinked
    obtain ⟨place, hplace, hadd⟩ := Option.bind_eq_some_iff.mp hadd
    rw [← hsame.contactList]
    cases place with
    | none =>
      cases hadd
      omega
    | some found =>
      have hlength := findPlace_length hplace
      dsimp only at hadd
      split at hadd <;> cases hadd
      · exact hlength.le
      · omega

/-- With short lists the counter does not wrap around. -/
theorem checksFit_of_length {mem : Memory} {node : Node} {rest : List ContactPtr}
    (h : t.contactList.length + rest.length ≤ 256) :
    ChecksFit maxConcurrentContacts mem node rest t := by
  induction rest generalizing t with
  | nil => trivial
  | cons c rest ih =>
    rw [List.length_cons] at h
    refine ⟨fun k _ => checkFits_of_length (by omega), fun t' h' => ih ?_⟩
    have hle := addContactToTables_length h'
    omega

/-- A new node in short lists. -/
theorem operationFits_of_new {mem : Memory} {n : NodePtr} {node : Node}
    {data : ContactPtr → Contact}
    (hnew : (t.place n node data).getNodeEntryByEid node.eid t.nodeList = some none)
    (hlength : t.contactList.length + node.contacts.length ≤ 256) :
    t.OperationFits maxConcurrentContacts (.addNode mem n node data) := by
  intro s mem' m nd hcall hnd
  obtain ⟨found, hfound, hcall⟩ := Option.bind_eq_some_iff.mp hcall
  obtain rfl : found = none := Option.some.inj (hfound.symm.trans hnew)
  dsimp only at hcall
  split at hcall
  · cases hcall
    have hnode : (t.place n node data).nodes n = some node := nodes_place_self
    obtain rfl := Option.some.inj (hnode.symm.trans hnd)
    exact checksFit_of_length hlength
  · cases hcall

instance (t : RoutingTable) (op : Operation) : Decidable (t.Allowed op) :=
  match op with
  | .addNode _ n node data | .replaceNode _ n node data
  | .deleteNode _ n node data =>
    decidable_of_iff (t.nodes n = none ∧ node.contacts.Nodup ∧
      ∀ c ∈ node.contacts, t.contacts c = none ∧ (data c).node = some n ∧
        (data c).active = false)
      ⟨fun h => ⟨h.1, h.2.1, h.2.2⟩, fun h => ⟨h.unused, h.nodup, h.own⟩⟩
  | .deleteNodeByEid _ | .deleteContact _ | .setActive _ _ => .isTrue trivial

/-- Three nodes, with three contacts at a time as the limit: the contact of the last one, which
overlaps the four others, is not added. -/
theorem reachable_admitted_three : ∃ t₁ t₂ t₃,
    RoutingTable.init.perform 3 (addCommand 0 [0, 1] (fun c => 5 + 5 * c) fun c => 9 + 5 * c)
        = some t₁ ∧
      t₁.perform 3 (addCommand 1 [2, 3] (fun c => 5 * c - 7) fun c => 5 * c - 3) = some t₂ ∧
      t₂.perform 3 (addCommand 2 [4] (fun _ => 6) fun _ => 11) = some t₃ ∧
      t₃.contactList = [2, 0, 3, 1] ∧ t₃.Admitted 3 := by
  refine ⟨_, _, _, rfl, rfl, rfl, rfl, reachable_admitted (by decide)
    (@Reachable.step _ _ _ _ (addCommand 2 [4] (fun _ => 6) fun _ => 11)
      (@Reachable.step _ _ _ _ (addCommand 1 [2, 3] (fun c => 5 * c - 7) fun c => 5 * c - 3)
        (@Reachable.step _ _ _ _ (addCommand 0 [0, 1] (fun c => 5 + 5 * c) fun c => 9 + 5 * c)
          .init ?_ ?_ rfl) ?_ ?_ rfl) ?_ ?_ rfl)⟩
  · decide
  · exact operationFits_of_new rfl (by decide)
  · decide
  · exact operationFits_of_new rfl (by decide)
  · decide
  · exact operationFits_of_new rfl (by decide)

/-! ## A run with 256 overlapping contacts -/

/-- The state after a list of operations. -/
def performAll (maxConcurrentContacts : Nat) (t : RoutingTable)
    (ops : List Operation) : Option RoutingTable :=
  ops.foldlM (fun t op =>
    if t.Allowed op then t.perform maxConcurrentContacts op else none) t

theorem reachable_performAll {t' : RoutingTable} {ops : List Operation}
    {condition : RoutingTable → Operation → Prop}
    (hcondition : ∀ op ∈ ops, ∀ t, condition t op)
    (ht : Reachable maxConcurrentContacts condition t)
    (h : t.performAll maxConcurrentContacts ops = some t') :
    Reachable maxConcurrentContacts condition t' := by
  have hloop := Outcome.foldlM_some_induction
    (motive := fun rest s => (∀ op ∈ rest, op ∈ ops) ∧
      Reachable maxConcurrentContacts condition s) ?_ h ⟨fun _ hop => hop, ht⟩
  · exact hloop.2
  · rintro op rest s s' ⟨hrest, hs⟩ hstep
    refine ⟨fun o ho => hrest o (List.mem_cons_of_mem _ ho), ?_⟩
    split at hstep
    · rename_i hop
      exact hs.step hop (hcondition op (hrest op List.mem_cons_self) s) hstep
    · cases hstep

/-- 246 contacts one after the other from 2000 on, ten contacts from 0 to 1000,
and a contact that overlaps all of them. -/
def crowd : List Operation :=
  (List.range 16).map (fun n => addCommand n
    ((List.range' (16 * n) 16).filter (· < 246))
    (fun c => 3000 + 2 * c - 64 * n) (fun c => 3001 + 2 * c - 64 * n)) ++
  (List.range 10).map (fun n => addCommand (16 + n) [246 + n]
    (fun _ => 0) (fun _ => 1000)) ++
  [addCommand 26 [256] (fun _ => 0) (fun _ => 10000)]

theorem crowd_inProgress :
    (RoutingTable.init.performAll 10 crowd).map
      (fun t => t.contactList.countP (t.inProgress 500)) = some 11 := by
  decide +kernel

/-- With ten as the limit, a run leads to eleven contacts in progress at one
time. -/
theorem crowd_not_admitted :
    ¬ ∀ t, Reachable 10 (fun _ _ => True) t → t.Admitted 10 := by
  intro hall
  obtain ⟨t, ht, hcount⟩ := Option.map_eq_some_iff.mp crowd_inProgress
  have hbounded := (hall t (reachable_performAll (fun _ _ _ => trivial) .init ht)).bounded 500
  omega

end RoutingTable

end Upcn
