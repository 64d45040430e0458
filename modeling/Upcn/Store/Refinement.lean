import Upcn.Store.Manager
import Upcn.Store.Update

/-!
# The node heap implements the finite map

`Implements c s` relates the static variables of the code to the finite
map: the heap represents a balanced search tree with the ids of the map.
Every call of the interface keeps it and returns what the map returns.

`bundleStorage_refines_map` is the result about runs.  The only ways for a
run to stop are those that the caller or the platform cause: a bundle that
has an id already, a counter below the payload to be subtracted, an address
that `malloc` hands out twice, or a store that holds every id.
-/

namespace Upcn.Store

open Avl BinaryTree Outcome

variable {β : Type}

/-- The heap represents a search tree with balanced, real heights. -/
structure WellFormed (t : StorageTree β) (x : BinaryTree (Entry β)) :
    Prop where
  rep : At t [] x
  balanced : Balanced x
  sorted : ((inorder x).map Entry.id).Pairwise (· < ·)
  valid : ∀ e ∈ inorder x, e.id ≠ invalidId ∧ e.id < idCount

/-- The tree holds exactly the bundles of the map. -/
def Holds (x : BinaryTree (Entry β)) (m : Nat → Option β) : Prop :=
  ∀ id b, m id = some b ↔ ∃ e ∈ inorder x, e.id = id ∧ e.bundle = b

/-- The code's variables implement the finite map. -/
structure Implements (c : BundleStorage β) (s : BundleStore β) : Prop where
  nextId : c.nextId = s.nextId
  nextId_lt : s.nextId < idCount
  bundleBytes : c.bundleBytes = s.bundleBytes
  tree : ∃ x, WellFormed c.tree x ∧ Holds x s.bundles

/-! ## The represented tree -/

/-- There are fewer valid ids than values of `bundleid_t`. -/
theorem length_lt_of_valid {ids : List Nat} (hn : ids.Nodup)
    (hv : ∀ id ∈ ids, id ≠ invalidId ∧ id < idCount) :
    ids.length < 2 ^ 16 := by
  have hn' : (invalidId :: ids).Nodup :=
    List.nodup_cons.2 ⟨fun hmem => (hv _ hmem).1 rfl, hn⟩
  have hsub : invalidId :: ids ⊆ List.range idCount := by
    intro id hmem
    rw [List.mem_range]
    rcases List.mem_cons.1 hmem with rfl | hmem
    · decide
    · exact (hv id hmem).2
  have hle := (hn'.subperm hsub).length_le
  rw [List.length_range, List.length_cons, idCount] at hle
  omega

theorem WellFormed.valid_ids {t : StorageTree β} {x : BinaryTree (Entry β)}
    (h : WellFormed t x) :
    ∀ id ∈ (inorder x).map Entry.id, id ≠ invalidId ∧ id < idCount := by
  intro id hmem
  obtain ⟨e, he, rfl⟩ := List.mem_map.1 hmem
  exact h.valid e he

theorem WellFormed.nodup_ids {t : StorageTree β} {x : BinaryTree (Entry β)}
    (h : WellFormed t x) : ((inorder x).map Entry.id).Nodup :=
  h.sorted.imp fun hab => Nat.ne_of_lt hab

theorem WellFormed.numNodes_lt {t : StorageTree β}
    {x : BinaryTree (Entry β)} (h : WellFormed t x) :
    x.numNodes < 2 ^ 16 := by
  have hlt := length_lt_of_valid h.nodup_ids h.valid_ids
  rwa [List.length_map, length_inorder] at hlt

/-- While an id is free, there is room for one more node. -/
theorem WellFormed.numNodes_succ_lt {t : StorageTree β}
    {x : BinaryTree (Entry β)} (h : WellFormed t x) {free : Nat}
    (hid : free ≠ invalidId) (hlt : free < idCount)
    (hfree : free ∉ (inorder x).map Entry.id) :
    x.numNodes + 1 < 2 ^ 16 := by
  have hlt := length_lt_of_valid (List.nodup_cons.2 ⟨hfree, h.nodup_ids⟩)
    (by
      intro id hmem
      rcases List.mem_cons.1 hmem with rfl | hmem
      · exact ⟨hid, hlt⟩
      · exact h.valid_ids id hmem)
  rwa [List.length_cons, List.length_map, length_inorder] at hlt

/-- A search in a well-formed tree ends at the bundle with the id. -/
theorem WellFormed.locate_cases {t : StorageTree β}
    {x : BinaryTree (Entry β)} (h : WellFormed t x)
    {m : Nat → Option β} (hm : Holds x m) (id : Nat) :
    (∃ path e l r, locate Entry.id id x [] = (path, .node e l r) ∧
        plug path (.node e l r) = x ∧ e.id = id ∧ m id = some e.bundle) ∨
      (t.findNodeptr id false = .ok none ∧ m id = none ∧
        id ∉ (inorder x).map Entry.id) := by
  have hplug := plug_locate Entry.id id x []
  cases hloc : locate Entry.id id x [] with
  | mk path y =>
    rw [hloc] at hplug
    cases y with
    | node e l r =>
      have hkey : e.id = id := key_of_locate Entry.id id x [] (by rw [hloc])
      refine Or.inl ⟨path, e, l, r, rfl, hplug, hkey, (hm id _).2 ⟨e, ?_, hkey,
        rfl⟩⟩
      rw [← plug_nil x, ← hplug, inorder_plug]
      simp
    | nil =>
      right
      obtain ⟨hb, ha⟩ := locate_bounds Entry.id id x [] h.sorted
        (by simp [before]) (by simp [after])
      rw [hloc] at hb ha
      have hnot : id ∉ (inorder x).map Entry.id := by
        intro hmem
        obtain ⟨e, he, hid⟩ := List.mem_map.1 hmem
        rw [← plug_nil x, ← hplug, inorder_plug] at he
        simp only [inorder_nil, List.append_nil, List.mem_append] at he
        rcases he with he | he
        · exact absurd (hb e he) (by omega)
        · exact absurd (ha e he) (by omega)
      refine ⟨?_, ?_, hnot⟩
      · have hx := h.numNodes_lt
        have hh := x.height_le_numNodes
        rw [findNodeptr_spec id false h.rep (by rw [maxDepth, idCount]; omega),
          hloc]
        cases path <;> rfl
      · cases hmid : m id with
        | none => rfl
        | some b =>
          obtain ⟨e, he, hid, -⟩ := (hm id b).1 hmid
          exact absurd (List.mem_map.2 ⟨e, he, hid⟩) hnot

/-- What the code sees of a bundle that the search ends at. -/
theorem WellFormed.found {t : StorageTree β} {x : BinaryTree (Entry β)}
    (h : WellFormed t x) {id : Nat} {path : Path (Entry β)}
    {e : Entry β} {l r : BinaryTree (Entry β)}
    (hloc : locate Entry.id id x [] = (path, .node e l r))
    (hplug : plug path (.node e l r) = x) :
    t.findNodeptr id false = .ok (some (slotOf path)) ∧
      t.read (slotOf path) = .ok (some e.ptr) ∧
      (∃ n, t.load e.ptr = .ok n ∧ n.bundle = e.bundle) ∧
      At t path (.node e l r) := by
  have hx := h.numNodes_lt
  have hh := x.height_le_numNodes
  have hat : At t path (.node e l r) := by
    have hd := h.rep
    rw [← hplug] at hd
    have hd' := hd.descend path
    rwa [List.append_nil] at hd'
  refine ⟨?_, read_spec hat.repPath, ⟨_, StorageTree.load_eq hat.rep.1, rfl⟩,
    hat⟩
  rw [findNodeptr_spec id false h.rep (by rw [maxDepth, idCount]; omega),
    hloc]
  rfl

/-! ## One label more, one label less -/

section Labels

variable {x x' : BinaryTree (Entry β)} {e : Entry β}
  {pre post : List (Entry β)}

theorem holds_insert {m : Nat → Option β} (hx : inorder x = pre ++ post)
    (hx' : inorder x' = pre ++ e :: post) (hm : Holds x m)
    (hnew : e.id ∉ (inorder x).map Entry.id) :
    Holds x' (Function.update m e.id (some e.bundle)) := by
  intro id b
  have hmem : ∀ v, v ∈ inorder x' ↔ v = e ∨ v ∈ inorder x := by
    intro v
    rw [hx, hx']
    simp only [List.mem_append, List.mem_cons]
    tauto
  by_cases hid : id = e.id
  · subst hid
    rw [Function.update_self, Option.some.injEq]
    constructor
    · exact fun hb => ⟨e, (hmem e).2 (Or.inl rfl), rfl, hb⟩
    · rintro ⟨v, hv, hvid, rfl⟩
      rcases (hmem v).1 hv with rfl | hv
      · rfl
      · exact absurd (List.mem_map.2 ⟨v, hv, hvid⟩) hnew
  · rw [Function.update_of_ne hid, hm id b]
    constructor
    · rintro ⟨v, hv, hvid⟩
      exact ⟨v, (hmem v).2 (Or.inr hv), hvid⟩
    · rintro ⟨v, hv, hvid, hvb⟩
      rcases (hmem v).1 hv with rfl | hv
      · exact absurd hvid.symm hid
      · exact ⟨v, hv, hvid, hvb⟩

theorem holds_remove {m : Nat → Option β}
    (hx : inorder x = pre ++ e :: post) (hx' : inorder x' = pre ++ post)
    (hm : Holds x m) (hn : ((inorder x).map Entry.id).Nodup) :
    Holds x' (Function.update m e.id none) := by
  intro id b
  have hnot : ∀ v ∈ inorder x', v.id ≠ e.id := by
    intro v hv he
    rw [hx, List.map_append, List.map_cons] at hn
    have hn' := List.nodup_middle.1 hn
    rw [List.nodup_cons, ← List.map_append, ← hx'] at hn'
    exact hn'.1 (List.mem_map.2 ⟨v, hv, he⟩)
  have hmem : ∀ v, v ∈ inorder x ↔ v = e ∨ v ∈ inorder x' := by
    intro v
    rw [hx, hx']
    simp only [List.mem_append, List.mem_cons]
    tauto
  by_cases hid : id = e.id
  · subst hid
    rw [Function.update_self]
    constructor
    · exact fun hb => absurd hb (by simp)
    · rintro ⟨v, hv, hvid, -⟩
      exact absurd hvid (hnot v hv)
  · rw [Function.update_of_ne hid, hm id b]
    constructor
    · rintro ⟨v, hv, hvid, hvb⟩
      rcases (hmem v).1 hv with rfl | hv
      · exact absurd hvid.symm hid
      · exact ⟨v, hv, hvid, hvb⟩
    · rintro ⟨v, hv, hvid⟩
      exact ⟨v, (hmem v).2 (Or.inr hv), hvid⟩

theorem sorted_insert (hx : inorder x = pre ++ post)
    (hx' : inorder x' = pre ++ e :: post)
    (hs : ((inorder x).map Entry.id).Pairwise (· < ·))
    (hpre : ∀ v ∈ pre, v.id < e.id) (hpost : ∀ v ∈ post, e.id < v.id) :
    ((inorder x').map Entry.id).Pairwise (· < ·) := by
  rw [List.pairwise_map] at hs ⊢
  rw [hx, List.pairwise_append] at hs
  rw [hx', List.pairwise_append, List.pairwise_cons]
  refine ⟨hs.1, ⟨hpost, hs.2.1⟩, ?_⟩
  intro a ha b hb
  rcases List.mem_cons.1 hb with rfl | hb
  · exact hpre a ha
  · exact hs.2.2 a ha b hb

theorem sorted_remove (hx : inorder x = pre ++ e :: post)
    (hx' : inorder x' = pre ++ post)
    (hs : ((inorder x).map Entry.id).Pairwise (· < ·)) :
    ((inorder x').map Entry.id).Pairwise (· < ·) := by
  rw [List.pairwise_map] at hs ⊢
  rw [hx] at hs
  rw [hx']
  exact hs.sublist ((List.sublist_cons_self e post).append_left pre)

end Labels

theorem WellFormed.insert {t t' : StorageTree β}
    {x x' : BinaryTree (Entry β)} {e : Entry β} (h : WellFormed t x)
    (hins : Inserted t t' x e x') (hid : e.id ≠ invalidId)
    (hlt : e.id < idCount) : WellFormed t' x' := by
  obtain ⟨hrep, hbal, ⟨pre, post, hx, hx', hpre, hpost⟩, -⟩ := hins
  refine ⟨hrep, hbal, sorted_insert hx hx' h.sorted hpre hpost, ?_⟩
  intro v hv
  rw [hx', List.mem_append, List.mem_cons] at hv
  have hmem : v ∈ pre ∨ v ∈ post → v ∈ inorder x := by
    rw [hx, List.mem_append]
    exact id
  rcases hv with hv | rfl | hv
  · exact h.valid v (hmem (Or.inl hv))
  · exact ⟨hid, hlt⟩
  · exact h.valid v (hmem (Or.inr hv))

theorem WellFormed.remove {t t' : StorageTree β}
    {x x' : BinaryTree (Entry β)} {e : Entry β} (h : WellFormed t x)
    (hrem : Removed t t' x e x') : WellFormed t' x' := by
  obtain ⟨hrep, hbal, ⟨pre, post, hx, hx'⟩, -, -⟩ := hrem
  refine ⟨hrep, hbal, sorted_remove hx hx' h.sorted, fun v hv => ?_⟩
  rw [hx', List.mem_append] at hv
  apply h.valid
  rw [hx, List.mem_append, List.mem_cons]
  tauto

/-! ## The calls -/

theorem implements_initial :
    Implements (BundleStorage.initial : BundleStorage β)
      BundleStore.initial := by
  have hlt : invalidId + 1 < idCount := by decide
  refine ⟨rfl, hlt, rfl, .nil, ⟨⟨trivial, rfl, by simp⟩, trivial,
    by simp, by simp⟩, fun id b => ?_⟩
  simp [BundleStore.initial]

theorem WellFormed.not_holds_invalid {t : StorageTree β}
    {x : BinaryTree (Entry β)} (h : WellFormed t x) {m : Nat → Option β}
    (hm : Holds x m) : m invalidId = none := by
  cases hmid : m invalidId with
  | none => rfl
  | some b =>
    obtain ⟨e, he, hid, -⟩ := (hm _ b).1 hmid
    exact absurd hid (h.valid e he).1

theorem idTaken_implements {c : BundleStorage β} {s : BundleStore β}
    (h : Implements c s) :
    BundleStorage.idTaken c.tree = fun id => .ok (s.idTaken id) := by
  funext id
  obtain ⟨x, hx, hm⟩ := h.tree
  rw [BundleStorage.idTaken, BundleStore.idTaken]
  by_cases hid : id = invalidId
  · simp [hid]
  · rw [if_neg hid]
    rcases hx.locate_cases hm id with
      ⟨path, e, l, r, hloc, hplug, -, hsome⟩ | ⟨hfind, hnone, -⟩
    · rw [(hx.found hloc hplug).1, hsome]
      simp [hid, ok_bind, pure, Except.pure]
    · rw [hfind, hnone]
      simp [hid, ok_bind, pure, Except.pure]

theorem bundleStorageContains_implements {c : BundleStorage β}
    {s : BundleStore β} (h : Implements c s) (id : Nat) :
    c.bundleStorageContains id = .ok (s.bundleStorageContains id) := by
  obtain ⟨x, hx, hm⟩ := h.tree
  rw [BundleStorage.bundleStorageContains, BundleStore.bundleStorageContains]
  by_cases hid : id = invalidId
  · rw [if_pos hid, hid, hx.not_holds_invalid hm]
    rfl
  · rw [if_neg hid]
    rcases hx.locate_cases hm id with
      ⟨path, e, l, r, hloc, hplug, -, hsome⟩ | ⟨hfind, hnone, -⟩
    · rw [(hx.found hloc hplug).1, hsome]
      rfl
    · rw [hfind, hnone]
      rfl

theorem bundleStorageGet_implements {c : BundleStorage β}
    {s : BundleStore β} (h : Implements c s) (id : Nat) :
    c.bundleStorageGet id = .ok (s.bundleStorageGet id) := by
  obtain ⟨x, hx, hm⟩ := h.tree
  rw [BundleStorage.bundleStorageGet, BundleStore.bundleStorageGet]
  by_cases hid : id = invalidId
  · rw [if_pos hid, hid, hx.not_holds_invalid hm]
  · rw [if_neg hid]
    rcases hx.locate_cases hm id with
      ⟨path, e, l, r, hloc, hplug, -, hsome⟩ | ⟨hfind, hnone, -⟩
    · obtain ⟨hfind, hread, ⟨n, hload, hn⟩, -⟩ := hx.found hloc hplug
      rw [hfind, hsome, ok_bind]
      simp only [hread, ok_bind, hload, hn]
      rfl
    · rw [hfind, hnone]
      rfl

/-- `bundle_storage_add` does what the finite map does. -/
theorem bundleStorageAdd_implements {c : BundleStorage β}
    {s : BundleStore β} (h : Implements c s) (mem : Option NodePtr)
    (bundle : β) (bundleId : Nat) (payloadLength : Option Nat) :
    (c.bundleStorageAdd mem bundle bundleId payloadLength
        = .error .notFresh ∧ ∃ p ∈ mem, c.tree.nodes p ≠ none) ∨
      match s.bundleStorageAdd mem.isSome bundle bundleId payloadLength with
      | .error e => c.bundleStorageAdd mem bundle bundleId payloadLength
          = .error e
      | .ok (id, s') => ∃ c', c.bundleStorageAdd mem bundle bundleId
          payloadLength = .ok (id, c') ∧ Implements c' s' := by
  obtain ⟨hnext, hnlt, hbytes, x, hx, hm⟩ := h
  have htaken := idTaken_implements ⟨hnext, hnlt, hbytes, x, hx, hm⟩
  rw [BundleStorage.bundleStorageAdd, BundleStore.bundleStorageAdd, hnext,
    htaken]
  by_cases hbid : bundleId = invalidId
  swap
  · right
    simp only [if_pos hbid]
    rfl
  rw [if_neg (not_not.2 hbid), if_neg (not_not.2 hbid)]
  cases hfree : freeId (fun id => Except.ok (s.idTaken id)) idCount s.nextId
      (succId s.nextId) with
  | error e => exact Or.inr rfl
  | ok found =>
    obtain ⟨id, nextId⟩ := found
    simp only [ok_bind]
    have hnot := freeId_ok hfree
    obtain ⟨hidlt, hnextlt⟩ := freeId_lt hnlt
      (Nat.mod_lt _ (by decide : 0 < idCount)) hfree
    simp only [BundleStore.idTaken, Bool.or_eq_false_iff,
      decide_eq_false_iff_not, Option.isSome_eq_false_iff,
      Option.isNone_iff_eq_none] at hnot
    obtain ⟨hid, hnone⟩ := hnot
    have hfree' : id ∉ (inorder x).map Entry.id := by
      intro hmem
      obtain ⟨e, he, rfl⟩ := List.mem_map.1 hmem
      have hsome := (hm _ _).2 ⟨e, he, rfl, rfl⟩
      rw [hnone] at hsome
      exact absurd hsome (by simp)
    cases mem with
    | none =>
      right
      have hh := x.height_le_numNodes
      have hx' := hx.numNodes_lt
      have hadd := addNode_none bundle hx.rep
        (by rw [maxDepth, idCount]; omega) hx.sorted hfree'
      refine ⟨⟨c.tree, nextId, c.bundleBytes⟩, ?_,
        ⟨rfl, hnextlt, hbytes, x, hx, hm⟩⟩
      simp only [Option.any_none, hadd, ok_bind]
      rfl
    | some p =>
      cases hp : c.tree.nodes p with
      | some n =>
        left
        refine ⟨?_, p, rfl, by rw [hp]; exact Option.some_ne_none n⟩
        simp only [Option.any_some, hp]
        rfl
      | none =>
        right
        obtain ⟨t', x', hadd, hins⟩ := addNode_spec bundle hx.rep hx.balanced
          (hx.numNodes_succ_lt hid hidlt hfree') hx.sorted hfree' hp
        obtain ⟨pre, post, hpre, hpost, -⟩ := hins.labels
        refine ⟨⟨t', nextId, (c.bundleBytes + payloadLength.getD 0)
          % bytesCount⟩, ?_, ⟨rfl, hnextlt, ?_, x',
          hx.insert hins hid hidlt, holds_insert hpre hpost hm hfree'⟩⟩
        · simp only [Option.any_some, hp, hadd, ok_bind]
          rfl
        · rw [hbytes]

/-- `bundle_storage_delete` does what the finite map does. -/
theorem bundleStorageDelete_implements {c : BundleStorage β}
    {s : BundleStore β} (h : Implements c s)
    (payloadLength : β → Option Nat) (id : Nat) :
    match s.bundleStorageDelete payloadLength id with
    | .error e => c.bundleStorageDelete payloadLength id = .error e
    | .ok (r, s') => ∃ c', c.bundleStorageDelete payloadLength id
        = .ok (r, c') ∧ Implements c' s' := by
  obtain ⟨hnext, hnlt, hbytes, x, hx, hm⟩ := h
  rw [BundleStore.bundleStorageDelete, BundleStorage.bundleStorageDelete]
  by_cases hid : id = invalidId
  · rw [if_pos hid, hid, hx.not_holds_invalid hm]
    exact ⟨c, rfl, hnext, hnlt, hbytes, x, hx, hm⟩
  rw [if_neg hid]
  rcases hx.locate_cases hm id with
    ⟨path, e, l, r, hloc, hplug, hkey, hsome⟩ | ⟨hfind, hnone, -⟩
  · obtain ⟨hfind, hread, ⟨n, hload, hn⟩, hat⟩ := hx.found hloc hplug
    simp only [hfind, hsome, ok_bind, hread, hload, hn, hbytes]
    by_cases hlow : s.bundleBytes < (payloadLength e.bundle).getD 0
    · simp only [if_pos hlow]
      rfl
    · have hbal := hx.balanced
      have hsize := hx.numNodes_lt
      rw [← hplug] at hbal hsize
      obtain ⟨t', x', hdel, hrem⟩ := deleteNodeAtPtr_spec hat hbal hsize
      rw [hplug] at hrem
      obtain ⟨pre, post, hpre, hpost⟩ := hrem.labels
      simp only [if_neg hlow]
      refine ⟨⟨t', c.nextId, s.bundleBytes - (payloadLength e.bundle).getD 0⟩,
        ?_, ⟨hnext, hnlt, rfl, x', hx.remove hrem, ?_⟩⟩
      · simp only [hdel, ok_bind]
        rfl
      · rw [← hkey]
        exact holds_remove hpre hpost hm hx.nodup_ids
  · rw [hfind, hnone]
    exact ⟨c, rfl, hnext, hnlt, hbytes, x, hx, hm⟩

/-! ## Runs -/

/-- A call that changes the store.  An insertion comes with the result of
`malloc` and with the fields of the bundle that the store reads. -/
inductive StorageCall (β : Type) where
  | add (mem : Option NodePtr) (bundle : β) (bundleId : Nat)
      (payloadLength : Option Nat)
  | delete (payloadLength : β → Option Nat) (id : Nat)

/-- One call, with the value it returns. -/
def BundleStorage.call (c : BundleStorage β) :
    StorageCall β → Except StoreFault (Nat × BundleStorage β)
  | .add mem bundle bundleId payloadLength =>
    c.bundleStorageAdd mem bundle bundleId payloadLength
  | .delete payloadLength id => do
    let (r, c) ← c.bundleStorageDelete payloadLength id
    return (r.toNat, c)

/-- The calls one after the other, with the values they return. -/
def BundleStorage.run (c : BundleStorage β) :
    List (StorageCall β) → Except StoreFault (List Nat × BundleStorage β)
  | [] => .ok ([], c)
  | call :: calls => do
    let (r, c) ← c.call call
    let (rs, c) ← c.run calls
    return (r :: rs, c)

/-- A finite map after the same calls: an insertion that returned an id
binds it, a deletion unbinds its id. -/
def performed (m : Nat → Option β) :
    List (StorageCall β) → List Nat → Nat → Option β
  | .add _ bundle _ _ :: calls, r :: rs =>
    performed (if r = invalidId then m
      else Function.update m r (some bundle)) calls rs
  | .delete _ id :: calls, _ :: rs =>
    performed (Function.update m id none) calls rs
  | _, _ => m

/-- Why a call on a store with the bundles `m` does not return: its
argument is stored already, `malloc` returns an address in use, no id is
free, or the counter is below the payload to be subtracted. -/
def StorageCall.Stops (c : BundleStorage β) (m : Nat → Option β) :
    StorageCall β → StoreFault → Prop
  | .add mem _ bundleId _, e =>
    e = .alreadyStored ∧ bundleId ≠ invalidId ∨
    e = .notFresh ∧ (∃ p ∈ mem, c.tree.nodes p ≠ none) ∨
    e = .idsExhausted ∧ ∀ id, id ≠ invalidId → id < idCount → m id ≠ none
  | .delete payloadLength id, e =>
    e = .accounting ∧ ∃ b, m id = some b ∧
      c.bundleBytes < (payloadLength b).getD 0

/-- What a call on a store with the bundles `m` returns.  An insertion
returns an id that is valid and bound to nothing if its node can be
allocated, a deletion whether there was a bundle. -/
def StorageCall.Answers (m : Nat → Option β) : StorageCall β → Nat → Prop
  | .add mem _ _ _, r =>
    if mem.isSome then r ≠ invalidId ∧ r < idCount ∧ m r = none
    else r = invalidId
  | .delete _ id, r => r = (m id).isSome.toNat

/-- An abort that no `ASSERT` of the tree code and no pointer of the tree
is the reason of. -/
def StoreFault.External (e : StoreFault) : Prop :=
  e ≠ .assertion ∧ e ≠ .dangling ∧ e ≠ .endless

theorem StorageCall.Stops.external {c : BundleStorage β}
    {m : Nat → Option β} {call : StorageCall β} {e : StoreFault}
    (h : call.Stops c m e) : e.External := by
  cases call with
  | add =>
    rcases h with ⟨rfl, -⟩ | ⟨rfl, -⟩ | ⟨rfl, -⟩ <;>
      simp [StoreFault.External]
  | delete =>
    obtain ⟨rfl, -⟩ := h
    simp [StoreFault.External]

/-- An insertion into the finite map. -/
theorem BundleStore.bundleStorageAdd_cases (s : BundleStore β)
    (hs : s.nextId < idCount) (allocated : Bool) (bundle : β)
    (bundleId : Nat) (payloadLength : Option Nat) :
    match s.bundleStorageAdd allocated bundle bundleId payloadLength with
    | .error e => e = .alreadyStored ∧ bundleId ≠ invalidId ∨
        e = .idsExhausted ∧
          ∀ id, id ≠ invalidId → id < idCount → s.bundles id ≠ none
    | .ok (r, s') =>
        (s'.bundles = if r = invalidId then s.bundles
          else Function.update s.bundles r (some bundle)) ∧
        if allocated then r ≠ invalidId ∧ r < idCount ∧ s.bundles r = none
        else r = invalidId := by
  rw [bundleStorageAdd]
  by_cases hbid : bundleId = invalidId
  swap
  · rw [if_pos hbid]
    exact Or.inl ⟨rfl, hbid⟩
  rw [if_neg (not_not.2 hbid)]
  cases hfree : freeId (fun id => Except.ok (s.idTaken id)) idCount s.nextId
      (succId s.nextId) with
  | error e =>
    obtain ⟨rfl, hall⟩ := freeId_exhausted hs hfree
    refine Or.inr ⟨rfl, fun id hid hlt hnone => ?_⟩
    have htaken := hall id hlt
    simp [idTaken, hid, hnone] at htaken
  | ok found =>
    have hnot := freeId_ok hfree
    simp only [idTaken, Bool.or_eq_false_iff, decide_eq_false_iff_not,
      Option.isSome_eq_false_iff, Option.isNone_iff_eq_none] at hnot
    have hlt := (freeId_lt hs (Nat.mod_lt _ (by decide)) hfree).1
    cases allocated with
    | false => simp [ok_bind, pure, Except.pure]
    | true => simp [ok_bind, pure, Except.pure, hnot, hlt]

/-- What one call does to a store that implements a finite map. -/
theorem call_implements {c : BundleStorage β} {s : BundleStore β}
    (h : Implements c s) (call : StorageCall β) :
    match c.call call with
    | .error e => call.Stops c s.bundles e
    | .ok (r, c') => call.Answers s.bundles r ∧ ∃ s', Implements c' s' ∧
        ∀ calls rs, performed s.bundles (call :: calls) (r :: rs)
          = performed s'.bundles calls rs := by
  cases call with
  | add mem bundle bundleId payloadLength =>
    have hcases := s.bundleStorageAdd_cases h.nextId_lt mem.isSome bundle
      bundleId payloadLength
    rcases bundleStorageAdd_implements h mem bundle bundleId payloadLength
      with ⟨hfresh, hlive⟩ | himp
    · rw [BundleStorage.call, hfresh]
      exact Or.inr (Or.inl ⟨rfl, hlive⟩)
    · rw [BundleStorage.call]
      cases hadd : s.bundleStorageAdd mem.isSome bundle bundleId
          payloadLength with
      | error e =>
        rw [hadd] at hcases himp
        rw [himp]
        rcases hcases with hstored | hfull
        · exact Or.inl hstored
        · exact Or.inr (Or.inr hfull)
      | ok result =>
        obtain ⟨r, s'⟩ := result
        rw [hadd] at hcases himp
        obtain ⟨c', hc, himpl⟩ := himp
        rw [hc]
        refine ⟨hcases.2, s', himpl, fun calls rs => ?_⟩
        rw [performed, hcases.1]
  | delete payloadLength id =>
    have himp := bundleStorageDelete_implements h payloadLength id
    rw [BundleStorage.call]
    rw [BundleStore.bundleStorageDelete] at himp
    cases hid : s.bundles id with
    | none =>
      simp only [hid] at himp
      obtain ⟨c', hc, himpl⟩ := himp
      rw [hc]
      refine ⟨by rw [StorageCall.Answers, hid]; rfl, s, himpl,
        fun calls rs => ?_⟩
      rw [performed, ← hid, Function.update_eq_self]
    | some b =>
      simp only [hid] at himp
      by_cases hlow : s.bundleBytes < (payloadLength b).getD 0
      · simp only [if_pos hlow] at himp
        rw [himp]
        exact ⟨rfl, b, hid, h.bundleBytes ▸ hlow⟩
      · simp only [if_neg hlow] at himp
        obtain ⟨c', hc, himpl⟩ := himp
        rw [hc]
        exact ⟨by rw [StorageCall.Answers, hid]; rfl, _, himpl,
          fun calls rs => rfl⟩

/-- A run of calls from a store that implements a finite map. -/
theorem run_implements {c : BundleStorage β} {s : BundleStore β}
    (h : Implements c s) (calls : List (StorageCall β)) :
    match c.run calls with
    | .error e => e.External
    | .ok (rs, c') => ∃ s', Implements c' s' ∧
        s'.bundles = performed s.bundles calls rs := by
  induction calls generalizing c s with
  | nil => exact ⟨s, h, rfl⟩
  | cons call calls ih =>
    have hcall := call_implements h call
    rw [BundleStorage.run]
    cases hc : c.call call with
    | error e =>
      rw [hc] at hcall
      exact hcall.external
    | ok result =>
      obtain ⟨r, c'⟩ := result
      rw [hc] at hcall
      obtain ⟨-, s', himpl, hperf⟩ := hcall
      have hrest := ih himpl
      simp only [ok_bind]
      cases hrun : c'.run calls with
      | error e =>
        rw [hrun] at hrest
        exact hrest
      | ok result' =>
        obtain ⟨rs, c''⟩ := result'
        rw [hrun] at hrest
        obtain ⟨s'', himpl', hb⟩ := hrest
        simp only [ok_bind]
        exact ⟨s'', himpl', by rw [hb, hperf]⟩

/-- The bundle store is a finite map.  After any calls the heap is a
balanced search tree with real heights and real parents, both queries
answer as the map does, and the next call fails only for a reason outside
the tree or returns what it returns for the map. -/
theorem bundleStorage_refines_map (calls : List (StorageCall β)) :
    match BundleStorage.initial.run calls with
    | .error e => e.External
    | .ok (rs, c) =>
      (∃ x, WellFormed c.tree x) ∧
      (∀ id,
        c.bundleStorageContains id
          = .ok (performed (fun _ => none) calls rs id).isSome ∧
        c.bundleStorageGet id
          = .ok (performed (fun _ => none) calls rs id)) ∧
      ∀ call, match c.call call with
        | .error e => call.Stops c (performed (fun _ => none) calls rs) e
        | .ok (r, _) =>
          call.Answers (performed (fun _ => none) calls rs) r := by
  have hrun := run_implements implements_initial calls
  cases hc : (BundleStorage.initial : BundleStorage β).run calls with
  | error e =>
    rw [hc] at hrun
    exact hrun
  | ok result =>
    obtain ⟨rs, c⟩ := result
    rw [hc] at hrun
    obtain ⟨s, himpl, hb⟩ := hrun
    have hinit : (BundleStore.initial : BundleStore β).bundles
        = fun _ => none := rfl
    rw [hinit] at hb
    obtain ⟨x, hx, -⟩ := himpl.tree
    refine ⟨⟨x, hx⟩, fun id => ⟨?_, ?_⟩, fun call => ?_⟩
    · rw [bundleStorageContains_implements himpl, ← hb]
      rfl
    · rw [bundleStorageGet_implements himpl, ← hb]
      rfl
    · have hcall := call_implements himpl call
      rw [hb] at hcall
      cases hnext : c.call call with
      | error e =>
        rw [hnext] at hcall
        exact hcall
      | ok answer =>
        rw [hnext] at hcall
        exact hcall.1

end Upcn.Store
