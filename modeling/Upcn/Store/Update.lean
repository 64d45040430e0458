import Upcn.Store.Represent

/-!
# Search, removal and insertion on the node heap

Each operation of `bundle_storage_manager.c` on the tree, as what it does to
the represented tree.

* `findNodeptr_spec`: the search computes `Avl.locate`.
* `deleteNodeAtPtr_spec`: the removal takes one label out and keeps the
  balance, in each of the four cases of the code.
* `addNode_spec`: the insertion puts one label in and keeps the balance.
-/

namespace Upcn.Store

open Avl BinaryTree Outcome

variable {β : Type}

/-! ## Search -/

theorem compToSuccessor_lt {id n : Nat} (h : id < n) :
    StorageTree.comp id n ≠ 0 ∧
      StorageTree.compToSuccessor (StorageTree.comp id n) = .left := by
  simp [StorageTree.comp, StorageTree.compToSuccessor, h]

theorem compToSuccessor_gt {id n : Nat} (h : n < id) :
    StorageTree.comp id n ≠ 0 ∧
      StorageTree.compToSuccessor (StorageTree.comp id n) = .right := by
  simp [StorageTree.comp, StorageTree.compToSuccessor, h, Nat.not_lt.2 h.le]

/-- The slot that `find_nodeptr` returns for the end of the search. -/
def foundSlot (insert : Bool) :
    Path (Entry β) × BinaryTree (Entry β) → Option Slot
  | (path, .node ..) => some (slotOf path)
  | ([], .nil) => none
  | (_ :: rest, .nil) => if insert then some (slotOf rest) else none

theorem foundSlot_nil (insert : Bool) (f : Frame (Entry β))
    (rest : Path (Entry β)) :
    foundSlot insert (f :: rest, .nil)
      = if insert then some (slotOf rest) else none := rfl

/-- The loop of `find_nodeptr` follows `Avl.locate`. -/
theorem findLoop_spec {t : StorageTree β} {path : Path (Entry β)}
    {x : BinaryTree (Entry β)} {p : NodePtr} {fuel : Nat} (id : Nat)
    (insert : Bool) (h : At t path x) (hp : rootPtr x = some p)
    (hf : x.height ≤ fuel) :
    t.findLoop id insert fuel (slotOf path) p
      = .ok (foundSlot insert (locate Entry.id id x path)) := by
  induction x generalizing path p fuel with
  | nil => simp at hp
  | node e l r ihl ihr =>
    obtain ⟨fuel, rfl⟩ : ∃ k, fuel = k + 1 := ⟨fuel - 1, by
      rw [height] at hf
      omega⟩
    rw [height] at hf
    obtain rfl : e.ptr = p := by simpa using hp
    rw [StorageTree.findLoop, StorageTree.load_eq h.rep.1, ok_bind, cell_id,
      locate]
    by_cases hlt : id < e.id
    · obtain ⟨hne, hside⟩ := compToSuccessor_lt hlt
      have hdown : At t (⟨.left, e, r⟩ :: path) l := h.down
      simp only [hne, if_false, hside, cell_successor, ptrsAt_near, hlt,
        if_true]
      cases hl : rootPtr l with
      | none =>
        cases l with
        | nil => rfl
        | node => simp at hl
      | some q => exact ihl hdown hl (by omega)
    by_cases hgt : e.id < id
    · obtain ⟨hne, hside⟩ := compToSuccessor_gt hgt
      have hdown : At t (⟨.right, e, l⟩ :: path) r := h.down
      have hright : ptrsAt .left (rootPtr l) (rootPtr r) .right
          = rootPtr r := rfl
      simp only [hne, if_false, hside, cell_successor, hright, hlt, hgt,
        if_true]
      cases hr : rootPtr r with
      | none =>
        cases r with
        | nil => rfl
        | node => simp at hr
      | some q => exact ihr hdown hr (by omega)
    · have hcomp : StorageTree.comp id e.id = 0 := by
        simp [StorageTree.comp, hlt, hgt]
      simp only [hcomp, if_true, hlt, hgt, if_false]
      rfl

/-- The search computes `Avl.locate`. -/
theorem findNodeptr_spec {t : StorageTree β} {x : BinaryTree (Entry β)}
    (id : Nat) (insert : Bool) (h : At t [] x)
    (hx : x.height ≤ maxDepth) :
    t.findNodeptr id insert
      = .ok (foundSlot insert (locate Entry.id id x [])) := by
  have hroot : t.storageTree = rootPtr x := h.repPath
  rw [StorageTree.findNodeptr, hroot]
  cases x with
  | nil => rfl
  | node e l r => exact findLoop_spec id insert h rfl hx

/-! ## Hanging a subtree into a hole -/

/-- The two writes that put the subtree `c` into the hole of a path. -/
theorem hang_spec {t : StorageTree β} {path : Path (Entry β)}
    {c : BinaryTree (Entry β)} {p pc : Option NodePtr}
    (hp : RepPath t path p) (hc : Rep t.nodes c pc)
    (hn : (ptrs (plug path c)).Nodup) :
    ∃ t1 t2, t.write (slotOf path) (rootPtr c) = .ok t1 ∧
      t1.setParentOf (rootPtr c) (pathParent path) = .ok t2 ∧
      At t2 path c ∧ Within (plug path c) t t2 ∧
      ∀ q, q ∉ pathPtrs path → t1.nodes q = t.nodes q := by
  have hn' := hn
  rw [(ptrs_plug_perm path c).nodup_iff, List.nodup_append'] at hn'
  obtain ⟨hnc, hnp, hdisj⟩ := hn'
  obtain ⟨t1, hw, hp1, hoff1⟩ := write_spec hp hnp (rootPtr c)
  have hc1 : Rep t1.nodes c pc :=
    hc.congr fun q hq => hoff1 q fun hq' => hdisj hq hq'
  obtain ⟨t2, hset, hc2, hag⟩ := setParentOf_spec hc1 hnc (pathParent path)
  have hp2 : RepPath t2 path (rootPtr c) :=
    hp1.congr hag.storageTree fun q hq => hag.nodes q fun hq' =>
      hdisj hq' hq
  refine ⟨t1, t2, hw, hset, ⟨hc2, hp2, hn⟩, ?_, hoff1⟩
  intro q hq
  rw [(ptrs_plug_perm path c).mem_iff, List.mem_append, not_or] at hq
  exact (hag.nodes q hq.1).trans (hoff1 q hq.2)

/-! ## Removal -/

/-- The repair of the way up, with enough fuel for any tree. -/
theorem repair_spec {t : StorageTree β} {f : Frame (Entry β)}
    {rest : Path (Entry β)} {x : BinaryTree (Entry β)} {h : Nat}
    (hat : At t (f :: rest) x) (hrep : Repairable rest (f.fill x) h)
    (hsize : (plug (f :: rest) x).numNodes < 2 ^ 16) :
    ∃ t', StorageTree.rebalanceFromNodeptr maxDepth t
        (some (slotOf rest)) = .ok t' ∧
      At t' [] (fixUp rest (f.fill x)) ∧
      Within (plug (f :: rest) x) t t' := by
  refine rebalance_spec hat hrep hsize ?_
  have hlen := length_add_height_le (f :: rest) x
  have hh := (plug (f :: rest) x).height_le_numNodes
  rw [List.length_cons] at hlen
  rw [maxDepth, idCount]
  omega

theorem At.free {t : StorageTree β} {x : BinaryTree (Entry β)}
    (h : At t [] x) {p : NodePtr} (hp : p ∉ ptrs x) :
    At (t.free p) [] x := by
  obtain ⟨hr, hroot, hn⟩ := h
  exact ⟨hr.congr fun q hq => StorageTree.nodes_free_of_ne t
    fun he => hp (he ▸ hq), hroot, hn⟩

/-- What the removal of the label `e` from `x` comes to. -/
structure Removed (t t' : StorageTree β) (x : BinaryTree (Entry β))
    (e : Entry β) (x' : BinaryTree (Entry β)) : Prop where
  rep : At t' [] x'
  balanced : Balanced x'
  labels : ∃ pre post, inorder x = pre ++ e :: post ∧
    inorder x' = pre ++ post
  within : Within x t t'
  freed : t'.nodes e.ptr = none

/-- The way from a heap without the label to the end of the removal. -/
theorem removed_of_labels {t t2 : StorageTree β} {e : Entry β}
    {x x' : BinaryTree (Entry β)} (hat : At t2 [] x') (hb : Balanced x')
    (hl : ∃ pre post, inorder x = pre ++ e :: post ∧ inorder x' = pre ++ post)
    (hn : (ptrs x).Nodup) (hwi : Within x t t2) :
    Removed t (t2.free e.ptr) x e x' := by
  obtain ⟨pre, post, hx, hx'⟩ := hl
  have hperm : (ptrs x).Perm (e.ptr :: ptrs x') := by
    rw [ptrs, ptrs, hx, hx', List.map_append, List.map_append, List.map_cons]
    exact List.perm_middle
  have hnot : e.ptr ∉ ptrs x' := (List.nodup_cons.1 (hperm.nodup_iff.1 hn)).1
  refine ⟨hat.free hnot, hb, ⟨pre, post, hx, hx'⟩, ?_, ?_⟩
  · intro q hq
    have hne : q ≠ e.ptr := fun he =>
      hq (hperm.mem_iff.2 (he ▸ List.mem_cons_self))
    rw [StorageTree.nodes_free_of_ne t2 hne, hwi q hq]
  · exact Function.update_self ..

/-- The last steps of a removal: the repair of the way up and the release
of the removed node. -/
theorem remove_finish {t t1 : StorageTree β} {f : Frame (Entry β)}
    {rest : Path (Entry β)} {x c : BinaryTree (Entry β)} {e : Entry β}
    {h : Nat} (hat : At t1 (f :: rest) c)
    (hrep : Repairable rest (f.fill c) h)
    (hl : ∃ pre post, inorder x = pre ++ e :: post ∧
      inorder (plug (f :: rest) c) = pre ++ post)
    (hn : (ptrs x).Nodup) (hsize : x.numNodes < 2 ^ 16)
    (hwi : Within x t t1) :
    ∃ t2, StorageTree.rebalanceFromNodeptr maxDepth t1
        (some (slotOf rest)) = .ok t2 ∧
      Removed t (t2.free e.ptr) x e (fixUp rest (f.fill c)) := by
  obtain ⟨pre, post, hx, hx'⟩ := hl
  have hsize' : (plug (f :: rest) c).numNodes < 2 ^ 16 := by
    rw [← length_inorder, hx, List.length_append, List.length_cons] at hsize
    rw [← length_inorder, hx', List.length_append]
    omega
  obtain ⟨t2, hrun, hat2, hwi2⟩ := repair_spec hat hrep hsize'
  refine ⟨t2, hrun, removed_of_labels hat2 hrep.balanced ?_ hn ?_⟩
  · refine ⟨pre, post, hx, ?_⟩
    rw [inorder_fixUp, ← plug_cons, hx']
  · intro q hq
    refine (hwi2 q fun hq' => hq ?_).trans (hwi q hq)
    rw [ptrs, hx', List.map_append, List.mem_append] at hq'
    rw [ptrs, hx, List.map_append, List.map_cons, List.mem_append,
      List.mem_cons]
    tauto

/-- The labels of a tree, with one of them singled out. -/
theorem labels_plug (path : Path (Entry β)) (s : Side) (e : Entry β)
    (c : BinaryTree (Entry β)) :
    ∃ pre post, inorder (plug path (join s e c .nil)) = pre ++ e :: post ∧
      inorder (plug path c) = pre ++ post := by
  rw [inorder_plug, inorder_plug]
  cases s with
  | left =>
    refine ⟨before path ++ inorder c, after path, ?_, rfl⟩
    simp [join]
  | right =>
    refine ⟨before path, inorder c ++ after path, ?_, by simp⟩
    simp [join]

theorem nodup_plug_of_labels {x x' : BinaryTree (Entry β)} {e : Entry β}
    (hn : (ptrs x).Nodup)
    (hl : ∃ pre post, inorder x = pre ++ e :: post ∧
      inorder x' = pre ++ post) :
    (ptrs x').Nodup ∧ e.ptr ∉ ptrs x' ∧ ptrs x' ⊆ ptrs x := by
  obtain ⟨pre, post, hx, hx'⟩ := hl
  have hperm : (ptrs x).Perm (e.ptr :: ptrs x') := by
    rw [ptrs, ptrs, hx, hx', List.map_append, List.map_append, List.map_cons]
    exact List.perm_middle
  obtain ⟨hnot, hn'⟩ := List.nodup_cons.1 (hperm.nodup_iff.1 hn)
  exact ⟨hn', hnot, fun q hq => hperm.mem_iff.2 (List.mem_cons_of_mem _ hq)⟩

/-- The node to be removed, and what the code puts in its place. -/
theorem replacement_leaf {t : StorageTree β} {path : Path (Entry β)}
    {e : Entry β} (h : At t path (.node e .nil .nil)) (slot : Slot) :
    t.replacement slot e.ptr = .ok (none, slot, t) := by
  rw [StorageTree.replacement, StorageTree.load_eq h.rep.1]
  rfl

theorem replacement_single {t : StorageTree β} {path : Path (Entry β)}
    {s : Side} {e w : Entry β} {a b : BinaryTree (Entry β)}
    (h : At t path (join s e (join s w a b) .nil)) (slot : Slot) :
    t.replacement slot e.ptr = .ok (some w.ptr, slot, t) := by
  have hc := ((rep_join ..).1 h.rep).1
  rw [StorageTree.replacement, StorageTree.load_eq hc]
  cases s <;> rfl

/-- `delete_node_at_ptr` after the choice of the replacement `r`. -/
theorem deleteNodeAtPtr_some {t t1 t2 t3 t4 : StorageTree β}
    {slot rebalanceFrom : Slot} {del r : NodePtr} {d : Node β}
    (hread : t.read slot = .ok (some del))
    (hrepl : t.replacement slot del = .ok (some r, rebalanceFrom, t1))
    (hw : t1.write slot (some r) = .ok t2) (hd : t2.nodes del = some d)
    (hset : t2.setParentOf (some r) d.parent = .ok t3)
    (hrun : StorageTree.rebalanceFromNodeptr maxDepth t3
      (some rebalanceFrom) = .ok t4) :
    t.deleteNodeAtPtr slot = .ok (t4.free del) := by
  rw [StorageTree.setParentOf] at hset
  unfold StorageTree.deleteNodeAtPtr
  simp only [hread, hrepl, hw, StorageTree.load_eq hd, hset, hrun, ok_bind]
  rfl

/-- The removal of a node without successors. -/
theorem deleteLeaf_spec {t : StorageTree β} {path : Path (Entry β)}
    {e : Entry β} (h : At t path (.node e .nil .nil))
    (hb : Balanced (plug path (.node e .nil .nil)))
    (hsize : (plug path (.node e .nil .nil)).numNodes < 2 ^ 16) :
    ∃ t' x', t.deleteNodeAtPtr (slotOf path) = .ok t' ∧
      Removed t t' (plug path (.node e .nil .nil)) e x' := by
  have hl := labels_plug path .left e .nil
  obtain ⟨hn, hnot, hsub⟩ := nodup_plug_of_labels h.nodup hl
  obtain ⟨t1, t2, hw, hset, hat, hwi, -⟩ :=
    hang_spec h.repPath (rep_nil _ none) hn
  obtain rfl : t1 = t2 := by
    simpa [StorageTree.setParentOf] using hset
  have hload : t1.nodes e.ptr = _ := (hwi _ hnot).trans h.rep.1
  have hwi' : Within (plug path (.node e .nil .nil)) t t1 :=
    fun q hq => hwi q fun hq' => hq (hsub hq')
  rw [rootPtr_nil] at hw
  unfold StorageTree.deleteNodeAtPtr
  simp only [read_spec h.repPath, rootPtr_node, ok_bind,
    replacement_leaf h, hw, StorageTree.load_eq hload, cell_parent]
  cases path with
  | nil =>
    exact ⟨_, .nil, rfl, removed_of_labels hat trivial hl h.nodup hwi'⟩
  | cons f rest =>
    obtain ⟨-, hpath⟩ := (balanced_plug _ _).1 hb
    have hrep := repairable_fill (t := .nil) trivial hpath
      (by simp) (by simp [height])
    obtain ⟨t3, hrun, hrem⟩ :=
      remove_finish hat hrep hl h.nodup hsize hwi'
    refine ⟨t3.free e.ptr, _, ?_, hrem⟩
    simp only [pathParent_cons, hat.getParentFwdPtr hload rfl, ok_bind, hrun]
    rfl

/-- The removal of a node with one successor. -/
theorem deleteSingle_spec {t : StorageTree β} {path : Path (Entry β)}
    {s : Side} {e : Entry β} {c : BinaryTree (Entry β)} (hc : c ≠ .nil)
    (h : At t path (join s e c .nil))
    (hb : Balanced (plug path (join s e c .nil)))
    (hsize : (plug path (join s e c .nil)).numNodes < 2 ^ 16) :
    ∃ t' x', t.deleteNodeAtPtr (slotOf path) = .ok t' ∧
      Removed t t' (plug path (join s e c .nil)) e x' := by
  have hl := labels_plug path s e c
  obtain ⟨hn, hnot, hsub⟩ := nodup_plug_of_labels h.nodup hl
  obtain ⟨hce, hcc, -⟩ := (rep_join ..).1 h.rep
  obtain ⟨t1, t2, hw, hset, hat, hwi, hoff⟩ := hang_spec h.repPath hcc hn
  have hload : t1.nodes e.ptr = _ := (hoff _ fun hmem => hnot
    ((ptrs_plug_perm path c).mem_iff.2 (List.mem_append_right _ hmem))).trans
      hce
  obtain ⟨w, a, b, rfl⟩ := exists_join s hc
  -- The way up is repaired from the successor itself, which is balanced.
  obtain ⟨hbj, hpath⟩ := (balanced_plug _ _).1 hb
  rw [balanced_join] at hbj
  rw [height_join, height, Nat.max_zero] at hpath
  have hrep : Repairable path (join s w a b) _ :=
    repairable_of_balanced hbj.1 hpath (by omega) (by omega)
  obtain ⟨t3, hrun, hrem⟩ := remove_finish (f := ⟨s, w, b⟩) hat.down hrep hl
    h.nodup hsize fun q hq => hwi q fun hq' => hq (hsub hq')
  rw [rootPtr_join] at hw hset
  have hread := read_spec h.repPath
  rw [rootPtr_join] at hread
  exact ⟨_, _, deleteNodeAtPtr_some hread (replacement_single h _) hw hload
    hset hrun, hrem⟩

/-! ## A piece of a path

The two-successor case moves a node from the bottom of a piece of a path to
its top, so the piece is described on its own: `up` is the node above its
last frame. -/

/-- The node above the hole of a piece. -/
def segParent (q : Path (Entry β)) (up : Option NodePtr) :
    Option NodePtr :=
  match q with
  | [] => up
  | f :: _ => some f.value.ptr

/-- The pointer to the top of a piece whose hole has pointer `p`. -/
def segTop : Path (Entry β) → Option NodePtr → Option NodePtr
  | [], p => p
  | f :: rest, _ => segTop rest (some f.value.ptr)

/-- The heap represents a piece of a path. -/
def RepSeg (h : NodePtr → Option (Node β)) :
    Path (Entry β) → Option NodePtr → Option NodePtr → Prop
  | [], _, _ => True
  | f :: rest, p, up =>
    (∃ ht, h f.value.ptr = some (cell f.value
        (ptrsAt f.side p (rootPtr f.sibling)) (segParent rest up) ht)) ∧
      Rep h f.sibling (some f.value.ptr) ∧
      RepSeg h rest (some f.value.ptr) up

theorem pathParent_append (q path : Path (Entry β)) :
    pathParent (q ++ path) = segParent q (pathParent path) := by
  cases q <;> rfl

theorem pathPtrs_append (q path : Path (Entry β)) :
    pathPtrs (q ++ path) = pathPtrs q ++ pathPtrs path := by
  induction q with
  | nil => rfl
  | cons f rest ih => simp [pathPtrs, ih]

theorem repPath_append {t : StorageTree β} {q path : Path (Entry β)}
    {p : Option NodePtr} :
    RepPath t (q ++ path) p ↔
      RepSeg t.nodes q p (pathParent path) ∧ RepPath t path (segTop q p) := by
  induction q generalizing p with
  | nil => simp [RepSeg, segTop]
  | cons f rest ih =>
    simp only [List.cons_append, RepPath, RepSeg, segTop, ih,
      pathParent_append]
    tauto

theorem RepSeg.congr {h h' : NodePtr → Option (Node β)}
    {q : Path (Entry β)} {p up : Option NodePtr} (hq : RepSeg h q p up)
    (heq : ∀ r ∈ pathPtrs q, h' r = h r) : RepSeg h' q p up := by
  induction q generalizing p with
  | nil => trivial
  | cons f rest ih =>
    obtain ⟨⟨ht, hc⟩, hs, hr⟩ := hq
    simp only [pathPtrs, List.mem_cons, List.mem_append] at heq
    exact ⟨⟨ht, (heq _ (Or.inl rfl)).trans hc⟩,
      hs.congr fun r hr => heq r (Or.inr (Or.inl hr)),
      ih hr fun r hr => heq r (Or.inr (Or.inr hr))⟩

/-- The top of a piece that is not empty is one of its nodes. -/
theorem segTop_cons (f : Frame (Entry β)) (q : Path (Entry β))
    (p : Option NodePtr) :
    ∃ r, segTop (f :: q) p = some r ∧ r ∈ pathPtrs (f :: q) := by
  induction q generalizing f p with
  | nil => exact ⟨f.value.ptr, rfl, List.mem_cons_self⟩
  | cons g rest ih =>
    obtain ⟨r, htop, hmem⟩ := ih g (some f.value.ptr)
    exact ⟨r, htop, List.mem_cons_of_mem _ (List.mem_append_right _ hmem)⟩

/-- `if (p != NULL) p->parent = q` at the top of a piece. -/
theorem setParentOf_segTop {t : StorageTree β} {f : Frame (Entry β)}
    {q : Path (Entry β)} {p up : Option NodePtr}
    (h : RepSeg t.nodes (f :: q) p up) (hn : (pathPtrs (f :: q)).Nodup)
    (up' : Option NodePtr) :
    ∃ t', t.setParentOf (segTop (f :: q) p) up' = .ok t' ∧
      RepSeg t'.nodes (f :: q) p up' ∧ Agrees (pathPtrs (f :: q)) t t' := by
  induction q generalizing f p with
  | nil =>
    obtain ⟨⟨ht, hc⟩, hs, -⟩ := h
    simp only [pathPtrs, List.append_nil, List.nodup_cons] at hn
    refine ⟨_, StorageTree.modify_eq hc _, ⟨⟨ht, ?_⟩, ?_, trivial⟩, ?_⟩
    · exact StorageTree.nodes_set_self ..
    · exact hs.set hn.1 _
    · exact agrees_set t _ List.mem_cons_self
  | cons g rest ih =>
    obtain ⟨⟨ht, hc⟩, hs, hr⟩ := h
    have hn' := hn
    rw [pathPtrs, List.nodup_cons, List.nodup_append', List.mem_append,
      not_or] at hn'
    obtain ⟨⟨-, hf⟩, -, hng, hdisj⟩ := hn'
    obtain ⟨t', hset, hr', hag⟩ := ih hr hng
    refine ⟨t', hset, ⟨⟨ht, (hag.nodes _ hf).trans hc⟩, ?_, hr'⟩, ?_⟩
    · exact hs.agrees hag fun r hr hr' => hdisj hr hr'
    · exact hag.mono fun r hr =>
        List.mem_cons_of_mem _ (List.mem_append_right _ hr)

/-- The loop that looks for the replacement ends at the extreme node. -/
theorem extreme_spec {t : StorageTree β} {s : Side} {w : Entry β}
    {c : BinaryTree (Entry β)} {q : Path (Entry β)}
    {parent : Option NodePtr} {p : NodePtr} {fuel : Nat}
    (hq : ∀ f ∈ q, f.side = s)
    (h : Rep t.nodes (plug q (join s w .nil c)) parent)
    (hp : rootPtr (plug q (join s w .nil c)) = some p)
    (hfuel : q.length < fuel) :
    StorageTree.extreme s t fuel p = .ok w.ptr := by
  induction q using List.reverseRecOn generalizing parent p fuel with
  | nil =>
    obtain ⟨fuel, rfl⟩ : ∃ k, fuel = k + 1 := ⟨fuel - 1, by omega⟩
    obtain ⟨hc, -, -⟩ := (rep_join ..).1 h
    obtain rfl : w.ptr = p := by simpa using hp
    rw [StorageTree.extreme, StorageTree.load_eq hc, ok_bind,
      cell_successor, ptrsAt_near]
    rfl
  | append_singleton q f ih =>
    obtain ⟨fuel, rfl⟩ : ∃ k, fuel = k + 1 := ⟨fuel - 1, by omega⟩
    have hf : f.side = s := hq f (List.mem_append_right _ List.mem_cons_self)
    rw [plug_append, plug_cons, plug_nil, Frame.fill, hf] at h hp
    obtain ⟨hc, hsub, -⟩ := (rep_join ..).1 h
    obtain rfl : f.value.ptr = p := by simpa using hp
    rw [StorageTree.extreme, StorageTree.load_eq hc, ok_bind,
      cell_successor, ptrsAt_near]
    rw [List.length_append, List.length_singleton] at hfuel
    cases hroot : rootPtr (plug q (join s w .nil c)) with
    | none =>
      have hne : plug q (join s w .nil c) ≠ .nil := by
        intro he
        have := congrArg inorder he
        rw [inorder_plug] at this
        cases s <;> simp [join] at this
      cases hx : plug q (join s w .nil c) with
      | nil => exact absurd hx hne
      | node e l r => simp [hx] at hroot
    | some r =>
      exact ih (fun g hg => hq g (List.mem_append_left _ hg)) hsub hroot
        (by omega)

/-! ## The two-successor case

`e` is the node to be removed, with the subtree `far` on one side.  `w` is
the extreme node of the subtree on side `s`, `c` its only subtree, and `q`
the way from `w` up to the child of `e`. -/

/-- The heap when `w` has left its place and the way up `q` hangs below
it, but `w` has not yet taken the place of `e`. -/
structure Cut (t : StorageTree β) (s : Side) (e w : Entry β)
    (q path : Path (Entry β)) (c far : BinaryTree (Entry β)) : Prop where
  seg : RepSeg t.nodes q (rootPtr c) (some w.ptr)
  sub : Rep t.nodes c (segParent q (some w.ptr))
  repl : ∃ p h, t.nodes w.ptr = some (cell w
    (ptrsAt s (segTop q (rootPtr c)) p) (segParent q (some e.ptr)) h)
  del : ∃ p h, t.nodes e.ptr = some (cell e
    (ptrsAt s p (rootPtr far)) (pathParent path) h)
  far : Rep t.nodes far (some e.ptr)
  up : RepPath t path (some e.ptr)

/-- The addresses around the gap do not overlap. -/
theorem nodup_gap {s : Side} {w : Entry β} {q path : Path (Entry β)}
    {c far : BinaryTree (Entry β)}
    (hn : (ptrs (plug (q ++ ⟨s, w, far⟩ :: path) c)).Nodup) :
    (ptrs c ++ (pathPtrs q ++
      w.ptr :: (ptrs far ++ pathPtrs path))).Nodup := by
  rw [(ptrs_plug_perm ..).nodup_iff, pathPtrs_append] at hn
  exact hn

/-- The slot to repair from: the one that holds the parent of the gap. -/
theorem Cut.getParentFwdPtr {t : StorageTree β} {s : Side} {e w : Entry β}
    {q path : Path (Entry β)} {c far : BinaryTree (Entry β)}
    {k : Node β}
    (hseg : RepSeg t.nodes q (rootPtr c) (some w.ptr))
    (hw : t.nodes w.ptr = some k) (hpar : k.parent = segParent q (some e.ptr))
    (hsuc : k.successor = ptrsAt s (segTop q (rootPtr c)) (rootPtr far))
    (hdel : ∃ n, t.nodes e.ptr = some n ∧ n.parent = pathParent path)
    (hup : RepPath t path (some e.ptr))
    (hn : (ptrs (plug (q ++ ⟨s, w, far⟩ :: path) c)).Nodup)
    (he : e.ptr ∉ ptrs (plug (q ++ ⟨s, w, far⟩ :: path) c)) :
    t.getParentFwdPtr (some w.ptr)
      = .ok (some (slotOf (q ++ ⟨s, w, far⟩ :: path).tail)) := by
  have hn' := nodup_gap hn
  cases q with
  | nil =>
    obtain ⟨n, hn1, hnp⟩ := hdel
    refine getParentFwdPtr_spec hw hpar hn1 hnp (hup.pointsTo ?_)
    intro hmem
    refine he ((ptrs_plug_perm ..).mem_iff.2 (List.mem_append_right _ ?_))
    exact List.mem_cons_of_mem _ (List.mem_append_right _ hmem)
  | cons f rest =>
    obtain ⟨⟨ht, hc⟩, -, hrest⟩ := hseg
    have hup' : (cell f.value (ptrsAt f.side (rootPtr c)
        (rootPtr f.sibling)) (segParent rest (some w.ptr)) ht).parent
        = pathParent (rest ++ ⟨s, w, far⟩ :: path) := by
      rw [pathParent_append, pathParent_cons, cell_parent]
    refine getParentFwdPtr_spec hw hpar hc hup' ?_
    rw [List.nodup_append', List.nodup_append', pathPtrs,
      List.nodup_cons] at hn'
    obtain ⟨-, ⟨⟨hf, -⟩, -, hdisj⟩, -⟩ := hn'
    cases rest with
    | nil =>
      refine ⟨⟨k, hw, hsuc⟩, fun hroot => ?_⟩
      exact hdisj List.mem_cons_self (List.mem_cons_of_mem _
        (List.mem_append_left _ (rootPtr_mem_ptrs hroot)))
    | cons g rest =>
      obtain ⟨⟨hg, hcg⟩, -, -⟩ := hrest
      refine ⟨⟨_, hcg, rfl⟩, fun hroot => hf ?_⟩
      exact List.mem_append_right _ (List.mem_cons_of_mem _
        (List.mem_append_left _ (rootPtr_mem_ptrs hroot)))

/-- The writes that put `w` into the place of `e`. -/
theorem Cut.relink {t : StorageTree β} {s : Side} {e w : Entry β}
    {q path : Path (Entry β)} {c far : BinaryTree (Entry β)}
    (h : Cut t s e w q path c far)
    (hn : (ptrs (plug (q ++ ⟨s, w, far⟩ :: path) c)).Nodup)
    (he : e.ptr ∉ ptrs (plug (q ++ ⟨s, w, far⟩ :: path) c)) :
    ∃ t1 t2 t3 t4,
      t.modify w.ptr (fun n => n.setSuccessor s.other (rootPtr far))
        = .ok t1 ∧
      t1.setParentOf (rootPtr far) (some w.ptr) = .ok t2 ∧
      t2.getParentFwdPtr (some w.ptr)
        = .ok (some (slotOf (q ++ ⟨s, w, far⟩ :: path).tail)) ∧
      t2.write (slotOf path) (some w.ptr) = .ok t3 ∧
      t3.nodes e.ptr = t.nodes e.ptr ∧
      t3.setParentOf (some w.ptr) (pathParent path) = .ok t4 ∧
      At t4 (q ++ ⟨s, w, far⟩ :: path) c ∧
      Within (plug (q ++ ⟨s, w, far⟩ :: path) c) t t4 := by
  obtain ⟨hseg, hsub, ⟨p, hw, hcw⟩, ⟨p', hd, hce⟩, hfar, hup⟩ := h
  have hmem : ∀ r, r ∈ ptrs (plug (q ++ ⟨s, w, far⟩ :: path) c) ↔
      r ∈ ptrs c ∨ r ∈ pathPtrs q ∨ r = w.ptr ∨ r ∈ ptrs far ∨
        r ∈ pathPtrs path := by
    intro r
    rw [(ptrs_plug_perm ..).mem_iff, pathPtrs_append, pathPtrs]
    simp only [List.mem_append, List.mem_cons]
  have hn' := nodup_gap hn
  simp only [List.nodup_append', List.nodup_cons, List.mem_append, not_or,
    List.disjoint_append_right, List.disjoint_cons_right] at hn'
  obtain ⟨-, ⟨-, ⟨⟨hwf, hwp⟩, hnf, hnp, hfp⟩, hwq, hqf, hqp⟩, -, hwc, hcf,
    hcp⟩ := hn'
  have hne := he
  rw [hmem] at hne
  simp only [not_or] at hne
  obtain ⟨-, -, hew, hef, hep⟩ := hne
  -- `far` moves below `w`.
  set t1 := t.set w.ptr (cell w (ptrsAt s (segTop q (rootPtr c))
    (rootPtr far)) (segParent q (some e.ptr)) hw) with ht1
  have hoff1 : ∀ r, r ≠ w.ptr → t1.nodes r = t.nodes r :=
    fun r hr => t.nodes_set_of_ne _ hr
  obtain ⟨t2, hset2, hfar2, hag2⟩ :=
    setParentOf_spec (hfar.set hwf _) hnf (some w.ptr)
  have hoff2 : ∀ r, r ≠ w.ptr → r ∉ ptrs far → t2.nodes r = t.nodes r :=
    fun r hr hr' => (hag2.nodes r hr').trans (hoff1 r hr)
  have hw2 : t2.nodes w.ptr = _ :=
    (hag2.nodes _ hwf).trans (t.nodes_set_self ..)
  have hup2 : RepPath t2 path (some e.ptr) :=
    hup.congr hag2.storageTree fun r hr => hoff2 r
      (fun he => hwp (he ▸ hr)) fun hr' => hfp hr' hr
  have hseg2 : RepSeg t2.nodes q (rootPtr c) (some w.ptr) :=
    hseg.congr fun r hr => hoff2 r (fun he => hwq (he ▸ hr))
      fun hr' => hqf hr hr'
  have hparent := Cut.getParentFwdPtr hseg2 hw2 rfl rfl
    ⟨_, (hoff2 _ hew hef).trans hce, rfl⟩ hup2 hn he
  -- The slot of `e` now holds `w`.
  obtain ⟨t3, hw3, hup3, hoff3⟩ := write_spec hup2 hnp (some w.ptr)
  have hcw3 : t3.nodes w.ptr = _ := (hoff3 _ hwp).trans hw2
  set t4 := t3.set w.ptr (cell w (ptrsAt s (segTop q (rootPtr c))
    (rootPtr far)) (pathParent path) hw) with ht4
  have hoff4 : ∀ r, r ≠ w.ptr → r ∉ pathPtrs path →
      t4.nodes r = t2.nodes r := fun r hr hr' =>
    (t3.nodes_set_of_ne _ hr).trans (hoff3 r hr')
  refine ⟨t1, t2, t3, t4, ?_, hset2, hparent, hw3, ?_, ?_, ⟨?_, ?_, hn⟩, ?_⟩
  · rw [StorageTree.modify_eq hcw, cell_setSuccessor_far]
  · exact (hoff3 _ hep).trans (hoff2 _ hew hef)
  · exact StorageTree.modify_eq hcw3 _
  · rw [pathParent_append]
    exact hsub.congr fun r hr => (hoff4 r (fun he => hwc (he ▸ hr))
      fun hr' => hcp hr hr').trans (hoff2 r (fun he => hwc (he ▸ hr))
        fun hr' => hcf hr hr')
  · rw [repPath_append]
    refine ⟨hseg2.congr fun r hr => hoff4 r (fun he => hwq (he ▸ hr))
      fun hr' => hqp hr hr', ⟨⟨hw, t3.nodes_set_self ..⟩, ?_, ?_⟩⟩
    · exact hfar2.congr fun r hr => hoff4 r (fun he => hwf (he ▸ hr))
        fun hr' => hfp hr hr'
    · exact hup3.congr rfl fun r hr => t3.nodes_set_of_ne _
        fun he => hwp (he ▸ hr)
  · intro r hr
    rw [hmem] at hr
    simp only [not_or] at hr
    obtain ⟨-, -, hrw, hrf, hrp⟩ := hr
    exact (hoff4 r hrw hrp).trans (hoff2 r hrw hrf)

/-- The replacement leaves its place, which leads to the `Cut` state. -/
theorem unhook_spec {t : StorageTree β} {s : Side} {e w : Entry β}
    {q path : Path (Entry β)} {c far : BinaryTree (Entry β)}
    {near : NodePtr} {rn : Node β}
    (h : At t (q ++ ⟨s, e, far⟩ :: path) (join s.other w .nil c))
    (hq : ∀ f ∈ q, f.side = s.other)
    (hnear : segTop q (some w.ptr) = some near)
    (hrn : t.nodes w.ptr = some rn)
    (hh : ∀ f ∈ q.head?, (f.fill c).height ≤ 100) :
    ∃ t', StorageTree.unhook s t near w.ptr rn = .ok t' ∧
      Cut t' s e w q path c far ∧
      Within (plug (q ++ ⟨s, e, far⟩ :: path) (join s.other w .nil c)) t t'
    := by
  obtain ⟨hcw, -, hcc⟩ := (rep_join ..).1 h.rep
  rw [rootPtr_nil] at hcw
  rw [join_other] at h ⊢
  obtain rfl := Option.some.inj (hrn.symm.trans hcw)
  have hl := labels_plug (q ++ ⟨s, e, far⟩ :: path) s w c
  obtain ⟨hn, hnot, hsub⟩ := nodup_plug_of_labels h.nodup hl
  have hpath := h.repPath
  rw [rootPtr_join] at hpath
  cases q with
  | nil =>
    obtain rfl : w.ptr = near := by simpa [segTop] using hnear
    obtain ⟨⟨ht, hce⟩, hfar, hup⟩ := hpath
    refine ⟨t, if_neg (not_not.2 rfl), ⟨trivial, hcc, ?_, ⟨_, ht, hce⟩, hfar,
      hup⟩, fun _ _ => rfl⟩
    rw [ptrsAt_other] at hcw
    exact ⟨_, _, hcw⟩
  | cons f rest =>
    have hside : f.side = s.other := hq f List.mem_cons_self
    rw [List.cons_append] at hpath hn hnot hsub ⊢
    obtain ⟨t1, t2, hw1, hset2, hat2, hwi2, -⟩ := hang_spec hpath hcc hn
    obtain ⟨t3, hrec, hat3, hwi3⟩ := recalcAt_spec hat2 (hh f rfl)
    have hpath3 : RepPath t3 ((f :: rest) ++ ⟨s, e, far⟩ :: path)
        (rootPtr c) := hat3.down.repPath
    rw [repPath_append] at hpath3
    obtain ⟨hseg3, ⟨ht, hce⟩, hfar3, hup3⟩ := hpath3
    have hcw3 := (hwi3 _ hnot).trans ((hwi2 _ hnot).trans hcw)
    -- The addresses that the last two writes leave alone.
    have hmem : ∀ r, r ∈ ptrs (plug (f :: (rest ++ ⟨s, e, far⟩ :: path)) c) ↔
        r ∈ ptrs c ∨ r ∈ pathPtrs (f :: rest) ∨ r = e.ptr ∨ r ∈ ptrs far ∨
          r ∈ pathPtrs path := by
      intro r
      rw [(ptrs_plug_perm ..).mem_iff, ← List.cons_append, pathPtrs_append,
        pathPtrs.eq_2 ⟨s, e, far⟩]
      simp only [List.mem_append, List.mem_cons]
    have hn' := nodup_gap (q := f :: rest) hn
    simp only [List.nodup_append', List.nodup_cons, List.mem_append, not_or,
      List.disjoint_append_right, List.disjoint_cons_right] at hn'
    obtain ⟨-, ⟨hnq, -, heq, hqf, hqp⟩, hcq, -⟩ := hn'
    have hnot' := hnot
    rw [hmem] at hnot'
    simp only [not_or] at hnot'
    obtain ⟨hwc, hwq, hwe, hwf, hwp⟩ := hnot'
    -- `near` hangs below `w`.
    set t4 := t3.set w.ptr (cell w (ptrsAt s (some near) none)
      (segParent (f :: rest) (some e.ptr)) (join s.other w .nil c).height)
      with ht4
    have hoff4 : ∀ r, r ≠ w.ptr → t4.nodes r = t3.nodes r :=
      fun r hr => t3.nodes_set_of_ne _ hr
    have hseg4 : RepSeg t4.nodes (f :: rest) (rootPtr c) (some e.ptr) :=
      hseg3.congr fun r hr => hoff4 r fun he => hwq (he ▸ hr)
    obtain ⟨t5, hset5, hseg5, hag5⟩ :=
      setParentOf_segTop hseg4 hnq (some w.ptr)
    have htop : segTop (f :: rest) (rootPtr c) = some near := hnear
    rw [htop] at hset5
    have hoff5 : ∀ r, r ≠ w.ptr → r ∉ pathPtrs (f :: rest) →
        t5.nodes r = t3.nodes r := fun r hr hr' =>
      (hag5.nodes r hr').trans (hoff4 r hr)
    refine ⟨t5, ?_, ⟨hseg5, ?_, ?_, ?_, ?_, ?_⟩, ?_⟩
    · have hne : w.ptr ≠ near := by
        obtain ⟨r, hr, hrq⟩ := segTop_cons f rest (some w.ptr)
        obtain rfl := Option.some.inj (hr.symm.trans hnear)
        exact fun he => hwq (he ▸ hrq)
      have hsuc : ptrsAt s.other none (rootPtr c) s = rootPtr c := by
        rw [ptrsAt_other, ptrsAt_near]
      have hset4 : t3.modify w.ptr (fun n => n.setSuccessor s (some near))
          = .ok t4 := by
        rw [StorageTree.modify_eq hcw3, ptrsAt_other, cell_setSuccessor_near]
        rfl
      rw [slotOf, StorageTree.write, hside] at hw1
      rw [pathParent_cons] at hset2
      unfold StorageTree.unhook
      rw [if_pos hne]
      simp only [cell_parent, cell_successor, hsuc, pathParent_cons, hw1, hset2, hrec, ok_bind,
        hset4, hset5]
    · exact hat3.down.rep.congr fun r hr => hoff5 r
        (fun he => hwc (he ▸ hr)) fun hr' => hcq hr hr'
    · have hcw5 : t5.nodes w.ptr = some (cell w (ptrsAt s (some near) none)
          (segParent (f :: rest) (some e.ptr))
          (join s.other w .nil c).height) :=
        (hag5.nodes _ hwq).trans (t3.nodes_set_self ..)
      rw [← htop] at hcw5
      exact ⟨none, _, hcw5⟩
    · exact ⟨_, ht, (hoff5 _ (Ne.symm hwe) heq).trans hce⟩
    · exact hfar3.congr fun r hr => hoff5 r (fun he => hwf (he ▸ hr))
        fun hr' => hqf hr' hr
    · exact hup3.congr (hag5.storageTree.trans rfl) fun r hr => hoff5 r
        (fun he => hwp (he ▸ hr)) fun hr' => hqp hr' hr
    · intro r hr
      have hr3 : r ∉ ptrs (plug (f :: (rest ++ ⟨s, e, far⟩ :: path)) c) :=
        fun hr' => hr (hsub hr')
      have hrw : r ≠ w.ptr := by
        rintro rfl
        exact hr ((ptrs_plug_perm ..).mem_iff.2 (List.mem_append_left _
          (mem_ptrs_join.2 (Or.inl rfl))))
      have hrq : r ∉ pathPtrs (f :: rest) := fun hr' =>
        hr3 ((hmem r).2 (Or.inr (Or.inl hr')))
      exact (hoff5 r hrw hrq).trans ((hwi3 r hr3).trans (hwi2 r hr3))

theorem segTop_eq_rootPtr (q : Path (Entry β)) (x : BinaryTree (Entry β)) :
    segTop q (rootPtr x) = rootPtr (plug q x) := by
  induction q generalizing x with
  | nil => rfl
  | cons f rest ih =>
    have hfill : some f.value.ptr = rootPtr (f.fill x) := by
      rw [Frame.fill, rootPtr_join]
    rw [segTop, plug_cons, hfill, ih]

/-- The choice of the side that the replacement comes from. -/
theorem replacement_both {t : StorageTree β} {path : Path (Entry β)}
    {e : Entry β} {l r : BinaryTree (Entry β)} (hl : l ≠ .nil)
    (hr : r ≠ .nil) (h : At t path (.node e l r)) :
    ∃ s near far, BinaryTree.node e l r = join s e near far ∧
      near ≠ .nil ∧ ∀ slot, t.replacement slot e.ptr
        = (StorageTree.rehang s t slot e.ptr >>=
          fun p => .ok (some p.1, p.2.1, p.2.2)) := by
  obtain ⟨hc, hrl, hrr⟩ := h.rep
  have hhl := height_spec hrl
  have hhr := height_spec hrr
  obtain ⟨le, ll, lr, rfl⟩ := exists_join .left hl
  obtain ⟨re, rl, rr, rfl⟩ := exists_join .left hr
  rw [rootPtr_join] at hhl hhr hc
  rw [rootPtr_join] at hc
  have hrepl : ∀ slot, t.replacement slot e.ptr
      = (StorageTree.rehang (if ((join .left le ll lr).height : Int)
          ≥ (join .left re rl rr).height then .left else .right) t slot
          e.ptr >>= fun p => .ok (some p.1, p.2.1, p.2.2)) := by
    intro slot
    rw [StorageTree.replacement, StorageTree.load_eq hc, ok_bind]
    simp only [cell_successor, ptrsAt_near, show ptrsAt .left (some le.ptr)
      (some re.ptr) .right = some re.ptr from rfl, hhl, hhr, ok_bind]
    rfl
  by_cases hge : ((join .left le ll lr).height : Int)
      ≥ (join .left re rl rr).height
  · simp only [if_pos hge] at hrepl
    exact ⟨.left, _, _, rfl, hl, hrepl⟩
  · simp only [if_neg hge] at hrepl
    exact ⟨.right, _, _, rfl, hr, hrepl⟩

/-- The node on a piece of a path is no higher without the replacement
below it. -/
theorem height_fill_le {s : Side} {w : Entry β} {q : Path (Entry β)}
    {c near : BinaryTree (Entry β)} (hb : Balanced near)
    (hsize : near.numNodes < 2 ^ 16)
    (hnear : near = plug q (join s w .nil c)) :
    ∀ f ∈ q.head?, (f.fill c).height ≤ 100 := by
  intro f hf
  cases q with
  | nil => simp at hf
  | cons g rest =>
    obtain rfl : g = f := by simpa using hf
    have hh := height_le_of_numNodes hb hsize
    have hle := length_add_height_le rest (g.fill (join s w .nil c))
    rw [← plug_cons, ← hnear] at hle
    simp only [Frame.fill, height_join] at hle ⊢
    omega

/-- The removal of a node with two successors. -/
theorem deleteBoth_spec {t : StorageTree β} {path : Path (Entry β)}
    {e : Entry β} {l r : BinaryTree (Entry β)} (hl : l ≠ .nil)
    (hr : r ≠ .nil) (h : At t path (.node e l r))
    (hb : Balanced (plug path (.node e l r)))
    (hsize : (plug path (.node e l r)).numNodes < 2 ^ 16) :
    ∃ t' x', t.deleteNodeAtPtr (slotOf path) = .ok t' ∧
      Removed t t' (plug path (.node e l r)) e x' := by
  obtain ⟨s, near, far, hx, hnear, hrepl⟩ := replacement_both hl hr h
  rw [hx] at h hb hsize ⊢
  obtain ⟨q, w, c, rfl, hq⟩ := exists_extreme s.other hnear
  have hat : At t (q ++ ⟨s, e, far⟩ :: path) (join s.other w .nil c) :=
    (At.down (f := ⟨s, e, far⟩) h).descend q
  -- The labels, the balance and the size, before and after.
  have hlab := inorder_replace s e w c far hq path
  obtain ⟨hn, hnot, hsub⟩ := nodup_plug_of_labels h.nodup hlab
  obtain ⟨hbc, hbp⟩ := balancedAt_replace s e w c far q path hb
  obtain ⟨hbj, -⟩ := (balanced_plug _ _).1 hb
  rw [balanced_join] at hbj
  have hsizen : (plug q (join s.other w .nil c)).numNodes < 2 ^ 16 := by
    refine lt_of_le_of_lt ?_ hsize
    have hle := numNodes_le_plug (⟨s, e, far⟩ :: path)
      (plug q (join s.other w .nil c))
    exact hle
  have hhn := height_le_of_numNodes hbj.1 hsizen
  have hlen := length_add_height_le q (join s.other w .nil c)
  obtain ⟨near, hroot⟩ : ∃ p, rootPtr (plug q (join s.other w .nil c))
      = some p := by
    obtain ⟨v, a, b, hv⟩ := exists_join s hnear
    exact ⟨v.ptr, by rw [hv, rootPtr_join]⟩
  have htop : segTop q (some w.ptr) = some near := by
    rw [← hroot, ← segTop_eq_rootPtr, rootPtr_join]
  -- The steps of the code.
  obtain ⟨hce, hcn, -⟩ := (rep_join ..).1 h.rep
  rw [hroot] at hce
  have hlt : q.length < maxDepth := by
    rw [maxDepth, idCount]
    omega
  have hext := extreme_spec hq hcn hroot hlt
  obtain ⟨hcw, -, -⟩ := (rep_join ..).1 hat.rep
  obtain ⟨t5, hunhook, hcut, hwi5⟩ := unhook_spec hat hq htop hcw
    (height_fill_le hbj.1 hsizen rfl)
  rw [plug_append] at hwi5
  obtain ⟨p, hd, hce5⟩ := hcut.del
  obtain ⟨t1, t2, t3, t4, hmod, hset, hpar, hw, he3, hset4, hat4, hwi4⟩ :=
    hcut.relink hn hnot
  have hrehang : StorageTree.rehang s t (slotOf path) e.ptr = .ok
      (w.ptr, slotOf (q ++ ⟨s, w, far⟩ :: path).tail, t2) := by
    unfold StorageTree.rehang
    simp only [StorageTree.load_eq hce, cell_successor, ptrsAt_near, ok_bind,
      hext, StorageTree.load_eq hcw, hunhook, StorageTree.load_eq hce5,
      ptrsAt_far, hmod, hset, hpar]
    rfl
  have hreplace : t.replacement (slotOf path) e.ptr = .ok
      (some w.ptr, slotOf (q ++ ⟨s, w, far⟩ :: path).tail, t2) := by
    rw [hrepl, hrehang, ok_bind]
  obtain ⟨f, rest, hpath⟩ : ∃ f rest, q ++ ⟨s, w, far⟩ :: path = f :: rest := by
    cases q with
    | nil => exact ⟨_, _, rfl⟩
    | cons f q => exact ⟨_, _, rfl⟩
  rw [hpath] at hreplace hat4 hlab hbp hsub hwi4
  have hrep := repairable_fill hbc hbp (by omega) (by omega)
  obtain ⟨t6, hrun, hrem⟩ := remove_finish hat4 hrep hlab h.nodup hsize
    fun r hr => (hwi4 r fun hr' => hr (hsub hr')).trans (hwi5 r hr)
  have hread := read_spec h.repPath
  rw [rootPtr_join] at hread
  exact ⟨_, _, deleteNodeAtPtr_some hread hreplace hw (he3.trans hce5) hset4
    hrun, hrem⟩

/-- `delete_node_at_ptr` takes one label out and keeps the balance. -/
theorem deleteNodeAtPtr_spec {t : StorageTree β} {path : Path (Entry β)}
    {e : Entry β} {l r : BinaryTree (Entry β)}
    (h : At t path (.node e l r))
    (hb : Balanced (plug path (.node e l r)))
    (hsize : (plug path (.node e l r)).numNodes < 2 ^ 16) :
    ∃ t' x', t.deleteNodeAtPtr (slotOf path) = .ok t' ∧
      Removed t t' (plug path (.node e l r)) e x' := by
  by_cases hl : l = .nil
  · subst hl
    by_cases hr : r = .nil
    · subst hr
      exact deleteLeaf_spec h hb hsize
    · exact deleteSingle_spec (s := .right) hr h hb hsize
  · by_cases hr : r = .nil
    · subst hr
      exact deleteSingle_spec (s := .left) hl h hb hsize
    · exact deleteBoth_spec hl hr h hb hsize

/-! ## Insertion -/

/-- Every represented node is live. -/
theorem Rep.live {h : NodePtr → Option (Node β)}
    {x : BinaryTree (Entry β)} {parent : Option NodePtr}
    (hx : Rep h x parent) {q : NodePtr} (hq : q ∈ ptrs x) : h q ≠ none := by
  induction x generalizing parent with
  | nil => simp at hq
  | node e l r ihl ihr =>
    obtain ⟨hc, hl, hr⟩ := hx
    rcases mem_ptrs_node.1 hq with rfl | hq | hq
    · rw [hc]
      exact Option.some_ne_none _
    · exact ihl hl hq
    · exact ihr hr hq

theorem ptrsAt_none (s : Side) : ptrsAt s none none = fun _ => none := by
  funext s'
  simp [ptrsAt]

/-- What the insertion of the label `e` into `x` comes to. -/
structure Inserted (t t' : StorageTree β) (x : BinaryTree (Entry β))
    (e : Entry β) (x' : BinaryTree (Entry β)) : Prop where
  rep : At t' [] x'
  balanced : Balanced x'
  labels : ∃ pre post, inorder x = pre ++ post ∧
    inorder x' = pre ++ e :: post ∧ (∀ v ∈ pre, v.id < e.id) ∧
    ∀ v ∈ post, e.id < v.id
  within : ∀ q, q ≠ e.ptr → q ∉ ptrs x → t'.nodes q = t.nodes q

/-- The search for an id that is not stored ends at an empty place, and the
code picks the side of its parent that the place is on. -/
theorem locate_absent {x : BinaryTree (Entry β)} {id : Nat}
    (hs : ((inorder x).map Entry.id).Pairwise (· < ·))
    (hid : id ∉ (inorder x).map Entry.id) :
    ∃ path, locate Entry.id id x [] = (path, .nil) ∧ plug path .nil = x ∧
      (∀ v ∈ before path, v.id < id) ∧ ∀ v ∈ after path, id < v.id := by
  have hplug := plug_locate Entry.id id x []
  obtain ⟨hbefore, hafter⟩ := locate_bounds Entry.id id x [] hs
    (by simp [before]) (by simp [after])
  cases hloc : locate Entry.id id x [] with
  | mk path y =>
    rw [hloc] at hplug hbefore hafter
    cases y with
    | nil => exact ⟨path, rfl, hplug, hbefore, hafter⟩
    | node e l r =>
      have hkey : e.id = id := key_of_locate Entry.id id x [] (by rw [hloc])
      refine absurd ?_ hid
      rw [← hkey, ← plug_nil x, ← hplug, inorder_plug]
      exact List.mem_map_of_mem (by simp)

theorem compToSuccessor_locate {f : Frame (Entry β)}
    {rest : Path (Entry β)} {id : Nat}
    (hb : ∀ v ∈ before (f :: rest), v.id < id)
    (ha : ∀ v ∈ after (f :: rest), id < v.id) :
    StorageTree.compToSuccessor (StorageTree.comp id f.value.id)
      = f.side := by
  obtain ⟨side, v, sib⟩ := f
  cases side with
  | left => exact (compToSuccessor_lt (ha v (by simp [after]))).2
  | right => exact (compToSuccessor_gt (hb v (by simp [before]))).2

/-- The new node hangs in the empty place. -/
theorem hangNew_spec {t : StorageTree β} {f : Frame (Entry β)}
    {rest : Path (Entry β)} {e : Entry β}
    (h : At t (f :: rest) .nil)
    (hnew : e.ptr ∉ ptrs (plug (f :: rest) .nil)) :
    ∃ t', (t.set e.ptr (cell e (fun _ => none) (some f.value.ptr) 1)).modify
        f.value.ptr (fun n => n.setSuccessor f.side (some e.ptr)) = .ok t' ∧
      At t' (f :: rest) (.node e .nil .nil) ∧
      ∀ q, q ≠ e.ptr → q ∉ ptrs (plug (f :: rest) .nil) →
        t'.nodes q = t.nodes q := by
  obtain ⟨-, ⟨⟨ht, hc⟩, hs, hr⟩, hn⟩ := h
  have hperm := ptrs_plug_perm (f :: rest) (.nil : BinaryTree (Entry β))
  rw [ptrs_nil, List.nil_append] at hperm
  rw [hperm.mem_iff] at hnew
  have hn' := hperm.nodup_iff.1 hn
  simp only [pathPtrs, List.mem_cons, List.mem_append, not_or] at hnew
  obtain ⟨hef, hes, her⟩ := hnew
  rw [pathPtrs, List.nodup_cons, List.mem_append, not_or] at hn'
  obtain ⟨⟨hfs, hfr⟩, -⟩ := hn'
  refine ⟨_, StorageTree.modify_set_of_ne _ (Ne.symm hef) hc _,
    ⟨⟨?_, trivial, trivial⟩, ⟨⟨ht, ?_⟩, ?_, ?_⟩, ?_⟩, ?_⟩
  · rw [StorageTree.nodes_set_of_ne _ _ hef, StorageTree.nodes_set_self,
      rootPtr_nil, ptrsAt_none]
    rfl
  · rw [StorageTree.nodes_set_self, cell_setSuccessor_near]
    rfl
  · exact (hs.set hes _).set hfs _
  · refine hr.congr rfl fun q hq => ?_
    have hqf : q ≠ f.value.ptr := fun he => hfr (he ▸ hq)
    have hqe : q ≠ e.ptr := fun he => her (he ▸ hq)
    rw [StorageTree.nodes_set_of_ne _ _ hqf,
      StorageTree.nodes_set_of_ne _ _ hqe]
  · rw [(ptrs_plug_perm ..).nodup_iff]
    have hsingle : ptrs (.node e .nil .nil) = [e.ptr] := rfl
    rw [hsingle, List.singleton_append, List.nodup_cons]
    refine ⟨?_, hperm.nodup_iff.1 hn⟩
    simp only [pathPtrs, List.mem_cons, List.mem_append, not_or]
    exact ⟨hef, hes, her⟩
  · intro q hq hq'
    rw [hperm.mem_iff, pathPtrs, List.mem_cons, not_or] at hq'
    rw [StorageTree.nodes_set_of_ne _ _ hq'.1,
      StorageTree.nodes_set_of_ne _ _ hq]

/-- A tree with a path to an empty place in it is not empty. -/
theorem exists_root_plug (f : Frame (Entry β)) (rest : Path (Entry β))
    (x : BinaryTree (Entry β)) :
    ∃ r, rootPtr (plug (f :: rest) x) = some r := by
  cases hx : plug (f :: rest) x with
  | nil =>
    have hio := congrArg inorder hx
    rw [inorder_plug] at hio
    cases hs : f.side <;> simp [before, after, hs] at hio
  | node v l r => exact ⟨_, rfl⟩

/-- Without memory for a node, `add_node` changes nothing. -/
theorem addNode_none {t : StorageTree β} {x : BinaryTree (Entry β)}
    {id : Nat} (bundle : β) (h : At t [] x) (hheight : x.height ≤ maxDepth)
    (hs : ((inorder x).map Entry.id).Pairwise (· < ·))
    (hid : id ∉ (inorder x).map Entry.id) :
    t.addNode none id bundle = .ok (false, t) := by
  obtain ⟨path, hloc, hplug, -, -⟩ := locate_absent hs hid
  have hroot : t.storageTree = rootPtr x := h.repPath
  unfold StorageTree.addNode
  cases path with
  | nil =>
    obtain rfl : BinaryTree.nil = x := hplug
    rw [hroot]
    rfl
  | cons f rest =>
    have hfind := findNodeptr_spec id true h hheight
    rw [hloc, foundSlot_nil, if_pos rfl] at hfind
    rw [← hplug] at h hroot
    have hat := At.descend (f :: rest) h
    rw [List.append_nil] at hat
    obtain ⟨r, hr⟩ := exists_root_plug f rest (.nil : BinaryTree (Entry β))
    rw [hroot, hr]
    simp only [hfind, ok_bind, read_spec hat.repPath.2.2]
    rfl

/-- `add_node` puts one label in and keeps the balance. -/
theorem addNode_spec {t : StorageTree β} {x : BinaryTree (Entry β)}
    {id : Nat} (bundle : β) {p : NodePtr} (h : At t [] x)
    (hb : Balanced x) (hsize : x.numNodes + 1 < 2 ^ 16)
    (hs : ((inorder x).map Entry.id).Pairwise (· < ·))
    (hid : id ∉ (inorder x).map Entry.id) (hfresh : t.nodes p = none) :
    ∃ t' x', t.addNode (some p) id bundle = .ok (true, t') ∧
      Inserted t t' x ⟨p, id, bundle⟩ x' := by
  obtain ⟨path, hloc, hplug, hbefore, hafter⟩ := locate_absent hs hid
  have hnew : p ∉ ptrs x := fun hmem => h.rep.live hmem hfresh
  have hroot : t.storageTree = rootPtr x := h.repPath
  cases path with
  | nil =>
    obtain rfl : BinaryTree.nil = x := hplug
    refine ⟨{ t.set p ⟨id, fun _ => none, none, bundle, 1⟩ with
      storageTree := some p }, .node ⟨p, id, bundle⟩ .nil .nil, ?_,
      ⟨⟨?_, rfl, ?_⟩, ?_, ?_, ?_⟩⟩
    · rw [StorageTree.addNode, hroot]
      rfl
    · refine ⟨?_, trivial, trivial⟩
      rw [rootPtr_nil, ptrsAt_none]
      exact StorageTree.nodes_set_self ..
    · simp [ptrs]
    · simp [Avl.Balanced]
    · exact ⟨[], [], rfl, rfl, by simp, by simp⟩
    · exact fun q hq _ => StorageTree.nodes_set_of_ne t _ hq
  | cons f rest =>
    have hheight : x.height ≤ maxDepth := by
      have hle := x.height_le_numNodes
      rw [maxDepth, idCount]
      omega
    have hfind := findNodeptr_spec id true h hheight
    rw [hloc, foundSlot_nil, if_pos rfl] at hfind
    rw [← hplug] at h hnew hb hsize
    have hat : At t (f :: rest) .nil := by
      have hd := At.descend (f :: rest) h
      rwa [List.append_nil] at hd
    obtain ⟨⟨ht, hc⟩, -, hup⟩ := hat.repPath
    have hne : f.value.ptr ≠ p := fun he => by
      rw [he, hfresh] at hc
      exact absurd hc (by simp)
    obtain ⟨t2, hmod, hat2, hoff2⟩ :=
      hangNew_spec (e := ⟨p, id, bundle⟩) hat hnew
    have hload : t2.nodes p = _ := hat2.rep.1
    have hpar := hat2.getParentFwdPtr hload rfl
    obtain ⟨-, hpath⟩ := (balanced_plug _ _).1 hb
    have hbal : Balanced (BinaryTree.node (⟨p, id, bundle⟩ : Entry β)
      .nil .nil) := by simp [Avl.Balanced]
    have hrep := repairable_fill hbal hpath (by simp) (by simp)
    have hio : ∀ y : BinaryTree (Entry β), inorder (plug (f :: rest) y)
        = before (f :: rest) ++ inorder y ++ after (f :: rest) :=
      fun y => inorder_plug _ y
    obtain ⟨t3, hrun, hat3, hwi3⟩ := repair_spec hat2 hrep (by
      rw [← length_inorder, hio] at hsize ⊢
      simp only [List.length_append, inorder_node, inorder_nil,
        List.length_cons, List.length_nil] at hsize ⊢
      omega)
    refine ⟨t3, _, ?_, ⟨hat3, hrep.balanced, ?_, ?_⟩⟩
    · have hside := compToSuccessor_locate hbefore hafter
      obtain ⟨r, hr⟩ := exists_root_plug f rest (.nil : BinaryTree (Entry β))
      rw [hplug, ← hroot] at hr
      set n : Node β := ⟨id, fun _ => none, some f.value.ptr, bundle, 1⟩
        with hnode
      have hload' : (t.set p n).nodes f.value.ptr = _ :=
        (t.nodes_set_of_ne n hne).trans hc
      have hmod' : (t.set p n).modify f.value.ptr
          (fun n => n.setSuccessor f.side (some p)) = .ok t2 := hmod
      unfold StorageTree.addNode
      simp only [hr, hfind, ok_bind, read_spec hup, StorageTree.createNode,
        Option.map_some, ← hnode, StorageTree.load_eq hload', cell_id, hside,
        cell_successor, ptrsAt_near, rootPtr_nil, if_neg (not_not.2 rfl),
        hmod', hpar, hrun]
      rfl
    · refine ⟨before (f :: rest), after (f :: rest), ?_, ?_, hbefore,
        hafter⟩
      · rw [← hplug, hio]
        simp
      · rw [inorder_fixUp, ← plug_cons, hio]
        simp
    · intro q hq hq'
      rw [← hplug] at hq'
      refine (hwi3 q fun hmem => ?_).trans (hoff2 q hq hq')
      rw [ptrs, hio, List.map_append, List.map_append] at hmem hq'
      simp only [List.mem_append, inorder_node, inorder_nil, List.map_append,
        List.map_cons, List.map_nil, List.mem_cons, List.not_mem_nil,
        false_or, or_false, not_or] at hmem hq'
      tauto

end Upcn.Store
