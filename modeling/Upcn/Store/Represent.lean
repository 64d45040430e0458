import Upcn.Lib.Outcome
import Upcn.Store.Node

/-!
# What the node heap represents

`Rep` relates a heap to a search tree whose labels carry the addresses.
It fixes every field of every node: the successors, the parent pointer and
the height.  `RepPath` is the same relation for the way from a slot up to
`storage_tree`, with the heights left open, because the code corrects them
on its way up.

The lemmas follow the code.  `setParentOf_spec`, `recalcHeight_spec` and
`rotate_spec` are the small steps, `raise_spec` is the branch of
`rebalance_from_nodeptr` at one node, `getParentFwdPtr_spec` is its way up,
and `rebalance_spec` is the whole loop: it computes `Avl.fixUp`.
-/

namespace Upcn.Store

open Avl BinaryTree Outcome

variable {β : Type}

/-- The label of a represented node: its address and what it stores. -/
structure Entry (β : Type) where
  ptr : NodePtr
  id : Nat
  bundle : β

/-- The pointer to a represented tree. -/
def rootPtr : BinaryTree (Entry β) → Option NodePtr
  | .nil => none
  | .node e _ _ => some e.ptr

@[simp] theorem rootPtr_nil : rootPtr (.nil : BinaryTree (Entry β)) = none :=
  rfl

@[simp] theorem rootPtr_node (e : Entry β) (l r : BinaryTree (Entry β)) :
    rootPtr (.node e l r) = some e.ptr := rfl

@[simp] theorem rootPtr_join (s : Side) (e : Entry β)
    (near far : BinaryTree (Entry β)) :
    rootPtr (join s e near far) = some e.ptr := by
  cases s <;> rfl

/-- The successor array with `near` on side `s`. -/
def ptrsAt (s : Side) (near far : Option NodePtr) :
    Side → Option NodePtr :=
  fun s' => if s' = s then near else far

@[simp] theorem ptrsAt_near (s : Side) (near far : Option NodePtr) :
    ptrsAt s near far s = near :=
  if_pos rfl

@[simp] theorem ptrsAt_far (s : Side) (near far : Option NodePtr) :
    ptrsAt s near far s.other = far :=
  if_neg (by simp)

theorem ptrsAt_other (s : Side) (near far : Option NodePtr) :
    ptrsAt s.other near far = ptrsAt s far near := by
  funext s'
  rcases Side.eq_or_eq_other s s' with rfl | rfl <;> simp [ptrsAt]

@[simp] theorem update_ptrsAt_near (s : Side)
    (near far p : Option NodePtr) :
    Function.update (ptrsAt s near far) s p = ptrsAt s p far := by
  funext s'
  by_cases h : s' = s <;> simp [ptrsAt, Function.update, h]

@[simp] theorem update_ptrsAt_far (s : Side)
    (near far p : Option NodePtr) :
    Function.update (ptrsAt s near far) s.other p = ptrsAt s near p := by
  funext s'
  rcases Side.eq_or_eq_other s s' with rfl | rfl <;>
    simp [ptrsAt, Function.update]

/-- The cell of a represented node. -/
def cell (e : Entry β) (successor : Side → Option NodePtr)
    (parent : Option NodePtr) (height : Int) : Node β :=
  ⟨e.id, successor, parent, e.bundle, height⟩

section Cell

variable (e : Entry β) (successor : Side → Option NodePtr)
  (near far parent p : Option NodePtr) (s : Side) (h h' : Int)

@[simp] theorem cell_id : (cell e successor parent h).id = e.id := rfl

@[simp] theorem cell_successor :
    (cell e successor parent h).successor = successor := rfl

@[simp] theorem cell_parent :
    (cell e successor parent h).parent = parent := rfl

@[simp] theorem cell_height :
    (cell e successor parent h).height = h := rfl

@[simp] theorem cell_setParent :
    (cell e successor parent h).setParent p = cell e successor p h := rfl

@[simp] theorem cell_setHeight :
    (cell e successor parent h).setHeight h' = cell e successor parent h' :=
  rfl

@[simp] theorem cell_setSuccessor_near :
    (cell e (ptrsAt s near far) parent h).setSuccessor s p
      = cell e (ptrsAt s p far) parent h := by
  simp [Node.setSuccessor, cell]

@[simp] theorem cell_setSuccessor_far :
    (cell e (ptrsAt s near far) parent h).setSuccessor s.other p
      = cell e (ptrsAt s near p) parent h := by
  simp [Node.setSuccessor, cell]

end Cell

/-- The heap represents the tree, below the given parent. -/
def Rep (h : NodePtr → Option (Node β)) :
    BinaryTree (Entry β) → Option NodePtr → Prop
  | .nil, _ => True
  | .node e l r, parent =>
    h e.ptr = some (cell e (ptrsAt .left (rootPtr l) (rootPtr r)) parent
        (BinaryTree.node e l r).height) ∧
      Rep h l (some e.ptr) ∧ Rep h r (some e.ptr)

@[simp] theorem rep_nil (h : NodePtr → Option (Node β))
    (parent : Option NodePtr) : Rep h .nil parent := trivial

theorem rep_join (h : NodePtr → Option (Node β)) (s : Side) (e : Entry β)
    (near far : BinaryTree (Entry β)) (parent : Option NodePtr) :
    Rep h (join s e near far) parent ↔
      h e.ptr = some (cell e (ptrsAt s (rootPtr near) (rootPtr far)) parent
          (join s e near far).height) ∧
        Rep h near (some e.ptr) ∧ Rep h far (some e.ptr) := by
  cases s with
  | left => rfl
  | right =>
    simp only [join, Rep, ← ptrsAt_other .right, Side.other]
    tauto

/-- The addresses of a represented tree. -/
def ptrs (t : BinaryTree (Entry β)) : List NodePtr :=
  (inorder t).map Entry.ptr

@[simp] theorem ptrs_nil : ptrs (.nil : BinaryTree (Entry β)) = [] := rfl

theorem ptrs_join_perm (s : Side) (e : Entry β)
    (near far : BinaryTree (Entry β)) :
    (ptrs (join s e near far)).Perm (e.ptr :: (ptrs near ++ ptrs far)) := by
  cases s
  · simp only [join, ptrs, inorder_node, List.map_append, List.map_cons]
    exact List.perm_middle
  · simp only [join, ptrs, inorder_node, List.map_append, List.map_cons]
    exact List.perm_middle.trans (List.Perm.cons _ List.perm_append_comm)

theorem mem_ptrs_join {s : Side} {e : Entry β}
    {near far : BinaryTree (Entry β)} {q : NodePtr} :
    q ∈ ptrs (join s e near far) ↔
      q = e.ptr ∨ q ∈ ptrs near ∨ q ∈ ptrs far := by
  rw [(ptrs_join_perm s e near far).mem_iff, List.mem_cons, List.mem_append]

theorem nodup_ptrs_join {s : Side} {e : Entry β}
    {near far : BinaryTree (Entry β)} :
    (ptrs (join s e near far)).Nodup ↔
      e.ptr ∉ ptrs near ∧ e.ptr ∉ ptrs far ∧ (ptrs near).Nodup ∧
        (ptrs far).Nodup ∧ (ptrs near).Disjoint (ptrs far) := by
  rw [(ptrs_join_perm s e near far).nodup_iff, List.nodup_cons,
    List.nodup_append', List.mem_append, not_or]
  tauto

theorem mem_ptrs_node {e : Entry β} {l r : BinaryTree (Entry β)}
    {q : NodePtr} :
    q ∈ ptrs (.node e l r) ↔ q = e.ptr ∨ q ∈ ptrs l ∨ q ∈ ptrs r :=
  mem_ptrs_join (s := .left)

theorem nodup_ptrs_node {e : Entry β} {l r : BinaryTree (Entry β)} :
    (ptrs (.node e l r)).Nodup ↔
      e.ptr ∉ ptrs l ∧ e.ptr ∉ ptrs r ∧ (ptrs l).Nodup ∧ (ptrs r).Nodup ∧
        (ptrs l).Disjoint (ptrs r) :=
  nodup_ptrs_join (s := .left)

theorem rootPtr_mem_ptrs {t : BinaryTree (Entry β)} {p : NodePtr}
    (h : rootPtr t = some p) : p ∈ ptrs t := by
  cases t with
  | nil => simp at h
  | node e l r =>
    simp only [rootPtr_node, Option.some.injEq] at h
    simp [ptrs, h]

/-- A write outside the tree does not change what it represents. -/
theorem Rep.congr {h h' : NodePtr → Option (Node β)}
    {t : BinaryTree (Entry β)} {parent : Option NodePtr}
    (hr : Rep h t parent) (heq : ∀ q ∈ ptrs t, h' q = h q) :
    Rep h' t parent := by
  induction t generalizing parent with
  | nil => exact trivial
  | node e l r ihl ihr =>
    obtain ⟨hc, hl, hr⟩ := hr
    have hmem : ∀ q, q = e.ptr ∨ q ∈ ptrs l ∨ q ∈ ptrs r →
        h' q = h q := fun q hq => heq q (mem_ptrs_node.2 hq)
    exact ⟨(hmem _ (Or.inl rfl)).trans hc,
      ihl hl fun q hq => hmem q (Or.inr (Or.inl hq)),
      ihr hr fun q hq => hmem q (Or.inr (Or.inr hq))⟩

/-- `t'` differs from `t` in the nodes of `S` only. -/
structure Agrees (S : List NodePtr) (t t' : StorageTree β) : Prop where
  nodes : ∀ q, q ∉ S → t'.nodes q = t.nodes q
  storageTree : t'.storageTree = t.storageTree

theorem Agrees.trans {S : List NodePtr} {t t' t'' : StorageTree β}
    (h : Agrees S t t') (h' : Agrees S t' t'') : Agrees S t t'' :=
  ⟨fun q hq => (h'.nodes q hq).trans (h.nodes q hq),
    h'.storageTree.trans h.storageTree⟩

theorem Agrees.refl (S : List NodePtr) (t : StorageTree β) :
    Agrees S t t :=
  ⟨fun _ _ => rfl, rfl⟩

theorem Agrees.mono {S S' : List NodePtr} {t t' : StorageTree β}
    (h : Agrees S t t') (hs : S ⊆ S') : Agrees S' t t' :=
  ⟨fun _ hq => h.nodes _ fun hq' => hq (hs hq'), h.storageTree⟩

theorem agrees_set {S : List NodePtr} (t : StorageTree β) {p : NodePtr}
    (n : Node β) (hp : p ∈ S) : Agrees S t (t.set p n) :=
  ⟨fun _ hq => t.nodes_set_of_ne n fun he => hq (he ▸ hp), rfl⟩

theorem Rep.agrees {S : List NodePtr} {t t' : StorageTree β}
    {x : BinaryTree (Entry β)} {parent : Option NodePtr}
    (hr : Rep t.nodes x parent) (ha : Agrees S t t')
    (hd : ∀ q ∈ ptrs x, q ∉ S) : Rep t'.nodes x parent :=
  hr.congr fun q hq => ha.nodes q (hd q hq)

theorem Rep.set {t : StorageTree β} {x : BinaryTree (Entry β)}
    {parent : Option NodePtr} (hr : Rep t.nodes x parent) {p : NodePtr}
    (hp : p ∉ ptrs x) (n : Node β) : Rep (t.set p n).nodes x parent :=
  hr.congr fun _ hq => t.nodes_set_of_ne n fun he => hp (he ▸ hq)

/-! ## The small steps -/

/-- The height macro reads the real height of a represented tree. -/
theorem height_spec {t : StorageTree β} {x : BinaryTree (Entry β)}
    {parent : Option NodePtr} (hr : Rep t.nodes x parent) :
    t.height (rootPtr x) = .ok (x.height : Int) := by
  cases x with
  | nil => rfl
  | node e l r =>
    rw [rootPtr_node, StorageTree.height, StorageTree.load_eq hr.1]
    rfl

/-- The balance of a node whose subtrees are represented. -/
theorem getBalance_spec {t : StorageTree β} {e : Entry β} {s : Side}
    {x y : BinaryTree (Entry β)} {px py parent : Option NodePtr} {h : Int}
    (hc : t.nodes e.ptr
      = some (cell e (ptrsAt s (rootPtr x) (rootPtr y)) parent h))
    (hx : Rep t.nodes x px) (hy : Rep t.nodes y py) :
    t.getBalance (some e.ptr) = .ok
      (match s with
        | .left => (x.height : Int) - y.height
        | .right => (y.height : Int) - x.height) := by
  have hx' := height_spec hx
  have hy' := height_spec hy
  rw [StorageTree.getBalance, StorageTree.load_eq hc]
  cases s <;> simp [cell, ptrsAt, hx', hy', ok_bind, pure, Except.pure]

/-- `recalc_height` over two represented subtrees stores the real
height. -/
theorem recalcHeight_spec {t : StorageTree β} {e : Entry β} {s : Side}
    {x y : BinaryTree (Entry β)} {px py parent : Option NodePtr} {h : Int}
    (hc : t.nodes e.ptr
      = some (cell e (ptrsAt s (rootPtr x) (rootPtr y)) parent h))
    (hx : Rep t.nodes x px) (hy : Rep t.nodes y py)
    (hb : (join s e x y).height ≤ 100) :
    t.recalcHeight e.ptr = .ok (t.set e.ptr
      (cell e (ptrsAt s (rootPtr x) (rootPtr y)) parent
        (join s e x y).height)) := by
  have hx' := height_spec hx
  have hy' := height_spec hy
  have hi : int8 (1 + max (x.height : Int) y.height)
      = ((join s e x y).height : Int) := by
    rw [height_join] at hb ⊢
    rw [int8_eq_self (by omega) (by omega)]
    omega
  rw [StorageTree.recalcHeight, StorageTree.load_eq hc, ok_bind]
  cases s
  · simp [cell, ptrsAt, hx', hy', ok_bind, StorageTree.modify_eq hc,
      Node.setHeight, hi]
  · rw [max_comm] at hi
    simp [cell, ptrsAt, hx', hy', ok_bind, StorageTree.modify_eq hc,
      Node.setHeight, hi]

/-- `if (p != NULL) p->parent = q` moves a represented tree below `q`. -/
theorem setParentOf_spec {t : StorageTree β} {x : BinaryTree (Entry β)}
    {parent : Option NodePtr} (hr : Rep t.nodes x parent)
    (hn : (ptrs x).Nodup) (q : Option NodePtr) :
    ∃ t', t.setParentOf (rootPtr x) q = .ok t' ∧ Rep t'.nodes x q ∧
      Agrees (ptrs x) t t' := by
  cases x with
  | nil => exact ⟨t, rfl, trivial, Agrees.refl _ t⟩
  | node e l r =>
    obtain ⟨hc, hl, hr⟩ := hr
    obtain ⟨hel, her, -, -, -⟩ := nodup_ptrs_node.1 hn
    refine ⟨_, StorageTree.modify_eq hc _, ⟨?_, ?_, ?_⟩, ?_⟩
    · exact StorageTree.nodes_set_self ..
    · exact hl.congr fun q hq =>
        t.nodes_set_of_ne _ fun he => hel (he ▸ hq)
    · exact hr.congr fun q hq =>
        t.nodes_set_of_ne _ fun he => her (he ▸ hq)
    · exact agrees_set t _ (by simp [ptrs])

/-! ## Rotation -/

/-- A rotation over represented subtrees.  The two rotated nodes may hold
any height, because the code recomputes both. -/
theorem rotate_spec {t : StorageTree β} {s : Side} {e c : Entry β}
    {a b d : BinaryTree (Entry β)} {parent pc : Option NodePtr}
    {h h' : Int}
    (he : t.nodes e.ptr
      = some (cell e (ptrsAt s (some c.ptr) (rootPtr d)) parent h))
    (hc : t.nodes c.ptr
      = some (cell c (ptrsAt s (rootPtr a) (rootPtr b)) pc h'))
    (ha : Rep t.nodes a (some c.ptr)) (hb : Rep t.nodes b (some c.ptr))
    (hd : Rep t.nodes d (some e.ptr))
    (hn : (ptrs (join s e (join s c a b) d)).Nodup)
    (hh : (join s c a (join s e b d)).height ≤ 100) :
    ∃ t', StorageTree.rotate s t (some e.ptr) = .ok (c.ptr, t') ∧
      Rep t'.nodes (join s c a (join s e b d)) parent ∧
      Agrees (ptrs (join s e (join s c a b) d)) t t' := by
  obtain ⟨hec, hed, hnc, hnd, hcd⟩ := nodup_ptrs_join.1 hn
  obtain ⟨hca, hcb, hna, hnb, hab⟩ := nodup_ptrs_join.1 hnc
  simp only [mem_ptrs_join, not_or] at hec
  obtain ⟨hne, hea, heb⟩ := hec
  have hcd' : c.ptr ∉ ptrs d := fun h =>
    hcd (mem_ptrs_join.2 (Or.inl rfl)) h
  have hbd : (ptrs b).Disjoint (ptrs d) := fun q hq =>
    hcd (mem_ptrs_join.2 (Or.inr (Or.inr hq)))
  have had : (ptrs a).Disjoint (ptrs d) := fun q hq =>
    hcd (mem_ptrs_join.2 (Or.inr (Or.inl hq)))
  have hsub : ∀ q, q = c.ptr ∨ q = e.ptr ∨ q ∈ ptrs b →
      q ∈ ptrs (join s e (join s c a b) d) := by
    intro q hq
    simp only [mem_ptrs_join]
    tauto
  -- The two nodes trade places.
  set t1 := (t.set c.ptr
      (cell c (ptrsAt s (rootPtr a) (some e.ptr)) parent h')).set e.ptr
      (cell e (ptrsAt s (rootPtr b) (rootPtr d)) (some c.ptr) h) with ht1
  have hag1 : Agrees [c.ptr, e.ptr] t t1 :=
    (agrees_set t _ (by simp)).trans (agrees_set _ _ (by simp))
  have ha1 : Rep t1.nodes a (some c.ptr) := (ha.set hca _).set hea _
  have hb1 : Rep t1.nodes b (some c.ptr) := (hb.set hcb _).set heb _
  have hd1 : Rep t1.nodes d (some e.ptr) := (hd.set hcd' _).set hed _
  -- `T2` moves below the old top.
  obtain ⟨t2, hp2, hb2, hag2⟩ := setParentOf_spec hb1 hnb (some e.ptr)
  have ha2 : Rep t2.nodes a (some c.ptr) :=
    ha1.agrees hag2 fun _ hq hq' => hab hq hq'
  have hd2 : Rep t2.nodes d (some e.ptr) :=
    hd1.agrees hag2 fun _ hq hq' => hbd hq' hq
  have he2 : t2.nodes e.ptr = some
      (cell e (ptrsAt s (rootPtr b) (rootPtr d)) (some c.ptr) h) := by
    rw [hag2.nodes _ heb, ht1, StorageTree.nodes_set_self]
  have hc2 : t2.nodes c.ptr = some
      (cell c (ptrsAt s (rootPtr a) (some e.ptr)) parent h') := by
    rw [hag2.nodes _ hcb, ht1, StorageTree.nodes_set_of_ne _ _ (Ne.symm hne),
      StorageTree.nodes_set_self]
  -- Both heights are recomputed, the old top's first.
  have hh3 : (join s e b d).height ≤ 100 := by
    rw [height_join] at hh
    omega
  have hr3 := recalcHeight_spec he2 hb2 hd2 hh3
  set t3 := t2.set e.ptr (cell e (ptrsAt s (rootPtr b) (rootPtr d))
    (some c.ptr) (join s e b d).height) with ht3
  have hold : Rep t3.nodes (join s e b d) (some c.ptr) :=
    (rep_join ..).2
      ⟨StorageTree.nodes_set_self .., hb2.set heb _, hd2.set hed _⟩
  have hc3 : t3.nodes c.ptr = some (cell c (ptrsAt s (rootPtr a)
      (rootPtr (join s e b d))) parent h') := by
    rw [ht3, StorageTree.nodes_set_of_ne _ _ (Ne.symm hne), hc2,
      rootPtr_join]
  have ha3 : Rep t3.nodes a (some c.ptr) := ha2.set hea _
  have hr4 := recalcHeight_spec hc3 ha3 hold hh
  have hcold : c.ptr ∉ ptrs (join s e b d) := by
    simp only [mem_ptrs_join, not_or]
    exact ⟨Ne.symm hne, hcb, hcd'⟩
  refine ⟨_, ?_, (rep_join ..).2
    ⟨StorageTree.nodes_set_self .., ha3.set hca _, hold.set hcold _⟩, ?_⟩
  · have hmodify := fun n f => StorageTree.modify_set_of_ne n hne he f
    unfold StorageTree.rotate
    simp only [StorageTree.load_eq he, StorageTree.load_eq hc, ok_bind,
      cell_successor, cell_parent, ptrsAt_near, ptrsAt_far,
      StorageTree.modify_eq hc, StorageTree.modify_set_self, hmodify,
      cell_setParent, cell_setSuccessor_near, cell_setSuccessor_far]
    change (t1.setParentOf (rootPtr b) (some e.ptr) >>= _) = _
    rw [hp2, ok_bind, hr3, ok_bind, hr4]
    rfl
  · refine ((hag1.mono ?_).trans (hag2.mono ?_)).trans
      ((agrees_set t2 _ (hsub _ (Or.inr (Or.inl rfl)))).trans
        (agrees_set t3 _ (hsub _ (Or.inl rfl))))
    · intro q hq
      simp only [List.mem_cons, List.not_mem_nil, or_false] at hq
      exact hsub q (by tauto)
    · exact fun q hq => hsub q (Or.inr (Or.inr hq))

/-! ## A subtree and the way up from it -/

/-- The node above a hole. -/
def pathParent : Path (Entry β) → Option NodePtr
  | [] => none
  | f :: _ => some f.value.ptr

/-- The slot that points into a hole. -/
def slotOf : Path (Entry β) → Slot
  | [] => .storageTree
  | f :: _ => .successor f.value.ptr f.side

@[simp] theorem pathParent_nil :
    pathParent ([] : Path (Entry β)) = none := rfl

@[simp] theorem pathParent_cons (f : Frame (Entry β))
    (rest : Path (Entry β)) :
    pathParent (f :: rest) = some f.value.ptr := rfl

/-- The heap represents the way from a hole with pointer `p` up to
`storage_tree`. -/
def RepPath (t : StorageTree β) : Path (Entry β) → Option NodePtr → Prop
  | [], p => t.storageTree = p
  | f :: rest, p =>
    (∃ h, t.nodes f.value.ptr = some (cell f.value
        (ptrsAt f.side p (rootPtr f.sibling)) (pathParent rest) h)) ∧
      Rep t.nodes f.sibling (some f.value.ptr) ∧
      RepPath t rest (some f.value.ptr)

/-- The addresses on a path and in the subtrees beside it. -/
def pathPtrs : Path (Entry β) → List NodePtr
  | [] => []
  | f :: rest => f.value.ptr :: (ptrs f.sibling ++ pathPtrs rest)

theorem ptrs_plug_perm (path : Path (Entry β)) (x : BinaryTree (Entry β)) :
    (ptrs (plug path x)).Perm (ptrs x ++ pathPtrs path) := by
  induction path generalizing x with
  | nil => simp [pathPtrs]
  | cons f rest ih =>
    have h := (ih (f.fill x)).trans
      ((ptrs_join_perm f.side f.value x f.sibling).append_right _)
    rw [plug_cons, pathPtrs]
    refine h.trans ?_
    rw [List.cons_append, List.append_assoc]
    exact List.perm_middle.symm

theorem RepPath.congr {t t' : StorageTree β} {path : Path (Entry β)}
    {p : Option NodePtr} (h : RepPath t path p)
    (hroot : t'.storageTree = t.storageTree)
    (hnodes : ∀ q ∈ pathPtrs path, t'.nodes q = t.nodes q) :
    RepPath t' path p := by
  induction path generalizing p with
  | nil => exact hroot.trans h
  | cons f rest ih =>
    obtain ⟨⟨ht, hc⟩, hs, hr⟩ := h
    simp only [pathPtrs, List.mem_cons, List.mem_append] at hnodes
    exact ⟨⟨ht, (hnodes _ (Or.inl rfl)).trans hc⟩,
      hs.congr fun q hq => hnodes q (Or.inr (Or.inl hq)),
      ih hr fun q hq => hnodes q (Or.inr (Or.inr hq))⟩

/-- The heap represents `plug path x`, seen from the subtree `x`.  The
heights on the path need not be right. -/
structure At (t : StorageTree β) (path : Path (Entry β))
    (x : BinaryTree (Entry β)) : Prop where
  rep : Rep t.nodes x (pathParent path)
  repPath : RepPath t path (rootPtr x)
  nodup : (ptrs (plug path x)).Nodup

/-- `t'` differs from `t` in the nodes of `x` only. -/
def Within (x : BinaryTree (Entry β)) (t t' : StorageTree β) : Prop :=
  ∀ q, q ∉ ptrs x → t'.nodes q = t.nodes q

theorem At.nodup_append {t : StorageTree β} {path : Path (Entry β)}
    {x : BinaryTree (Entry β)} (h : At t path x) :
    (ptrs x ++ pathPtrs path).Nodup :=
  (ptrs_plug_perm path x).nodup_iff.1 h.nodup

/-- One step down. -/
theorem At.down {t : StorageTree β} {path : Path (Entry β)}
    {f : Frame (Entry β)} {x : BinaryTree (Entry β)}
    (h : At t path (f.fill x)) : At t (f :: path) x := by
  obtain ⟨hr, hp, hn⟩ := h
  rw [Frame.fill, rep_join] at hr
  rw [Frame.fill, rootPtr_join] at hp
  exact ⟨hr.2.1, ⟨⟨_, hr.1⟩, hr.2.2, hp⟩, hn⟩

/-- Any number of steps down. -/
theorem At.descend {t : StorageTree β} (q : Path (Entry β))
    {path : Path (Entry β)} {x : BinaryTree (Entry β)}
    (h : At t path (plug q x)) : At t (q ++ path) x := by
  induction q generalizing x with
  | nil => exact h
  | cons f rest ih => exact (ih h).down

/-! ## Slots -/

/-- The slot of a hole holds the pointer to its content. -/
theorem read_spec {t : StorageTree β} {path : Path (Entry β)}
    {p : Option NodePtr} (h : RepPath t path p) :
    t.read (slotOf path) = .ok p := by
  cases path with
  | nil =>
    rw [slotOf, StorageTree.read]
    exact congrArg Except.ok h
  | cons f rest =>
    obtain ⟨⟨ht, hc⟩, -, -⟩ := h
    rw [slotOf, StorageTree.read, StorageTree.load_eq hc, ok_bind,
      cell_successor, ptrsAt_near]
    rfl

/-- A write to the slot of a hole changes its content. -/
theorem write_spec {t : StorageTree β} {path : Path (Entry β)}
    {p : Option NodePtr} (h : RepPath t path p)
    (hn : (pathPtrs path).Nodup) (q : Option NodePtr) :
    ∃ t', t.write (slotOf path) q = .ok t' ∧ RepPath t' path q ∧
      ∀ r, r ∉ pathPtrs path → t'.nodes r = t.nodes r := by
  cases path with
  | nil => exact ⟨_, rfl, rfl, fun _ _ => rfl⟩
  | cons f rest =>
    obtain ⟨⟨ht, hc⟩, hs, hr⟩ := h
    simp only [pathPtrs, List.nodup_cons, List.mem_append, not_or] at hn
    refine ⟨_, StorageTree.modify_eq hc _, ⟨⟨ht, ?_⟩, ?_, ?_⟩, ?_⟩
    · rw [StorageTree.nodes_set_self, cell_setSuccessor_near]
    · exact hs.set hn.1.1 _
    · exact hr.congr rfl fun r hr => StorageTree.nodes_set_of_ne _ _
        fun he => hn.1.2 (he ▸ hr)
    · intro r hr
      apply StorageTree.nodes_set_of_ne
      intro he
      exact hr (he ▸ List.mem_cons_self)

/-- The node above the path's hole points to `p` with the child on the
path's side only. -/
def PointsTo (t : StorageTree β) : Path (Entry β) → NodePtr → Prop
  | [], _ => True
  | f :: _, p =>
    (∃ n, t.nodes f.value.ptr = some n ∧
      n.successor = ptrsAt f.side (some p) (rootPtr f.sibling)) ∧
    rootPtr f.sibling ≠ some p

theorem RepPath.pointsTo {t : StorageTree β} {path : Path (Entry β)}
    {p : NodePtr} (h : RepPath t path (some p)) (hp : p ∉ pathPtrs path) :
    PointsTo t path p := by
  cases path with
  | nil => trivial
  | cons f rest =>
    obtain ⟨⟨ht, hc⟩, -, -⟩ := h
    simp only [pathPtrs, List.mem_cons, List.mem_append, not_or] at hp
    exact ⟨⟨_, hc, rfl⟩, fun he => hp.2.1 (rootPtr_mem_ptrs he)⟩

/-- The way up from a node `p`: the slot that holds its parent `g`. -/
theorem getParentFwdPtr_spec {t : StorageTree β} {path : Path (Entry β)}
    {p g : NodePtr} {n m : Node β} (hload : t.nodes p = some n)
    (hparent : n.parent = some g) (hg : t.nodes g = some m)
    (hup : m.parent = pathParent path) (h : PointsTo t path g) :
    t.getParentFwdPtr (some p) = .ok (some (slotOf path)) := by
  unfold StorageTree.getParentFwdPtr
  simp only [StorageTree.load_eq hload, StorageTree.load_eq hg, ok_bind,
    hparent, hup]
  cases path with
  | nil => rfl
  | cons f rest =>
    obtain ⟨⟨k, hk, hsuc⟩, hsib⟩ := h
    simp only [pathParent_cons, StorageTree.load_eq hk, ok_bind, hsuc]
    cases hside : f.side <;>
      simp [ptrsAt, slotOf, hsib, hside, pure, Except.pure]

/-- The same for a node below the node above a hole. -/
theorem At.getParentFwdPtr {t : StorageTree β} {f : Frame (Entry β)}
    {rest : Path (Entry β)} {x : BinaryTree (Entry β)} {p : NodePtr}
    {n : Node β} (h : At t (f :: rest) x) (hload : t.nodes p = some n)
    (hparent : n.parent = some f.value.ptr) :
    t.getParentFwdPtr (some p) = .ok (some (slotOf rest)) := by
  obtain ⟨⟨ht, hc⟩, -, hr⟩ := h.repPath
  refine getParentFwdPtr_spec hload hparent hc rfl (hr.pointsTo ?_)
  intro hmem
  have hn := h.nodup_append
  rw [List.nodup_append', pathPtrs, List.nodup_cons] at hn
  exact hn.2.1.1 (List.mem_append_right _ hmem)

/-- The root has no way up. -/
theorem getParentFwdPtr_root {t : StorageTree β} {p : NodePtr} {n : Node β}
    (hload : t.nodes p = some n) (hparent : n.parent = none) :
    t.getParentFwdPtr (some p) = .ok none := by
  unfold StorageTree.getParentFwdPtr
  simp only [StorageTree.load_eq hload, ok_bind, hparent]
  rfl

/-! ## Rebalancing -/

/-- A rotation at a node, and the write of the new top to its slot. -/
theorem rotateAt_spec {t : StorageTree β} {s : Side} {e c : Entry β}
    {a b d : BinaryTree (Entry β)} {path : Path (Entry β)}
    (h : At t (⟨s, e, d⟩ :: path) (join s c a b))
    (hh : (join s c a (join s e b d)).height ≤ 100) :
    ∃ t1 t', StorageTree.rotate s t (some e.ptr) = .ok (c.ptr, t1) ∧
      t1.write (slotOf path) (some c.ptr) = .ok t' ∧
      At t' path (join s c a (join s e b d)) ∧
      Within (plug path (join s e (join s c a b) d)) t t' := by
  obtain ⟨hr, ⟨⟨ht, he⟩, hd, hp⟩, hn⟩ := h
  obtain ⟨hc, ha, hb⟩ := (rep_join ..).1 hr
  have hn' : (ptrs (plug path (join s e (join s c a b) d))).Nodup := hn
  rw [(ptrs_plug_perm ..).nodup_iff, List.nodup_append'] at hn'
  obtain ⟨hnx, hnp, hdisj⟩ := hn'
  rw [rootPtr_join] at he
  obtain ⟨t1, hrot, hrep, hag⟩ := rotate_spec he hc ha hb hd hnx hh
  have hp1 : RepPath t1 path (some e.ptr) :=
    hp.congr hag.storageTree fun q hq =>
      hag.nodes q fun hq' => hdisj hq' hq
  obtain ⟨t', hw, hp', hoff⟩ := write_spec hp1 hnp (some c.ptr)
  have hperm : (ptrs (join s c a (join s e b d))).Perm
      (ptrs (join s e (join s c a b) d)) := by
    have hio := inorder_rotate s e (join s c a b) d
    rw [rotate_join] at hio
    rw [ptrs, hio, ptrs]
  refine ⟨t1, t', hrot, hw, ⟨?_, ?_, ?_⟩, ?_⟩
  · exact hrep.congr fun q hq => hoff q fun hq' =>
      hdisj (hperm.mem_iff.1 hq) hq'
  · rw [rootPtr_join]
    exact hp'
  · rw [(ptrs_plug_perm ..).nodup_iff,
      (hperm.append_right _).nodup_iff, List.nodup_append']
    exact ⟨hnx, hnp, hdisj⟩
  · intro q hq
    rw [(ptrs_plug_perm ..).mem_iff, List.mem_append, not_or] at hq
    exact (hoff q hq.2).trans (hag.nodes q hq.1)

theorem Within.trans {x y : BinaryTree (Entry β)} {t t' t'' : StorageTree β}
    (h : Within x t t') (h' : Within y t' t'') (hxy : ptrs y = ptrs x) :
    Within x t t'' :=
  fun q hq => (h' q (hxy ▸ hq)).trans (h q hq)

/-- The addresses of a whole tree depend on its labels only. -/
theorem ptrs_plug_congr {path : Path (Entry β)}
    {x y : BinaryTree (Entry β)} (h : inorder x = inorder y) :
    ptrs (plug path x) = ptrs (plug path y) := by
  rw [ptrs, ptrs, inorder_plug, inorder_plug, h]

/-- The test for the double rotation compares the two grandchildren. -/
theorem leansInwards_spec {t : StorageTree β} {s : Side} {w : Entry β}
    {a b : BinaryTree (Entry β)} {parent : Option NodePtr}
    (h : Rep t.nodes (join s w a b) parent) :
    ∃ balance, t.getBalance (some w.ptr) = .ok balance ∧
      (StorageTree.leansInwards s balance = true ↔ a.height < b.height) := by
  obtain ⟨hc, ha, hb⟩ := (rep_join ..).1 h
  refine ⟨_, getBalance_spec hc ha hb, ?_⟩
  cases s <;> simp only [StorageTree.leansInwards, decide_eq_true_eq] <;> omega

/-- The branch of `rebalance_from_nodeptr` at a node whose child on side
`s` is two higher than the other one. -/
theorem raise_spec {t : StorageTree β} {s : Side} {e : Entry β}
    {near far : BinaryTree (Entry β)} {path : Path (Entry β)}
    (h : At t path (join s e near far)) (hn : Balanced near)
    (hh : near.height = far.height + 2) (hb : near.height ≤ 90) :
    ∃ t', StorageTree.raise s t (slotOf path) e.ptr = .ok t' ∧
      At t' path (repair s e near far) ∧
      Within (plug path (join s e near far)) t t' := by
  obtain ⟨w, a, b, rfl⟩ :=
    exists_join s (ne_nil_of_height_pos (by omega : 0 < near.height))
  have hd : At t (⟨s, e, far⟩ :: path) (join s w a b) := h.down
  obtain ⟨hce, -, -⟩ := (rep_join ..).1 h.rep
  obtain ⟨balance, hbal, hlean⟩ := leansInwards_spec hd.rep
  rw [height_join] at hh hb
  unfold StorageTree.raise
  rw [rootPtr_join] at hce
  simp only [StorageTree.load_eq hce, ok_bind, cell_successor, ptrsAt_near,
    hbal, hlean, repair_join]
  by_cases hab : a.height < b.height
  · rw [balanced_join] at hn
    obtain ⟨-, hbb, -, hba⟩ := hn
    obtain ⟨u, c, d, rfl⟩ :=
      exists_join s.other (ne_nil_of_height_pos (by omega : 0 < b.height))
    rw [if_pos hab, if_pos hab]
    rw [height_join] at hab hba hh hb
    have hdd : At t (⟨s.other, w, a⟩ :: ⟨s, e, far⟩ :: path)
        (join s.other u c d) := by
      refine At.down (f := ⟨s.other, w, a⟩) ?_
      rw [Frame.fill, join_other]
      exact hd
    obtain ⟨t1, t2, hrot1, hw1, hat1, hwi1⟩ := rotateAt_spec hdd (by
      simp only [height_join]
      omega)
    rw [join_other, join_other] at hat1
    obtain ⟨t3, t4, hrot2, hw2, hat2, hwi2⟩ := rotateAt_spec hat1 (by
      simp only [height_join]
      omega)
    simp only [hrot1, ok_bind]
    rw [show Slot.successor e.ptr s = slotOf (⟨s, e, far⟩ :: path) from rfl,
      hw1, ok_bind, hrot2, ok_bind]
    refine ⟨t4, hw2, ?_, ?_⟩
    · rw [rotate_join, join_other, join_other, rotate_join]
      exact hat2
    · rw [plug_cons, Frame.fill, join_other] at hwi1
      refine hwi1.trans hwi2 (ptrs_plug_congr ?_)
      refine inorder_join_congr s e far ?_
      have hio := inorder_rotate s.other w (join s.other u c d) a
      rw [rotate_join, join_other, join_other, join_other] at hio
      exact hio
  · obtain ⟨t1, t2, hrot, hw, hat, hwi⟩ := rotateAt_spec hd (by
      simp only [height_join]
      omega)
    rw [if_neg hab, if_neg hab, pure_bind, hrot, ok_bind, rotate_join]
    exact ⟨t2, hw, hat, hwi⟩

/-- The recomputed height completes the node above the hole. -/
theorem recalcAt_spec {t : StorageTree β} {f : Frame (Entry β)}
    {rest : Path (Entry β)} {x : BinaryTree (Entry β)}
    (h : At t (f :: rest) x) (hb : (f.fill x).height ≤ 100) :
    ∃ t', t.recalcHeight f.value.ptr = .ok t' ∧ At t' rest (f.fill x) ∧
      Within (plug (f :: rest) x) t t' := by
  obtain ⟨hx, ⟨⟨ht, hc⟩, hs, hp⟩, hn⟩ := h
  have hn' := (ptrs_plug_perm rest (f.fill x)).nodup_iff.1 hn
  rw [List.nodup_append', Frame.fill, nodup_ptrs_join] at hn'
  obtain ⟨⟨hfx, hfs, -⟩, hnp, hdisj⟩ := hn'
  have hfp : f.value.ptr ∉ pathPtrs rest := fun hq =>
    hdisj (mem_ptrs_join.2 (Or.inl rfl)) hq
  refine ⟨_, recalcHeight_spec hc hx hs hb, ⟨?_, ?_, hn⟩, ?_⟩
  · exact (rep_join ..).2
      ⟨StorageTree.nodes_set_self .., hx.set hfx _, hs.set hfs _⟩
  · rw [Frame.fill, rootPtr_join]
    exact hp.congr rfl fun q hq => StorageTree.nodes_set_of_ne _ _
      fun he => hfp (he ▸ hq)
  · intro q hq
    apply StorageTree.nodes_set_of_ne
    rintro rfl
    refine hq ((ptrs_plug_perm rest (f.fill x)).mem_iff.2 ?_)
    exact List.mem_append_left _ (mem_ptrs_join.2 (Or.inl rfl))

theorem balanceAt_spec {t : StorageTree β} {path : Path (Entry β)}
    {e : Entry β} {l r : BinaryTree (Entry β)}
    (h : At t path (.node e l r)) :
    t.getBalance (some e.ptr) = .ok ((l.height : Int) - r.height) :=
  getBalance_spec (s := .left) h.rep.1 h.rep.2.1 h.rep.2.2

theorem exists_fill (f : Frame (Entry β)) (x : BinaryTree (Entry β)) :
    ∃ l r, f.fill x = .node f.value l r := by
  obtain ⟨side, v, sib⟩ := f
  cases side
  · exact ⟨x, sib, rfl⟩
  · exact ⟨sib, x, rfl⟩

/-- One round of `rebalance_from_nodeptr`: the rotation step at the node
above the hole. -/
theorem rebalance_step {t : StorageTree β} {f : Frame (Entry β)}
    {rest : Path (Entry β)} {x : BinaryTree (Entry β)} {h : Nat}
    (hat : At t (f :: rest) x) (hrep : Repairable rest (f.fill x) h)
    (hsize : (plug (f :: rest) x).numNodes < 2 ^ 16) :
    ∃ t', (∀ fuel, StorageTree.rebalanceFromNodeptr (fuel + 1) t
        (some (slotOf rest))
        = t'.getParentFwdPtr (rootPtr (rebalanceRoot (f.fill x))) >>=
          StorageTree.rebalanceFromNodeptr fuel t') ∧
      At t' rest (rebalanceRoot (f.fill x)) ∧
      Within (plug (f :: rest) x) t t' := by
  obtain ⟨l, r, hfill⟩ := exists_fill f x
  have hnear := hrep.nearly
  rw [hfill] at hnear
  obtain ⟨hl, hr, hlr, hrl⟩ := hnear
  have hsize' := lt_of_le_of_lt (numNodes_le_plug rest (f.fill x)) hsize
  rw [hfill, numNodes] at hsize'
  have hlh := height_le_of_numNodes hl (by omega)
  have hrh := height_le_of_numNodes hr (by omega)
  have hh : (f.fill x).height ≤ 100 := by
    rw [hfill, height]
    omega
  obtain ⟨t1, hrec, hat1, hwi1⟩ := recalcAt_spec hat hh
  rw [hfill] at hat1
  have hbal := balanceAt_spec hat1
  have hint : int8 ((l.height : Int) - r.height) = l.height - r.height :=
    int8_eq_self (by omega) (by omega)
  -- The rotation step, in the three cases of the code.
  obtain ⟨t2, hraise, hat2, hwi2⟩ :
      ∃ t2, t1.raiseHigher (slotOf rest) f.value.ptr
          ((l.height : Int) - r.height) = .ok t2 ∧
        At t2 rest (rebalance f.value l r) ∧
        Within (plug rest (.node f.value l r)) t1 t2 := by
    rw [rebalance, StorageTree.raiseHigher]
    by_cases hlow : l.height + 1 < r.height
    · rw [if_pos (by omega), if_pos hlow]
      exact raise_spec (s := .right) hat1 hr (by omega) (by omega)
    by_cases hhigh : r.height + 1 < l.height
    · rw [if_neg (by omega), if_pos (by omega), if_neg hlow, if_pos hhigh]
      exact raise_spec (s := .left) hat1 hl (by omega) (by omega)
    · rw [if_neg (by omega), if_neg (by omega), if_neg hlow, if_neg hhigh]
      exact ⟨t1, rfl, hat1, fun _ _ => rfl⟩
  obtain ⟨hbt, -, -, -⟩ := rebalance_balanced f.value hl hr hlr hrl
  obtain ⟨e', l', r', htop⟩ :
      ∃ e' l' r', rebalance f.value l r = .node e' l' r' := by
    cases hc : rebalance f.value l r with
    | nil => exact absurd hc (rebalance_ne_nil f.value l r)
    | node e' l' r' => exact ⟨e', l', r', rfl⟩
  rw [htop] at hat2 hbt
  obtain ⟨-, -, hlr', hrl'⟩ := hbt
  have hbal2 := balanceAt_spec hat2
  have hread2 := read_spec hat2.repPath
  have hread := read_spec hat.repPath.2.2
  refine ⟨t2, fun fuel => ?_, ?_, ?_⟩
  · rw [hfill, rebalanceRoot, htop, StorageTree.rebalanceFromNodeptr]
    simp only [hread, ok_bind, hrec, hbal, hint]
    rw [if_neg (by omega), hraise, ok_bind, hread2, ok_bind, rootPtr_node,
      hbal2, ok_bind, if_neg (by omega)]
  · rw [hfill, rebalanceRoot, htop]
    exact hat2
  · refine hwi1.trans hwi2 ?_
    rw [plug_cons, hfill]

/-- `rebalance_from_nodeptr` repairs the whole way up: it computes
`Avl.fixUp`. -/
theorem rebalance_spec {fuel : Nat} {t : StorageTree β}
    {f : Frame (Entry β)} {rest : Path (Entry β)}
    {x : BinaryTree (Entry β)} {h : Nat}
    (hat : At t (f :: rest) x) (hrep : Repairable rest (f.fill x) h)
    (hsize : (plug (f :: rest) x).numNodes < 2 ^ 16)
    (hfuel : rest.length + 2 ≤ fuel) :
    ∃ t', StorageTree.rebalanceFromNodeptr fuel t (some (slotOf rest))
        = .ok t' ∧
      At t' [] (fixUp rest (f.fill x)) ∧
      Within (plug (f :: rest) x) t t' := by
  obtain ⟨t', hrun, hat', hwi⟩ := rebalance_step hat hrep hsize
  induction rest generalizing fuel t f x h t' with
  | nil =>
    obtain ⟨fuel, rfl⟩ : ∃ k, fuel = k + 2 := ⟨fuel - 2, by
      simp only [List.length_nil] at hfuel
      omega⟩
    refine ⟨t', ?_, hat', hwi⟩
    rw [hrun]
    cases htop : rebalanceRoot (f.fill x) with
    | nil => rfl
    | node e l r =>
      rw [htop] at hat'
      rw [rootPtr_node, getParentFwdPtr_root hat'.rep.1 rfl]
      rfl
  | cons g rest ih =>
    obtain ⟨fuel, rfl⟩ : ∃ k, fuel = k + 1 := ⟨fuel - 1, by omega⟩
    have hio : ptrs (plug (g :: rest) (rebalanceRoot (f.fill x)))
        = ptrs (plug (f :: g :: rest) x) :=
      ptrs_plug_congr (inorder_rebalanceRoot (f.fill x))
    have hlen : (plug (g :: rest) (rebalanceRoot (f.fill x))).numNodes
        = (plug (f :: g :: rest) x).numNodes := by
      rw [← length_inorder, ← length_inorder, inorder_plug,
        inorder_rebalanceRoot, ← inorder_plug, plug_cons f]
    have hsize' := hlen ▸ hsize
    obtain ⟨t2, hrun2, hat2, hwi2⟩ :=
      rebalance_step hat' hrep.step hsize'
    have hfuel' : rest.length + 2 ≤ fuel := by
      simp only [List.length_cons] at hfuel
      omega
    obtain ⟨t'', hrun', hat'', hwi'⟩ :=
      ih hat' hrep.step hsize' hfuel' t2 hrun2 hat2 hwi2
    refine ⟨t'', ?_, hat'', hwi.trans hwi' hio⟩
    rw [hrun]
    obtain ⟨l, r, hfill⟩ := exists_fill f x
    cases htop : rebalanceRoot (f.fill x) with
    | nil =>
      rw [hfill] at htop
      exact absurd htop (rebalance_ne_nil _ _ _)
    | node e l r =>
      rw [htop] at hat'
      rw [rootPtr_node, hat'.getParentFwdPtr hat'.rep.1 rfl, ok_bind]
      exact hrun'

end Upcn.Store
