import Mathlib.Algebra.GroupWithZero.Nat
import Mathlib.Algebra.Ring.Int.Defs
import Mathlib.Data.Tree.Basic
import Mathlib.Data.Nat.Fib.Basic
import Mathlib.Data.List.Sort

/-!
# Height-balanced search trees and their repair along a path

Mathlib has the binary tree and its height, but no height balance, no
rotation and no zipper.  This module adds them, over an arbitrary label
type.  Nothing here mentions a heap or a pointer: a program that stores
such a tree in memory instantiates the label with the address of the node.

* `Side` names the two children, so that a rotation and its mirror image
  are one definition.
* `rebalance` is the rotation step at one node.  `rebalance_balanced` and
  `height_rebalance` say what it does when the two subtrees differ by at
  most two.
* `Path` is the way from a hole up to the root, innermost frame first.
  `fixUp` applies `rebalance` at every node on it, and `Repairable` is
  the invariant that carries the balance from the hole to the root.
* `fib_le_numNodes` is the bound on the height of a balanced tree.
* `locate` descends to a key.
-/

namespace Avl

open BinaryTree

/-- The two children of a node. -/
inductive Side where
  | left
  | right
  deriving DecidableEq, Repr

/-- The other child. -/
def Side.other : Side → Side
  | .left => .right
  | .right => .left

@[simp] theorem Side.other_other (s : Side) : s.other.other = s := by
  cases s <;> rfl

@[simp] theorem Side.other_ne (s : Side) : s.other ≠ s := by
  cases s <;> decide

@[simp] theorem Side.ne_other (s : Side) : s ≠ s.other := by
  cases s <;> decide

theorem Side.eq_or_eq_other (s s' : Side) : s' = s ∨ s' = s.other := by
  cases s <;> cases s' <;> decide

variable {α : Type}

/-- A node whose child on side `s` is `near`. -/
def join (s : Side) (v : α) (near far : BinaryTree α) : BinaryTree α :=
  match s with
  | .left => .node v near far
  | .right => .node v far near

theorem join_other (s : Side) (v : α) (near far : BinaryTree α) :
    join s.other v near far = join s v far near := by
  cases s <;> rfl

/-- The labels of a tree, from left to right. -/
def inorder : BinaryTree α → List α
  | .nil => []
  | .node v l r => inorder l ++ v :: inorder r

@[simp] theorem inorder_nil : inorder (.nil : BinaryTree α) = [] := rfl

@[simp] theorem inorder_node (v : α) (l r : BinaryTree α) :
    inorder (.node v l r) = inorder l ++ v :: inorder r := rfl

theorem length_inorder (t : BinaryTree α) :
    (inorder t).length = t.numNodes := by
  induction t with
  | nil => rfl
  | node v l r ihl ihr =>
    simp only [inorder_node, List.length_append, List.length_cons, ihl, ihr,
      numNodes]
    omega

@[simp] theorem height_join (s : Side) (v : α) (near far : BinaryTree α) :
    (join s v near far).height = max near.height far.height + 1 := by
  cases s
  · rfl
  · simp [join, max_comm]

/-! ## Balance -/

/-- The two subtrees of every node differ in height by at most one. -/
def Balanced : BinaryTree α → Prop
  | .nil => True
  | .node _ l r =>
    Balanced l ∧ Balanced r ∧ l.height ≤ r.height + 1 ∧
      r.height ≤ l.height + 1

@[simp] theorem balanced_nil : Balanced (.nil : BinaryTree α) := trivial

@[simp] theorem balanced_join (s : Side) (v : α) (near far : BinaryTree α) :
    Balanced (join s v near far) ↔
      Balanced near ∧ Balanced far ∧ near.height ≤ far.height + 1 ∧
        far.height ≤ near.height + 1 := by
  cases s
  · rfl
  · simp only [join, Balanced]
    tauto

/-- A balanced tree of height `h` has at least `fib (h + 2) - 1` nodes. -/
theorem fib_le_numNodes {t : BinaryTree α} (ht : Balanced t) :
    Nat.fib (t.height + 2) ≤ t.numNodes + 1 := by
  induction t with
  | nil => simp
  | node v l r ihl ihr =>
    obtain ⟨hl, hr, hlr, hrl⟩ := ht
    have hil := ihl hl
    have hir := ihr hr
    -- The higher subtree has height `h - 1`, the other one at least `h - 2`.
    rcases le_total l.height r.height with hle | hle
    · have hmono := Nat.fib_mono (show r.height + 1 ≤ l.height + 2 by omega)
      simp only [height, numNodes, max_eq_right hle]
      rw [show r.height + 1 + 2 = (r.height + 1) + 2 from rfl, Nat.fib_add_two]
      simp only [show r.height + 1 + 1 = r.height + 2 from rfl]
      omega
    · have hmono := Nat.fib_mono (show l.height + 1 ≤ r.height + 2 by omega)
      simp only [height, numNodes, max_eq_left hle]
      rw [show l.height + 1 + 2 = (l.height + 1) + 2 from rfl, Nat.fib_add_two]
      simp only [show l.height + 1 + 1 = l.height + 2 from rfl]
      omega

/-- A balanced tree with fewer than `2 ^ 16` nodes has height at most
`23`. -/
theorem height_le_of_numNodes {t : BinaryTree α} (ht : Balanced t)
    (hn : t.numNodes < 2 ^ 16) : t.height ≤ 23 := by
  by_contra hlt
  have hmono := Nat.fib_mono (show 26 ≤ t.height + 2 by omega)
  have hfib := fib_le_numNodes ht
  have h26 : Nat.fib 26 = 121393 := by decide +kernel
  omega

/-! ## The rotation step -/

/-- The child on side `s` becomes the root and the root its child on the
other side. -/
def rotate (s : Side) (v : α) (near far : BinaryTree α) : BinaryTree α :=
  match s, near with
  | _, .nil => join s v near far
  | .left, .node w a b => .node w a (.node v b far)
  | .right, .node w a b => .node w (.node v far a) b

theorem rotate_join (s : Side) (v w : α) (a b far : BinaryTree α) :
    rotate s v (join s w a b) far = join s w a (join s v b far) := by
  cases s <;> rfl

/-- The repair of a node whose child on side `s` is two higher than the
other one: a single rotation, or a double one when the outer grandchild is
the lower one. -/
def repair (s : Side) (v : α) (near far : BinaryTree α) : BinaryTree α :=
  match s, near with
  | _, .nil => join s v near far
  | .left, .node w a b =>
    if a.height < b.height then rotate .left v (rotate .right w b a) far
    else rotate .left v (.node w a b) far
  | .right, .node w a b =>
    if b.height < a.height then rotate .right v (rotate .left w a b) far
    else rotate .right v (.node w a b) far

/-- The rotation step at one node. -/
def rebalance (v : α) (l r : BinaryTree α) : BinaryTree α :=
  if l.height + 1 < r.height then repair .right v r l
  else if r.height + 1 < l.height then repair .left v l r
  else .node v l r

theorem repair_join (s : Side) (v w : α) (a b far : BinaryTree α) :
    repair s v (join s w a b) far =
      if a.height < b.height then rotate s v (rotate s.other w b a) far
      else rotate s v (join s w a b) far := by
  cases s <;> rfl

/-- Every non-empty tree has a child on either side. -/
theorem exists_join (s : Side) {t : BinaryTree α} (h : t ≠ .nil) :
    ∃ w a b, t = join s w a b := by
  cases t with
  | nil => exact absurd rfl h
  | node w l r =>
    cases s
    · exact ⟨w, l, r, rfl⟩
    · exact ⟨w, r, l, rfl⟩

theorem ne_nil_of_height_pos {t : BinaryTree α} (h : 0 < t.height) :
    t ≠ .nil := by
  rintro rfl
  exact absurd h (by simp)

/-- What a repair does when the child on side `s` is exactly two higher:
the result is balanced, and it is as high as that child or one higher. -/
theorem repair_balanced (s : Side) (v : α) {near far : BinaryTree α}
    (hn : Balanced near) (hf : Balanced far)
    (hh : near.height = far.height + 2) :
    Balanced (repair s v near far) ∧
      near.height ≤ (repair s v near far).height ∧
      (repair s v near far).height ≤ near.height + 1 := by
  obtain ⟨w, a, b, rfl⟩ :=
    exists_join s (ne_nil_of_height_pos (by omega : 0 < near.height))
  rw [balanced_join] at hn
  rw [height_join] at hh
  obtain ⟨ha, hb, hab, hba⟩ := hn
  rw [repair_join]
  split
  · rename_i hlt
    obtain ⟨u, c, d, rfl⟩ :=
      exists_join s.other (ne_nil_of_height_pos (by omega : 0 < b.height))
    rw [balanced_join] at hb
    rw [height_join] at hlt hba hh
    have hda : rotate s.other w (join s.other u c d) a
        = join s u (join s w a d) c := by
      rw [rotate_join, join_other, join_other]
    rw [hda, rotate_join]
    simp only [balanced_join, height_join]
    refine ⟨⟨⟨ha, hb.2.1, ?_, ?_⟩, ⟨hb.1, hf, ?_, ?_⟩, ?_, ?_⟩, ?_, ?_⟩ <;>
      omega
  · rename_i hge
    rw [rotate_join]
    simp only [balanced_join, height_join]
    refine ⟨⟨ha, ⟨hb, hf, ?_, ?_⟩, ?_, ?_⟩, ?_, ?_⟩ <;> omega

/-- The rotation step changes nothing at a balanced node. -/
theorem rebalance_of_balanced (v : α) {l r : BinaryTree α}
    (hlr : l.height ≤ r.height + 1) (hrl : r.height ≤ l.height + 1) :
    rebalance v l r = .node v l r := by
  rw [rebalance, if_neg (by omega), if_neg (by omega)]

/-- The rotation step restores the balance of a node whose subtrees differ
by at most two.  The result is as high as the higher subtree or one higher,
and the latter when there was nothing to repair. -/
theorem rebalance_balanced (v : α) {l r : BinaryTree α}
    (hl : Balanced l) (hr : Balanced r)
    (hlr : l.height ≤ r.height + 2) (hrl : r.height ≤ l.height + 2) :
    Balanced (rebalance v l r) ∧
      max l.height r.height ≤ (rebalance v l r).height ∧
      (rebalance v l r).height ≤ max l.height r.height + 1 ∧
      (l.height ≤ r.height + 1 → r.height ≤ l.height + 1 →
        (rebalance v l r).height = max l.height r.height + 1) := by
  by_cases hlow : l.height + 1 < r.height
  · obtain ⟨hb, hlo, hhi⟩ := repair_balanced .right v hr hl (by omega)
    rw [rebalance, if_pos hlow, max_eq_right (by omega)]
    exact ⟨hb, hlo, hhi, fun _ h => absurd h (by omega)⟩
  by_cases hhigh : r.height + 1 < l.height
  · obtain ⟨hb, hlo, hhi⟩ := repair_balanced .left v hl hr (by omega)
    rw [rebalance, if_neg hlow, if_pos hhigh, max_eq_left (by omega)]
    exact ⟨hb, hlo, hhi, fun h => absurd h (by omega)⟩
  · rw [rebalance_of_balanced v (by omega) (by omega)]
    refine ⟨⟨hl, hr, by omega, by omega⟩, ?_, ?_, fun _ _ => ?_⟩ <;>
      simp only [height] <;> omega

theorem inorder_rotate (s : Side) (v : α) (near far : BinaryTree α) :
    inorder (rotate s v near far) = inorder (join s v near far) := by
  cases near with
  | nil => cases s <;> rfl
  | node w a b => cases s <;> simp [rotate, join]

theorem inorder_join_congr (s : Side) (v : α) {near near' : BinaryTree α}
    (far : BinaryTree α) (h : inorder near = inorder near') :
    inorder (join s v near far) = inorder (join s v near' far) := by
  cases s <;> simp [join, h]

theorem inorder_repair (s : Side) (v : α) (near far : BinaryTree α) :
    inorder (repair s v near far) = inorder (join s v near far) := by
  by_cases hn : near = .nil
  · subst hn
    cases s <;> rfl
  obtain ⟨w, a, b, rfl⟩ := exists_join s hn
  rw [repair_join]
  split
  · rw [inorder_rotate]
    refine inorder_join_congr s v far ?_
    rw [inorder_rotate, join_other]
  · exact inorder_rotate s v _ far

/-- The rotation step keeps the labels in order. -/
@[simp] theorem inorder_rebalance (v : α) (l r : BinaryTree α) :
    inorder (rebalance v l r) = inorder (.node v l r) := by
  rw [rebalance]
  split
  · exact inorder_repair .right v r l
  · split
    · exact inorder_repair .left v l r
    · rfl

theorem rebalance_ne_nil (v : α) (l r : BinaryTree α) :
    rebalance v l r ≠ .nil := by
  intro h
  have := congrArg inorder h
  simp at this

/-! ## Paths -/

/-- One step from a hole up to its parent: the side the hole is on, the
label of the parent, and its other subtree. -/
structure Frame (α : Type) where
  side : Side
  value : α
  sibling : BinaryTree α

/-- The parent node over a subtree that fills the hole. -/
def Frame.fill (f : Frame α) (t : BinaryTree α) : BinaryTree α :=
  join f.side f.value t f.sibling

/-- The way from a hole up to the root, innermost frame first. -/
abbrev Path (α : Type) := List (Frame α)

/-- The whole tree over a subtree that fills the hole. -/
def plug : Path α → BinaryTree α → BinaryTree α
  | [], t => t
  | f :: rest, t => plug rest (f.fill t)

@[simp] theorem plug_nil (t : BinaryTree α) : plug [] t = t := rfl

@[simp] theorem plug_cons (f : Frame α) (rest : Path α) (t : BinaryTree α) :
    plug (f :: rest) t = plug rest (f.fill t) := rfl

theorem plug_append (p q : Path α) (t : BinaryTree α) :
    plug (p ++ q) t = plug q (plug p t) := by
  induction p generalizing t with
  | nil => rfl
  | cons f rest ih => exact ih _

/-- The labels left of the hole. -/
def before : Path α → List α
  | [] => []
  | f :: rest =>
    match f.side with
    | .left => before rest
    | .right => before rest ++ (inorder f.sibling ++ [f.value])

/-- The labels right of the hole. -/
def after : Path α → List α
  | [] => []
  | f :: rest =>
    match f.side with
    | .left => (f.value :: inorder f.sibling) ++ after rest
    | .right => after rest

theorem inorder_plug (p : Path α) (t : BinaryTree α) :
    inorder (plug p t) = before p ++ inorder t ++ after p := by
  induction p generalizing t with
  | nil => simp [before, after]
  | cons f rest ih =>
    obtain ⟨side, v, sib⟩ := f
    rw [plug_cons, ih]
    cases side <;> simp [Frame.fill, join, before, after]

/-- Every node on the path is balanced when the hole has height `h`. -/
def BalancedAt : Path α → Nat → Prop
  | [], _ => True
  | f :: rest, h =>
    Balanced f.sibling ∧ h ≤ f.sibling.height + 1 ∧
      f.sibling.height ≤ h + 1 ∧
      BalancedAt rest (max h f.sibling.height + 1)

theorem balanced_plug (p : Path α) (t : BinaryTree α) :
    Balanced (plug p t) ↔ Balanced t ∧ BalancedAt p t.height := by
  induction p generalizing t with
  | nil => simp [BalancedAt]
  | cons f rest ih =>
    rw [plug_cons, ih, Frame.fill, balanced_join, height_join, BalancedAt]
    tauto

/-- The rotation step at a tree that is not empty. -/
def rebalanceRoot : BinaryTree α → BinaryTree α
  | .nil => .nil
  | .node v l r => rebalance v l r

/-- The rotation step at every node from the filled hole up to the root. -/
def fixUp : Path α → BinaryTree α → BinaryTree α
  | [], t => rebalanceRoot t
  | f :: rest, t => fixUp rest (f.fill (rebalanceRoot t))

@[simp] theorem inorder_rebalanceRoot (t : BinaryTree α) :
    inorder (rebalanceRoot t) = inorder t := by
  cases t with
  | nil => rfl
  | node v l r => exact inorder_rebalance v l r

/-- The repair keeps the labels in order. -/
theorem inorder_fixUp (p : Path α) (t : BinaryTree α) :
    inorder (fixUp p t) = inorder (plug p t) := by
  induction p generalizing t with
  | nil => simp [fixUp]
  | cons f rest ih =>
    rw [fixUp, ih, plug_cons, inorder_plug, inorder_plug]
    congr 2
    exact inorder_join_congr f.side f.value f.sibling (inorder_rebalanceRoot t)

/-- The rotation step restores the balance over a hole whose content
changed its height by at most one. -/
theorem rebalanceRoot_fill (f : Frame α) {t : BinaryTree α} {h : Nat}
    (ht : Balanced t) (hsib : Balanced f.sibling)
    (hle : h ≤ f.sibling.height + 1) (hge : f.sibling.height ≤ h + 1)
    (hup : t.height ≤ h + 1) (hdown : h ≤ t.height + 1) :
    Balanced (rebalanceRoot (f.fill t)) ∧
      (rebalanceRoot (f.fill t)).height ≤ max h f.sibling.height + 1 + 1 ∧
      max h f.sibling.height + 1 ≤ (rebalanceRoot (f.fill t)).height + 1 := by
  obtain ⟨side, v, sib⟩ := f
  simp only at hsib hle hge
  cases side
  · obtain ⟨hb, hlo, hhi, hbal⟩ :=
      rebalance_balanced v ht hsib (by omega) (by omega)
    simp only [Frame.fill, join, rebalanceRoot]
    refine ⟨hb, ?_, ?_⟩ <;> omega
  · obtain ⟨hb, hlo, hhi, hbal⟩ :=
      rebalance_balanced v hsib ht (by omega) (by omega)
    simp only [Frame.fill, join, rebalanceRoot]
    refine ⟨hb, ?_, ?_⟩ <;> omega

/-- A repair that starts at a balanced subtree starts with its parent. -/
theorem rebalanceRoot_of_balanced {t : BinaryTree α} (ht : Balanced t) :
    rebalanceRoot t = t := by
  cases t with
  | nil => rfl
  | node v l r => exact rebalance_of_balanced v ht.2.2.1 ht.2.2.2

/-- The root is the only node out of balance, and by two at most. -/
def NearlyBalanced : BinaryTree α → Prop
  | .nil => True
  | .node _ l r =>
    Balanced l ∧ Balanced r ∧ l.height ≤ r.height + 2 ∧
      r.height ≤ l.height + 2

theorem Balanced.nearly {t : BinaryTree α} (ht : Balanced t) :
    NearlyBalanced t := by
  cases t with
  | nil => trivial
  | node v l r =>
    obtain ⟨hl, hr, hlr, hrl⟩ := ht
    exact ⟨hl, hr, by omega, by omega⟩

theorem NearlyBalanced.rebalanceRoot {t : BinaryTree α}
    (ht : NearlyBalanced t) : Balanced (rebalanceRoot t) := by
  cases t with
  | nil => trivial
  | node v l r =>
    obtain ⟨hl, hr, hlr, hrl⟩ := ht
    exact (rebalance_balanced v hl hr hlr hrl).1

theorem nearlyBalanced_fill (f : Frame α) {t : BinaryTree α}
    (ht : Balanced t) (hs : Balanced f.sibling)
    (hts : t.height ≤ f.sibling.height + 2)
    (hst : f.sibling.height ≤ t.height + 2) :
    NearlyBalanced (f.fill t) := by
  obtain ⟨side, v, sib⟩ := f
  cases side
  · exact ⟨ht, hs, hts, hst⟩
  · exact ⟨hs, ht, hst, hts⟩

/-- The state of a repair that has come to `t`: what lies below is in
order, and the repaired `t` is within one of the height `h` that the rest
of the way was balanced for. -/
structure Repairable (p : Path α) (t : BinaryTree α) (h : Nat) : Prop where
  nearly : NearlyBalanced t
  path : BalancedAt p h
  up : (rebalanceRoot t).height ≤ h + 1
  down : h ≤ (rebalanceRoot t).height + 1

/-- The content of a hole has changed its height by at most one. -/
theorem repairable_fill {f : Frame α} {rest : Path α} {t : BinaryTree α}
    {h : Nat} (ht : Balanced t) (hp : BalancedAt (f :: rest) h)
    (hup : t.height ≤ h + 1) (hdown : h ≤ t.height + 1) :
    Repairable rest (f.fill t) (max h f.sibling.height + 1) := by
  obtain ⟨hs, hle, hge, hrest⟩ := hp
  obtain ⟨_, hhi, hlo⟩ := rebalanceRoot_fill f ht hs hle hge hup hdown
  exact ⟨nearlyBalanced_fill f ht hs (by omega) (by omega), hrest, hhi, hlo⟩

/-- A balanced subtree has taken the place of one of another height. -/
theorem repairable_of_balanced {p : Path α} {t : BinaryTree α} {h : Nat}
    (ht : Balanced t) (hp : BalancedAt p h) (hup : t.height ≤ h + 1)
    (hdown : h ≤ t.height + 1) : Repairable p t h := by
  refine ⟨ht.nearly, hp, ?_, ?_⟩ <;> rwa [rebalanceRoot_of_balanced ht]

/-- One step of the repair keeps its state. -/
theorem Repairable.step {f : Frame α} {rest : Path α} {t : BinaryTree α}
    {h : Nat} (ht : Repairable (f :: rest) t h) :
    Repairable rest (f.fill (Avl.rebalanceRoot t))
      (max h f.sibling.height + 1) :=
  repairable_fill ht.nearly.rebalanceRoot ht.path ht.up ht.down

/-- The repair balances the whole tree. -/
theorem Repairable.balanced {p : Path α} {t : BinaryTree α} {h : Nat}
    (ht : Repairable p t h) : Balanced (fixUp p t) := by
  induction p generalizing t h with
  | nil => exact ht.nearly.rebalanceRoot
  | cons f rest ih =>
    rw [fixUp]
    exact ih ht.step

theorem numNodes_le_plug (p : Path α) (t : BinaryTree α) :
    t.numNodes ≤ (plug p t).numNodes := by
  rw [← length_inorder, ← length_inorder, inorder_plug, List.length_append,
    List.length_append]
  omega

theorem length_add_height_le (p : Path α) (t : BinaryTree α) :
    p.length + t.height ≤ (plug p t).height := by
  induction p generalizing t with
  | nil => simp
  | cons f rest ih =>
    have hle := ih (f.fill t)
    rw [Frame.fill, height_join] at hle
    rw [List.length_cons, plug_cons, Frame.fill]
    omega

/-! ## Removal

A node with two subtrees is replaced by the extreme node of one of them:
the rightmost node of the left subtree, or the leftmost of the right one.
`w` is that node, `c` its only subtree and `q` the path to it. -/

/-- The subtree at the extreme node on side `s`, and the path to it. -/
theorem exists_extreme (s : Side) {t : BinaryTree α} (ht : t ≠ .nil) :
    ∃ q w c, t = plug q (join s w .nil c) ∧ ∀ f ∈ q, f.side = s := by
  induction t with
  | nil => exact absurd rfl ht
  | node v l r ihl ihr =>
    cases s with
    | left =>
      by_cases hl : l = .nil
      · exact ⟨[], v, r, by rw [hl]; rfl, by simp⟩
      · obtain ⟨q, w, c, rfl, hq⟩ := ihl hl
        refine ⟨q ++ [⟨.left, v, r⟩], w, c, ?_, ?_⟩
        · rw [plug_append]
          rfl
        · intro f hf
          rcases List.mem_append.1 hf with hf | hf
          · exact hq f hf
          · rw [List.mem_singleton.1 hf]
    | right =>
      by_cases hr : r = .nil
      · exact ⟨[], v, l, by rw [hr]; rfl, by simp⟩
      · obtain ⟨q, w, c, rfl, hq⟩ := ihr hr
        refine ⟨q ++ [⟨.right, v, l⟩], w, c, ?_, ?_⟩
        · rw [plug_append]
          rfl
        · intro f hf
          rcases List.mem_append.1 hf with hf | hf
          · exact hq f hf
          · rw [List.mem_singleton.1 hf]

theorem before_append (p q : Path α) : before (p ++ q) = before q ++ before p := by
  induction p with
  | nil => simp [before]
  | cons f rest ih =>
    obtain ⟨side, v, sib⟩ := f
    cases side <;> simp [before, ih]

theorem after_append (p q : Path α) : after (p ++ q) = after p ++ after q := by
  induction p with
  | nil => simp [after]
  | cons f rest ih =>
    obtain ⟨side, v, sib⟩ := f
    cases side <;> simp [after, ih]

theorem after_of_right {q : Path α} (hq : ∀ f ∈ q, f.side = .right) :
    after q = [] := by
  induction q with
  | nil => rfl
  | cons f rest ih =>
    rw [after, hq f List.mem_cons_self]
    exact ih fun g hg => hq g (List.mem_cons_of_mem f hg)

theorem before_of_left {q : Path α} (hq : ∀ f ∈ q, f.side = .left) :
    before q = [] := by
  induction q with
  | nil => rfl
  | cons f rest ih =>
    rw [before, hq f List.mem_cons_self]
    exact ih fun g hg => hq g (List.mem_cons_of_mem f hg)

/-- Moving the extreme node `w` of the subtree on side `s` into the place
of the removed node keeps the other labels in order. -/
theorem inorder_replace (s : Side) (v w : α) (c far : BinaryTree α)
    {q : Path α} (hq : ∀ f ∈ q, f.side = s.other) (p : Path α) :
    ∃ pre post,
      inorder (plug p (join s v (plug q (join s.other w .nil c)) far))
        = pre ++ v :: post ∧
      inorder (plug (q ++ ⟨s, w, far⟩ :: p) c) = pre ++ post := by
  cases s with
  | left =>
    refine ⟨before p ++ (before q ++ (inorder c ++ [w])),
      inorder far ++ after p, ?_, ?_⟩
    · simp [inorder_plug, join, Side.other, after_of_right hq]
    · simp [inorder_plug, before_append, after_append, before, after,
        after_of_right hq]
  | right =>
    refine ⟨before p ++ inorder far,
      w :: (inorder c ++ (after q ++ after p)), ?_, ?_⟩
    · simp [inorder_plug, join, Side.other, before_of_left hq]
    · simp [inorder_plug, before_append, after_append, before, after,
        before_of_left hq]

theorem balancedAt_append (q p : Path α) (t : BinaryTree α) :
    BalancedAt (q ++ p) t.height ↔
      BalancedAt q t.height ∧ BalancedAt p (plug q t).height := by
  induction q generalizing t with
  | nil => simp [BalancedAt]
  | cons f rest ih =>
    have hfill : max t.height f.sibling.height + 1 = (f.fill t).height :=
      (height_join f.side f.value t f.sibling).symm
    simp only [List.cons_append, BalancedAt, plug_cons, hfill, ih]
    tauto

/-- The path over the gap that the extreme node leaves is balanced for the
height that its subtree had. -/
theorem balancedAt_replace (s : Side) (v w : α) (c far : BinaryTree α)
    (q p : Path α)
    (h : Balanced (plug p (join s v (plug q (join s.other w .nil c)) far))) :
    Balanced c ∧ BalancedAt (q ++ ⟨s, w, far⟩ :: p) (c.height + 1) := by
  obtain ⟨hj, hp⟩ := (balanced_plug p _).1 h
  rw [balanced_join] at hj
  obtain ⟨hnear, hfar, hnf, hfn⟩ := hj
  obtain ⟨hw, hq⟩ := (balanced_plug q _).1 hnear
  rw [balanced_join] at hw
  have hh : (join s.other w .nil c).height = c.height + 1 := by
    rw [height_join, height, Nat.zero_max]
  refine ⟨hw.2.1, ?_⟩
  rw [← hh, balancedAt_append]
  refine ⟨hq, hfar, hnf, hfn, ?_⟩
  rw [height_join] at hp
  exact hp

/-! ## Search -/

section Search

variable {κ : Type} [LinearOrder κ] (key : α → κ)

/-- Descend to the node with key `k`, or to the empty place where it
belongs. -/
def locate (k : κ) : BinaryTree α → Path α → Path α × BinaryTree α
  | .nil, p => (p, .nil)
  | .node v l r, p =>
    if k < key v then locate k l (⟨.left, v, r⟩ :: p)
    else if key v < k then locate k r (⟨.right, v, l⟩ :: p)
    else (p, .node v l r)

theorem plug_locate (k : κ) (t : BinaryTree α) (p : Path α) :
    plug (locate key k t p).1 (locate key k t p).2 = plug p t := by
  induction t generalizing p with
  | nil => rfl
  | node v l r ihl ihr =>
    rw [locate]
    split
    · rw [ihl]
      rfl
    · split
      · rw [ihr]
        rfl
      · rfl

/-- The search ends at an empty place or at a node with the key. -/
theorem key_of_locate (k : κ) (t : BinaryTree α) (p : Path α)
    {v : α} {l r : BinaryTree α}
    (h : (locate key k t p).2 = .node v l r) : key v = k := by
  induction t generalizing p with
  | nil => simp [locate] at h
  | node w a b iha ihb =>
    rw [locate] at h
    split at h
    · exact iha _ h
    · split at h
      · exact ihb _ h
      · rename_i hlt hgt
        have hw : w = v := by
          simp only [BinaryTree.node.injEq] at h
          exact h.1
        rw [← hw]
        exact le_antisymm (not_lt.1 hlt) (not_lt.1 hgt)

/-- The search goes left of larger and right of smaller labels. -/
theorem locate_bounds (k : κ) (t : BinaryTree α) (p : Path α)
    (hs : ((inorder (plug p t)).map key).Pairwise (· < ·))
    (hb : ∀ v ∈ before p, key v < k) (ha : ∀ v ∈ after p, k < key v) :
    (∀ v ∈ before (locate key k t p).1, key v < k) ∧
      ∀ v ∈ after (locate key k t p).1, k < key v := by
  induction t generalizing p with
  | nil => exact ⟨hb, ha⟩
  | node w a b iha ihb =>
    have hw : ((inorder (.node w a b)).map key).Pairwise (· < ·) := by
      rw [inorder_plug, List.map_append, List.map_append] at hs
      exact (List.pairwise_append.1 (List.pairwise_append.1 hs).1).2.1
    rw [inorder_node, List.map_append, List.map_cons, List.pairwise_append]
      at hw
    obtain ⟨_, hwb, hcross⟩ := hw
    rw [locate]
    split
    · rename_i hlt
      refine iha (⟨.left, w, b⟩ :: p) hs hb ?_
      intro v hv
      simp only [after, List.cons_append, List.mem_cons, List.mem_append] at hv
      rcases hv with rfl | hv | hv
      · exact hlt
      · exact hlt.trans
          ((List.pairwise_cons.1 hwb).1 _ (List.mem_map_of_mem hv))
      · exact ha v hv
    · split
      · rename_i hgt
        refine ihb (⟨.right, w, a⟩ :: p) hs ?_ ha
        intro v hv
        simp only [before, List.mem_append, List.mem_cons,
          List.not_mem_nil, or_false] at hv
        rcases hv with hv | hv | rfl
        · exact hb v hv
        · exact (hcross _ (List.mem_map_of_mem hv) _ List.mem_cons_self).trans
            hgt
        · exact hgt
      · exact ⟨hb, ha⟩

end Search

end Avl
