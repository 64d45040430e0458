import Upcn.Lib.Avl

/-!
# The node heap of the bundle store

`bundle_storage_manager.c` keeps the stored bundles in a balanced search
tree of heap nodes with parent pointers.  This module is the pointer-level
model of that file: a heap of nodes, the root variable `storage_tree`, and
every function that reads or writes them, in the order of the source.

* A pointer is `Option NodePtr`, with `none` for `NULL`.  A heap cell is
  `none` when no node lives there, so a read through a dangling pointer is
  the fault `dangling`.
* A pointer to a pointer is a `Slot`: the root variable or a `successor`
  field.
* `rotate_right` and `rotate_left` are mirror images, and so are the two
  halves of `rebalance_from_nodeptr` and of `delete_node_at_ptr`.  Each
  pair is one definition over the side.
* A loop takes fuel.  `maxDepth` is the number of ids, which bounds the
  number of nodes on any way through the tree.

The type `β` of bundle pointers is a parameter, because the tree never
looks through them.
-/

namespace Upcn.Store

open Avl (Side)

/-- The address of a tree node. -/
abbrev NodePtr := Nat

/-- `struct node`. -/
structure Node (β : Type) where
  id : Nat
  successor : Side → Option NodePtr
  parent : Option NodePtr
  bundle : β
  height : Int

/-- What stops the code short of a result. -/
inductive StoreFault where
  /-- An `ASSERT` of the tree code does not hold. -/
  | assertion
  /-- The code reads through `NULL` or through a freed node. -/
  | dangling
  /-- A loop over the tree does not end. -/
  | endless
  /-- Every id is taken, so the search for a free one does not end. -/
  | idsExhausted
  /-- `ASSERT(bundle->id == INV_ID)` does not hold. -/
  | alreadyStored
  /-- `ASSERT(bundle_bytes >= size)` does not hold. -/
  | accounting
  /-- The address handed to the model as fresh is in use. -/
  | notFresh
  deriving DecidableEq, Repr

/-- The heap of nodes and the variable `storage_tree`. -/
structure StorageTree (β : Type) where
  nodes : NodePtr → Option (Node β)
  storageTree : Option NodePtr

/-- A place that holds a node pointer. -/
inductive Slot where
  | storageTree
  | successor (node : NodePtr) (side : Side)
  deriving DecidableEq, Repr

/-- `BUNDLE_INVALID_ID`. -/
def invalidId : Nat := 0

/-- The number of values of `bundleid_t`. -/
def idCount : Nat := 2 ^ 16

/-- A bound on the length of every way through the tree. -/
def maxDepth : Nat := idCount

/-- The conversion of an `int` to `int8_t`. -/
def int8 (x : Int) : Int := Int.bmod x 256

theorem int8_eq_self {x : Int} (hlo : -128 ≤ x) (hhi : x < 128) :
    int8 x = x := by
  rw [int8, Int.bmod_eq_of_le (by omega) (by omega)]

variable {β : Type}

/-! ## Heap access -/

namespace Node

def setSuccessor (n : Node β) (s : Side) (p : Option NodePtr) : Node β :=
  { n with successor := Function.update n.successor s p }

def setParent (n : Node β) (p : Option NodePtr) : Node β :=
  { n with parent := p }

def setHeight (n : Node β) (h : Int) : Node β :=
  { n with height := h }

end Node

namespace StorageTree

/-- The heap with node `n` at `p`. -/
def set (t : StorageTree β) (p : NodePtr) (n : Node β) : StorageTree β :=
  { t with nodes := Function.update t.nodes p (some n) }

/-- The heap without the node at `p`: `free(p)`. -/
def free (t : StorageTree β) (p : NodePtr) : StorageTree β :=
  { t with nodes := Function.update t.nodes p none }

@[simp] theorem nodes_set_self (t : StorageTree β) (p : NodePtr)
    (n : Node β) : (t.set p n).nodes p = some n :=
  Function.update_self ..

@[simp] theorem nodes_set_of_ne (t : StorageTree β) {p q : NodePtr}
    (n : Node β) (h : q ≠ p) : (t.set p n).nodes q = t.nodes q :=
  Function.update_of_ne h ..

@[simp] theorem set_set (t : StorageTree β) (p : NodePtr) (n m : Node β) :
    (t.set p n).set p m = t.set p m := by
  simp [set]

@[simp] theorem storageTree_set (t : StorageTree β) (p : NodePtr)
    (n : Node β) : (t.set p n).storageTree = t.storageTree := rfl

@[simp] theorem nodes_free_of_ne (t : StorageTree β) {p q : NodePtr}
    (h : q ≠ p) : (t.free p).nodes q = t.nodes q :=
  Function.update_of_ne h ..

@[simp] theorem storageTree_free (t : StorageTree β) (p : NodePtr) :
    (t.free p).storageTree = t.storageTree := rfl

/-- `*p` for a node pointer. -/
def load (t : StorageTree β) (p : NodePtr) : Except StoreFault (Node β) :=
  match t.nodes p with
  | some n => .ok n
  | none => .error .dangling

/-- A write to the fields of the node at `p`. -/
def modify (t : StorageTree β) (p : NodePtr) (f : Node β → Node β) :
    Except StoreFault (StorageTree β) :=
  match t.nodes p with
  | some n => .ok (t.set p (f n))
  | none => .error .dangling

theorem load_eq {t : StorageTree β} {p : NodePtr} {n : Node β}
    (h : t.nodes p = some n) : t.load p = .ok n := by
  rw [load, h]

theorem modify_eq {t : StorageTree β} {p : NodePtr} {n : Node β}
    (h : t.nodes p = some n) (f : Node β → Node β) :
    t.modify p f = .ok (t.set p (f n)) := by
  rw [modify, h]

@[simp] theorem modify_set_self (t : StorageTree β) (p : NodePtr)
    (n : Node β) (f : Node β → Node β) :
    (t.set p n).modify p f = .ok (t.set p (f n)) := by
  rw [modify_eq (t.nodes_set_self p n), set_set]

theorem modify_set_of_ne {t : StorageTree β} {p q : NodePtr} {m : Node β}
    (n : Node β) (hne : q ≠ p) (h : t.nodes q = some m)
    (f : Node β → Node β) :
    (t.set p n).modify q f = .ok ((t.set p n).set q (f m)) :=
  modify_eq ((t.nodes_set_of_ne n hne).trans h) f

/-- `if (p != NULL) p->parent = q`. -/
def setParentOf (t : StorageTree β) (p q : Option NodePtr) :
    Except StoreFault (StorageTree β) :=
  match p with
  | none => .ok t
  | some p => t.modify p fun n => n.setParent q

/-- The pointer in a slot. -/
def read (t : StorageTree β) : Slot → Except StoreFault (Option NodePtr)
  | .storageTree => .ok t.storageTree
  | .successor p s => do
    let n ← t.load p
    return n.successor s

/-- A write of a pointer to a slot. -/
def write (t : StorageTree β) (slot : Slot) (p : Option NodePtr) :
    Except StoreFault (StorageTree β) :=
  match slot with
  | .storageTree => .ok { t with storageTree := p }
  | .successor q s => t.modify q fun n => n.setSuccessor s p

/-! ## The macros -/

/-- `height(node)`. -/
def height (t : StorageTree β) (p : Option NodePtr) :
    Except StoreFault Int :=
  match p with
  | none => .ok 0
  | some p => do
    let n ← t.load p
    return n.height

/-- `get_balance(node)`. -/
def getBalance (t : StorageTree β) (p : Option NodePtr) :
    Except StoreFault Int :=
  match p with
  | none => .ok 0
  | some p => do
    let n ← t.load p
    let hl ← t.height (n.successor .left)
    let hr ← t.height (n.successor .right)
    return hl - hr

/-- `recalc_height(node)`. -/
def recalcHeight (t : StorageTree β) (p : NodePtr) :
    Except StoreFault (StorageTree β) := do
  let n ← t.load p
  let hl ← t.height (n.successor .left)
  let hr ← t.height (n.successor .right)
  t.modify p fun n => n.setHeight (int8 (1 + max hl hr))

/-! ## Rotation -/

/-- The rotation that lifts the child on side `s` of `oldTop`. -/
def rotate (s : Side) (t : StorageTree β) (oldTop : Option NodePtr) :
    Except StoreFault (NodePtr × StorageTree β) := do
  let some old := oldTop | throw .assertion
  let oldNode ← t.load old
  let some new := oldNode.successor s | throw .assertion
  let newNode ← t.load new
  let t2 := newNode.successor s.other
  let t ← t.modify new fun n => n.setSuccessor s.other (some old)
  let t ← t.modify new fun n => n.setParent oldNode.parent
  let t ← t.modify old fun n => n.setParent (some new)
  let t ← t.modify old fun n => n.setSuccessor s t2
  let t ← t.setParentOf t2 (some old)
  let t ← t.recalcHeight old
  let t ← t.recalcHeight new
  return (new, t)

/-- `rotate_right`. -/
def rotateRight (t : StorageTree β) (oldTop : Option NodePtr) :
    Except StoreFault (NodePtr × StorageTree β) :=
  rotate .left t oldTop

/-- `rotate_left`. -/
def rotateLeft (t : StorageTree β) (oldTop : Option NodePtr) :
    Except StoreFault (NodePtr × StorageTree β) :=
  rotate .right t oldTop

/-! ## Search -/

/-- `comp_to_successor`, indexed by `comp + 1`. -/
def compToSuccessor (comp : Int) : Side :=
  if comp = 1 then .right else .left

/-- The comparison of an id with the id of a node. -/
def comp (id nodeId : Nat) : Int :=
  if id < nodeId then -1 else if id > nodeId then 1 else 0

/-- The loop of `find_nodeptr` at a slot that points to the node `p`. -/
def findLoop (t : StorageTree β) (id : Nat) (insert : Bool) :
    Nat → Slot → NodePtr → Except StoreFault (Option Slot)
  | 0, _, _ => .error .endless
  | fuel + 1, slot, p => do
    let n ← t.load p
    if comp id n.id = 0 then
      return some slot
    else
      let side := compToSuccessor (comp id n.id)
      match n.successor side with
      | none => return if insert then some slot else none
      | some q => t.findLoop id insert fuel (.successor p side) q

/-- `find_nodeptr`: the slot of the node with the id, or with `insert` the
slot of the node that becomes its parent. -/
def findNodeptr (t : StorageTree β) (id : Nat) (insert : Bool) :
    Except StoreFault (Option Slot) :=
  match t.storageTree with
  | none => .ok none
  | some p => t.findLoop id insert maxDepth .storageTree p

/-! ## Rebalancing -/

/-- `get_parent_fwd_ptr`. -/
def getParentFwdPtr (t : StorageTree β) (p : Option NodePtr) :
    Except StoreFault (Option Slot) := do
  let some p := p | return none
  let n ← t.load p
  let some q := n.parent | return none
  let parent ← t.load q
  let some g := parent.parent | return some .storageTree
  let grandparent ← t.load g
  if grandparent.successor .left = some q then
    return some (.successor g .left)
  else if grandparent.successor .right = some q then
    return some (.successor g .right)
  else
    throw .assertion

/-- The higher child leans towards its lower sibling. -/
def leansInwards (s : Side) (balance : Int) : Bool :=
  match s with
  | .left => balance < 0
  | .right => 0 < balance

/-- The body of the two branches of `rebalance_from_nodeptr`, for a node
`p` in `slot` whose child on side `s` is two higher than the other one. -/
def raise (s : Side) (t : StorageTree β) (slot : Slot) (p : NodePtr) :
    Except StoreFault (StorageTree β) := do
  let n ← t.load p
  let t ←
    if leansInwards s (← t.getBalance (n.successor s)) then do
      let (q, t) ← rotate s.other t (n.successor s)
      t.write (.successor p s) (some q)
    else pure t
  let (q, t) ← rotate s t (some p)
  t.write slot (some q)

/-- The choice between the two branches of `rebalance_from_nodeptr`. -/
def raiseHigher (t : StorageTree β) (slot : Slot) (p : NodePtr)
    (balance : Int) : Except StoreFault (StorageTree β) :=
  if balance = -2 then raise .right t slot p
  else if balance = 2 then raise .left t slot p
  else .ok t

/-- `rebalance_from_nodeptr`. -/
def rebalanceFromNodeptr :
    Nat → StorageTree β → Option Slot → Except StoreFault (StorageTree β)
  | 0, _, _ => .error .endless
  | _ + 1, t, none => .ok t
  | fuel + 1, t, some slot => do
    match ← t.read slot with
    | none => return t
    | some p =>
      let t ← t.recalcHeight p
      let balance := int8 (← t.getBalance (some p))
      if balance < -2 ∨ 2 < balance then
        throw .assertion
      let t ← t.raiseHigher slot p balance
      let top ← t.read slot
      let balance ← t.getBalance top
      if balance < -1 ∨ 1 < balance then
        throw .assertion
      rebalanceFromNodeptr fuel t (← t.getParentFwdPtr top)

/-! ## Removal -/

/-- The loop that follows the successors on side `s` down from `p`. -/
def extreme (s : Side) (t : StorageTree β) :
    Nat → NodePtr → Except StoreFault NodePtr
  | 0, _ => .error .endless
  | fuel + 1, p => do
    let n ← t.load p
    match n.successor s with
    | none => return p
    | some q => extreme s t fuel q

/-- The replacement `r` leaves its place below `near`, unless it is `near`
itself, and `near` hangs below it. -/
def unhook (s : Side) (t : StorageTree β) (near r : NodePtr)
    (rn : Node β) : Except StoreFault (StorageTree β) :=
  if r ≠ near then do
    let some rp := rn.parent | throw .dangling
    let t ← t.modify rp fun n => n.setSuccessor s.other (rn.successor s)
    let t ← t.setParentOf (rn.successor s) rn.parent
    let t ← t.recalcHeight rp
    let t ← t.modify r fun n => n.setSuccessor s (some near)
    t.setParentOf (some near) (some r)
  else .ok t

/-- The two-successor case of `delete_node_at_ptr`, with the replacement
from the subtree on side `s`: the replacement, the slot to rebalance from,
and the heap after the subtrees of `del` hang below the replacement. -/
def rehang (s : Side) (t : StorageTree β) (delptr : Slot) (del : NodePtr) :
    Except StoreFault (NodePtr × Slot × StorageTree β) := do
  let d ← t.load del
  let some near := d.successor s | throw .dangling
  let r ← extreme s.other t maxDepth near
  let rn ← t.load r
  let t ← unhook s t near r rn
  let d ← t.load del
  let t ← t.modify r fun n => n.setSuccessor s.other (d.successor s.other)
  let t ← t.setParentOf (d.successor s.other) (some r)
  let from? ← t.getParentFwdPtr (some r)
  return (r, from?.getD delptr, t)

/-- The part of `delete_node_at_ptr` that picks the replacement. -/
def replacement (t : StorageTree β) (delptr : Slot) (del : NodePtr) :
    Except StoreFault (Option NodePtr × Slot × StorageTree β) := do
  let d ← t.load del
  match d.successor .left, d.successor .right with
  | none, none => return (none, delptr, t)
  | some l, none => return (some l, delptr, t)
  | none, some r => return (some r, delptr, t)
  | some l, some r =>
    let hl ← t.height (some l)
    let hr ← t.height (some r)
    let side := if hl ≥ hr then Side.left else Side.right
    let (p, slot, t) ← rehang side t delptr del
    return (some p, slot, t)

/-- `delete_node_at_ptr`. -/
def deleteNodeAtPtr (t : StorageTree β) (delptr : Slot) :
    Except StoreFault (StorageTree β) := do
  let some del ← t.read delptr | throw .dangling
  let (r, rebalanceFrom, t) ← t.replacement delptr del
  let t ← t.write delptr r
  let d ← t.load del
  let t ←
    match r with
    | some r => do
      let t ← t.modify r fun n => n.setParent d.parent
      rebalanceFromNodeptr maxDepth t (some rebalanceFrom)
    | none =>
      if d.parent ≠ none then do
        let slot ← t.getParentFwdPtr (some del)
        rebalanceFromNodeptr maxDepth t slot
      else pure t
  return t.free del

/-! ## Insertion -/

/-- `create_node`, with the result of `malloc` as an argument. -/
def createNode (t : StorageTree β) (mem : Option NodePtr) (id : Nat)
    (bundle : β) (parent : Option NodePtr) :
    Option (NodePtr × StorageTree β) :=
  mem.map fun p => (p, t.set p ⟨id, fun _ => none, parent, bundle, 1⟩)

/-- `add_node`. -/
def addNode (t : StorageTree β) (mem : Option NodePtr) (id : Nat)
    (bundle : β) : Except StoreFault (Bool × StorageTree β) := do
  match t.storageTree with
  | none =>
    match t.createNode mem id bundle none with
    | none => return (false, t)
    | some (p, t) => return (true, { t with storageTree := some p })
  | some _ =>
    let some slot ← t.findNodeptr id true | throw .dangling
    let some prev ← t.read slot | throw .assertion
    match t.createNode mem id bundle (some prev) with
    | none => return (false, t)
    | some (new, t) =>
      let n ← t.load prev
      let suc := compToSuccessor (comp id n.id)
      if n.successor suc ≠ none then
        throw .assertion
      let t ← t.modify prev fun n => n.setSuccessor suc (some new)
      let slot ← t.getParentFwdPtr (some new)
      let t ← rebalanceFromNodeptr maxDepth t slot
      return (true, t)

end StorageTree

end Upcn.Store
