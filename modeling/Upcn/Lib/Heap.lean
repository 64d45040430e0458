import Mathlib.Algebra.GroupWithZero.Nat
import Mathlib.Algebra.Ring.Int.Defs
import Mathlib.Data.List.Basic
import Mathlib.Data.List.Pairwise

/-!
# Which objects are live

A heap, as far as it matters which of the objects on it are live: `malloc` returns an
address that was not used before, and `free` and every use of an object that is not live
are a fault.  Which of the allocations succeed is given.

* `Heap.fault_freeAll` says that objects of different owners can be freed one by one.
* `Heap.Ages` is the relation that every use and every `free` keeps.
-/

/-- The objects that were allocated, at the addresses below `next`. -/
structure Heap where
  next : Nat
  live : Nat → Bool
  fault : Bool
  fresh : ∀ a, live a = true → a < next

namespace Heap

/-- Nothing has been allocated. -/
def empty : Heap := ⟨0, fun _ => false, false, by simp⟩

/-- The heap behind an allocation that fails. -/
def deny (h : Heap) : Heap :=
  { h with next := h.next + 1, fresh := fun a ha => Nat.lt_succ_of_lt (h.fresh a ha) }

/-- The heap behind one that succeeds. -/
def grant (h : Heap) : Heap where
  next := h.next + 1
  live a := a == h.next || h.live a
  fault := h.fault
  fresh a ha := by
    rcases Bool.or_eq_true _ _ ▸ ha with ha | ha
    · exact Nat.lt_succ_of_le (Nat.le_of_eq (beq_iff_eq.mp ha))
    · exact Nat.lt_succ_of_lt (h.fresh a ha)

/-- `malloc`. -/
def malloc (granted : Nat → Bool) (h : Heap) : Option Nat × Heap :=
  if granted h.next then (some h.next, h.grant) else (none, h.deny)

/-- `free`. -/
def free (h : Heap) : Option Nat → Heap
  | none => h
  | some p =>
    if h.live p then
      { h with
        live := fun a => a != p && h.live a
        fresh := fun a ha => h.fresh a ((Bool.and_eq_true _ _ ▸ ha).2) }
    else { h with fault := true }

/-- The object is read. -/
def use (h : Heap) : Option Nat → Heap
  | none => { h with fault := true }
  | some p => if h.live p then h else { h with fault := true }

/-- The objects are freed one by one. -/
def freeAll (h : Heap) (ps : List (Option Nat)) : Heap := ps.foldl free h

/-- Two pointers to different objects. -/
def Apart (p q : Option Nat) : Prop := p = none ∨ p ≠ q

variable {granted : Nat → Bool} {h : Heap} {a : Nat} {p : Option Nat} {ps : List (Option Nat)}

theorem live_next (h : Heap) : h.live h.next = false := by
  cases hlive : h.live h.next with
  | false => rfl
  | true => exact absurd (h.fresh _ hlive) (Nat.lt_irrefl _)

@[simp] theorem live_grant : h.grant.live a = (a == h.next || h.live a) := rfl

@[simp] theorem next_grant : h.grant.next = h.next + 1 := rfl

@[simp] theorem fault_grant : h.grant.fault = h.fault := rfl

@[simp] theorem live_deny : h.deny.live = h.live := rfl

@[simp] theorem fault_deny : h.deny.fault = h.fault := rfl

@[simp] theorem free_none : h.free none = h := rfl

@[simp] theorem next_free : (h.free p).next = h.next := by
  cases p with
  | none => rfl
  | some p =>
    unfold free
    dsimp only
    split <;> rfl

@[simp] theorem live_free : (h.free p).live a = true ↔ h.live a = true ∧ p ≠ some a := by
  cases p with
  | none => simp
  | some p =>
    unfold free
    dsimp only
    split
    · simp only [Bool.and_eq_true, bne_iff_ne, ne_eq, Option.some.injEq]
      exact and_comm.trans (and_congr_right fun _ => not_congr eq_comm)
    · rename_i hdead
      refine ⟨fun hlive => ⟨hlive, ?_⟩, And.left⟩
      intro heq
      exact hdead (Option.some.inj heq ▸ hlive)

theorem fault_free (hlive : ∀ a, p = some a → h.live a = true) :
    (h.free p).fault = h.fault := by
  cases p with
  | none => rfl
  | some p => rw [free, if_pos (hlive p rfl)]

theorem use_of_live (hlive : h.live a = true) : h.use (some a) = h := by
  rw [use, if_pos hlive]

theorem live_freeAll (h : Heap) (ps : List (Option Nat)) :
    (h.freeAll ps).live a = true ↔ h.live a = true ∧ some a ∉ ps := by
  induction ps generalizing h with
  | nil => simp [freeAll]
  | cons p ps ih =>
    rw [freeAll, List.foldl_cons, ← freeAll, ih, live_free, and_assoc, List.mem_cons, not_or,
      ne_comm]

/-- Different objects that are live can be freed one by one. -/
theorem fault_freeAll (hlive : ∀ a, some a ∈ ps → h.live a = true) (hps : ps.Pairwise Apart) :
    (h.freeAll ps).fault = h.fault := by
  induction ps generalizing h with
  | nil => rfl
  | cons p ps ih =>
    obtain ⟨hp, hps⟩ := List.pairwise_cons.mp hps
    rw [freeAll, List.foldl_cons, ← freeAll, ih ?_ hps,
      fault_free fun a ha => hlive a (ha ▸ List.mem_cons_self)]
    intro a ha
    -- What is freed first is none of the others.
    have hne : p ≠ some a := by
      rintro rfl
      rcases hp _ ha with hnone | hne
      · cases hnone
      · exact hne rfl
    exact live_free.mpr ⟨hlive a (List.mem_cons_of_mem _ ha), hne⟩

/-- What uses and frees do to a heap: a fault stays, and so does what is not live. -/
structure Ages (h h' : Heap) : Prop where
  fault : h.fault = true → h'.fault = true
  live : ∀ a, h'.live a = true → h.live a = true

namespace Ages

variable {h' h'' : Heap}

theorem refl (h : Heap) : h.Ages h := ⟨id, fun _ => id⟩

theorem trans (hfirst : h.Ages h') (hsecond : h'.Ages h'') : h.Ages h'' where
  fault hfault := hsecond.fault (hfirst.fault hfault)
  live a ha := hfirst.live a (hsecond.live a ha)

theorem sound (hages : h.Ages h') (hfault : h'.fault = false) : h.fault = false :=
  Bool.eq_false_iff.mpr fun htrue => Bool.false_ne_true (hfault.symm.trans (hages.fault htrue))

theorem dead (hages : h.Ages h') (hdead : h.live a = false) : h'.live a = false :=
  Bool.eq_false_iff.mpr fun hlive => Bool.false_ne_true (hdead.symm.trans (hages.live a hlive))

end Ages

theorem ages_use (h : Heap) (p : Option Nat) : h.Ages (h.use p) := by
  cases p with
  | none => exact ⟨fun _ => rfl, fun _ => id⟩
  | some p =>
    unfold use
    dsimp only
    split
    · exact Ages.refl h
    · exact ⟨fun _ => rfl, fun _ => id⟩

theorem ages_free (h : Heap) (p : Option Nat) : h.Ages (h.free p) := by
  refine ⟨fun hfault => ?_, fun a ha => (live_free.mp ha).1⟩
  cases p with
  | none => exact hfault
  | some p =>
    unfold free
    dsimp only
    split
    · exact hfault
    · rfl

theorem fault_use_of_dead (hdead : h.live a = false) : (h.use (some a)).fault = true := by
  rw [use, if_neg (by simp [hdead])]

/-- An object that nothing pointed to takes the place of another. -/
theorem Apart.set {ps : List (Option Nat)} (hps : ps.Pairwise Apart) {v : Option Nat}
    (hv : v = none ∨ v ∉ ps) (i : Nat) : (ps.set i v).Pairwise Apart := by
  induction ps generalizing i with
  | nil => exact List.Pairwise.nil
  | cons p ps ih =>
    obtain ⟨hp, hps⟩ := List.pairwise_cons.mp hps
    cases i with
    | zero =>
      rw [List.set_cons_zero]
      refine List.pairwise_cons.mpr ⟨fun q hq => ?_, hps⟩
      refine hv.imp_right fun hnot heq => hnot ?_
      exact heq ▸ List.mem_cons_of_mem _ hq
    | succ i =>
      rw [List.set_cons_succ]
      refine List.pairwise_cons.mpr ⟨fun q hq => ?_,
        ih hps (hv.imp_right fun hnot hmem => hnot (List.mem_cons_of_mem _ hmem)) i⟩
      rcases List.mem_or_eq_of_mem_set hq with hq | rfl
      · exact hp q hq
      · rcases hv with rfl | hnot
        · cases p with
          | none => exact .inl rfl
          | some p => exact .inr (by simp)
        · exact .inr fun heq => hnot (heq ▸ List.mem_cons_self)

end Heap
