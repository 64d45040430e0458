import Mathlib.Algebra.GroupWithZero.Nat
import Mathlib.Algebra.Ring.Int.Defs
import Mathlib.Data.List.Basic
import Mathlib.Tactic.Common

/-!
# Ring buffers

A list that lies in a ring of slots, and a ring of slots that lies in a memory
of bytes.

* `window n f start count` are `count` slots of a ring of `n` slots, the first
  one at `start`.  It is known how the list changes when the window grows by a
  slot, shrinks by one, or when its last slot is written.
* `slot size memory i` are the bytes of slot `i`, and `overwrite` writes some.
-/

namespace Ring

variable {α β : Type}

/-! ## Windows -/

/-- The `count` slots from `start` on. -/
def window (n : Nat) (f : Nat → α) (start count : Nat) : List α :=
  (List.range count).map fun k => f ((start + k) % n)

variable {n start count : Nat} {f g : Nat → α}

@[simp] theorem length_window : (window n f start count).length = count := by
  rw [window, List.length_map, List.length_range]

theorem window_zero : window n f start 0 = [] := rfl

theorem window_mod : window n f (start % n) count = window n f start count := by
  unfold window
  refine List.map_congr_left fun k _ => ?_
  rw [Nat.mod_add_mod]

/-- The first slot of a window. -/
theorem window_succ_left :
    window n f start (count + 1)
      = f (start % n) :: window n f (start + 1) count := by
  unfold window
  rw [List.range_succ_eq_map, List.map_cons, List.map_map, Nat.add_zero]
  congr 1
  refine List.map_congr_left fun k _ => ?_
  rw [Function.comp_apply, Nat.succ_eq_add_one, Nat.add_right_comm, Nat.add_assoc]

/-- The last slot of a window. -/
theorem window_succ :
    window n f start (count + 1)
      = window n f start count ++ [f ((start + count) % n)] := by
  unfold window
  rw [List.range_succ, List.map_append]
  rfl

/-- Two positions of a window are different slots. -/
theorem slot_ne {i j : Nat} (hij : i < j) (hj : j < n) :
    (start + i) % n ≠ (start + j) % n := by
  intro h
  have hzero := Nat.sub_mod_eq_zero_of_mod_eq h.symm
  rw [Nat.mod_eq_of_lt (by omega)] at hzero
  omega

/-- The slot behind a window is not part of it. -/
theorem window_congr (hcount : count < n)
    (h : ∀ i, i ≠ (start + count) % n → g i = f i) :
    window n g start count = window n f start count := by
  unfold window
  refine List.map_congr_left fun k hk => ?_
  exact h _ (slot_ne (List.mem_range.mp hk) hcount)

/-- The window grows by a slot that is written. -/
theorem window_append (hcount : count < n)
    (h : ∀ i, i ≠ (start + count) % n → g i = f i) :
    window n g start (count + 1)
      = window n f start count ++ [g ((start + count) % n)] := by
  rw [window_succ, window_congr hcount h]

/-- The last slot of the window is written. -/
theorem window_replace (hcount : count < n)
    (h : ∀ i, i ≠ (start + count) % n → g i = f i) :
    window n g start (count + 1)
      = (window n f start (count + 1)).dropLast ++ [g ((start + count) % n)] := by
  rw [window_append hcount h, window_succ, List.dropLast_concat]

/-! ## Slots in a memory of bytes -/

/-- The bytes of a slot. -/
def slot (size : Nat) (memory : List β) (i : Nat) : List β :=
  (memory.drop (size * i)).take size

/-- The bytes from `offset` on are replaced. -/
def overwrite (memory : List β) (offset : Nat) (bytes : List β) : List β :=
  memory.take offset ++ bytes ++ memory.drop (offset + bytes.length)

variable {size offset i j : Nat} {memory bytes : List β}

theorem length_overwrite (h : offset + bytes.length ≤ memory.length) :
    (overwrite memory offset bytes).length = memory.length := by
  rw [overwrite, List.length_append, List.length_append, List.length_take,
    List.length_drop]
  omega

theorem getElem?_overwrite (h : offset + bytes.length ≤ memory.length) {x : Nat}
    (hx : x < offset ∨ offset + bytes.length ≤ x) :
    (overwrite memory offset bytes)[x]? = memory[x]? := by
  have htake : (memory.take offset).length = offset := by
    rw [List.length_take]
    omega
  unfold overwrite
  rcases hx with hbefore | hbehind
  · rw [List.append_assoc, List.getElem?_append_left (by omega),
      List.getElem?_take_of_lt hbefore]
  · have hlength : (memory.take offset ++ bytes).length = offset + bytes.length := by
      rw [List.length_append, htake]
    rw [List.getElem?_append_right (by omega), hlength, List.getElem?_drop]
    congr 1
    omega

/-- The slot that is written. -/
theorem slot_overwrite_self (h : size * i + bytes.length ≤ memory.length)
    (hbytes : bytes.length = size) :
    slot size (overwrite memory (size * i) bytes) i = bytes := by
  have htake : (memory.take (size * i)).length = size * i := by
    rw [List.length_take]
    omega
  unfold slot overwrite
  rw [List.append_assoc, List.drop_left' htake, List.take_left' hbytes]

/-- The other slots. -/
theorem slot_overwrite_of_ne (h : size * i + bytes.length ≤ memory.length)
    (hbytes : bytes.length = size) (hij : j ≠ i) :
    slot size (overwrite memory (size * i) bytes) j = slot size memory j := by
  unfold slot
  refine List.ext_getElem? fun k => ?_
  by_cases hk : k < size
  · rw [List.getElem?_take_of_lt hk, List.getElem?_take_of_lt hk,
      List.getElem?_drop, List.getElem?_drop]
    refine getElem?_overwrite h ?_
    rcases Nat.lt_or_gt_of_ne hij with hlt | hgt
    · have hstep : size * (j + 1) ≤ size * i := Nat.mul_le_mul_left size hlt
      rw [Nat.mul_succ] at hstep
      omega
    · have hstep : size * (i + 1) ≤ size * j := Nat.mul_le_mul_left size hgt
      rw [Nat.mul_succ] at hstep
      omega
  · rw [List.getElem?_take_eq_none (by omega), List.getElem?_take_eq_none (by omega)]

end Ring
