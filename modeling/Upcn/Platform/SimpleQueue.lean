import Upcn.Lib.Outcome
import Upcn.Lib.Ring
import Mathlib.Tactic.Common

/-!
# Message queues

`simple_queue.c` and the functions of `hal_queue.c`, called one after the
other, and that they are a FIFO list.

* The bytes of the buffer are of any type: the queue does not look at them.
  Pointers into the buffer are offsets from `abs_start`.
* A call takes a semaphore or finds it at zero.  With a timeout it then fails,
  and without one it never returns: that is the fault `blocks`.
* `fifo` says what a queue of length `n` is for.  `Represents` relates it to
  the buffer: both pointers may rest one past the last slot, so that the slot
  of a pointer is known up to a multiple of the length only.

The product of length and item size is an `int`.  From 2 ^ 31 on the buffer is
not the one that the pointers assume.
-/

namespace Upcn.Platform

open Outcome Ring

/-- Why a call does not return. -/
inductive QueueFault where
  /-- A semaphore is at zero, and nobody posts to it. -/
  | blocks
  /-- A byte outside the buffer is read or written. -/
  | outOfBounds
  deriving DecidableEq

/-- `Queue_t`.  `memory` are the allocated bytes, and `semaphore` is the one for
mutual exclusion. -/
structure SimpleQueue (β : Type) where
  itemLength : Nat
  itemSize : Nat
  semaphore : Nat
  semPop : Nat
  semPush : Nat
  memory : List β
  absEnd : Nat
  currentStart : Nat
  currentEnd : Nat
  deriving DecidableEq

/-- The product of two `int`s in 32 bits, as the size of an allocation.  A
negative size cannot be allocated. -/
def intProduct (a b : Nat) : Nat := (((a * b : Nat) : Int).bmod (2 ^ 32)).toNat

/-- `queueCreate`, which exits when a parameter is zero.  `garbage` are the bytes
that the allocation finds. -/
def queueCreate {β : Type} (garbage : Nat → β) (queueLength itemSize : Nat) :
    Option (SimpleQueue β) :=
  if queueLength = 0 ∨ itemSize = 0 then none
  else some {
    itemLength := queueLength
    itemSize := itemSize
    semaphore := 1
    semPop := 0
    semPush := queueLength
    memory := (List.range (intProduct queueLength itemSize)).map garbage
    absEnd := intProduct queueLength itemSize
    currentStart := 0
    currentEnd := 0 }

/-- The answer of a call. -/
inductive QueueAnswer (β : Type) where
  | success
  | failure
  | item (bytes : List β)
  deriving DecidableEq

namespace SimpleQueue

variable {β : Type}

/-! ## The functions -/

/-- `increment`. -/
def increment (q : SimpleQueue β) (current : Nat) : Nat :=
  if q.absEnd < current + q.itemSize then 0 else current + q.itemSize

/-- `decrement`. -/
def decrement (q : SimpleQueue β) (current : Nat) : Nat :=
  if current < q.itemSize then q.absEnd - q.itemSize else current - q.itemSize

/-- `if (pointer >= abs_end) pointer = abs_start;`. -/
def normalise (q : SimpleQueue β) (current : Nat) : Nat :=
  if q.absEnd ≤ current then 0 else current

/-- `memcpy` of an item out of the buffer. -/
def readItem (q : SimpleQueue β) (offset : Nat) : Except QueueFault (List β) :=
  if offset + q.itemSize ≤ q.memory.length then
    .ok ((q.memory.drop offset).take q.itemSize)
  else .error .outOfBounds

/-- `memcpy` of an item into the buffer. -/
def writeItem (q : SimpleQueue β) (offset : Nat) (bytes : List β) :
    Except QueueFault (SimpleQueue β) :=
  if offset + q.itemSize ≤ q.memory.length then
    .ok { q with memory := overwrite q.memory offset (bytes.take q.itemSize) }
  else .error .outOfBounds

/-- `sem_wait(&queue->semaphore)`. -/
def lock (q : SimpleQueue β) : Except QueueFault (SimpleQueue β) :=
  match q.semaphore with
  | 0 => .error .blocks
  | k + 1 => .ok { q with semaphore := k }

/-- `sem_post(&queue->semaphore)`. -/
def unlock (q : SimpleQueue β) : SimpleQueue β :=
  { q with semaphore := q.semaphore + 1 }

/-- What `queuePop` does to the buffer. -/
def takeItem (q : SimpleQueue β) : Except QueueFault (List β × SimpleQueue β) := do
  let start := q.normalise q.currentStart
  let bytes ← q.readItem start
  return (bytes, { q with currentStart := q.increment start })

/-- What `queuePush` does to the buffer. -/
def appendItem (q : SimpleQueue β) (bytes : List β) :
    Except QueueFault (SimpleQueue β) := do
  let position := q.normalise q.currentEnd
  let q ← q.writeItem position bytes
  return { q with currentEnd := q.increment position }

/-- What `queuePush` does to the buffer when it finds the queue full and is
forced. -/
def replaceItem (q : SimpleQueue β) (bytes : List β) :
    Except QueueFault (SimpleQueue β) :=
  q.writeItem (q.decrement q.currentEnd) bytes

/-- `queueReset`. -/
def queueReset (q : SimpleQueue β) : Except QueueFault (SimpleQueue β) := do
  let q ← q.lock
  let q := { q with
    currentStart := 0
    currentEnd := 0
    semPop := 0
    semPush := q.itemLength }
  return q.unlock

/-- `queueItemsWaiting`. -/
def queueItemsWaiting (q : SimpleQueue β) : Nat := q.semPop

/-- `queuePop`. -/
def queuePop (q : SimpleQueue β) (timeout : Int) :
    Except QueueFault (QueueAnswer β × SimpleQueue β) :=
  match q.semPop with
  | 0 => if 0 ≤ timeout then .ok (.failure, q) else .error .blocks
  | k + 1 => do
    let q ← { q with semPop := k }.lock
    let (bytes, q) ← q.takeItem
    let q := { q with semPush := q.semPush + 1 }
    return (.item bytes, q.unlock)

/-- `queuePush` from the lock on, with a token of `sem_push`. -/
def pushLocked (q : SimpleQueue β) (bytes : List β) :
    Except QueueFault (QueueAnswer β × SimpleQueue β) := do
  let q ← q.lock
  let q ← q.appendItem bytes
  let q := { q with semPop := q.semPop + 1 }
  return (.success, q.unlock)

/-- The branch of `queuePush` that replaces the last item. -/
def pushForced (q : SimpleQueue β) (bytes : List β) :
    Except QueueFault (QueueAnswer β × SimpleQueue β) := do
  let q ← q.lock
  let q ← q.replaceItem bytes
  return (.success, q.unlock)

/-- The branch of `queuePush` with a timeout. -/
def pushTimed (q : SimpleQueue β) (bytes : List β) :
    Except QueueFault (QueueAnswer β × SimpleQueue β) :=
  match q.semPush with
  | 0 => .ok (.failure, q)
  | k + 1 => { q with semPush := k }.pushLocked bytes

/-- `queuePush`.  A forced push that gets a token by `sem_trywait` takes a second
one when it has a timeout, and none without. -/
def queuePush (q : SimpleQueue β) (bytes : List β) (timeout : Int) (force : Bool) :
    Except QueueFault (QueueAnswer β × SimpleQueue β) :=
  if force then
    match q.semPush with
    | 0 => q.pushForced bytes
    | k + 1 =>
      let q := { q with semPush := k }
      if 0 ≤ timeout then q.pushTimed bytes else q.pushLocked bytes
  else if 0 ≤ timeout then q.pushTimed bytes
  else
    match q.semPush with
    | 0 => .error .blocks
    | k + 1 => { q with semPush := k }.pushLocked bytes

/-! ## The calls of the abstraction layer -/

end SimpleQueue

/-- A call of a function of `hal_queue.c`. -/
inductive QueueCall (β : Type) where
  | pushToBack (bytes : List β)
  | tryPushToBack (bytes : List β) (timeout : Nat)
  | overrideToBack (bytes : List β)
  | receive (timeout : Int)
  | reset
  deriving DecidableEq

namespace SimpleQueue

variable {β : Type}

/-- One call. -/
def call (q : SimpleQueue β) :
    QueueCall β → Except QueueFault (QueueAnswer β × SimpleQueue β)
  | .pushToBack bytes => q.queuePush bytes (-1) false
  | .tryPushToBack bytes timeout => q.queuePush bytes timeout false
  | .overrideToBack bytes => q.queuePush bytes (-1) true
  | .receive timeout => q.queuePop timeout
  | .reset => do
    let q ← q.queueReset
    return (.success, q)

/-- Calls one after the other. -/
def run (q : SimpleQueue β) :
    List (QueueCall β) → Except QueueFault (List (QueueAnswer β) × SimpleQueue β)
  | [] => .ok ([], q)
  | c :: rest => do
    let (answer, q) ← q.call c
    let (answers, q) ← q.run rest
    return (answer :: answers, q)

end SimpleQueue

/-! ## The list that a queue stands for -/

section Fifo

variable {β : Type}

/-- A call on a list of at most `n` items; `none` when it would block. -/
def fifo (n : Nat) (items : List (List β)) :
    QueueCall β → Option (QueueAnswer β × List (List β))
  | .pushToBack bytes =>
    if items.length < n then some (.success, items ++ [bytes]) else none
  | .tryPushToBack bytes _ =>
    if items.length < n then some (.success, items ++ [bytes])
    else some (.failure, items)
  | .overrideToBack bytes =>
    if items.length < n then some (.success, items ++ [bytes])
    else some (.success, items.dropLast ++ [bytes])
  | .receive timeout =>
    match items with
    | [] => if 0 ≤ timeout then some (.failure, []) else none
    | item :: rest => some (.item item, rest)
  | .reset => some (.success, [])

/-- Calls one after the other. -/
def fifoRun (n : Nat) (items : List (List β)) :
    List (QueueCall β) → Option (List (QueueAnswer β) × List (List β))
  | [] => some ([], items)
  | c :: rest => do
    let (answer, items) ← fifo n items c
    let (answers, items) ← fifoRun n items rest
    return (answer :: answers, items)

/-- The items of a call are of the size of the queue. -/
def QueueCall.Sized (size : Nat) : QueueCall β → Prop
  | .pushToBack bytes => bytes.length = size
  | .tryPushToBack bytes _ => bytes.length = size
  | .overrideToBack bytes => bytes.length = size
  | .receive _ => True
  | .reset => True

end Fifo

/-! ## The buffer holds a list -/

namespace SimpleQueue

variable {β : Type} {q : SimpleQueue β} {n i : Nat} {items rest : List (List β)}
  {item bytes : List β}

/-- The buffer has `n` slots, and the items lie in them from `currentStart` to
`currentEnd`. -/
structure Holds (q : SimpleQueue β) (n : Nat) (items : List (List β)) : Prop where
  lengthPos : 0 < n
  sizePos : 0 < q.itemSize
  memory : q.memory.length = q.itemSize * n
  absEnd : q.absEnd = q.itemSize * n
  room : items.length ≤ n
  slots : ∃ start finish, start ≤ n ∧ finish ≤ n ∧
    q.currentStart = q.itemSize * start ∧ q.currentEnd = q.itemSize * finish ∧
    finish % n = (start + items.length) % n ∧
    items = window n (slot q.itemSize q.memory) start items.length

/-- Both pointers are at the start of a slot, or one past the last. -/
def Aligned (q : SimpleQueue β) (n : Nat) : Prop :=
  q.absEnd = q.itemSize * n ∧
    ∃ start finish, start ≤ n ∧ finish ≤ n ∧
      q.currentStart = q.itemSize * start ∧ q.currentEnd = q.itemSize * finish

theorem Holds.aligned (h : q.Holds n items) : q.Aligned n := by
  obtain ⟨start, finish, hstart, hfinish, hs, hf, -, -⟩ := h.slots
  exact ⟨h.absEnd, start, finish, hstart, hfinish, hs, hf⟩

theorem Holds.normalise (h : q.Holds n items) (hi : i ≤ n) :
    q.normalise (q.itemSize * i) = q.itemSize * (i % n) := by
  unfold SimpleQueue.normalise
  rw [h.absEnd]
  split
  · rename_i hle
    have heq : i = n := Nat.le_antisymm hi (Nat.le_of_mul_le_mul_left hle h.sizePos)
    rw [heq, Nat.mod_self, Nat.mul_zero]
  · rename_i hlt
    have hlt : i < n := by
      by_contra hge
      exact hlt (Nat.mul_le_mul_left _ (Nat.le_of_not_lt hge))
    rw [Nat.mod_eq_of_lt hlt]

theorem Holds.increment (h : q.Holds n items) (hi : i < n) :
    q.increment (q.itemSize * i) = q.itemSize * (i + 1) := by
  have hle : q.itemSize * (i + 1) ≤ q.itemSize * n := Nat.mul_le_mul_left _ hi
  rw [Nat.mul_succ] at hle
  unfold SimpleQueue.increment
  rw [h.absEnd, if_neg (by omega), Nat.mul_succ]

theorem Holds.decrement (h : q.Holds n items) (hi : i ≤ n) :
    q.decrement (q.itemSize * i) = q.itemSize * ((i + (n - 1)) % n) := by
  have hpos := h.lengthPos
  have hsize := h.sizePos
  unfold SimpleQueue.decrement
  rw [h.absEnd]
  cases i with
  | zero =>
    rw [Nat.mul_zero, if_pos hsize, Nat.zero_add, Nat.mod_eq_of_lt (by omega),
      Nat.mul_sub, Nat.mul_one]
  | succ i =>
    have hwrap : i + 1 + (n - 1) = i + n := by omega
    rw [Nat.mul_succ, if_neg (by omega), hwrap, Nat.add_mod_right,
      Nat.mod_eq_of_lt (by omega)]
    omega

/-- The slot of an index is inside the buffer. -/
theorem Holds.inside (h : q.Holds n items) (hi : i < n) :
    q.itemSize * i + q.itemSize ≤ q.memory.length := by
  rw [h.memory, ← Nat.mul_succ]
  exact Nat.mul_le_mul_left _ hi

theorem Holds.writeItem (h : q.Holds n items) (hi : i < n)
    (hbytes : bytes.length = q.itemSize) :
    q.writeItem (q.itemSize * i) bytes
      = .ok { q with memory := overwrite q.memory (q.itemSize * i) bytes } := by
  unfold SimpleQueue.writeItem
  rw [if_pos (h.inside hi), List.take_of_length_le (Nat.le_of_eq hbytes)]

/-- A pop takes the oldest item. -/
theorem Holds.takeItem (h : q.Holds n (item :: rest)) :
    ∃ start, q.takeItem = .ok (item, { q with currentStart := start }) ∧
      Holds { q with currentStart := start } n rest := by
  obtain ⟨start, finish, hstart, hfinish, hs, hf, hmod, hitems⟩ := h.slots
  have hlt : start % n < n := Nat.mod_lt _ h.lengthPos
  rw [List.length_cons, window_succ_left] at hitems
  obtain ⟨hitem, hrest⟩ := List.cons.inj hitems
  refine ⟨q.itemSize * (start % n + 1), ?_, ?_⟩
  · unfold SimpleQueue.takeItem readItem
    dsimp only
    rw [hs, h.normalise hstart, if_pos (h.inside hlt), ok_bind, h.increment hlt,
      hitem]
    rfl
  · refine ⟨h.lengthPos, h.sizePos, h.memory, h.absEnd, ?_, ?_⟩
    · have hroom := h.room
      rw [List.length_cons] at hroom
      omega
    · refine ⟨start % n + 1, finish, hlt, hfinish, rfl, hf, ?_, ?_⟩
      · rw [hmod, List.length_cons, Nat.add_assoc (start % n), Nat.mod_add_mod]
        congr 1
        omega
      · have hnext : (start % n + 1) % n = (start + 1) % n := Nat.mod_add_mod ..
        rw [← window_mod, hnext, window_mod]
        exact hrest

/-- What a write to the slot of an index does to the slots. -/
theorem Holds.slot_write (h : q.Holds n items) (hi : i < n)
    (hbytes : bytes.length = q.itemSize) :
    slot q.itemSize (overwrite q.memory (q.itemSize * i) bytes) i = bytes ∧
      ∀ j, j ≠ i → slot q.itemSize (overwrite q.memory (q.itemSize * i) bytes) j
        = slot q.itemSize q.memory j := by
  have hinside := h.inside hi
  rw [← hbytes] at hinside
  constructor
  · exact slot_overwrite_self (by rw [← hbytes]; exact hinside) hbytes
  · intro j hj
    exact slot_overwrite_of_ne (by rw [← hbytes]; exact hinside) hbytes hj

theorem Holds.length_write (h : q.Holds n items) (hi : i < n)
    (hbytes : bytes.length = q.itemSize) :
    (overwrite q.memory (q.itemSize * i) bytes).length = q.itemSize * n := by
  rw [length_overwrite (by rw [hbytes]; exact h.inside hi), h.memory]

/-- A push appends an item. -/
theorem Holds.appendItem (h : q.Holds n items) (hroom : items.length < n)
    (hbytes : bytes.length = q.itemSize) :
    ∃ memory finish,
      q.appendItem bytes = .ok { q with memory := memory, currentEnd := finish } ∧
        Holds { q with memory := memory, currentEnd := finish } n
          (items ++ [bytes]) := by
  obtain ⟨start, finish, hstart, hfinish, hs, hf, hmod, hitems⟩ := h.slots
  have hlt : finish % n < n := Nat.mod_lt _ h.lengthPos
  obtain ⟨hself, hothers⟩ := h.slot_write hlt hbytes
  refine ⟨overwrite q.memory (q.itemSize * (finish % n)) bytes,
    q.itemSize * (finish % n + 1), ?_, ?_⟩
  · unfold SimpleQueue.appendItem
    dsimp only
    rw [hf, h.normalise hfinish, h.writeItem hlt hbytes, ok_bind]
    have hincrement := h.increment hlt
    unfold SimpleQueue.increment at hincrement ⊢
    dsimp only
    rw [hincrement]
    rfl
  · refine ⟨h.lengthPos, h.sizePos, h.length_write hlt hbytes, h.absEnd, ?_, ?_⟩
    · rw [List.length_append, List.length_singleton]
      exact hroom
    · refine ⟨start, finish % n + 1, hstart, hlt, hs, rfl, ?_, ?_⟩
      · rw [List.length_append, List.length_singleton, Nat.mod_add_mod,
          ← Nat.mod_add_mod, hmod, Nat.mod_add_mod, Nat.add_assoc]
      · rw [List.length_append, List.length_singleton]
        rw [hmod] at hself hothers ⊢
        have happend := window_append hroom hothers
        dsimp only
        rw [happend, hself, ← hitems]

/-- A forced push on a queue with items replaces the newest one. -/
theorem Holds.replaceItem (h : q.Holds n items) (hne : items ≠ [])
    (hbytes : bytes.length = q.itemSize) :
    ∃ memory, q.replaceItem bytes = .ok { q with memory := memory } ∧
      Holds { q with memory := memory } n (items.dropLast ++ [bytes]) := by
  obtain ⟨start, finish, hstart, hfinish, hs, hf, hmod, hitems⟩ := h.slots
  obtain ⟨count, hcount⟩ : ∃ count, items.length = count + 1 :=
    Nat.exists_eq_succ_of_ne_zero (by simpa using hne)
  have hroom := h.room
  have hpos := h.lengthPos
  -- the slot behind the end pointer is the last one of the window
  have hlast : (finish + (n - 1)) % n = (start + count) % n := by
    have hwrap : start + (count + 1) + (n - 1) = start + count + n := by omega
    rw [← Nat.mod_add_mod, hmod, hcount, Nat.mod_add_mod, hwrap, Nat.add_mod_right]
  have hlt : (start + count) % n < n := Nat.mod_lt _ hpos
  obtain ⟨hself, hothers⟩ := h.slot_write hlt hbytes
  have hlength : (items.dropLast ++ [bytes]).length = items.length := by
    rw [List.length_append, List.length_dropLast, List.length_singleton]
    omega
  refine ⟨overwrite q.memory (q.itemSize * ((start + count) % n)) bytes, ?_, ?_⟩
  · unfold SimpleQueue.replaceItem
    have hposition : q.decrement q.currentEnd
        = q.itemSize * ((start + count) % n) := by
      rw [hf, h.decrement hfinish, hlast]
    rw [hposition]
    exact h.writeItem hlt hbytes
  · refine ⟨hpos, h.sizePos, h.length_write hlt hbytes, h.absEnd, ?_, ?_⟩
    · rw [hlength]
      exact hroom
    · refine ⟨start, finish, hstart, hfinish, hs, hf, ?_, ?_⟩
      · rw [hlength]
        exact hmod
      · have hreplace := window_replace (by omega) hothers
        dsimp only
        rw [hlength, hcount, hreplace, hself, ← hcount, ← hitems]

/-! ## The queue is the list -/

/-- Between two calls the queue is the list `items`. -/
structure Represents (q : SimpleQueue β) (n : Nat) (items : List (List β)) : Prop
    extends Holds q n items where
  itemLength : q.itemLength = n
  semaphore : q.semaphore = 1
  semPop : q.semPop = items.length
  semPush : q.semPush + items.length = n

theorem Represents.lock (h : q.Represents n items) :
    q.lock = .ok { q with semaphore := 0 } := by
  unfold SimpleQueue.lock
  rw [h.semaphore]

/-- The semaphores are no part of the buffer. -/
theorem Holds.of_semaphores (h : q.Holds n items) (a b c : Nat) :
    Holds { q with semaphore := a, semPop := b, semPush := c } n items :=
  ⟨h.lengthPos, h.sizePos, h.memory, h.absEnd, h.room, h.slots⟩

theorem Represents.queueReset (h : q.Represents n items) :
    ∃ q', q.queueReset = .ok q' ∧ q'.Represents n [] ∧ q'.itemSize = q.itemSize := by
  unfold SimpleQueue.queueReset
  rw [h.lock, ok_bind]
  refine ⟨_, rfl, ⟨⟨h.lengthPos, h.sizePos, h.memory, h.absEnd, Nat.zero_le _, ?_⟩,
    h.itemLength, rfl, rfl, h.itemLength⟩, rfl⟩
  exact ⟨0, 0, Nat.zero_le _, Nat.zero_le _, rfl, rfl, rfl, rfl⟩

theorem Represents.queuePop_empty (h : q.Represents n []) (timeout : Int) :
    q.queuePop timeout
      = if 0 ≤ timeout then .ok (.failure, q) else .error .blocks := by
  unfold SimpleQueue.queuePop
  rw [h.semPop]
  rfl

theorem Represents.queuePop (h : q.Represents n (item :: rest)) (timeout : Int) :
    ∃ q', q.queuePop timeout = .ok (.item item, q') ∧ q'.Represents n rest ∧
      q'.itemSize = q.itemSize := by
  have hpush := h.semPush
  rw [List.length_cons] at hpush
  have hheld := h.toHolds.of_semaphores 0 rest.length q.semPush
  obtain ⟨start, htake, hrest⟩ := hheld.takeItem
  unfold SimpleQueue.queuePop
  rw [h.semPop, List.length_cons]
  dsimp only
  unfold SimpleQueue.lock
  dsimp only
  rw [h.semaphore, ok_bind, htake, ok_bind]
  refine ⟨_, rfl, ⟨⟨hrest.lengthPos, hrest.sizePos, hrest.memory, hrest.absEnd,
    hrest.room, hrest.slots⟩, h.itemLength, rfl, rfl, ?_⟩, rfl⟩
  show q.semPush + 1 + rest.length = n
  omega

/-- A push with a token. -/
theorem Represents.pushLocked (h : q.Represents n items) {k : Nat}
    (hk : q.semPush = k + 1) (hbytes : bytes.length = q.itemSize) :
    ∃ q', ({ q with semPush := k } : SimpleQueue β).pushLocked bytes
        = .ok (.success, q') ∧ q'.Represents n (items ++ [bytes]) ∧
      q'.itemSize = q.itemSize := by
  have hpush := h.semPush
  have hheld := h.toHolds.of_semaphores 0 q.semPop k
  obtain ⟨memory, finish, happend, hitems⟩ := hheld.appendItem (by omega) hbytes
  unfold SimpleQueue.pushLocked SimpleQueue.lock
  dsimp only
  rw [h.semaphore, ok_bind, happend, ok_bind]
  refine ⟨_, rfl, ⟨⟨hitems.lengthPos, hitems.sizePos, hitems.memory, hitems.absEnd,
    hitems.room, hitems.slots⟩, h.itemLength, rfl, ?_, ?_⟩, rfl⟩
  · show q.semPop + 1 = (items ++ [bytes]).length
    rw [h.semPop, List.length_append, List.length_singleton]
  · show k + (items ++ [bytes]).length = n
    rw [List.length_append, List.length_singleton]
    omega

/-- A forced push on a full queue. -/
theorem Represents.pushForced (h : q.Represents n items) (hfull : q.semPush = 0)
    (hbytes : bytes.length = q.itemSize) :
    ∃ q', q.pushForced bytes = .ok (.success, q') ∧
      q'.Represents n (items.dropLast ++ [bytes]) ∧ q'.itemSize = q.itemSize := by
  have hpush := h.semPush
  have hpos := h.lengthPos
  have hne : items ≠ [] := by
    intro hnil
    rw [hnil, List.length_nil] at hpush
    omega
  have hlength : (items.dropLast ++ [bytes]).length = items.length := by
    rw [List.length_append, List.length_dropLast, List.length_singleton]
    omega
  have hheld := h.toHolds.of_semaphores 0 q.semPop q.semPush
  obtain ⟨memory, hreplace, hitems⟩ := hheld.replaceItem hne hbytes
  unfold SimpleQueue.pushForced
  rw [h.lock, ok_bind, hreplace, ok_bind]
  refine ⟨_, rfl, ⟨⟨hitems.lengthPos, hitems.sizePos, hitems.memory, hitems.absEnd,
    hitems.room, hitems.slots⟩, h.itemLength, rfl, ?_, ?_⟩, rfl⟩
  · show q.semPop = (items.dropLast ++ [bytes]).length
    rw [h.semPop, hlength]
  · show q.semPush + (items.dropLast ++ [bytes]).length = n
    rw [hlength, hpush]

/-- `items` has room as long as there is a token. -/
theorem Represents.token (h : q.Represents n items) :
    (q.semPush = 0 ∧ ¬ items.length < n) ∨
      ∃ k, q.semPush = k + 1 ∧ items.length < n := by
  have hpush := h.semPush
  cases hk : q.semPush with
  | zero => exact .inl ⟨rfl, by omega⟩
  | succ k => exact .inr ⟨k, rfl, by omega⟩

/-- One call does to the queue what it does to the list. -/
theorem Represents.call (h : q.Represents n items) (c : QueueCall β)
    (hc : c.Sized q.itemSize) {answer : QueueAnswer β} {after : List (List β)}
    (hfifo : fifo n items c = some (answer, after)) :
    ∃ q', q.call c = .ok (answer, q') ∧ q'.Represents n after ∧
      q'.itemSize = q.itemSize := by
  cases c with
  | pushToBack bytes =>
    rcases h.token with ⟨_, hfull⟩ | ⟨k, hk, hroom⟩
    · rw [fifo, if_neg hfull] at hfifo
      cases hfifo
    · rw [fifo, if_pos hroom] at hfifo
      cases hfifo
      obtain ⟨q', hq', hrep⟩ := h.pushLocked hk hc
      refine ⟨q', ?_, hrep⟩
      rw [SimpleQueue.call, queuePush, if_neg (by decide), if_neg (by decide), hk]
      exact hq'
  | tryPushToBack bytes timeout =>
    have htimed : (0 : Int) ≤ timeout := Int.natCast_nonneg _
    rcases h.token with ⟨hk, hfull⟩ | ⟨k, hk, hroom⟩
    · rw [fifo, if_neg hfull] at hfifo
      cases hfifo
      refine ⟨q, ?_, h, rfl⟩
      rw [SimpleQueue.call, queuePush, if_neg (by decide), if_pos htimed, pushTimed, hk]
    · rw [fifo, if_pos hroom] at hfifo
      cases hfifo
      obtain ⟨q', hq', hrep⟩ := h.pushLocked hk hc
      refine ⟨q', ?_, hrep⟩
      rw [SimpleQueue.call, queuePush, if_neg (by decide), if_pos htimed, pushTimed, hk]
      exact hq'
  | overrideToBack bytes =>
    rcases h.token with ⟨hk, hfull⟩ | ⟨k, hk, hroom⟩
    · rw [fifo, if_neg hfull] at hfifo
      cases hfifo
      obtain ⟨q', hq', hrep⟩ := h.pushForced hk hc
      refine ⟨q', ?_, hrep⟩
      rw [SimpleQueue.call, queuePush, if_pos rfl, hk]
      exact hq'
    · rw [fifo, if_pos hroom] at hfifo
      cases hfifo
      obtain ⟨q', hq', hrep⟩ := h.pushLocked hk hc
      refine ⟨q', ?_, hrep⟩
      rw [SimpleQueue.call, queuePush, if_pos rfl, hk]
      dsimp only
      rw [if_neg (by decide)]
      exact hq'
  | receive timeout =>
    rw [SimpleQueue.call]
    cases items with
    | nil =>
      rw [h.queuePop_empty]
      rw [fifo] at hfifo
      split at hfifo
      · cases hfifo
        rename_i htimed
        exact ⟨q, if_pos htimed, h, rfl⟩
      · cases hfifo
    | cons item rest =>
      rw [fifo] at hfifo
      cases hfifo
      exact h.queuePop timeout
  | reset =>
    rw [fifo] at hfifo
    cases hfifo
    obtain ⟨q', hq', hrep⟩ := h.queueReset
    refine ⟨q', ?_, hrep⟩
    rw [SimpleQueue.call, hq']
    rfl

/-- Calls one after the other do. -/
theorem Represents.run (h : q.Represents n items) {calls : List (QueueCall β)}
    (hcalls : ∀ c ∈ calls, c.Sized q.itemSize) {answers : List (QueueAnswer β)}
    {after : List (List β)} (hfifo : fifoRun n items calls = some (answers, after)) :
    ∃ q', q.run calls = .ok (answers, q') ∧ q'.Represents n after := by
  induction calls generalizing q items answers with
  | nil =>
    cases hfifo
    exact ⟨q, rfl, h⟩
  | cons c rest ih =>
    obtain ⟨⟨answer, items'⟩, hc, hrest⟩ := Option.bind_eq_some_iff.mp hfifo
    obtain ⟨⟨answers', after'⟩, hrun, heq⟩ := Option.bind_eq_some_iff.mp hrest
    cases heq
    obtain ⟨q', hq', hrep, hsize⟩ := h.call c (hcalls c (List.mem_cons_self ..)) hc
    have hsized : ∀ c ∈ rest, c.Sized q'.itemSize := by
      intro c hc
      rw [hsize]
      exact hcalls c (List.mem_cons_of_mem _ hc)
    obtain ⟨t, ht, hafter⟩ := ih hrep hsized hrun
    refine ⟨t, ?_, hafter⟩
    rw [SimpleQueue.run, hq', ok_bind]
    dsimp only
    rw [ht]
    rfl

/-! ## A new queue -/

theorem intProduct_of_lt {a b : Nat} (h : a * b < 2 ^ 31) : intProduct a b = a * b := by
  unfold intProduct
  rw [Int.bmod_eq_of_le (by omega) (by omega)]
  rfl

/-- A new queue is the empty list. -/
theorem represents_queueCreate {garbage : Nat → β} {size : Nat}
    (hcreate : queueCreate garbage n size = some q) (hint : n * size < 2 ^ 31) :
    q.Represents n [] ∧ q.itemSize = size := by
  unfold queueCreate at hcreate
  split at hcreate
  · cases hcreate
  · rename_i hpos
    cases hcreate
    have hproduct : intProduct n size = size * n := by
      rw [intProduct_of_lt hint, Nat.mul_comm]
    generalize intProduct n size = total at hproduct ⊢
    refine ⟨⟨⟨by omega, ?_, ?_, ?_, Nat.zero_le _, ?_⟩, rfl, rfl, rfl, rfl⟩, rfl⟩
    · show 0 < size
      omega
    · show ((List.range total).map garbage).length = size * n
      rw [List.length_map, List.length_range, hproduct]
    · exact hproduct
    · exact ⟨0, 0, Nat.zero_le _, Nat.zero_le _, rfl, rfl, rfl, rfl⟩

/-- A queue whose buffer has a size that is an `int` is a FIFO list over every
run of calls that do not block. -/
theorem queue_refines_fifo (garbage : Nat → β) (n size : Nat)
    (hcreate : queueCreate garbage n size = some q) (hint : n * size < 2 ^ 31)
    (calls : List (QueueCall β)) (hcalls : ∀ c ∈ calls, c.Sized size)
    (answers : List (QueueAnswer β)) (after : List (List β))
    (hfifo : fifoRun n [] calls = some (answers, after)) :
    ∃ q', q.run calls = .ok (answers, q') ∧ after.length ≤ n ∧ q'.Aligned n ∧
      q'.queueItemsWaiting = after.length := by
  obtain ⟨hrep, hsize⟩ := represents_queueCreate hcreate hint
  have hsized : ∀ c ∈ calls, c.Sized q.itemSize := by
    rw [hsize]
    exact hcalls
  obtain ⟨q', hrun, hafter⟩ := hrep.run hsized hfifo
  exact ⟨q', hrun, hafter.toHolds.room, hafter.aligned, hafter.semPop⟩

/-- Two slots: a push, an override that appends and one that replaces, a push
that fails, and what is received. -/
theorem queue_refines_fifo_twoSlots :
    ∃ q : SimpleQueue UInt8, queueCreate (fun _ => 0) 2 1 = some q ∧
      ∃ q', q.run [.pushToBack [1], .overrideToBack [2], .overrideToBack [3],
          .tryPushToBack [4] 0, .receive (-1), .receive 0, .receive 0]
        = .ok ([.success, .success, .success, .failure, .item [1], .item [3],
            .failure], q') ∧
        ([] : List (List UInt8)).length ≤ 2 ∧ q'.Aligned 2 ∧
        q'.queueItemsWaiting = ([] : List (List UInt8)).length := by
  refine ⟨_, rfl, queue_refines_fifo (fun _ => 0) 2 1 rfl (by decide) _ ?_ _ _ rfl⟩
  intro c hc
  simp only [List.mem_cons, List.not_mem_nil, or_false] at hc
  rcases hc with rfl | rfl | rfl | rfl | rfl | rfl | rfl <;> trivial

/-- A buffer of 2 ^ 16 slots of 2 ^ 16 bytes has no byte: the first push writes
outside of it, where the list has room. -/
theorem queue_overflows :
    ∃ (q : SimpleQueue UInt8) (bytes : List UInt8),
      queueCreate (fun _ => 0) 65536 65536 = some q ∧ bytes.length = 65536 ∧
      q.run [.pushToBack bytes] = .error .outOfBounds ∧
      fifoRun 65536 [] [.pushToBack bytes] = some ([.success], [bytes]) :=
  ⟨_, List.replicate 65536 0, rfl, List.length_replicate, rfl, rfl⟩

end SimpleQueue

end Upcn.Platform
