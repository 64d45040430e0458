import Upcn.Platform.SimpleQueue

/-!
# Concurrent pushes and pops

Any number of calls of `queuePush` and `queuePop` on one queue, interleaved at
the semaphore operations and at what stands between `sem_wait` and `sem_post`
of the queue's own semaphore.

* A `PendingCall` is a call and the `Phase` it is in.  A `Turn` starts a call or
  lets one do its next step.
* An item is a list of bytes that carry the number of the call that pushes them,
  so that two pushes of the same bytes stay apart.  The queue does not look at
  its bytes.
* `Shared` is the queue, and what has happened to it: the items that lie in it,
  the pushed ones, the returned ones and the replaced ones.

A forced push finds the queue full by `sem_trywait`, before it takes the lock.
Until it has the lock, the queue may have been emptied.  `Sound` excludes this
case, and `queue_nothing_lost` is about all runs without it.
-/

namespace Upcn.Platform

open Outcome Ring

/-- A byte of an item, with the number of the call that pushes the item. -/
abbrev Tagged := Nat × UInt8

/-- A call of `queuePush` or `queuePop`. -/
inductive Request where
  | push (item : List Tagged) (timeout : Int) (force : Bool)
  | pop (timeout : Int)

/-- What a call does next. -/
inductive Phase where
  /-- The wait for a token. -/
  | start
  /-- `sem_timedwait` of a forced push that got a token before. -/
  | retake
  | overwriteLock
  | overwriteBody
  | overwriteUnlock
  | appendLock
  | appendBody
  | appendPost
  | appendUnlock
  | popLock
  | popBody
  | popPost (bytes : List Tagged)
  | popUnlock (bytes : List Tagged)
  | done (answer : QueueAnswer Tagged)
  deriving DecidableEq

/-- A call that has been made. -/
structure PendingCall where
  request : Request
  phase : Phase

/-- The queue, and what has happened to it. -/
structure Shared where
  queue : SimpleQueue Tagged
  /-- The items that lie in the queue. -/
  content : List (List Tagged)
  /-- The items whose push has written them, in this order. -/
  pushed : List (List Tagged)
  /-- The items that pops have read, in this order. -/
  returned : List (List Tagged)
  /-- The items that a forced push has replaced, each with its successor. -/
  overwritten : List (List Tagged × List Tagged)

namespace Shared

/-- A push has written at the end. -/
def appended (s : Shared) (queue : SimpleQueue Tagged) (item : List Tagged) : Shared :=
  { s with
    queue := queue
    content := s.content ++ [item]
    pushed := s.pushed ++ [item] }

/-- A forced push has written over the newest item, or beside the items when
there is none. -/
def replaced (s : Shared) (queue : SimpleQueue Tagged) (item : List Tagged) : Shared :=
  match s.content.getLast? with
  | none => { s with queue := queue, pushed := s.pushed ++ [item] }
  | some newest =>
    { s with
      queue := queue
      content := s.content.dropLast ++ [item]
      pushed := s.pushed ++ [item]
      overwritten := s.overwritten ++ [(newest, item)] }

/-- A pop has read `bytes`. -/
def taken (s : Shared) (queue : SimpleQueue Tagged) (bytes : List Tagged) : Shared :=
  { s with
    queue := queue
    content := s.content.tail
    returned := s.returned ++ [bytes] }

/-- The first semaphore operation of a push. -/
def startPush (s : Shared) (timeout : Int) (force : Bool) :
    Except QueueFault (Shared × Phase) :=
  match s.queue.semPush with
  | 0 =>
    if force then .ok (s, .overwriteLock)
    else if 0 ≤ timeout then .ok (s, .done .failure)
    else .error .blocks
  | k + 1 =>
    .ok ({ s with queue := { s.queue with semPush := k } },
      if force ∧ 0 ≤ timeout then .retake else .appendLock)

/-- The first semaphore operation of a pop. -/
def startPop (s : Shared) (timeout : Int) : Except QueueFault (Shared × Phase) :=
  match s.queue.semPop with
  | 0 => if 0 ≤ timeout then .ok (s, .done .failure) else .error .blocks
  | k + 1 => .ok ({ s with queue := { s.queue with semPop := k } }, .popLock)

/-- `sem_wait` of the lock. -/
def wait (s : Shared) (next : Phase) : Except QueueFault (Shared × Phase) := do
  let queue ← s.queue.lock
  return ({ s with queue := queue }, next)

/-- `sem_post` of the lock, the last step of a call. -/
def finish (s : Shared) (answer : QueueAnswer Tagged) :
    Except QueueFault (Shared × Phase) :=
  .ok ({ s with queue := s.queue.unlock }, .done answer)

/-- The next step of a call.  One that is `done`, or that waits, has none. -/
def advance (s : Shared) (request : Request) :
    Phase → Except QueueFault (Shared × Phase)
  | .start =>
    match request with
    | .push _ timeout force => s.startPush timeout force
    | .pop timeout => s.startPop timeout
  | .retake =>
    match s.queue.semPush with
    | 0 => .ok (s, .done .failure)
    | k + 1 => .ok ({ s with queue := { s.queue with semPush := k } }, .appendLock)
  | .overwriteLock => s.wait .overwriteBody
  | .overwriteBody =>
    match request with
    | .push item _ _ => do
      let queue ← s.queue.replaceItem item
      return (s.replaced queue item, .overwriteUnlock)
    | .pop _ => .error .blocks
  | .overwriteUnlock => s.finish .success
  | .appendLock => s.wait .appendBody
  | .appendBody =>
    match request with
    | .push item _ _ => do
      let queue ← s.queue.appendItem item
      return (s.appended queue item, .appendPost)
    | .pop _ => .error .blocks
  | .appendPost =>
    .ok ({ s with queue := { s.queue with semPop := s.queue.semPop + 1 } },
      .appendUnlock)
  | .appendUnlock => s.finish .success
  | .popLock => s.wait .popBody
  | .popBody => do
    let (bytes, queue) ← s.queue.takeItem
    return (s.taken queue bytes, .popPost bytes)
  | .popPost bytes =>
    .ok ({ s with queue := { s.queue with semPush := s.queue.semPush + 1 } },
      .popUnlock bytes)
  | .popUnlock bytes => s.finish (.item bytes)
  | .done _ => .error .blocks

end Shared

/-- The queue and the calls that were made, in the order they were made. -/
structure System where
  shared : Shared
  calls : List PendingCall

/-- What happens next: a call is made, or a call does a step. -/
inductive Turn where
  | push (bytes : List UInt8) (timeout : Int) (force : Bool)
  | pop (timeout : Int)
  | advance (i : Nat)

namespace System

/-- A queue that nobody uses yet. -/
def start (queue : SimpleQueue Tagged) : System := ⟨⟨queue, [], [], [], []⟩, []⟩

/-- One turn. -/
def turn (s : System) : Turn → Except QueueFault System
  | .push bytes timeout force =>
    .ok { s with calls := s.calls ++
      [⟨.push (bytes.map (Prod.mk s.calls.length)) timeout force, .start⟩] }
  | .pop timeout => .ok { s with calls := s.calls ++ [⟨.pop timeout, .start⟩] }
  | .advance i =>
    match s.calls[i]? with
    | none => .error .blocks
    | some c => do
      let (shared, phase) ← s.shared.advance c.request c.phase
      return ⟨shared, s.calls.set i { c with phase := phase }⟩

/-- An item is of the size of the queue. -/
def Sized (s : System) : Turn → Prop
  | .push bytes _ _ => bytes.length = s.shared.queue.itemSize
  | .pop _ => True
  | .advance _ => True

/-- No forced push writes over the newest item of a queue without items. -/
def Sound (s : System) : Turn → Prop
  | .push _ _ _ => True
  | .pop _ => True
  | .advance i => (s.calls[i]?).map PendingCall.phase = some .overwriteBody →
    s.shared.content ≠ []

instance (s : System) (t : Turn) : Decidable (s.Sized t) :=
  match t with
  | .push _ _ _ => inferInstanceAs (Decidable (_ = _))
  | .pop _ => inferInstanceAs (Decidable True)
  | .advance _ => inferInstanceAs (Decidable True)

instance (s : System) (t : Turn) : Decidable (s.Sound t) :=
  match t with
  | .push _ _ _ => inferInstanceAs (Decidable True)
  | .pop _ => inferInstanceAs (Decidable True)
  | .advance _ => inferInstanceAs (Decidable (_ → _))

/-- Runs from a new queue, each turn of which has `ok`. -/
inductive Run (queue : SimpleQueue Tagged) (ok : System → Turn → Prop) :
    System → Prop where
  | start : Run queue ok (.start queue)
  | turn {s s' : System} {t : Turn} (run : Run queue ok s) (hsized : s.Sized t)
      (hok : ok s t) (hturn : s.turn t = .ok s') : Run queue ok s'

/-- The turns one after the other, as long as they are sized and have `ok`. -/
def turns (ok : System → Turn → Prop) [∀ s t, Decidable (ok s t)] (s : System) :
    List Turn → Option System
  | [] => some s
  | t :: rest =>
    if s.Sized t ∧ ok s t then
      match s.turn t with
      | .ok s' => turns ok s' rest
      | .error _ => none
    else none

theorem Run.turns {queue : SimpleQueue Tagged} {ok : System → Turn → Prop}
    [∀ s t, Decidable (ok s t)] {s s' : System} (run : Run queue ok s)
    {ts : List Turn} (h : s.turns ok ts = some s') : Run queue ok s' := by
  induction ts generalizing s with
  | nil =>
    cases h
    exact run
  | cons t rest ih =>
    unfold System.turns at h
    split at h
    · rename_i hboth
      split at h
      · rename_i hturn
        exact ih (.turn run hboth.1 hboth.2 hturn) h
      · cases h
    · cases h

end System

/-! ## Tokens -/

namespace Phase

/-- Tokens of `sem_push` that are on the way: taken for an item that is not yet
written, or not yet posted for an item that is gone. -/
def pushTokens : Phase → Nat
  | .retake | .appendLock | .appendBody | .popPost _ => 1
  | _ => 0

/-- Tokens of `sem_pop` that are on the way. -/
def popTokens : Phase → Nat
  | .popLock | .popBody | .appendPost => 1
  | _ => 0

/-- The call holds the lock. -/
def locks : Phase → Nat
  | .overwriteBody | .overwriteUnlock | .appendBody | .appendPost | .appendUnlock
  | .popBody | .popPost _ | .popUnlock _ => 1
  | _ => 0

/-- The item of the push is written. -/
def written : Phase → Bool
  | .overwriteUnlock | .appendPost | .appendUnlock | .done .success => true
  | _ => false

/-- What the pop has read. -/
def took : Phase → Option (List Tagged)
  | .popPost bytes | .popUnlock bytes | .done (.item bytes) => some bytes
  | _ => none

end Phase

/-- A number for each call, added up. -/
def total (f : Phase → Nat) (calls : List PendingCall) : Nat :=
  (calls.map fun c => f c.phase).sum

variable {f : Phase → Nat} {calls : List PendingCall} {c d : PendingCall} {i j : Nat}

theorem total_append (c : PendingCall) :
    total f (calls ++ [c]) = total f calls + f c.phase := by
  rw [total, List.map_append, List.sum_append]
  rfl

/-- A call that goes on changes its own number only. -/
theorem total_set (h : calls[i]? = some c) (d : PendingCall) :
    total f (calls.set i d) + f c.phase = total f calls + f d.phase := by
  induction calls generalizing i with
  | nil => cases h
  | cons e rest ih =>
    cases i with
    | zero =>
      cases h
      simp only [total, List.set_cons_zero, List.map_cons, List.sum_cons]
      omega
    | succ i =>
      have hrest := ih (i := i) (by simpa using h)
      simp only [total, List.set_cons_succ, List.map_cons, List.sum_cons] at hrest ⊢
      omega

theorem le_total (h : calls[i]? = some c) : f c.phase ≤ total f calls := by
  induction calls generalizing i with
  | nil => cases h
  | cons e rest ih =>
    simp only [total, List.map_cons, List.sum_cons] at ih ⊢
    cases i with
    | zero =>
      cases h
      omega
    | succ i =>
      have hrest := ih (i := i) (by simpa using h)
      omega

/-- What was read by the calls that have read something. -/
def readBy (calls : List PendingCall) : List (List Tagged) :=
  calls.filterMap fun c => c.phase.took

theorem readBy_set_of_took (h : calls[i]? = some c) (hd : d.phase.took = c.phase.took) :
    readBy (calls.set i d) = readBy calls := by
  induction calls generalizing i with
  | nil => rfl
  | cons e rest ih =>
    cases i with
    | zero =>
      cases h
      rw [List.set_cons_zero, readBy, readBy, List.filterMap_cons, List.filterMap_cons, hd]
    | succ i =>
      have hrest := ih (i := i) (by simpa using h)
      rw [List.set_cons_succ]
      unfold readBy at hrest ⊢
      rw [List.filterMap_cons, List.filterMap_cons, hrest]

theorem readBy_set_took (h : calls[i]? = some c) (hc : c.phase.took = none)
    {bytes : List Tagged} (hd : d.phase.took = some bytes) :
    (readBy (calls.set i d)).Perm (readBy calls ++ [bytes]) := by
  induction calls generalizing i with
  | nil => cases h
  | cons e rest ih =>
    cases i with
    | zero =>
      cases h
      rw [List.set_cons_zero, readBy, readBy, List.filterMap_cons, List.filterMap_cons,
        hd, hc]
      exact (List.perm_append_singleton ..).symm
    | succ i =>
      have hrest := ih (i := i) (by simpa using h)
      rw [List.set_cons_succ]
      unfold readBy at hrest ⊢
      rw [List.filterMap_cons, List.filterMap_cons]
      cases e.phase.took with
      | none => exact hrest
      | some x => exact hrest.cons x

/-- Two calls that have read the same item are one call, if no item is read
twice. -/
theorem readBy_unique (hnodup : (readBy calls).Nodup) {bytes : List Tagged}
    (hi : calls[i]? = some c) (hc : c.phase.took = some bytes)
    (hj : calls[j]? = some d) (hd : d.phase.took = some bytes) : i = j := by
  induction calls generalizing i j with
  | nil => cases hi
  | cons e rest ih =>
    have hmem : ∀ {k : Nat} {b : PendingCall}, rest[k]? = some b →
        b.phase.took = some bytes → bytes ∈ readBy rest := fun hk hb =>
      List.mem_filterMap.mpr ⟨_, List.mem_of_getElem? hk, hb⟩
    have hrest : (readBy rest).Nodup ∧ (e.phase.took = some bytes →
        bytes ∉ readBy rest) := by
      unfold readBy at hnodup ⊢
      rw [List.filterMap_cons] at hnodup
      cases he : e.phase.took with
      | none =>
        rw [he] at hnodup
        exact ⟨hnodup, fun h => by cases h⟩
      | some x =>
        rw [he] at hnodup
        obtain ⟨hx, hnodup⟩ := List.nodup_cons.mp hnodup
        refine ⟨hnodup, fun h => ?_⟩
        cases h
        exact hx
    cases i with
    | zero =>
      cases hi
      cases j with
      | zero => rfl
      | succ j => exact absurd (hmem (by simpa using hj) hd) (hrest.2 hc)
    | succ i =>
      cases j with
      | zero =>
        cases hj
        exact absurd (hmem (by simpa using hi) hc) (hrest.2 hd)
      | succ j =>
        have hij : i = j := ih hrest.1 (by simpa using hi) (by simpa using hj)
        rw [hij]

/-! ## The invariant -/

/-- The item that a push writes. -/
def Request.item : Request → Option (List Tagged)
  | .push item _ _ => some item
  | .pop _ => none

/-- The items of the calls are of the size of the queue and carry the numbers of
their calls. -/
def Labelled (size : Nat) (calls : List PendingCall) : Prop :=
  ∀ (i : Nat) (c : PendingCall) (item : List Tagged), calls[i]? = some c →
    c.request.item = some item → item.length = size ∧ ∀ b ∈ item, b.1 = i

/-- What has happened to the items is in order. -/
structure Recorded (s : Shared) : Prop where
  order : (s.returned ++ s.content).Sublist s.pushed
  nodup : s.pushed.Nodup
  accounted : ∀ x ∈ s.pushed, x ∈ s.content ∨ x ∈ s.returned ∨
    ∃ y, (x, y) ∈ s.overwritten
  later : ∀ x y, (x, y) ∈ s.overwritten → [x, y].Sublist s.pushed

/-- The semaphores agree with the items and with the calls on their way. -/
structure Counted (n : Nat) (s : System) : Prop where
  holds : s.shared.queue.Holds n s.shared.content
  free : s.shared.queue.semPush + s.shared.content.length
    + total Phase.pushTokens s.calls ≤ n
  items : s.shared.queue.semPop + total Phase.popTokens s.calls
    = s.shared.content.length
  mutex : s.shared.queue.semaphore + total Phase.locks s.calls = 1

/-- The calls agree with what has happened. -/
structure Answered (s : System) : Prop where
  labelled : Labelled s.shared.queue.itemSize s.calls
  written : ∀ (i : Nat) (c : PendingCall) (item : List Tagged),
    s.calls[i]? = some c → c.request.item = some item →
    (item ∈ s.shared.pushed ↔ c.phase.written = true)
  pushes : ∀ x ∈ s.shared.pushed, ∃ (i : Nat) (c : PendingCall),
    s.calls[i]? = some c ∧ c.request.item = some x
  read : (readBy s.calls).Perm s.shared.returned

/-- Nothing is lost so far. -/
structure Intact (n : Nat) (s : System) : Prop where
  recorded : Recorded s.shared
  counted : Counted n s
  answered : Answered s

/-! ## What happens to the items -/

variable {s : Shared} {item bytes : List Tagged} {rest : List (List Tagged)}
  {q : SimpleQueue Tagged}

theorem nodup_concat {xs : List (List Tagged)} (h : xs.Nodup) (hnew : item ∉ xs) :
    (xs ++ [item]).Nodup :=
  (List.perm_append_singleton ..).nodup_iff.mpr (List.nodup_cons.mpr ⟨hnew, h⟩)

theorem Recorded.queue (h : Recorded s) (queue : SimpleQueue Tagged) :
    Recorded { s with queue := queue } :=
  ⟨h.order, h.nodup, h.accounted, h.later⟩

theorem Recorded.appended (h : Recorded s) (hnew : item ∉ s.pushed) :
    Recorded (s.appended q item) where
  order := by
    show (s.returned ++ (s.content ++ [item])).Sublist (s.pushed ++ [item])
    rw [← List.append_assoc]
    exact h.order.append_right [item]
  nodup := nodup_concat h.nodup hnew
  accounted x hx := by
    rcases List.mem_append.mp hx with hold | hx
    · rcases h.accounted x hold with hc | hr
      · exact .inl (List.mem_append_left _ hc)
      · exact .inr hr
    · exact .inl (List.mem_append_right _ hx)
  later x y hxy := (h.later x y hxy).trans (List.sublist_append_left ..)

theorem Recorded.replaced (h : Recorded s) (hnew : item ∉ s.pushed)
    (hne : s.content ≠ []) : Recorded (s.replaced q item) := by
  obtain ⟨older, newest, hcontent⟩ : ∃ older newest, s.content = older ++ [newest] :=
    ⟨_, _, (List.dropLast_append_getLast hne).symm⟩
  have hlast : s.content.getLast? = some newest := by
    rw [hcontent, List.getLast?_concat]
  have holder : s.content.dropLast = older := by
    rw [hcontent, List.dropLast_concat]
  have horder := h.order
  rw [hcontent] at horder
  have hmem : newest ∈ s.pushed :=
    horder.subset (List.mem_append_right _ (List.mem_append_right _
      (List.mem_singleton_self _)))
  unfold Shared.replaced
  rw [hlast]
  refine ⟨?_, nodup_concat h.nodup hnew, ?_, ?_⟩
  · show (s.returned ++ (s.content.dropLast ++ [item])).Sublist (s.pushed ++ [item])
    rw [holder, ← List.append_assoc]
    refine List.Sublist.append_right (List.Sublist.trans ?_ horder) _
    exact List.Sublist.append_left (List.sublist_append_left ..) _
  · intro x hx
    show x ∈ s.content.dropLast ++ [item] ∨ x ∈ s.returned ∨
      ∃ y, (x, y) ∈ s.overwritten ++ [(newest, item)]
    rcases List.mem_append.mp hx with hold | hx
    · rcases h.accounted x hold with hc | hr | ⟨y, hy⟩
      · rw [hcontent] at hc
        rcases List.mem_append.mp hc with hc | hc
        · rw [holder]
          exact .inl (List.mem_append_left _ hc)
        · rw [List.mem_singleton.mp hc]
          exact .inr (.inr ⟨item, List.mem_append_right _ (List.mem_singleton_self _)⟩)
      · exact .inr (.inl hr)
      · exact .inr (.inr ⟨y, List.mem_append_left _ hy⟩)
    · exact .inl (List.mem_append_right _ hx)
  · intro x y hxy
    show [x, y].Sublist (s.pushed ++ [item])
    rcases List.mem_append.mp hxy with hold | hxy
    · exact (h.later x y hold).trans (List.sublist_append_left ..)
    · obtain ⟨rfl, rfl⟩ := Prod.mk.inj (List.mem_singleton.mp hxy)
      exact (List.singleton_sublist.mpr hmem).append_right [y]

theorem Recorded.taken (h : Recorded s) (hcontent : s.content = bytes :: rest) :
    Recorded (s.taken q bytes) where
  order := by
    have horder := h.order
    rw [hcontent] at horder
    show (s.returned ++ [bytes] ++ s.content.tail).Sublist s.pushed
    rw [hcontent, List.tail_cons, List.append_assoc]
    exact horder
  nodup := h.nodup
  accounted x hx := by
    show x ∈ s.content.tail ∨ x ∈ s.returned ++ [bytes] ∨ ∃ y, (x, y) ∈ s.overwritten
    rcases h.accounted x hx with hc | hr | ho
    · rw [hcontent] at hc
      rcases List.mem_cons.mp hc with rfl | hc
      · exact .inr (.inl (List.mem_append_right _ (List.mem_singleton_self _)))
      · rw [hcontent]
        exact .inl hc
    · exact .inr (.inl (List.mem_append_left _ hr))
    · exact .inr (.inr ho)
  later := h.later

/-! ## What happens to the calls -/

variable {w : System} {n : Nat} {shared : Shared} {phase : Phase}

/-- The call `i` goes on to `phase`. -/
def System.moved (w : System) (i : Nat) (c : PendingCall) (shared : Shared)
    (phase : Phase) : System :=
  ⟨shared, w.calls.set i { c with phase := phase }⟩

theorem getElem?_moved (hi : w.calls[i]? = some c) :
    (w.moved i c shared phase).calls[i]? = some { c with phase := phase } := by
  show (w.calls.set i { c with phase := phase })[i]? = _
  rw [List.getElem?_set_self' , hi]
  rfl

theorem getElem?_moved_of_ne (hij : j ≠ i) :
    (w.moved i c shared phase).calls[j]? = w.calls[j]? :=
  List.getElem?_set_ne (Ne.symm hij)

/-- Two calls that push the same item are one call. -/
theorem Labelled.unique {size : Nat} (h : Labelled size calls) (hsize : 0 < size)
    (hi : calls[i]? = some c) (hc : c.request.item = some item)
    (hj : calls[j]? = some d) (hd : d.request.item = some item) : i = j := by
  obtain ⟨hlength, hall⟩ := h i c item hi hc
  obtain ⟨_, hall'⟩ := h j d item hj hd
  obtain ⟨b, hb⟩ := List.exists_mem_of_length_pos (l := item) (by omega)
  rw [← hall b hb, hall' b hb]

theorem Labelled.moved {size : Nat} (h : Labelled size w.calls)
    (hi : w.calls[i]? = some c) : Labelled size (w.moved i c shared phase).calls := by
  intro j d item hj hd
  by_cases hij : j = i
  · subst hij
    rw [getElem?_moved hi] at hj
    cases hj
    exact h j c item hi hd
  · rw [getElem?_moved_of_ne hij] at hj
    exact h j d item hj hd

/-- A call that pushes an item is still there. -/
theorem Answered.pushes_moved (h : Answered w) (hi : w.calls[i]? = some c)
    (hx : item ∈ w.shared.pushed) : ∃ (j : Nat) (d : PendingCall),
      (w.moved i c shared phase).calls[j]? = some d ∧ d.request.item = some item := by
  obtain ⟨j, d, hj, hd⟩ := h.pushes item hx
  by_cases hij : j = i
  · subst hij
    rw [hi] at hj
    cases hj
    exact ⟨j, _, getElem?_moved hi, hd⟩
  · exact ⟨j, d, (getElem?_moved_of_ne hij).trans hj, hd⟩

/-- A call that does not write its item has written it as before. -/
theorem Answered.written_moved (h : Answered w) (hi : w.calls[i]? = some c)
    (hwritten : phase.written = c.phase.written)
    (hj : (w.moved i c shared phase).calls[j]? = some d)
    (hd : d.request.item = some item) :
    item ∈ w.shared.pushed ↔ d.phase.written = true := by
  by_cases hij : j = i
  · subst hij
    rw [getElem?_moved hi] at hj
    cases hj
    rw [h.written j c item hi hd]
    exact hwritten.symm ▸ Iff.rfl
  · rw [getElem?_moved_of_ne hij] at hj
    exact h.written j d item hj hd

theorem Answered.labelled_moved (h : Answered w) (hi : w.calls[i]? = some c)
    (hsize : shared.queue.itemSize = w.shared.queue.itemSize) :
    Labelled shared.queue.itemSize (w.moved i c shared phase).calls := by
  rw [hsize]
  exact h.labelled.moved hi

/-- Nothing is written, and the call has written its item as before. -/
theorem Answered.written_same (h : Answered w) (hi : w.calls[i]? = some c)
    (hpushed : shared.pushed = w.shared.pushed)
    (hwritten : phase.written = c.phase.written)
    (hj : (w.moved i c shared phase).calls[j]? = some d)
    (hd : d.request.item = some item) :
    item ∈ shared.pushed ↔ d.phase.written = true := by
  rw [hpushed]
  exact h.written_moved hi hwritten hj hd

/-- Nothing is read, and the call has read what it had read. -/
theorem Answered.read_same (h : Answered w) (hi : w.calls[i]? = some c)
    (hreturned : shared.returned = w.shared.returned)
    (htook : phase.took = c.phase.took) :
    (readBy (w.moved i c shared phase).calls).Perm shared.returned := by
  show (readBy (w.calls.set i { c with phase := phase })).Perm shared.returned
  rw [hreturned, readBy_set_of_took hi htook]
  exact h.read

/-- A step that writes and reads no item. -/
theorem Answered.quiet (h : Answered w) (hi : w.calls[i]? = some c)
    (hsize : shared.queue.itemSize = w.shared.queue.itemSize)
    (hpushed : shared.pushed = w.shared.pushed)
    (hreturned : shared.returned = w.shared.returned)
    (hwritten : phase.written = c.phase.written) (htook : phase.took = c.phase.took) :
    Answered (w.moved i c shared phase) where
  labelled := h.labelled_moved hi hsize
  written _ _ _ hj hd := h.written_same hi hpushed hwritten hj hd
  pushes _ hx := h.pushes_moved hi (hpushed ▸ hx)
  read := h.read_same hi hreturned htook

/-- A step that writes the item of its call. -/
theorem Answered.writes (h : Answered w) (hpos : 0 < w.shared.queue.itemSize)
    (hi : w.calls[i]? = some c) (hitem : c.request.item = some item)
    (hsize : shared.queue.itemSize = w.shared.queue.itemSize)
    (hpushed : shared.pushed = w.shared.pushed ++ [item])
    (hreturned : shared.returned = w.shared.returned)
    (hwritten : phase.written = true) (htook : phase.took = c.phase.took) :
    Answered (w.moved i c shared phase) where
  labelled := h.labelled_moved hi hsize
  written j d x hj hd := by
    show x ∈ shared.pushed ↔ _
    rw [hpushed, List.mem_append, List.mem_singleton]
    by_cases hij : j = i
    · subst hij
      rw [getElem?_moved hi] at hj
      cases hj
      obtain rfl : x = item := Option.some.inj (hd.symm.trans hitem)
      exact ⟨fun _ => hwritten, fun _ => .inr rfl⟩
    · rw [getElem?_moved_of_ne hij] at hj
      rw [h.written j d x hj hd]
      constructor
      · rintro (hold | rfl)
        · exact hold
        · exact absurd (h.labelled.unique hpos hj hd hi hitem) hij
      · exact .inl
  pushes x hx := by
    have hx : x ∈ shared.pushed := hx
    rw [hpushed, List.mem_append, List.mem_singleton] at hx
    rcases hx with hx | rfl
    · exact h.pushes_moved hi hx
    · exact ⟨i, _, getElem?_moved hi, hitem⟩
  read := h.read_same hi hreturned htook

/-- A step that reads an item. -/
theorem Answered.reads (h : Answered w) (hi : w.calls[i]? = some c)
    (hsize : shared.queue.itemSize = w.shared.queue.itemSize)
    (hpushed : shared.pushed = w.shared.pushed)
    (hreturned : shared.returned = w.shared.returned ++ [bytes])
    (hwritten : phase.written = c.phase.written) (hnone : c.phase.took = none)
    (htook : phase.took = some bytes) : Answered (w.moved i c shared phase) where
  labelled := h.labelled_moved hi hsize
  written _ _ _ hj hd := h.written_same hi hpushed hwritten hj hd
  pushes _ hx := h.pushes_moved hi (hpushed ▸ hx)
  read := by
    show (readBy (w.calls.set i { c with phase := phase })).Perm shared.returned
    rw [hreturned]
    have hperm := readBy_set_took (d := { c with phase := phase }) hi hnone htook
    exact hperm.trans (h.read.append_right _)

/-! ## One step -/

/-- A step on semaphores only: no token comes up from nowhere. -/
theorem Intact.quiet (h : Intact n w) (hi : w.calls[i]? = some c) {lock pop push : Nat}
    (hwritten : phase.written = c.phase.written) (htook : phase.took = c.phase.took)
    (hpush : push + phase.pushTokens ≤ w.shared.queue.semPush + c.phase.pushTokens)
    (hpop : pop + phase.popTokens = w.shared.queue.semPop + c.phase.popTokens)
    (hlock : lock + phase.locks = w.shared.queue.semaphore + c.phase.locks) :
    Intact n (w.moved i c { w.shared with queue :=
      { w.shared.queue with semaphore := lock, semPop := pop, semPush := push } }
      phase) := by
  have hfree := h.counted.free
  have hitems := h.counted.items
  have hmutex := h.counted.mutex
  have hpushes := total_set (f := Phase.pushTokens) hi { c with phase := phase }
  have hpops := total_set (f := Phase.popTokens) hi { c with phase := phase }
  have hlocks := total_set (f := Phase.locks) hi { c with phase := phase }
  refine ⟨h.recorded.queue _, ⟨h.counted.holds.of_semaphores _ _ _, ?_, ?_, ?_⟩,
    h.answered.quiet hi rfl rfl rfl hwritten htook⟩
  · show push + w.shared.content.length
      + total Phase.pushTokens (w.calls.set i { c with phase := phase }) ≤ n
    dsimp only at hpushes
    omega
  · show pop + total Phase.popTokens (w.calls.set i { c with phase := phase })
      = w.shared.content.length
    dsimp only at hpops
    omega
  · show lock + total Phase.locks (w.calls.set i { c with phase := phase }) = 1
    dsimp only at hlocks
    omega

/-- A step that does not touch the queue. -/
theorem Intact.stays (h : Intact n w) (hi : w.calls[i]? = some c)
    (hwritten : phase.written = c.phase.written) (htook : phase.took = c.phase.took)
    (hpush : phase.pushTokens ≤ c.phase.pushTokens)
    (hpop : phase.popTokens = c.phase.popTokens)
    (hlock : phase.locks = c.phase.locks) :
    Intact n (w.moved i c w.shared phase) :=
  h.quiet hi hwritten htook (Nat.add_le_add_left hpush _) (by rw [hpop]) (by rw [hlock])

/-- The lock is taken. -/
theorem Intact.wait (h : Intact n w) (hi : w.calls[i]? = some c)
    (hwritten : phase.written = c.phase.written) (htook : phase.took = c.phase.took)
    (hpush : phase.pushTokens = c.phase.pushTokens)
    (hpop : phase.popTokens = c.phase.popTokens)
    (hlock : phase.locks = c.phase.locks + 1) :
    Ends (· = .blocks) (w.shared.wait phase)
      fun r => Intact n (w.moved i c r.1 r.2) := by
  unfold Shared.wait SimpleQueue.lock
  cases hsem : w.shared.queue.semaphore with
  | zero => exact ends_error rfl
  | succ k =>
    have hleft : k + phase.locks = w.shared.queue.semaphore + c.phase.locks := by omega
    exact ends_ok (h.quiet hi hwritten htook
      (Nat.add_le_add_left (Nat.le_of_eq hpush) _) (by rw [hpop]) hleft)

/-- The lock is given back, and the call returns. -/
theorem Intact.finish (h : Intact n w) (hi : w.calls[i]? = some c)
    {answer : QueueAnswer Tagged}
    (hwritten : (Phase.done answer).written = c.phase.written)
    (htook : (Phase.done answer).took = c.phase.took)
    (hpush : c.phase.pushTokens = 0) (hpop : c.phase.popTokens = 0)
    (hlock : c.phase.locks = 1) :
    Ends (· = .blocks) (w.shared.finish answer)
      fun r => Intact n (w.moved i c r.1 r.2) := by
  refine ends_ok (h.quiet hi hwritten htook ?_ ?_ ?_)
  · rw [hpush]
    exact Nat.le_refl _
  · rw [hpop]
    rfl
  · rw [hlock]
    rfl

theorem Intact.startPush (h : Intact n w) (hi : w.calls[i]? = some c)
    (hphase : c.phase = .start) (timeout : Int) (force : Bool) :
    Ends (· = .blocks) (w.shared.startPush timeout force)
      fun r => Intact n (w.moved i c r.1 r.2) := by
  obtain ⟨request, phase⟩ := c
  obtain rfl : phase = .start := hphase
  unfold Shared.startPush
  cases hsem : w.shared.queue.semPush with
  | zero =>
    dsimp only
    split
    · exact ends_ok (h.stays hi rfl rfl (Nat.zero_le _) rfl rfl)
    · split
      · exact ends_ok (h.stays hi rfl rfl (Nat.zero_le _) rfl rfl)
      · exact ends_error rfl
  | succ k =>
    -- the token goes from the semaphore to the call
    have hpush : k + 1 ≤ w.shared.queue.semPush + 0 := Nat.le_of_eq hsem.symm
    dsimp only
    split
    · exact ends_ok (h.quiet hi rfl rfl hpush rfl rfl)
    · exact ends_ok (h.quiet hi rfl rfl hpush rfl rfl)

theorem Intact.startPop (h : Intact n w) (hi : w.calls[i]? = some c)
    (hphase : c.phase = .start) (timeout : Int) :
    Ends (· = .blocks) (w.shared.startPop timeout)
      fun r => Intact n (w.moved i c r.1 r.2) := by
  obtain ⟨request, phase⟩ := c
  obtain rfl : phase = .start := hphase
  unfold Shared.startPop
  cases hsem : w.shared.queue.semPop with
  | zero =>
    dsimp only
    split
    · exact ends_ok (h.stays hi rfl rfl (Nat.zero_le _) rfl rfl)
    · exact ends_error rfl
  | succ k =>
    have hpop : k + 1 = w.shared.queue.semPop + 0 := hsem.symm
    exact ends_ok (h.quiet hi rfl rfl (Nat.le_refl _) hpop rfl)

/-- An item that a call is about to write is new. -/
theorem Answered.not_pushed (h : Answered w) (hi : w.calls[i]? = some c)
    (hitem : c.request.item = some item) (hphase : c.phase.written = false) :
    item ∉ w.shared.pushed := by
  rw [h.written i c item hi hitem, hphase]
  decide

theorem Intact.appendBody (h : Intact n w) (hi : w.calls[i]? = some c)
    (hphase : c.phase = .appendBody) (hitem : c.request.item = some item) :
    Ends (· = .blocks) (w.shared.queue.appendItem item)
      fun q => Intact n (w.moved i c (w.shared.appended q item) .appendPost) := by
  have hfree := h.counted.free
  have hitems := h.counted.items
  have hmutex := h.counted.mutex
  have hpushes := total_set (f := Phase.pushTokens) hi { c with phase := .appendPost }
  have hpops := total_set (f := Phase.popTokens) hi { c with phase := .appendPost }
  have hlocks := total_set (f := Phase.locks) hi { c with phase := .appendPost }
  rw [hphase] at hpushes hpops hlocks
  simp only [Phase.pushTokens, Phase.popTokens, Phase.locks] at hpushes hpops hlocks
  have hbytes := (h.answered.labelled i c item hi hitem).1
  -- the token of the call is a free slot
  have hroom : w.shared.content.length < n := by
    have hle := le_total (f := Phase.pushTokens) hi
    rw [hphase] at hle
    simp only [Phase.pushTokens] at hle
    omega
  obtain ⟨memory, finish, happend, hholds⟩ := h.counted.holds.appendItem hroom hbytes
  rw [happend]
  have hnew := h.answered.not_pushed hi hitem (by rw [hphase]; rfl)
  refine ends_ok ⟨h.recorded.appended hnew, ⟨hholds, ?_, ?_, ?_⟩,
    h.answered.writes h.counted.holds.sizePos hi hitem rfl rfl rfl rfl
      (by rw [hphase]; rfl)⟩
  · show w.shared.queue.semPush + (w.shared.content ++ [item]).length
      + total Phase.pushTokens (w.calls.set i { c with phase := .appendPost }) ≤ n
    rw [List.length_append, List.length_singleton]
    omega
  · show w.shared.queue.semPop
      + total Phase.popTokens (w.calls.set i { c with phase := .appendPost })
      = (w.shared.content ++ [item]).length
    rw [List.length_append, List.length_singleton]
    omega
  · show w.shared.queue.semaphore
      + total Phase.locks (w.calls.set i { c with phase := .appendPost }) = 1
    omega

theorem Intact.overwriteBody (h : Intact n w) (hi : w.calls[i]? = some c)
    (hphase : c.phase = .overwriteBody) (hitem : c.request.item = some item)
    (hne : w.shared.content ≠ []) :
    Ends (· = .blocks) (w.shared.queue.replaceItem item)
      fun q => Intact n (w.moved i c (w.shared.replaced q item) .overwriteUnlock) := by
  have hfree := h.counted.free
  have hitems := h.counted.items
  have hmutex := h.counted.mutex
  have hpushes := total_set (f := Phase.pushTokens) hi
    { c with phase := .overwriteUnlock }
  have hpops := total_set (f := Phase.popTokens) hi { c with phase := .overwriteUnlock }
  have hlocks := total_set (f := Phase.locks) hi { c with phase := .overwriteUnlock }
  rw [hphase] at hpushes hpops hlocks
  simp only [Phase.pushTokens, Phase.popTokens, Phase.locks] at hpushes hpops hlocks
  have hbytes := (h.answered.labelled i c item hi hitem).1
  obtain ⟨memory, hreplace, hholds⟩ := h.counted.holds.replaceItem hne hbytes
  rw [hreplace]
  have hnew := h.answered.not_pushed hi hitem (by rw [hphase]; rfl)
  have hrecorded := h.recorded.replaced (q := { w.shared.queue with memory := memory })
    hnew hne
  have hlength : (w.shared.content.dropLast ++ [item]).length
      = w.shared.content.length := by
    have hpos := List.length_pos_iff.mpr hne
    rw [List.length_append, List.length_dropLast, List.length_singleton]
    omega
  obtain ⟨newest, hlast⟩ : ∃ newest, w.shared.content.getLast? = some newest :=
    ⟨_, List.getLast?_eq_some_getLast hne⟩
  unfold Shared.replaced at hrecorded ⊢
  rw [hlast] at hrecorded ⊢
  refine ends_ok ⟨hrecorded, ⟨hholds, ?_, ?_, ?_⟩,
    h.answered.writes h.counted.holds.sizePos hi hitem rfl rfl rfl rfl
      (by rw [hphase]; rfl)⟩
  · show w.shared.queue.semPush + (w.shared.content.dropLast ++ [item]).length
      + total Phase.pushTokens (w.calls.set i { c with phase := .overwriteUnlock }) ≤ n
    omega
  · show w.shared.queue.semPop
      + total Phase.popTokens (w.calls.set i { c with phase := .overwriteUnlock })
      = (w.shared.content.dropLast ++ [item]).length
    omega
  · show w.shared.queue.semaphore
      + total Phase.locks (w.calls.set i { c with phase := .overwriteUnlock }) = 1
    omega

theorem Intact.popBody (h : Intact n w) (hi : w.calls[i]? = some c)
    (hphase : c.phase = .popBody) :
    Ends (· = .blocks) w.shared.queue.takeItem
      fun r => Intact n (w.moved i c (w.shared.taken r.2 r.1) (.popPost r.1)) := by
  have hfree := h.counted.free
  have hitems := h.counted.items
  have hmutex := h.counted.mutex
  -- the token of the call is an item
  obtain ⟨bytes, rest, hcontent⟩ : ∃ bytes rest, w.shared.content = bytes :: rest := by
    have hle := le_total (f := Phase.popTokens) hi
    rw [hphase] at hle
    simp only [Phase.popTokens] at hle
    exact List.exists_cons_of_length_pos (by omega)
  have hheld := h.counted.holds
  rw [hcontent] at hheld
  obtain ⟨start, htake, hholds⟩ := hheld.takeItem
  rw [htake]
  have hpushes := total_set (f := Phase.pushTokens) hi { c with phase := .popPost bytes }
  have hpops := total_set (f := Phase.popTokens) hi { c with phase := .popPost bytes }
  have hlocks := total_set (f := Phase.locks) hi { c with phase := .popPost bytes }
  rw [hphase] at hpushes hpops hlocks
  simp only [Phase.pushTokens, Phase.popTokens, Phase.locks] at hpushes hpops hlocks
  rw [hcontent, List.length_cons] at hfree hitems
  refine ends_ok ⟨h.recorded.taken hcontent, ⟨?_, ?_, ?_, ?_⟩,
    h.answered.reads hi rfl rfl rfl (by rw [hphase]; rfl) (by rw [hphase]; rfl) rfl⟩
  · show SimpleQueue.Holds _ n w.shared.content.tail
    rw [hcontent]
    exact hholds
  · show w.shared.queue.semPush + w.shared.content.tail.length
      + total Phase.pushTokens (w.calls.set i { c with phase := .popPost bytes }) ≤ n
    rw [hcontent, List.tail_cons]
    omega
  · show w.shared.queue.semPop
      + total Phase.popTokens (w.calls.set i { c with phase := .popPost bytes })
      = w.shared.content.tail.length
    rw [hcontent, List.tail_cons]
    omega
  · show w.shared.queue.semaphore
      + total Phase.locks (w.calls.set i { c with phase := .popPost bytes }) = 1
    omega

/-- A step of a call keeps the invariant, and stays inside the buffer. -/
theorem Intact.advance (h : Intact n w) (hi : w.calls[i]? = some c)
    (hsound : c.phase = .overwriteBody → w.shared.content ≠ []) :
    Ends (· = .blocks) (w.shared.advance c.request c.phase)
      fun r => Intact n (w.moved i c r.1 r.2) := by
  obtain ⟨request, phase⟩ := c
  cases phase with
  | start =>
    cases request with
    | push item timeout force => exact h.startPush hi rfl timeout force
    | pop timeout => exact h.startPop hi rfl timeout
  | retake =>
    unfold Shared.advance
    cases hsem : w.shared.queue.semPush with
    | zero => exact ends_ok (h.stays hi rfl rfl (Nat.zero_le _) rfl rfl)
    | succ k =>
      have hpush : k + Phase.pushTokens .appendLock
          ≤ w.shared.queue.semPush + Phase.pushTokens .retake := by
        rw [hsem]
        exact Nat.add_le_add_right (Nat.le_succ k) _
      exact ends_ok (h.quiet hi rfl rfl hpush rfl rfl)
  | overwriteLock => exact h.wait hi rfl rfl rfl rfl rfl
  | overwriteBody =>
    cases request with
    | push item timeout force =>
      exact (h.overwriteBody hi rfl rfl (hsound rfl)).bind fun _ hq => hq
    | pop timeout => exact ends_error rfl
  | overwriteUnlock => exact h.finish hi rfl rfl rfl rfl rfl
  | appendLock => exact h.wait hi rfl rfl rfl rfl rfl
  | appendBody =>
    cases request with
    | push item timeout force =>
      exact (h.appendBody hi rfl rfl).bind fun _ hq => hq
    | pop timeout => exact ends_error rfl
  | appendPost => exact ends_ok (h.quiet hi rfl rfl (Nat.le_refl _) rfl rfl)
  | appendUnlock => exact h.finish hi rfl rfl rfl rfl rfl
  | popLock => exact h.wait hi rfl rfl rfl rfl rfl
  | popBody => exact (h.popBody hi rfl).bind fun _ hq => hq
  | popPost bytes =>
    exact ends_ok (h.quiet hi rfl rfl (Nat.le_refl (w.shared.queue.semPush + 1)) rfl rfl)
  | popUnlock bytes => exact h.finish hi rfl rfl rfl rfl rfl
  | done answer => exact ends_error rfl

/-! ## A new call -/

theorem getElem?_concat {d : PendingCall} (hj : (calls ++ [c])[j]? = some d) :
    calls[j]? = some d ∨ j = calls.length ∧ d = c := by
  rcases Nat.lt_trichotomy j calls.length with hlt | heq | hgt
  · rw [List.getElem?_append_left hlt] at hj
    exact .inl hj
  · rw [List.getElem?_append_right (by omega), heq, Nat.sub_self] at hj
    cases hj
    exact .inr ⟨heq, rfl⟩
  · rw [List.getElem?_eq_none (by
      rw [List.length_append, List.length_singleton]
      omega)] at hj
    cases hj

/-- A call is made.  Its item, if it has one, carries its number. -/
theorem Intact.made (h : Intact n w) (hphase : c.phase = .start)
    (hitem : ∀ item, c.request.item = some item →
      item.length = w.shared.queue.itemSize ∧ ∀ b ∈ item, b.1 = w.calls.length) :
    Intact n { w with calls := w.calls ++ [c] } := by
  have hcounted := h.counted
  have hlabelled : Labelled w.shared.queue.itemSize (w.calls ++ [c]) := by
    intro j d item hj hd
    rcases getElem?_concat hj with hold | ⟨rfl, rfl⟩
    · exact h.answered.labelled j d item hold hd
    · exact hitem item hd
  have hlast : (w.calls ++ [c])[w.calls.length]? = some c := List.getElem?_concat_length
  have hkept : ∀ (j : Nat) (d : PendingCall), w.calls[j]? = some d →
      (w.calls ++ [c])[j]? = some d := by
    intro j d hj
    obtain ⟨hlt, _⟩ := List.getElem?_eq_some_iff.mp hj
    rwa [List.getElem?_append_left hlt]
  refine ⟨h.recorded, ⟨hcounted.holds, ?_, ?_, ?_⟩, hlabelled, ?_, ?_, ?_⟩
  · rw [total_append, hphase]
    exact hcounted.free
  · rw [total_append, hphase]
    exact hcounted.items
  · rw [total_append, hphase]
    exact hcounted.mutex
  · intro j d item hj hd
    rcases getElem?_concat hj with hold | ⟨rfl, rfl⟩
    · exact h.answered.written j d item hold hd
    · rw [hphase]
      constructor
      · intro hmem
        obtain ⟨k, e, hk, he⟩ := h.answered.pushes item hmem
        have hsame := hlabelled.unique hcounted.holds.sizePos (hkept k e hk) he hlast hd
        obtain ⟨hlt, _⟩ := List.getElem?_eq_some_iff.mp hk
        omega
      · intro hfalse
        cases hfalse
  · intro x hx
    obtain ⟨j, d, hj, hd⟩ := h.answered.pushes x hx
    exact ⟨j, d, hkept j d hj, hd⟩
  · show (readBy (w.calls ++ [c])).Perm _
    rw [readBy, List.filterMap_append, List.filterMap_cons, hphase]
    simpa [Phase.took, readBy] using h.answered.read

/-! ## Runs -/

theorem Intact.turn (h : Intact n w) {t : Turn} (hsized : w.Sized t)
    (hsound : w.Sound t) : Ends (· = .blocks) (w.turn t) (Intact n) := by
  cases t with
  | push bytes timeout force =>
    refine ends_ok (h.made rfl fun item hitem => ?_)
    cases hitem
    refine ⟨(List.length_map _).trans hsized, fun b hb => ?_⟩
    obtain ⟨_, _, rfl⟩ := List.mem_map.mp hb
    rfl
  | pop timeout =>
    refine ends_ok (h.made rfl fun item hitem => ?_)
    cases hitem
  | advance i =>
    unfold System.turn
    dsimp only
    cases hi : w.calls[i]? with
    | none => exact ends_error rfl
    | some c =>
      have hstep := h.advance hi fun hphase => hsound (by rw [hi, ← hphase]; rfl)
      dsimp only
      refine hstep.bind fun r hr => ?_
      exact ends_ok hr

theorem intact_start {q : SimpleQueue Tagged} (h : q.Represents n []) :
    Intact n (.start q) where
  recorded := by
    refine ⟨List.nil_sublist _, List.nodup_nil, ?_, ?_⟩
    · intro x hx
      cases hx
    · intro x y hxy
      cases hxy
  counted := ⟨h.toHolds, Nat.le_of_eq h.semPush, h.semPop, h.semaphore⟩
  answered := by
    refine ⟨?_, ?_, ?_, List.Perm.refl _⟩
    · intro i c item hi
      cases hi
    · intro i c item hi
      cases hi
    · intro x hx
      cases hx

theorem Intact.run {q : SimpleQueue Tagged} (hq : q.Represents n [])
    (h : System.Run q System.Sound w) : Intact n w := by
  induction h with
  | start => exact intact_start hq
  | turn run hsized hok hturn ih => exact (ih.turn hsized hok).ok hturn

/-- The call `j` is a pop that has read `item`. -/
def System.ReturnedBy (s : System) (j : Nat) (item : List Tagged) : Prop :=
  ∃ c : PendingCall, s.calls[j]? = some c ∧ c.phase.took = some item

/-- `item` was replaced by a later forced push. -/
def System.Overwritten (s : System) (item : List Tagged) : Prop :=
  ∃ y, (item, y) ∈ s.shared.overwritten ∧ [item, y].Sublist s.shared.pushed ∧
    ∃ (k : Nat) (d : PendingCall), s.calls[k]? = some d ∧ d.request.item = some y ∧
      d.phase.written = true

/-- Every item of a push that returned success is in the queue, or one pop has
it, or it was replaced; no item is returned twice, and the order is kept. -/
structure NothingLost (n : Nat) (s : System) : Prop where
  queue : s.shared.queue.Holds n s.shared.content
  kept : ∀ (i : Nat) (c : PendingCall) (item : List Tagged), s.calls[i]? = some c →
    c.request.item = some item → c.phase = .done .success →
    item ∈ s.shared.content ∨
      (∃ j, s.ReturnedBy j item ∧ ∀ k, s.ReturnedBy k item → k = j) ∨
      s.Overwritten item
  once : ∀ (item : List Tagged) (j k : Nat), s.ReturnedBy j item →
    s.ReturnedBy k item → j = k
  order : (s.shared.returned ++ s.shared.content).Sublist s.shared.pushed
  returned : ∀ item, item ∈ s.shared.returned ↔ ∃ j, s.ReturnedBy j item
  inside : ∀ t, s.Sized t → s.Sound t → s.turn t ≠ .error .outOfBounds

theorem Intact.once (h : Intact n w) (item : List Tagged) (j k : Nat)
    (hj : w.ReturnedBy j item) (hk : w.ReturnedBy k item) : j = k := by
  obtain ⟨c, hc, hcook⟩ := hj
  obtain ⟨d, hd, hdook⟩ := hk
  have hnodup : w.shared.returned.Nodup :=
    (h.recorded.nodup.sublist h.recorded.order).sublist (List.sublist_append_left ..)
  exact readBy_unique (h.answered.read.nodup_iff.mpr hnodup) hc hcook hd hdook

theorem Intact.returned_iff (h : Intact n w) (item : List Tagged) :
    item ∈ w.shared.returned ↔ ∃ j, w.ReturnedBy j item := by
  rw [← h.answered.read.mem_iff, readBy, List.mem_filterMap]
  constructor
  · rintro ⟨c, hc, htook⟩
    obtain ⟨j, hj⟩ := List.getElem?_of_mem hc
    exact ⟨j, c, hj, htook⟩
  · rintro ⟨j, c, hj, htook⟩
    exact ⟨c, List.mem_of_getElem? hj, htook⟩

theorem Intact.overwritten (h : Intact n w) {y : List Tagged}
    (hy : (item, y) ∈ w.shared.overwritten) : w.Overwritten item := by
  have hlater := h.recorded.later item y hy
  have hpushed : y ∈ w.shared.pushed :=
    hlater.subset (List.mem_cons_of_mem _ (List.mem_singleton_self _))
  obtain ⟨k, d, hk, hd⟩ := h.answered.pushes y hpushed
  exact ⟨y, hy, hlater, k, d, hk, hd, (h.answered.written k d y hk hd).mp hpushed⟩

theorem Intact.nothingLost (h : Intact n w) : NothingLost n w where
  queue := h.counted.holds
  kept i c item hi hitem hdone := by
    have hpushed : item ∈ w.shared.pushed := by
      rw [h.answered.written i c item hi hitem, hdone]
      rfl
    rcases h.recorded.accounted item hpushed with hc | hr | ⟨y, hy⟩
    · exact .inl hc
    · obtain ⟨j, hj⟩ := (h.returned_iff item).mp hr
      exact .inr (.inl ⟨j, hj, fun k hk => h.once item k j hk hj⟩)
    · exact .inr (.inr (h.overwritten hy))
  once := h.once
  order := h.recorded.order
  returned := h.returned_iff
  inside t hsized hsound hfault := by
    cases (h.turn hsized hsound).error hfault

/-- In every run in which no forced push writes to a queue without items, nothing
is lost. -/
theorem queue_nothing_lost (garbage : Nat → Tagged) (n size : Nat)
    {q : SimpleQueue Tagged} (hcreate : queueCreate garbage n size = some q)
    (hint : n * size < 2 ^ 31) (s : System) (h : System.Run q System.Sound s) :
    NothingLost n s :=
  (Intact.run (SimpleQueue.represents_queueCreate hcreate hint).1 h).nothingLost

/-- A queue of one item: the second push replaces the first, and a pop gets its
item. -/
def replacingTurns : List Turn :=
  .push [65] 0 false :: List.replicate 5 (.advance 0) ++
    .push [66] (-1) true :: List.replicate 4 (.advance 1) ++
    .pop 0 :: List.replicate 5 (.advance 2)

theorem queue_nothing_lost_replacing : ∃ q s,
    queueCreate (fun _ => (0, 0)) 1 1 = some q ∧ System.Run q System.Sound s ∧
      s.shared.returned = [[(1, 66)]] ∧
      s.shared.overwritten = [([(0, 65)], [(1, 66)])] ∧ NothingLost 1 s := by
  obtain ⟨q, hq⟩ : ∃ q, queueCreate (fun _ => ((0, 0) : Tagged)) 1 1 = some q :=
    ⟨_, rfl⟩
  have hturns : ∃ s, (System.start q).turns System.Sound replacingTurns = some s ∧
      s.shared.returned = [[(1, 66)]] ∧
      s.shared.overwritten = [([(0, 65)], [(1, 66)])] := by
    cases hq
    exact ⟨_, rfl, rfl, rfl⟩
  obtain ⟨s, hs, hreturned, hoverwritten⟩ := hturns
  have hrun : System.Run q System.Sound s := System.Run.start.turns hs
  exact ⟨q, s, hq, hrun, hreturned, hoverwritten,
    queue_nothing_lost _ 1 1 hq (by decide) s hrun⟩

/-- The pop comes between the `sem_trywait` of the second push and its lock. -/
def losingTurns : List Turn :=
  .push [65] 0 false :: List.replicate 5 (.advance 0) ++
    .push [66] (-1) true :: .advance 1 ::
    .pop 0 :: List.replicate 5 (.advance 2) ++ List.replicate 3 (.advance 1)

/-- The second push returns success, and its item is nowhere: the queue is empty,
the only pop has the first item, and nothing was replaced. -/
theorem forced_push_lost : ∃ q s,
    queueCreate (fun _ => (0, 0)) 1 1 = some q ∧
      System.Run q (fun _ _ => True) s ∧
      (∃ c, s.calls[1]? = some c ∧ c.request = .push [(1, 66)] (-1) true ∧
        c.phase = .done .success) ∧
      s.shared.queue.semPop = 0 ∧ s.shared.queue.semPush = 1 ∧
      s.shared.returned = [[(0, 65)]] ∧ s.shared.overwritten = [] ∧
      ¬ NothingLost 1 s := by
  obtain ⟨q, hq⟩ : ∃ q, queueCreate (fun _ => ((0, 0) : Tagged)) 1 1 = some q :=
    ⟨_, rfl⟩
  have hturns : ∃ s, (System.start q).turns (fun _ _ => True) losingTurns = some s ∧
      (∃ c, s.calls[1]? = some c ∧ c.request = .push [(1, 66)] (-1) true ∧
        c.phase = .done .success) ∧
      s.shared.queue.semPop = 0 ∧ s.shared.queue.semPush = 1 ∧
      s.shared.content = [] ∧ s.shared.returned = [[(0, 65)]] ∧
      s.shared.overwritten = [] := by
    cases hq
    exact ⟨_, rfl, ⟨_, rfl, rfl, rfl⟩, rfl, rfl, rfl, rfl, rfl⟩
  obtain ⟨s, hs, ⟨c, hc, hrequest, hdone⟩, hpop, hpush, hcontent, hreturned,
    hoverwritten⟩ := hturns
  refine ⟨q, s, hq, System.Run.start.turns hs, ⟨c, hc, hrequest, hdone⟩, hpop, hpush,
    hreturned, hoverwritten, fun h => ?_⟩
  rcases h.kept 1 c [(1, 66)] hc (by rw [hrequest]; rfl) hdone with hin | hby | hover
  · rw [hcontent] at hin
    cases hin
  · obtain ⟨j, hj, -⟩ := hby
    have hmem := (h.returned [(1, 66)]).mpr ⟨j, hj⟩
    rw [hreturned] at hmem
    exact absurd hmem (by decide)
  · obtain ⟨y, hy, -⟩ := hover
    rw [hoverwritten] at hy
    cases hy

end Upcn.Platform
