import Mathlib.Data.List.Basic
import Upcn.Lib.Framing

/-!
# The receive task

`cla_contact_rx_task.c`, over a receiver of one of the CLAs: the loop of `chunk_read`, which
hands the content of the buffer to the receiver, and the turns of `cla_contact_rx_task`, which
reads into the buffer behind what is left there.

A call may consume nothing and leave a parser that does not go on: it is reset, and the same
bytes are handed over once more.

* `Progresses` is what is needed of the receiver, and `Progresses.receiveProgress` what
  follows: the loop ends, consumed bytes are not handed over again, and every read has a
  target in the buffer that is not empty.
-/

namespace Upcn.Framing

open Relation (ReflTransGen)

variable {α σ : Type}

/-! ## The loop -/

/-- A call: where the bytes that are handed over begin, and how many were consumed. -/
structure Call where
  stream : Nat
  parsed : Nat

/-- How the loop ends. -/
structure Consumed (σ : Type) where
  receiver : σ
  stream : Nat
  calls : List Call

/-- The call came before. -/
def Consumed.after (r : Consumed σ) (c : Call) : Consumed σ := { r with calls := c :: r.calls }

/-- The loop of `chunk_read` over the content of the buffer, with at most so many turns. -/
def Receiver.chunkLoop (R : Receiver α σ) (buffer : List α) : Nat → σ → Nat → Option (Consumed σ)
  | 0, _, _ => none
  | turns + 1, s, stream =>
    if stream < buffer.length then
      let (s, parsed) := R.forward s (buffer.drop stream)
      if R.good s = false then
        (R.chunkLoop buffer turns (R.reset s) (stream + parsed)).map (·.after ⟨stream, parsed⟩)
      else if (R.bulk s).isSome ∨ parsed = 0 then some ⟨s, stream + parsed, [⟨stream, parsed⟩]⟩
      else (R.chunkLoop buffer turns s (stream + parsed)).map (·.after ⟨stream, parsed⟩)
    else some ⟨s, stream, []⟩

/-! ## The task -/

/-- What a read is given to write to: a part of a buffer of this capacity. -/
structure Target where
  offset : Nat
  length : Nat
  capacity : Nat

/-- The target is not empty, and in the buffer. -/
def Target.Ok (t : Target) : Prop := 0 < t.length ∧ t.offset + t.length ≤ t.capacity

/-- The receiver with the content of the buffer. -/
structure Task (α σ : Type) where
  receiver : σ
  buffer : List α

/-- What `cla_contact_rx_task` does with the content of the buffer when `parsed` bytes are
consumed. -/
def Receiver.shift (R : Receiver α σ) (capacity : Nat) (s : σ) (buffer : List α) (parsed : Nat) :
    Task α σ :=
  if parsed = buffer.length then ⟨s, []⟩
  else if parsed ≠ 0 then ⟨s, buffer.drop parsed⟩
  else if buffer.length = capacity then ⟨R.reset s, []⟩
  else ⟨s, buffer⟩

/-- The reads of `bulk_read` for `n` bytes, from a position on, while there are bytes to read:
the targets, what was read, and whether no read failed. -/
inductive BulkReads (n : Nat) : Nat → List Target → List α → Bool → Prop where
  | done : BulkReads n n [] [] true
  | fail {pos : Nat} (hpos : n - pos ≠ 0) : BulkReads n pos [⟨pos, n - pos, n⟩] [] false
  | more {pos : Nat} {piece data : List α} {targets : List Target} {ok : Bool}
    (hpos : n - pos ≠ 0) (hpiece : piece.length ≤ n - pos)
    (h : BulkReads n (pos + piece.length) targets data ok) :
    BulkReads n pos (⟨pos, n - pos, n⟩ :: targets) (piece ++ data) ok

/-- A turn of the task with `chunk_read` or `bulk_read`, and the targets of its reads.  A read
gives no more than it has room for, or fails. -/
inductive Turn (R : Receiver α σ) (capacity : Nat) : Task α σ → List Target → Task α σ → Prop where
  | chunk {s : σ} {buffer piece : List α} {turns : Nat} {r : Consumed σ} (hbulk : R.bulk s = none)
    (hpiece : piece.length ≤ capacity - buffer.length)
    (hloop : R.chunkLoop (buffer ++ piece) turns s 0 = some r) :
    Turn R capacity ⟨s, buffer⟩ [⟨buffer.length, capacity - buffer.length, capacity⟩]
      (R.shift capacity r.receiver (buffer ++ piece) r.stream)
  | chunkFails {s : σ} {buffer : List α} (hbulk : R.bulk s = none) :
    Turn R capacity ⟨s, buffer⟩ [⟨buffer.length, capacity - buffer.length, capacity⟩]
      (R.shift capacity (R.reset s) buffer buffer.length)
  | bulkBuffered {s : σ} {buffer : List α} {n : Nat} (hbulk : R.bulk s = some n)
    (hn : n ≤ buffer.length) :
    Turn R capacity ⟨s, buffer⟩ []
      (R.shift capacity (R.settle (R.forwardBulk s (buffer.take n))) buffer n)
  | bulk {s : σ} {buffer data : List α} {n : Nat} {targets : List Target}
    (hbulk : R.bulk s = some n) (hn : buffer.length < n)
    (hreads : BulkReads n buffer.length targets data true) :
    Turn R capacity ⟨s, buffer⟩ targets
      (R.shift capacity (R.settle (R.forwardBulk s (buffer ++ data))) buffer buffer.length)
  | bulkFails {s : σ} {buffer data : List α} {n : Nat} {targets : List Target}
    (hbulk : R.bulk s = some n) (hn : buffer.length < n)
    (hreads : BulkReads n buffer.length targets data false) :
    Turn R capacity ⟨s, buffer⟩ targets (R.shift capacity (R.reset s) buffer buffer.length)

/-! ## Progress -/

/-- The calls come one after the other: none begins before the end of what an earlier one
consumed, and the loop ends behind all of them, within the buffer. -/
structure Consumed.Orderly (r : Consumed σ) (start length : Nat) : Prop where
  start_le : start ≤ r.stream
  le_length : r.stream ≤ length
  calls : ∀ c ∈ r.calls, start ≤ c.stream ∧ c.stream < length ∧ c.stream + c.parsed ≤ r.stream
  inOrder : r.calls.Pairwise fun c d => c.stream + c.parsed ≤ d.stream

/-- From any state of the receiver, the loop ends, and consumes the buffer from its start on;
what is not consumed stays, but for a full buffer of which nothing is consumed; and in every
run of the task there is room in the buffer, and every read has a target that is not empty and
in its buffer. -/
structure ReceiveProgress (R : Receiver α σ) (capacity : Nat) : Prop where
  ends : ∀ s buffer, ∃ turns r, R.chunkLoop buffer turns s 0 = some r
  orderly : ∀ s buffer turns r, R.chunkLoop buffer turns s 0 = some r →
    r.Orderly 0 buffer.length
  kept : ∀ s buffer parsed, parsed ≤ buffer.length → parsed ≠ 0 ∨ buffer.length ≠ capacity →
    (R.shift capacity s buffer parsed).buffer = buffer.drop parsed
  discarded : ∀ s buffer, buffer.length = capacity →
    (R.shift capacity s buffer 0).buffer = []
  room : ∀ s task, ReflTransGen (fun x y => ∃ targets, Turn R capacity x targets y) ⟨s, []⟩ task →
    task.buffer.length < capacity
  targets : ∀ s task targets task',
    ReflTransGen (fun x y => ∃ targets, Turn R capacity x targets y) ⟨s, []⟩ task →
    Turn R capacity task targets task' → ∀ t ∈ targets, t.Ok

/-- No more is consumed than is handed over, and behind a reset a call consumes a byte or
leaves a parser that goes on. -/
structure Progresses (R : Receiver α σ) : Prop where
  bounded : ∀ s buffer, buffer ≠ [] → (R.forward s buffer).2 ≤ buffer.length
  restarts : ∀ s buffer, buffer ≠ [] →
    R.good (R.forward (R.reset s) buffer).1 = false → 0 < (R.forward (R.reset s) buffer).2

namespace Progresses

variable {R : Receiver α σ} {capacity : Nat} {s : σ} {buffer : List α} {stream turns : Nat}
  {r : Consumed σ}

/-- A byte that is left is worth two turns, and a parser that was not reset one more. -/
theorem chunkLoop_ends (hR : Progresses R) (buffer : List α) (turns : Nat) (s : σ) (stream : Nat) :
    (2 * (buffer.length - stream) + 1 < turns → ∃ r, R.chunkLoop buffer turns s stream = some r) ∧
      (2 * (buffer.length - stream) < turns →
        ∃ r, R.chunkLoop buffer turns (R.reset s) stream = some r) := by
  induction turns generalizing s stream with
  | zero => exact ⟨fun h => absurd h (Nat.not_lt_zero _), fun h => absurd h (Nat.not_lt_zero _)⟩
  | succ turns ih =>
    -- A call that consumes a byte, or that is not the first one behind a reset.
    have hcall : ∀ s', (stream < buffer.length →
        (R.good (R.forward s' (buffer.drop stream)).1 = false →
          2 * (buffer.length - (stream + (R.forward s' (buffer.drop stream)).2)) < turns) ∧
        (0 < (R.forward s' (buffer.drop stream)).2 →
          2 * (buffer.length - (stream + (R.forward s' (buffer.drop stream)).2)) + 1 < turns)) →
        ∃ r, R.chunkLoop buffer (turns + 1) s' stream = some r := by
      intro s' hleft
      unfold Receiver.chunkLoop
      split
      · rename_i hstream
        obtain ⟨hreset, hgoes⟩ := hleft hstream
        dsimp only
        split
        · rename_i hbad
          obtain ⟨r, hr⟩ := (ih (R.forward s' (buffer.drop stream)).1 _).2 (hreset hbad)
          exact ⟨_, by rw [hr]; rfl⟩
        · split
          · exact ⟨_, rfl⟩
          · rename_i hstop
            obtain ⟨r, hr⟩ := (ih (R.forward s' (buffer.drop stream)).1 _).1
              (hgoes (Nat.pos_of_ne_zero fun hzero => hstop (.inr hzero)))
            exact ⟨_, by rw [hr]; rfl⟩
      · exact ⟨_, rfl⟩
    refine ⟨fun h => hcall s fun hstream => ⟨fun _ => by omega, fun _ => by omega⟩,
      fun h => hcall (R.reset s) fun hstream => ⟨fun hbad => ?_, fun _ => by omega⟩⟩
    have hne : buffer.drop stream ≠ [] := by simp [hstream]
    have hpos := hR.restarts s _ hne hbad
    omega

theorem chunkLoop_orderly (hR : Progresses R) (h : R.chunkLoop buffer turns s stream = some r)
    (hstream : stream ≤ buffer.length) : r.Orderly stream buffer.length := by
  induction turns generalizing s stream r with
  | zero => cases h
  | succ turns ih =>
    unfold Receiver.chunkLoop at h
    split at h
    · rename_i hlt
      dsimp only at h
      have hne : buffer.drop stream ≠ [] := by simp [hlt]
      have hbound := hR.bounded s _ hne
      rw [List.length_drop] at hbound
      have hle : stream + (R.forward s (buffer.drop stream)).2 ≤ buffer.length := by omega
      -- The call, and then those of the rest of the loop.
      have hafter : ∀ r' : Consumed σ,
          r'.Orderly (stream + (R.forward s (buffer.drop stream)).2) buffer.length →
          (Consumed.after r' ⟨stream, (R.forward s (buffer.drop stream)).2⟩).Orderly stream
            buffer.length := by
        rintro r' ⟨hstart, hlength, hcalls, horder⟩
        refine ⟨by simp only [Consumed.after]; omega, hlength, ?_, ?_⟩
        · intro c hc
          rcases List.mem_cons.mp hc with rfl | hc
          · exact ⟨Nat.le_refl _, hlt, hstart⟩
          · obtain ⟨hfrom, hto⟩ := hcalls c hc
            exact ⟨by omega, hto⟩
        · exact List.pairwise_cons.mpr ⟨fun c hc => (hcalls c hc).1, horder⟩
      split at h
      · obtain ⟨r', hr', rfl⟩ := Option.map_eq_some_iff.mp h
        exact hafter r' (ih hr' hle)
      · split at h
        · cases h
          exact hafter ⟨_, _, []⟩ ⟨Nat.le_refl _, hle, by simp, List.Pairwise.nil⟩
        · obtain ⟨r', hr', rfl⟩ := Option.map_eq_some_iff.mp h
          exact hafter r' (ih hr' hle)
    · cases h
      exact ⟨Nat.le_refl _, hstream, by simp, List.Pairwise.nil⟩

theorem kept {parsed : Nat} (s : σ) (h : parsed ≠ 0 ∨ buffer.length ≠ capacity) :
    (R.shift capacity s buffer parsed).buffer = buffer.drop parsed := by
  unfold Receiver.shift
  split
  · rename_i hall
    exact (List.drop_eq_nil_of_le (Nat.le_of_eq hall.symm)).symm
  · split
    · rfl
    · rename_i hnone
      rw [not_not.mp hnone, if_neg (h.resolve_left hnone)]
      rfl

theorem discarded (s : σ) (h : buffer.length = capacity) :
    (R.shift capacity s buffer 0).buffer = [] := by
  unfold Receiver.shift
  rw [if_neg (not_not_intro rfl), if_pos h]
  split <;> rfl

/-- There is room in the buffer behind every turn. -/
theorem length_shift (hcapacity : 0 < capacity) (s : σ) {parsed : Nat}
    (hbuffer : buffer.length ≤ capacity) :
    (R.shift capacity s buffer parsed).buffer.length < capacity := by
  unfold Receiver.shift
  split
  · exact hcapacity
  · rename_i hall
    split
    · rename_i hsome
      show (buffer.drop parsed).length < capacity
      rw [List.length_drop]
      omega
    · split
      · exact hcapacity
      · exact Nat.lt_of_le_of_ne hbuffer ‹_›

theorem room_turn (hcapacity : 0 < capacity) {x y : Task α σ} {targets : List Target}
    (h : Turn R capacity x targets y) (hx : x.buffer.length < capacity) :
    y.buffer.length < capacity := by
  cases h with
  | chunk hbulk hpiece hloop =>
    refine length_shift hcapacity _ ?_
    rw [List.length_append]
    have hroom := Nat.le_of_lt hx
    dsimp only at hroom
    omega
  | chunkFails hbulk => exact length_shift hcapacity _ (Nat.le_of_lt hx)
  | bulkBuffered hbulk hn => exact length_shift hcapacity _ (Nat.le_of_lt hx)
  | bulk hbulk hn hreads => exact length_shift hcapacity _ (Nat.le_of_lt hx)
  | bulkFails hbulk hn hreads => exact length_shift hcapacity _ (Nat.le_of_lt hx)

theorem ok_bulkReads {n pos : Nat} {targets : List Target} {data : List α} {ok : Bool}
    (h : BulkReads n pos targets data ok) : ∀ t ∈ targets, t.Ok := by
  have hfirst : ∀ {pos}, n - pos ≠ 0 → (⟨pos, n - pos, n⟩ : Target).Ok :=
    fun hpos => ⟨Nat.pos_of_ne_zero hpos, by dsimp only; omega⟩
  induction h with
  | done => exact fun t ht => absurd ht List.not_mem_nil
  | fail hpos => exact List.forall_mem_singleton.mpr (hfirst hpos)
  | more hpos hpiece _ ih => exact List.forall_mem_cons.mpr ⟨hfirst hpos, ih⟩

theorem ok_turn {x y : Task α σ} {targets : List Target} (h : Turn R capacity x targets y)
    (hx : x.buffer.length < capacity) : ∀ t ∈ targets, t.Ok := by
  cases h with
  | chunk hbulk hpiece hloop =>
    exact List.forall_mem_singleton.mpr ⟨Nat.sub_pos_of_lt hx, by dsimp only at hx ⊢; omega⟩
  | chunkFails hbulk =>
    exact List.forall_mem_singleton.mpr ⟨Nat.sub_pos_of_lt hx, by dsimp only at hx ⊢; omega⟩
  | bulkBuffered hbulk hn => exact fun t ht => absurd ht List.not_mem_nil
  | bulk hbulk hn hreads => exact ok_bulkReads hreads
  | bulkFails hbulk hn hreads => exact ok_bulkReads hreads

theorem room_run (hcapacity : 0 < capacity) {task : Task α σ}
    (hrun : ReflTransGen (fun x y => ∃ targets, Turn R capacity x targets y) ⟨s, []⟩ task) :
    task.buffer.length < capacity := by
  -- By induction on the turns.
  induction hrun with
  | refl => exact hcapacity
  | tail _ hstep ih =>
    obtain ⟨_, hstep⟩ := hstep
    exact room_turn hcapacity hstep ih

theorem receiveProgress (hR : Progresses R) (hcapacity : 0 < capacity) :
    ReceiveProgress R capacity where
  ends s buffer := ⟨_, (hR.chunkLoop_ends buffer _ s 0).1 (Nat.lt_succ_self _)⟩
  orderly _ _ _ _ h := hR.chunkLoop_orderly h (Nat.zero_le _)
  kept s _ _ _ := kept s
  discarded s _ := discarded s
  room _ _ := room_run hcapacity
  targets _ _ _ _ hrun hturn := ok_turn hturn (room_run hcapacity hrun)

end Progresses

end Upcn.Framing
