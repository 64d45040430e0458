import Upcn.Cla.RxTask

/-!
# Streams that are delivered

The turns of the receive task over a stream.  `Reads` is a turn that takes its bytes from the
stream, in any pieces that the buffer has room for, and a bulk as it is requested.

* `Follows` is what is needed of the receiver: it stands somewhere in the stream, and every call
  and every bulk leaves it standing further on.
* `Follows.delivers` is what follows for the runs of the task: what is delivered is always the
  beginning of what the stream holds, every run comes to an end, and it ends only when all of it
  is delivered.
-/

namespace Upcn.Framing

open Relation (ReflTransGen)

variable {α β σ : Type}

/-! ## The task over a stream -/

/-- A turn of the task, and what it leaves of the stream.  No read fails. -/
inductive Reads (R : Receiver α σ) (capacity : Nat) :
    Task α σ × List α → Task α σ × List α → Prop where
  | chunk {s : σ} {buffer piece rest : List α} {turns : Nat} {r : Consumed σ}
    (hbulk : R.bulk s = none) (hpiece : piece ≠ [])
    (hroom : piece.length ≤ capacity - buffer.length)
    (hloop : R.chunkLoop (buffer ++ piece) turns s 0 = some r) :
    Reads R capacity (⟨s, buffer⟩, piece ++ rest)
      (R.shift capacity r.receiver (buffer ++ piece) r.stream, rest)
  | bulkBuffered {s : σ} {buffer rest : List α} {n : Nat} (hbulk : R.bulk s = some n)
    (hn : n ≤ buffer.length) :
    Reads R capacity (⟨s, buffer⟩, rest)
      (R.shift capacity (R.settle (R.forwardBulk s (buffer.take n))) buffer n, rest)
  | bulk {s : σ} {buffer data rest : List α} {n : Nat} (hbulk : R.bulk s = some n)
    (hn : buffer.length < n) (hdata : buffer.length + data.length = n) :
    Reads R capacity (⟨s, buffer⟩, data ++ rest)
      (R.shift capacity (R.settle (R.forwardBulk s (buffer ++ data))) buffer buffer.length, rest)

/-- Such a turn is a turn of the task. -/
theorem Reads.turn {R : Receiver α σ} {capacity : Nat} {x y : Task α σ × List α}
    (h : Reads R capacity x y) : ∃ targets, Turn R capacity x.1 targets y.1 := by
  cases h with
  | chunk hbulk hpiece hroom hloop => exact ⟨_, .chunk hbulk hroom hloop⟩
  | bulkBuffered hbulk hn => exact ⟨_, .bulkBuffered hbulk hn⟩
  | @bulk s buffer data rest n hbulk hn hdata =>
    have hreads : BulkReads n buffer.length [⟨buffer.length, n - buffer.length, n⟩]
        (data ++ []) true := by
      refine .more (by omega) (by omega) ?_
      rw [hdata]
      exact .done
    rw [List.append_nil] at hreads
    exact ⟨_, .bulk hbulk hn hreads⟩

/-- `At s unread out`: the receiver stands in a stream before `unread`, from which `out` is still
to be delivered.  A call with any piece of the stream takes the receiver on, and so does a bulk.
Behind a call, the buffer does not reach beyond the bulk that is requested; and a call that
consumes nothing waits for more of the stream, for which the buffer has room. -/
structure Follows (R : Receiver α σ) (capacity : Nat) (delivered : σ → List β)
    (At : σ → List α → List β → Prop) : Prop where
  consumed : ∀ {s unread out}, At s unread out → R.bulk s = none →
    ∀ piece rest, piece ≠ [] → piece ++ rest = unread → (R.forward s piece).2 ≤ piece.length
  call : ∀ {s unread out}, At s unread out → R.bulk s = none →
    ∀ piece rest, piece ≠ [] → piece ++ rest = unread →
      ∃ later, delivered s ++ out = delivered (R.settle (R.forward s piece).1) ++ later ∧
        At (R.settle (R.forward s piece).1) (unread.drop (R.forward s piece).2) later
  pending : ∀ {s unread out}, At s unread out → R.bulk s = none →
    ∀ piece rest n, piece ≠ [] → piece ++ rest = unread →
      R.bulk (R.settle (R.forward s piece).1) = some n → piece.length ≤ (R.forward s piece).2 + n
  waits : ∀ {s unread out}, At s unread out → R.bulk s = none →
    ∀ piece rest, piece ≠ [] → piece ++ rest = unread → (R.forward s piece).2 = 0 →
      R.good (R.forward s piece).1 = true → piece.length < capacity ∧ rest ≠ []
  bulk : ∀ {s unread out n}, At s unread out → R.bulk s = some n →
    n ≤ unread.length ∧ R.bulk (R.settle (R.forwardBulk s (unread.take n))) = none ∧
      ∃ later, delivered s ++ out =
          delivered (R.settle (R.forwardBulk s (unread.take n))) ++ later ∧
        At (R.settle (R.forwardBulk s (unread.take n))) (unread.drop n) later
  reset : ∀ s, R.bulk (R.reset s) = none
  finished : ∀ {s out}, At s [] out → R.bulk s = none → out = []

/-- What a run may still do: a byte is worth two turns, and a bulk that is requested is one. -/
def turnsLeft (R : Receiver α σ) (x : Task α σ × List α) : Nat :=
  2 * x.2.length + if (R.bulk x.1.receiver).isSome then 1 else 0

/-- What is delivered from a stream.  Every run comes to an end, since each turn leaves less to do
(`ends`), and where it cannot go on, everything is read and delivered (`goesOn`). -/
structure Delivers (R : Receiver α σ) (capacity : Nat) (delivered : σ → List β) (s : σ)
    (stream : List α) (out : List β) : Prop where
  inOrder : ∀ x, ReflTransGen (Reads R capacity) (⟨s, []⟩, stream) x →
    delivered x.1.receiver <+: out
  goesOn : ∀ x, ReflTransGen (Reads R capacity) (⟨s, []⟩, stream) x →
    (∃ y, Reads R capacity x y) ∨
      x.2 = [] ∧ x.1.buffer = [] ∧ delivered x.1.receiver = out
  ends : ∀ x y, ReflTransGen (Reads R capacity) (⟨s, []⟩, stream) x → Reads R capacity x y →
    turnsLeft R y < turnsLeft R x

namespace Follows

variable {R : Receiver α σ} {capacity : Nat} {delivered : σ → List β}
  {At : σ → List α → List β → Prop} {s : σ} {buffer rest : List α} {out : List β}

/-! ## The loop -/

theorem settle_of_good (h : R.good s = true) : R.settle s = s := by
  rw [Receiver.settle, h, if_pos rfl]

theorem settle_of_bad (h : R.good s = false) : R.settle s = R.reset s := by
  rw [Receiver.settle, h, if_neg Bool.false_ne_true]

/-- Where the loop of `chunk_read` leaves the receiver. -/
structure Left (R : Receiver α σ) (capacity : Nat) (delivered : σ → List β)
    (At : σ → List α → List β → Prop) (total : List β) (buffer rest : List α) (stream : Nat)
    (r : Consumed σ) : Prop where
  stands : ∃ later, total = delivered r.receiver ++ later ∧
    At r.receiver (buffer.drop r.stream ++ rest) later
  bounds : stream ≤ r.stream ∧ r.stream ≤ buffer.length
  pending : ∀ n, R.bulk r.receiver = some n → buffer.length ≤ r.stream + n
  drained : R.bulk r.receiver = none → r.stream = buffer.length ∨ rest ≠ []
  room : r.stream = stream → stream = buffer.length ∨ buffer.length - stream < capacity

theorem chunkLoop (hF : Follows R capacity delivered At) {turns stream : Nat} {r : Consumed σ}
    (hloop : R.chunkLoop buffer turns s stream = some r) (hbulk : R.bulk s = none)
    (hstream : stream ≤ buffer.length) (hat : At s (buffer.drop stream ++ rest) out) :
    Left R capacity delivered At (delivered s ++ out) buffer rest stream r := by
  induction turns generalizing s stream out r with
  | zero => cases hloop
  | succ turns ih =>
    unfold Receiver.chunkLoop at hloop
    split at hloop
    swap
    · -- the buffer is at its end
      have hend : stream = buffer.length := by omega
      cases hloop
      exact ⟨⟨out, rfl, hat⟩, ⟨Nat.le_refl _, hstream⟩, fun n _ => by dsimp only; omega,
        fun _ => .inl hend, fun _ => .inl hend⟩
    rename_i hlt
    have hpiece : buffer.drop stream ≠ [] := by simp [hlt]
    have hlength : (buffer.drop stream).length = buffer.length - stream := List.length_drop
    have hconsumed := hF.consumed hat hbulk _ rest hpiece rfl
    have hcall := hF.call hat hbulk _ rest hpiece rfl
    have hpending := fun n => hF.pending hat hbulk _ rest n hpiece rfl
    have hwaits := hF.waits hat hbulk _ rest hpiece rfl
    rcases hresult : R.forward s (buffer.drop stream) with ⟨s', n⟩
    rw [hresult] at hloop hconsumed hcall hwaits
    simp only [hresult] at hpending
    dsimp only at hloop hconsumed hcall hwaits
    obtain ⟨later, hdelivered, hat'⟩ := hcall
    have hdrop : (buffer.drop stream ++ rest).drop n = buffer.drop (stream + n) ++ rest := by
      rw [List.drop_append_of_le_length hconsumed, List.drop_drop]
    rw [hdrop] at hat'
    -- the rest of the loop, from the next call on
    have hnext : ∀ {r'}, R.chunkLoop buffer turns (R.settle s') (stream + n) = some r' →
        R.bulk (R.settle s') = none →
        (r'.stream = stream → stream = buffer.length ∨ buffer.length - stream < capacity) →
        Left R capacity delivered At (delivered s ++ out) buffer rest stream
          (r'.after ⟨stream, n⟩) := by
      intro r' hr' hnone hroom
      obtain ⟨hstands, ⟨hle, hle'⟩, hp, hd, -⟩ := ih hr' hnone (by omega) hat'
      rw [hdelivered]
      exact ⟨hstands, ⟨by show stream ≤ r'.stream; omega, hle'⟩, hp, hd, hroom⟩
    split at hloop
    · rename_i hbad
      obtain ⟨r', hr', rfl⟩ := Option.map_eq_some_iff.mp hloop
      rw [← settle_of_bad hbad] at hr'
      have hnone : R.bulk (R.settle s') = none := by
        rw [settle_of_bad hbad]
        exact hF.reset s'
      obtain ⟨-, ⟨hle, -⟩, -, -, hroom⟩ := ih hr' hnone (by omega) hat'
      refine hnext hr' hnone fun hsame => ?_
      obtain rfl : n = 0 := by omega
      exact hroom (by omega)
    · rename_i hgood
      have hsettle : R.settle s' = s' := settle_of_good (by simpa using hgood)
      have hgood' : R.good s' = true := by simpa using hgood
      rw [hsettle] at hpending hdelivered hat'
      split at hloop
      · rename_i hstop
        cases hloop
        refine ⟨⟨later, hdelivered, hat'⟩, ⟨Nat.le_add_right _ _, by dsimp only; omega⟩,
          fun k hk => ?_, fun hnone => ?_, fun hsame => ?_⟩
        · have hle := hpending k hk
          dsimp only
          omega
        · rcases hstop with hsome | hzero
          · dsimp only at hnone
            rw [hnone] at hsome
            cases hsome
          · exact .inr (hwaits hzero hgood').2
        · have hzero : n = 0 := by
            dsimp only at hsame
            omega
          exact .inr (hlength ▸ (hwaits hzero hgood').1)
      · rename_i hgoes
        obtain ⟨hnone, hne⟩ : R.bulk s' = none ∧ n ≠ 0 := by
          simpa [not_or] using hgoes
        obtain ⟨r', hr', rfl⟩ := Option.map_eq_some_iff.mp hloop
        rw [← hsettle] at hr' hnone
        obtain ⟨-, ⟨hle, -⟩, -⟩ := ih hr' hnone (by omega) (by rwa [hsettle])
        exact hnext hr' hnone fun hsame => by omega

/-! ## The turns -/

/-- What holds between the turns. -/
structure Between (R : Receiver α σ) (capacity : Nat) (delivered : σ → List β)
    (At : σ → List α → List β → Prop) (total : List β) (x : Task α σ × List α) : Prop where
  stands : ∃ later, total = delivered x.1.receiver ++ later ∧
    At x.1.receiver (x.1.buffer ++ x.2) later
  pending : ∀ n, R.bulk x.1.receiver = some n → x.1.buffer.length ≤ n
  room : x.1.buffer.length < capacity
  drained : x.2 = [] → R.bulk x.1.receiver = none → x.1.buffer = []

theorem shift_eq (R : Receiver α σ) (s : σ) (parsed : Nat)
    (h : parsed = 0 → buffer.length = 0 ∨ buffer.length < capacity) :
    R.shift capacity s buffer parsed = ⟨s, buffer.drop parsed⟩ := by
  unfold Receiver.shift
  split
  · rename_i hall
    rw [hall, List.drop_length]
  · split
    · rfl
    · rename_i hall hzero
      have hzero' : parsed = 0 := by omega
      have hroom := h hzero'
      rw [if_neg (by omega), hzero']
      rfl

variable {total : List β} {x y : Task α σ × List α}

/-- A bulk is the next part of the stream, and behind it the buffer is empty. -/
theorem between_bulk (hF : Follows R capacity delivered At) {data : List α} {n : Nat}
    (hx : Between R capacity delivered At total (⟨s, buffer⟩, data ++ rest))
    (hbulk : R.bulk s = some n) (hn : (buffer ++ data).length = n) :
    Between R capacity delivered At total
      (⟨R.settle (R.forwardBulk s (buffer ++ data)), []⟩, rest) ∧
      R.bulk (R.settle (R.forwardBulk s (buffer ++ data))) = none := by
  obtain ⟨⟨later, htotal, hat⟩, -, hroom, -⟩ := hx
  obtain ⟨-, hnone, later', hdelivered, hat'⟩ := hF.bulk hat hbulk
  have hsplit : buffer ++ (data ++ rest) = (buffer ++ data) ++ rest :=
    (List.append_assoc ..).symm
  dsimp only at hat hat' hnone hdelivered htotal
  rw [hsplit, ← hn, List.take_left, List.drop_left] at hat'
  rw [hsplit, ← hn, List.take_left] at hnone hdelivered
  refine ⟨⟨⟨later', htotal.trans hdelivered, hat'⟩, fun k hk => ?_, ?_, fun _ _ => rfl⟩, hnone⟩
  · exact Nat.zero_le _
  · exact Nat.lt_of_le_of_lt (Nat.zero_le _) hroom

/-- What a turn leaves: the receiver still stands in the stream, and there is less to do. -/
theorem between_reads (hF : Follows R capacity delivered At) (h : Reads R capacity x y)
    (hx : Between R capacity delivered At total x) :
    Between R capacity delivered At total y ∧ turnsLeft R y < turnsLeft R x := by
  cases h with
  | @chunk s buffer piece rest turns r hbulk hpiece hroom hloop =>
    obtain ⟨⟨later, htotal, hat⟩, -, hbuffer, -⟩ := hx
    dsimp only at hat htotal hbuffer
    rw [← List.append_assoc] at hat
    have hleft := hF.chunkLoop hloop hbulk (Nat.zero_le _)
      (show At s ((buffer ++ piece).drop 0 ++ rest) later from hat)
    obtain ⟨hstands, ⟨-, hle⟩, hpending, hdrained, hshort⟩ := hleft
    have hpos := List.length_pos_iff.mpr hpiece
    have hfits : (buffer ++ piece).length ≤ capacity := by
      rw [List.length_append]
      omega
    have hshift : R.shift capacity r.receiver (buffer ++ piece) r.stream =
        ⟨r.receiver, (buffer ++ piece).drop r.stream⟩ := by
      refine shift_eq R r.receiver r.stream fun hzero => ?_
      rcases hshort hzero with hempty | hlt
      · exact .inl hempty.symm
      · exact .inr (by omega)
    rw [hshift]
    constructor
    · refine ⟨htotal ▸ hstands, fun n hn => ?_, ?_, fun hend hnone => ?_⟩
      · have hcovers := hpending n hn
        show ((buffer ++ piece).drop r.stream).length ≤ n
        rw [List.length_drop]
        omega
      · show ((buffer ++ piece).drop r.stream).length < capacity
        rw [List.length_drop]
        rcases Nat.eq_zero_or_pos r.stream with hzero | hsome
        · have hlt := hshort hzero
          omega
        · have hlong : 0 < (buffer ++ piece).length := by omega
          omega
      · rcases hdrained hnone with hall | hmore
        · show (buffer ++ piece).drop r.stream = []
          rw [hall, List.drop_length]
        · exact absurd hend hmore
    · show 2 * rest.length + (if (R.bulk r.receiver).isSome then 1 else 0) <
        2 * (piece ++ rest).length + if (R.bulk s).isSome then 1 else 0
      rw [List.length_append]
      split <;> omega
  | @bulkBuffered s buffer rest n hbulk hn =>
    have hle := hx.pending n hbulk
    dsimp only at hle
    have hall : n = buffer.length := by omega
    have htake : buffer.take n = buffer ++ [] := by
      rw [hall, List.take_length, List.append_nil]
    have hx' : Between R capacity delivered At total (⟨s, buffer⟩, [] ++ rest) := hx
    obtain ⟨hbetween, hnone⟩ := hF.between_bulk hx' hbulk (by rw [List.append_nil, hall])
    have hshift := shift_eq R (R.settle (R.forwardBulk s (buffer ++ []))) n fun _ =>
      .inr hx.room
    rw [htake, hshift, hall, List.drop_length]
    refine ⟨hbetween, ?_⟩
    show 2 * rest.length + (if (R.bulk (R.settle (R.forwardBulk s (buffer ++ [])))).isSome then 1
      else 0) < 2 * rest.length + if (R.bulk s).isSome then 1 else 0
    rw [hnone, hbulk]
    simp
  | @bulk s buffer data rest n hbulk hn hdata =>
    obtain ⟨hbetween, hnone⟩ := hF.between_bulk hx hbulk (by rw [List.length_append, hdata])
    have hshift : R.shift capacity (R.settle (R.forwardBulk s (buffer ++ data))) buffer
        buffer.length = ⟨_, buffer.drop buffer.length⟩ :=
      shift_eq R _ buffer.length fun hzero => .inl hzero
    rw [hshift, List.drop_length]
    refine ⟨hbetween, ?_⟩
    show 2 * rest.length + (if (R.bulk (R.settle (R.forwardBulk s (buffer ++ data)))).isSome then 1
      else 0) < 2 * (data ++ rest).length + if (R.bulk s).isSome then 1 else 0
    rw [hnone, hbulk, List.length_append]
    simp only [Option.isSome_none, Option.isSome_some, Bool.false_eq_true, if_false, if_true]
    omega

theorem between_run (hF : Follows R capacity delivered At)
    (hx : Between R capacity delivered At total x)
    (run : ReflTransGen (Reads R capacity) x y) : Between R capacity delivered At total y := by
  -- By induction on the turns.
  induction run with
  | refl => exact hx
  | tail _ hstep ih => exact (hF.between_reads hstep ih).1

/-- Where no turn follows, everything is read. -/
theorem goesOn (hF : Follows R capacity delivered At) (hR : Progresses R)
    (hx : Between R capacity delivered At total x) :
    (∃ y, Reads R capacity x y) ∨
      x.2 = [] ∧ x.1.buffer = [] ∧ delivered x.1.receiver = total := by
  obtain ⟨⟨s, buffer⟩, unread⟩ := x
  obtain ⟨⟨later, htotal, hat⟩, hpending, hroom, hdrained⟩ := hx
  dsimp only at htotal hat hpending hroom hdrained ⊢
  cases hbulk : R.bulk s with
  | some n =>
    left
    obtain ⟨hle, -⟩ := hF.bulk hat hbulk
    rw [List.length_append] at hle
    rcases Nat.lt_or_ge buffer.length n with hlt | hge
    · have hdata : buffer.length + (unread.take (n - buffer.length)).length = n := by
        rw [List.length_take]
        omega
      rw [← List.take_append_drop (n - buffer.length) unread]
      exact ⟨(_, unread.drop (n - buffer.length)), .bulk hbulk hlt hdata⟩
    · exact ⟨_, .bulkBuffered hbulk hge⟩
  | none =>
    cases unread with
    | nil =>
      right
      have hempty := hdrained rfl hbulk
      rw [hempty, List.append_nil] at hat
      refine ⟨rfl, hempty, ?_⟩
      rw [htotal, hF.finished hat hbulk, List.append_nil]
    | cons first unread =>
      left
      obtain ⟨r, hr⟩ := (hR.chunkLoop_ends (buffer ++ [first]) _ s 0).1 (Nat.lt_succ_self _)
      have hroom' : [first].length ≤ capacity - buffer.length := by
        show 1 ≤ _
        omega
      exact ⟨(_, unread), .chunk hbulk (List.cons_ne_nil first []) hroom' hr⟩

/-- The stream is delivered, in whatever pieces it is read. -/
theorem delivers (hF : Follows R capacity delivered At) (hR : Progresses R)
    (hcapacity : 0 < capacity) {stream : List α} (hstart : At s stream out)
    (hempty : delivered s = []) :
    Delivers R capacity delivered s stream out := by
  have hfirst : Between R capacity delivered At out (⟨s, []⟩, stream) :=
    ⟨⟨out, by rw [hempty]; rfl, hstart⟩, fun n hn => Nat.zero_le n, hcapacity, fun _ _ => rfl⟩
  refine ⟨fun x run => ?_, fun x run => hF.goesOn hR (hF.between_run hfirst run),
    fun x y run hstep => (hF.between_reads hstep (hF.between_run hfirst run)).2⟩
  obtain ⟨later, htotal, -⟩ := (hF.between_run hfirst run).stands
  exact ⟨later, htotal.symm⟩

end Follows

end Upcn.Framing
