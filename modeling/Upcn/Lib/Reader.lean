import Mathlib.Algebra.GroupWithZero.Nat
import Mathlib.Algebra.Ring.Int.Defs
import Mathlib.Logic.Relation

/-!
# Reading a stream in pieces

A `Reader` takes one item after the other.  At times it requests a bulk of
items instead, which it gets at once.

* `Reader.read` is a call with a buffer: it takes what it can, and leaves a bulk
  that the buffer does not hold to the caller.
* `Reader.Receives` is a receiver that calls it with what has arrived, and
  fetches the bulks from the stream.

The two come to the same end, for every way in which the stream is cut, up to a
bulk of no items that is requested at the very end of the buffer.
-/

namespace Upcn

/-! ## Runs of a deterministic machine -/

namespace Machine

variable {α : Type} {step guarded : α → Option α} {a b c : α}

/-- Some steps of the machine. -/
def Steps (step : α → Option α) : α → α → Prop :=
  Relation.ReflTransGen fun a b => step a = some b

/-- At most so many steps. -/
def iterate (step : α → Option α) : Nat → α → α
  | 0, a => a
  | n + 1, a =>
    match step a with
    | none => a
    | some b => iterate step n b

theorem steps_iterate (n : Nat) (a : α) : Steps step a (iterate step n a) := by
  induction n generalizing a with
  | zero => exact .refl
  | succ n ih =>
    rw [iterate]
    split
    · exact .refl
    · rename_i b hb
      exact .head hb (ih b)

/-- A run that ended is the end of every other. -/
theorem Steps.to_end (hab : Steps step a b) (hb : step b = none)
    (hac : Steps step a c) : Steps step c b := by
  induction hac with
  | refl => exact hab
  | tail _ hcd ih =>
    rcases Relation.ReflTransGen.cases_head ih with rfl | ⟨d, hd, hdb⟩
    · rw [hb] at hcd
      cases hcd
    · rw [hd] at hcd
      obtain rfl := Option.some.inj hcd
      exact hdb

theorem Steps.unique (hab : Steps step a b) (hb : step b = none)
    (hac : Steps step a c) (hc : step c = none) : c = b := by
  rcases Relation.ReflTransGen.cases_head (hab.to_end hb hac) with h | ⟨d, hd, -⟩
  · exact h
  · rw [hc] at hd
    cases hd

/-- With a measure that each step decreases, enough steps lead to the end. -/
theorem iterate_ends (valid : α → Prop) (measure : α → Nat)
    (hdecreases : ∀ a b, valid a → step a = some b → valid b ∧ measure b < measure a)
    {n : Nat} (ha : valid a) (hn : measure a < n) :
    step (iterate step n a) = none ∧ valid (iterate step n a) := by
  induction n generalizing a with
  | zero => omega
  | succ n ih =>
    rw [iterate]
    cases h : step a with
    | none => exact ⟨h, ha⟩
    | some b =>
      obtain ⟨hb, hlt⟩ := hdecreases a b ha h
      exact ih hb (by omega)

end Machine

open Machine

/-- A reader of items `β`, with states `σ`. -/
structure Reader (σ β : Type) where
  /-- It wants to go on. -/
  good : σ → Bool
  /-- It requests a bulk of so many items. -/
  pending : σ → Option Nat
  /-- It takes one item. -/
  item : σ → β → σ
  /-- It takes the bulk it has requested. -/
  fill : σ → List β → σ

namespace Reader

variable {σ β : Type} (R : Reader σ β)

/-- One turn, in which the reader takes an item or a bulk from the input. -/
def step (x : σ × List β) : Option (σ × List β) :=
  if R.good x.1 then
    match R.pending x.1 with
    | some n =>
      if n ≤ x.2.length then some (R.fill x.1 (x.2.take n), x.2.drop n) else none
    | none =>
      match x.2 with
      | [] => none
      | b :: rest => some (R.item x.1 b, rest)
  else none

/-- One turn of a call, which ends with its buffer. -/
def callStep (x : σ × List β) : Option (σ × List β) :=
  match x.2 with
  | [] => none
  | _ :: _ => R.step x

/-- A call with a buffer: the state after it, and what is left of the buffer. -/
def read (s : σ) (input : List β) : σ × List β :=
  iterate R.callStep (2 * input.length + 2) (s, input)

/-- The state of a receiver: the reader, the buffer and the rest of the
stream. -/
structure Receiver (σ β : Type) where
  state : σ
  buffer : List β
  stream : List β

/-- A turn of the receiver. -/
inductive Receives : Receiver σ β → Receiver σ β → Prop where
  /-- A chunk arrives, and the reader is called with the buffer. -/
  | chunk {s : σ} {buffer chunk rest : List β} (hgood : R.good s = true)
      (hpending : R.pending s = none) (hchunk : chunk ≠ []) :
      Receives ⟨s, buffer, chunk ++ rest⟩
        ⟨(R.read s (buffer ++ chunk)).1, (R.read s (buffer ++ chunk)).2, rest⟩
  /-- The buffer holds the bulk. -/
  | bulkFromBuffer {s : σ} {buffer rest : List β} {n : Nat} (hgood : R.good s = true)
      (hpending : R.pending s = some n) (hn : n ≤ buffer.length) :
      Receives ⟨s, buffer, rest⟩ ⟨R.fill s (buffer.take n), buffer.drop n, rest⟩
  /-- The rest of the bulk is read from the stream. -/
  | bulkFromStream {s : σ} {buffer bulk rest : List β} {n : Nat}
      (hgood : R.good s = true) (hpending : R.pending s = some n)
      (hn : buffer.length < n) (hbulk : buffer.length + bulk.length = n) :
      Receives ⟨s, buffer, bulk ++ rest⟩ ⟨R.fill s (buffer ++ bulk), [], rest⟩

/-- What the reader relies on: the states are valid, and a bulk that was filled
is not requested again at once. -/
structure Lawful (valid : σ → Prop) : Prop where
  item : ∀ s b, valid s → R.good s = true → R.pending s = none → valid (R.item s b)
  fill : ∀ s d n, valid s → R.good s = true → R.pending s = some n →
    valid (R.fill s d) ∧ R.pending (R.fill s d) = none

variable {R} {valid : σ → Prop} {s s' : σ} {input input' buffer stream : List β}
  {b : β} {n : Nat}

/-! ## One turn -/

theorem step_of_pending (hgood : R.good s = true) (hpending : R.pending s = some n)
    (hn : n ≤ input.length) :
    R.step (s, input) = some (R.fill s (input.take n), input.drop n) := by
  simp only [step, hgood, hpending, if_true]
  exact if_pos hn

theorem step_item (hgood : R.good s = true) (hpending : R.pending s = none) :
    R.step (s, b :: input) = some (R.item s b, input) := by
  simp only [step, hgood, hpending, if_true]

theorem step_eq_none_iff : R.step (s, input) = none ↔ R.good s = true →
    (R.pending s = none → input = []) ∧
      ∀ n, R.pending s = some n → input.length < n := by
  cases hgood : R.good s with
  | false => simp [step, hgood]
  | true =>
    cases hp : R.pending s with
    | none => cases input <;> simp [step, hgood, hp]
    | some n => simp [step, hgood, hp]

/-- What a turn takes: the bulk that is pending, or the next item. -/
theorem step_cases (h : R.step (s, input) = some (s', input')) :
    R.good s = true ∧
      ((∃ n, R.pending s = some n ∧ n ≤ input.length ∧ s' = R.fill s (input.take n) ∧
          input' = input.drop n) ∨
        ∃ b, R.pending s = none ∧ input = b :: input' ∧ s' = R.item s b) := by
  rw [step] at h
  split at h
  · rename_i hgood
    refine ⟨hgood, ?_⟩
    split at h
    · rename_i n hpending
      split at h
      · rename_i hn
        obtain ⟨rfl, rfl⟩ := Prod.mk.inj (Option.some.inj h)
        exact .inl ⟨n, hpending, hn, rfl, rfl⟩
      · cases h
    · rename_i hpending
      split at h
      · cases h
      · rename_i b rest hinput
        obtain ⟨rfl, rfl⟩ := Prod.mk.inj (Option.some.inj h)
        exact .inr ⟨b, hpending, hinput, rfl⟩
  · cases h

/-- More input does not change a turn. -/
theorem step_append (h : R.step (s, input) = some (s', input')) (more : List β) :
    R.step (s, input ++ more) = some (s', input' ++ more) := by
  obtain ⟨hgood, ⟨n, hpending, hn, rfl, rfl⟩ | ⟨b, hpending, rfl, rfl⟩⟩ := step_cases h
  · have hmore : n ≤ (input ++ more).length := by
      rw [List.length_append]
      omega
    rw [step_of_pending hgood hpending hmore, List.take_append_of_le_length hn,
      List.drop_append_of_le_length hn]
  · exact step_item hgood hpending

theorem steps_append {x y : σ × List β} (h : Steps R.step x y) (more : List β) :
    Steps R.step (x.1, x.2 ++ more) (y.1, y.2 ++ more) := by
  induction h with
  | refl => exact .refl
  | tail _ hyz ih => exact ih.tail (step_append hyz more)

/-! ## One call -/

theorem step_of_callStep {x y : σ × List β} (h : R.callStep x = some y) :
    R.step x = some y := by
  unfold callStep at h
  split at h
  · cases h
  · exact h

theorem steps_read (s : σ) (input : List β) :
    Steps R.step (s, input) (R.read s input) := by
  have h : Steps R.callStep (s, input) (R.read s input) := steps_iterate _ _
  generalize R.read s input = x at h
  induction h with
  | refl => exact .refl
  | tail _ hyz ih => exact ih.tail (step_of_callStep hyz)

/-- What a call has left to do: twice the items, and a bulk of no items. -/
def work (R : Reader σ β) (x : σ × List β) : Nat :=
  2 * x.2.length + (R.pending x.1).elim 0 fun _ => 1

theorem step_work (hR : R.Lawful valid) (hs : valid s)
    (h : R.step (s, input) = some (s', input')) :
    valid s' ∧ R.work (s', input') < R.work (s, input) := by
  obtain ⟨hgood, ⟨n, hpending, hn, rfl, rfl⟩ | ⟨b, hpending, rfl, rfl⟩⟩ := step_cases h
  · obtain ⟨hvalid, hnone⟩ := hR.fill s (input.take n) n hs hgood hpending
    refine ⟨hvalid, ?_⟩
    simp only [work, hnone, hpending, Option.elim, List.length_drop]
    omega
  · refine ⟨hR.item s b hs hgood hpending, ?_⟩
    simp only [work, hpending, List.length_cons]
    cases R.pending (R.item s b) <;> simp only [Option.elim] <;> omega

/-- A call ends because its buffer does, the reader does not want to go on, or the
bulk is longer than the buffer. -/
theorem read_ends (hR : R.Lawful valid) (hs : valid s) (input : List β) :
    R.callStep (R.read s input) = none ∧ valid (R.read s input).1 := by
  refine iterate_ends (fun x : σ × List β => valid x.1) R.work
    (fun x y hx h => ?_) hs ?_
  · exact step_work hR hx (step_of_callStep h)
  · simp only [work]
    cases R.pending s <;> simp only [Option.elim] <;> omega

/-- After the call, a bulk of no items is left to the caller if the buffer has
ended. -/
def complete (R : Reader σ β) (s : σ) : σ :=
  if R.good s && R.pending s == some 0 then R.fill s [] else s

/-- A call with all the input, and the bulk of no items that it may leave, is a
run to the end. -/
theorem read_complete (hR : R.Lawful valid) (hs : valid s) (input : List β) :
    Steps R.step (s, input) (R.complete (R.read s input).1, (R.read s input).2) ∧
      R.step (R.complete (R.read s input).1, (R.read s input).2) = none := by
  obtain ⟨hend, hvalid⟩ := read_ends hR hs input
  have hsteps := steps_read (R := R) s input
  generalize R.read s input = x at *
  obtain ⟨s', rest⟩ := x
  cases rest with
  | cons b rest =>
    have hstep : R.step (s', b :: rest) = none := hend
    have hsame : R.complete s' = s' := by
      rw [complete, if_neg]
      rw [Bool.and_eq_true, beq_iff_eq]
      rintro ⟨hgood, hpending⟩
      have := (step_eq_none_iff.mp hstep hgood).2 0 hpending
      omega
    rw [hsame]
    exact ⟨hsteps, hstep⟩
  | nil =>
    rw [complete]
    split
    · rename_i hzero
      rw [Bool.and_eq_true, beq_iff_eq] at hzero
      obtain ⟨hgood, hpending⟩ := hzero
      refine ⟨hsteps.tail (step_of_pending hgood hpending (Nat.zero_le _)), ?_⟩
      rw [step_eq_none_iff]
      intro _
      obtain ⟨-, hnone⟩ := hR.fill s' [] 0 hvalid hgood hpending
      exact ⟨fun _ => rfl, fun n hn => by rw [hnone] at hn; cases hn⟩
    · rename_i hzero
      refine ⟨hsteps, step_eq_none_iff.mpr fun hgood => ⟨fun _ => rfl, fun n hn => ?_⟩⟩
      rw [Bool.and_eq_true, beq_iff_eq] at hzero
      rcases Nat.eq_zero_or_pos n with rfl | hpos
      · exact absurd ⟨hgood, hn⟩ hzero
      · simpa using hpos

/-! ## The receiver -/

/-- What is left in the buffer of the receiver cannot be taken. -/
def Receiver.Waiting (R : Reader σ β) (x : Receiver σ β) : Prop :=
  R.callStep (x.state, x.buffer) = none

theorem Receives.spec {x y : Receiver σ β} (h : R.Receives x y)
    (hR : R.Lawful valid) (hx : valid x.state) (hwait : x.Waiting R) :
    valid y.state ∧ y.Waiting R ∧
      Steps R.step (x.state, x.buffer ++ x.stream) (y.state, y.buffer ++ y.stream) := by
  cases h with
  | @chunk s buffer chunk rest hgood hpending hchunk =>
    obtain ⟨hend, hvalid⟩ := read_ends hR hx (buffer ++ chunk)
    refine ⟨hvalid, hend, ?_⟩
    have hsteps := steps_append (steps_read (R := R) s (buffer ++ chunk)) rest
    rwa [List.append_assoc] at hsteps
  | @bulkFromBuffer s buffer rest n hgood hpending hn =>
    obtain ⟨hvalid, -⟩ := hR.fill s (buffer.take n) n hx hgood hpending
    -- the buffer is empty: otherwise the call had taken the bulk
    have hbuffer : buffer = [] := by
      cases buffer with
      | nil => rfl
      | cons b buffer =>
        have := (step_eq_none_iff.mp (show R.step (s, b :: buffer) = none from hwait)
          hgood).2 n hpending
        omega
    subst hbuffer
    refine ⟨hvalid, by rw [List.drop_nil]; rfl, ?_⟩
    have hstep := step_append (step_of_pending hgood hpending hn) rest
    exact Relation.ReflTransGen.single hstep
  | @bulkFromStream s buffer bulk rest n hgood hpending hn hbulk =>
    obtain ⟨hvalid, -⟩ := hR.fill s (buffer ++ bulk) n hx hgood hpending
    refine ⟨hvalid, rfl, Relation.ReflTransGen.single ?_⟩
    have hlength : (buffer ++ bulk).length = n := by rw [List.length_append, hbulk]
    have hstep := step_append (step_of_pending hgood hpending (Nat.le_of_eq hlength.symm))
      rest
    rw [List.take_of_length_le (Nat.le_of_eq hlength),
      List.drop_of_length_le (Nat.le_of_eq hlength), List.append_assoc] at hstep
    exact hstep

/-- The receiver has come to an end: the reader does not want to go on, or there
is nothing left that it could take. -/
theorem Receiver.Waiting.finished {x : Receiver σ β} (hx : x.Waiting R)
    (hend : ∀ y, ¬ R.Receives x y) : R.step (x.state, x.buffer ++ x.stream) = none := by
  obtain ⟨s, buffer, stream⟩ := x
  rw [step_eq_none_iff]
  intro hgood
  refine ⟨fun hpending => ?_, fun n hpending => ?_⟩
  · cases stream with
    | cons b stream =>
      have hstep : R.Receives ⟨s, buffer, [b] ++ stream⟩ _ :=
        Receives.chunk hgood hpending (List.cons_ne_nil b [])
      exact absurd hstep (hend _)
    | nil =>
      rw [List.append_nil]
      cases buffer with
      | nil => rfl
      | cons b buffer =>
        have := (step_eq_none_iff.mp (show R.step (s, b :: buffer) = none from hx)
          hgood).1 hpending
        cases this
  · rw [List.length_append]
    refine Nat.lt_of_not_le fun hle => ?_
    have hle' : n ≤ buffer.length + stream.length := hle
    rcases Nat.lt_or_ge buffer.length n with hlt | hge
    · have hlength : buffer.length + (stream.take (n - buffer.length)).length = n := by
        rw [List.length_take]
        omega
      have hstep : R.Receives ⟨s, buffer, stream.take (n - buffer.length) ++
          stream.drop (n - buffer.length)⟩ _ :=
        Receives.bulkFromStream hgood hpending hlt hlength
      rw [List.take_append_drop] at hstep
      exact hend _ hstep
    · exact hend _ (Receives.bulkFromBuffer hgood hpending hge)

/-- However the stream is cut, a receiver that has come to an end is where one
call with the whole stream ends, once a bulk of no items is completed. -/
theorem receives_eq_read (hR : R.Lawful valid) (hs : valid s) {y : Receiver σ β}
    (h : Relation.ReflTransGen R.Receives ⟨s, [], stream⟩ y)
    (hend : ∀ z, ¬ R.Receives y z) :
    y.state = R.complete (R.read s stream).1 ∧
      y.buffer ++ y.stream = (R.read s stream).2 := by
  have hrun : valid y.state ∧ y.Waiting R ∧
      Steps R.step (s, stream) (y.state, y.buffer ++ y.stream) := by
    clear hend
    induction h with
    | refl => exact ⟨hs, rfl, .refl⟩
    | tail _ hyz ih =>
      obtain ⟨hvalid, hwait, hsteps⟩ := ih
      obtain ⟨hvalid', hwait', hsteps'⟩ := hyz.spec hR hvalid hwait
      exact ⟨hvalid', hwait', hsteps.trans hsteps'⟩
  obtain ⟨-, hwait, hsteps⟩ := hrun
  obtain ⟨hread, hnone⟩ := read_complete hR hs stream
  have heq := hread.unique hnone hsteps (hwait.finished hend)
  exact ⟨congrArg Prod.fst heq, congrArg Prod.snd heq⟩

/-! ## The receiver comes to an end -/

theorem steps_work (hR : R.Lawful valid) {x y : σ × List β} (h : Steps R.step x y)
    (hx : valid x.1) : valid y.1 ∧ R.work y ≤ R.work x := by
  induction h with
  | refl => exact ⟨hx, Nat.le_refl _⟩
  | tail _ hyz ih =>
    obtain ⟨hvalid, hle⟩ := ih
    obtain ⟨hvalid', hlt⟩ := step_work hR hvalid hyz
    exact ⟨hvalid', Nat.le_trans (Nat.le_of_lt hlt) hle⟩

/-- A turn of the receiver changes the reader. -/
theorem Receives.moves {x y : Receiver σ β} (h : R.Receives x y)
    (hR : R.Lawful valid) (hx : valid x.state) :
    (x.state, x.buffer ++ x.stream) ≠ (y.state, y.buffer ++ y.stream) := by
  intro heq
  cases h with
  | @chunk s buffer chunk rest hgood hpending hchunk =>
    obtain ⟨hend, -⟩ := read_ends hR hx (buffer ++ chunk)
    obtain ⟨hstate, hbuffer⟩ := Prod.mk.inj heq
    have hrest : buffer ++ chunk = (R.read s (buffer ++ chunk)).2 := by
      rw [← List.append_assoc] at hbuffer
      exact List.append_cancel_right hbuffer
    have hsame : R.read s (buffer ++ chunk) = (s, buffer ++ chunk) :=
      Prod.ext hstate.symm hrest.symm
    rw [hsame] at hend
    cases hinput : buffer ++ chunk with
    | nil => exact hchunk (List.append_eq_nil_iff.mp hinput).2
    | cons b input =>
      rw [hinput] at hend
      rw [show R.callStep (s, b :: input) = R.step (s, b :: input) from rfl,
        step_item hgood hpending] at hend
      cases hend
  | @bulkFromBuffer s buffer rest n hgood hpending hn =>
    obtain ⟨-, hnone⟩ := hR.fill s (buffer.take n) n hx hgood hpending
    have hstate : s = R.fill s (buffer.take n) := (Prod.mk.inj heq).1
    rw [← hstate, hpending] at hnone
    cases hnone
  | @bulkFromStream s buffer bulk rest n hgood hpending hn hbulk =>
    obtain ⟨-, hnone⟩ := hR.fill s (buffer ++ bulk) n hx hgood hpending
    have hstate : s = R.fill s (buffer ++ bulk) := (Prod.mk.inj heq).1
    rw [← hstate, hpending] at hnone
    cases hnone

/-- Every run of the receiver goes on to an end. -/
theorem exists_end (hR : R.Lawful valid) {x : Receiver σ β} (hx : valid x.state)
    (hwait : x.Waiting R) :
    ∃ y, Relation.ReflTransGen R.Receives x y ∧ ∀ z, ¬ R.Receives y z := by
  induction hwork : R.work (x.state, x.buffer ++ x.stream) using Nat.strongRecOn
    generalizing x with
  | ind work ih =>
  by_cases hend : ∃ y, R.Receives x y
  · obtain ⟨y, hy⟩ := hend
    obtain ⟨hvalid, hwait', hsteps⟩ := hy.spec hR hx hwait
    rcases Relation.ReflTransGen.cases_head hsteps with heq | ⟨a, ha, hrest⟩
    · exact absurd heq (hy.moves hR hx)
    · obtain ⟨hva, hlt⟩ := step_work hR hx ha
      obtain ⟨-, hle⟩ := steps_work hR hrest hva
      have hless := Nat.lt_of_le_of_lt hle hlt
      rw [hwork] at hless
      obtain ⟨z, hz, hzend⟩ := ih _ hless hvalid hwait' rfl
      exact ⟨z, .head hy hz, hzend⟩
  · exact ⟨x, .refl, fun z hz => hend ⟨z, hz⟩⟩

end Reader

end Upcn
