import Mathlib.Algebra.GroupWithZero.Nat
import Mathlib.Algebra.Ring.Int.Defs
import Mathlib.Logic.Relation

/-!
# Frames of a stated length

A receiver hands the content of frames to a parser, and counts what is left of a frame.
The parser may also request a bulk, which it gets from the buffer and the stream at once.

`Track` is what an observer writes down of the current frame: its stated length, the bytes
that were handed over, and how many of them came in bulks.  When the receiver does not
count the bulks, its count and the truth differ by them (`Lawful.counts`), and this is
what decides whether the next bytes are still in the frame (`Lawful.Counts.inBounds_iff`).
-/

namespace Upcn.Framing

open Relation (ReflTransGen)

variable {α σ : Type}

/-- A receiver of frames. -/
structure Receiver (α σ : Type) where
  /-- In a frame, what the receiver counts as left of it. -/
  remaining : σ → Option Nat
  /-- The bulk that is requested. -/
  bulk : σ → Option Nat
  /-- The parser goes on. -/
  good : σ → Bool
  reset : σ → σ
  /-- The bytes are forwarded: the receiver behind it, and how many were consumed. -/
  forward : σ → List α → σ × Nat
  /-- A bulk was read. -/
  forwardBulk : σ → List α → σ

/-- What is known of the current frame. -/
structure Track where
  stated : Nat
  handed : Nat
  bulked : Nat

/-- A receiver with its buffer. -/
structure State (α σ : Type) where
  receiver : σ
  buffer : List α
  track : Track

namespace Receiver

variable (R : Receiver α σ)

/-- A parser that does not go on is reset. -/
def settle (s : σ) : σ := if R.good s then s else R.reset s

/-- The track behind a call. -/
def afterCall (s : σ) (buffer : List α) (track : Track) : Track :=
  match R.remaining s with
  | some _ => { track with handed := track.handed + (R.forward s buffer).2 }
  | none =>
    match R.remaining (R.forward s buffer).1 with
    | some length => ⟨length, 0, 0⟩
    | none => track

/-- What the parser of the current frame is given next. -/
def given (x : State α σ) : Nat :=
  match R.bulk x.receiver with
  | some n => n
  | none =>
    match R.remaining x.receiver with
    | some r => min r x.buffer.length
    | none => 0

/-- What is given next ends in the frame. -/
def InBounds (x : State α σ) : Prop :=
  R.remaining x.receiver ≠ none → x.track.handed + R.given x ≤ x.track.stated

/-- A bulk fits into what is left besides the bulks before, and behind a bulk the buffer
does not reach beyond the frame. -/
def WithinFrame (x : State α σ) : Prop :=
  ∀ r, R.remaining x.receiver = some r →
    match R.bulk x.receiver with
    | some n => x.track.bulked + n ≤ r
    | none => x.track.bulked = 0 ∨ x.track.bulked + x.buffer.length ≤ r

end Receiver

/-- A step of the receiver.  Any bytes may come next. -/
inductive Step (R : Receiver α σ) : State α σ → State α σ → Prop where
  | read {s : σ} {buffer : List α} {track : Track} (hbulk : R.bulk s = none) (piece : List α) :
      Step R ⟨s, buffer, track⟩ ⟨s, buffer ++ piece, track⟩
  | call {s : σ} {buffer : List α} {track : Track} (hbulk : R.bulk s = none) :
      Step R ⟨s, buffer, track⟩
        ⟨R.settle (R.forward s buffer).1, buffer.drop (R.forward s buffer).2,
          R.afterCall s buffer track⟩
  | bulk {s : σ} {buffer piece : List α} {track : Track} {n : Nat} (hbulk : R.bulk s = some n)
      (hpiece : piece.length = n - buffer.length) :
      Step R ⟨s, buffer, track⟩
        ⟨R.settle (R.forwardBulk s ((buffer ++ piece).take n)), buffer.drop n,
          { track with handed := track.handed + n, bulked := track.bulked + n }⟩
  | discard {s : σ} {buffer : List α} {track : Track} :
      Step R ⟨s, buffer, track⟩ ⟨R.reset s, [], track⟩

/-- The receiver counts down what is consumed of a frame, and does not count bulks. -/
structure Lawful (R : Receiver α σ) (valid : σ → Prop) : Prop where
  consumed : ∀ s r buffer, valid s → R.remaining s = some r →
    (R.forward s buffer).2 ≤ min r buffer.length
  forward : ∀ s r buffer r', valid s → R.remaining s = some r →
    R.remaining (R.forward s buffer).1 = some r' → r' + (R.forward s buffer).2 = r
  forwardBulk : ∀ s data r, valid s → R.remaining (R.forwardBulk s data) = some r →
    R.remaining s = some r
  reset : ∀ s, R.remaining (R.reset s) = none
  bulk : ∀ s n, valid s → R.bulk s = some n → ∃ r, R.remaining s = some r
  valid_forward : ∀ s buffer, valid s → valid (R.forward s buffer).1
  valid_forwardBulk : ∀ s data, valid s → valid (R.forwardBulk s data)
  valid_reset : ∀ s, valid s → valid (R.reset s)

namespace Lawful

variable {R : Receiver α σ} {valid : σ → Prop} {x y : State α σ} {s : σ}

/-- The count and the truth differ by the bulks. -/
def Counts (R : Receiver α σ) (valid : σ → Prop) (x : State α σ) : Prop :=
  valid x.receiver ∧ ∀ r, R.remaining x.receiver = some r →
    r + x.track.handed = x.track.stated + x.track.bulked

theorem valid_settle (hR : Lawful R valid) (hs : valid s) : valid (R.settle s) := by
  unfold Receiver.settle
  split
  · exact hs
  · exact hR.valid_reset s hs

theorem remaining_settle (hR : Lawful R valid) {r : Nat}
    (h : R.remaining (R.settle s) = some r) : R.remaining s = some r := by
  unfold Receiver.settle at h
  split at h
  · exact h
  · rw [hR.reset] at h
    cases h

theorem counts_step (hR : Lawful R valid) (hx : Counts R valid x) (hstep : Step R x y) :
    Counts R valid y := by
  obtain ⟨hvalid, hcount⟩ := hx
  cases hstep with
  | read hbulk piece => exact ⟨hvalid, hcount⟩
  | @call s buffer track hbulk =>
    refine ⟨hR.valid_settle (hR.valid_forward s buffer hvalid), fun r' hr' => ?_⟩
    have hafter := hR.remaining_settle hr'
    unfold Receiver.afterCall
    cases hr : R.remaining s with
    | some r =>
      have hbefore : r + track.handed = track.stated + track.bulked := hcount r hr
      have hforward := hR.forward s r buffer r' hvalid hr hafter
      show r' + (track.handed + (R.forward s buffer).2) = track.stated + track.bulked
      omega
    | none =>
      -- a new frame
      dsimp only
      rw [hafter]
  | @bulk s buffer piece track n hbulk hpiece =>
    refine ⟨hR.valid_settle (hR.valid_forwardBulk s _ hvalid), fun r hr => ?_⟩
    have hbefore : r + track.handed = track.stated + track.bulked :=
      hcount r (hR.forwardBulk s _ r hvalid (hR.remaining_settle hr))
    show r + (track.handed + n) = track.stated + (track.bulked + n)
    omega
  | @discard s buffer track =>
    refine ⟨hR.valid_reset s hvalid, fun r hr => ?_⟩
    have hnone : R.remaining (R.reset s) = some r := hr
    rw [hR.reset] at hnone
    cases hnone

theorem counts (hR : Lawful R valid) (hx : Counts R valid x) (run : ReflTransGen (Step R) x y) :
    Counts R valid y := by
  induction run with
  | refl => exact hx
  | tail _ hstep ih => exact hR.counts_step ih hstep

/-- Whether the next bytes are in the frame is seen before they are given. -/
theorem Counts.inBounds_iff (hx : Counts R valid x) : R.InBounds x ↔ R.WithinFrame x := by
  obtain ⟨hvalid, hcount⟩ := hx
  unfold Receiver.InBounds Receiver.WithinFrame Receiver.given
  cases hr : R.remaining x.receiver with
  | none => exact iff_of_true (fun h => absurd rfl h) fun r h => by cases h
  | some r =>
    have hsum := hcount r hr
    -- a bulk, or what the buffer holds
    cases hbulk : R.bulk x.receiver
    all_goals
      constructor
      · intro h r' hr'
        obtain rfl := Option.some.inj hr'
        have hle := h (Option.some_ne_none r)
        dsimp only at hle ⊢
        omega
      · intro h _
        have hle := h r rfl
        dsimp only at hle ⊢
        omega

/-- A step within the frame does not hand over too much. -/
theorem handed_step (hR : Lawful R valid) (hx : Counts R valid x)
    (hle : x.track.handed ≤ x.track.stated) (hframe : R.WithinFrame x) (hstep : Step R x y) :
    y.track.handed ≤ y.track.stated := by
  have hbounds := hx.inBounds_iff.mpr hframe
  obtain ⟨hvalid, hcount⟩ := hx
  cases hstep with
  | read hbulk piece => exact hle
  | @call s buffer track hbulk =>
    unfold Receiver.InBounds Receiver.given at hbounds
    dsimp only at hbounds hle ⊢
    unfold Receiver.afterCall
    cases hr : R.remaining s with
    | some r =>
      have hconsumed := hR.consumed s r buffer hvalid hr
      rw [hr, hbulk] at hbounds
      have hin := hbounds (Option.some_ne_none r)
      dsimp only at hin ⊢
      omega
    | none =>
      dsimp only
      cases R.remaining (R.forward s buffer).1 with
      | some length => exact Nat.zero_le _
      | none => exact hle
  | @bulk s buffer piece track n hbulk hpiece =>
    obtain ⟨r, hr⟩ := hR.bulk s n hvalid hbulk
    unfold Receiver.InBounds Receiver.given at hbounds
    dsimp only at hbounds ⊢
    rw [hr, hbulk] at hbounds
    exact hbounds (Option.some_ne_none r)
  | discard => exact hle

end Lawful

/-- What is given to the parser of a frame stays in the frame exactly in the states that
meet the condition, a call consumes at most what is counted as left, and in a run through
such states no frame is handed over beyond its stated length. -/
def FrameBound (R : Receiver α σ) (initial : σ) : Prop :=
  (∀ x, ReflTransGen (Step R) ⟨initial, [], ⟨0, 0, 0⟩⟩ x →
    (R.InBounds x ↔ R.WithinFrame x) ∧
      ∀ r, R.remaining x.receiver = some r → (R.forward x.receiver x.buffer).2 ≤ r) ∧
  ∀ x, ReflTransGen (fun x y => Step R x y ∧ R.WithinFrame x) ⟨initial, [], ⟨0, 0, 0⟩⟩ x →
    x.track.handed ≤ x.track.stated

theorem Lawful.frameBound {R : Receiver α σ} {valid : σ → Prop} (hR : Lawful R valid)
    {initial : σ} (hvalid : valid initial) (hinitial : R.remaining initial = none) :
    FrameBound R initial := by
  have hstart : Lawful.Counts R valid ⟨initial, [], ⟨0, 0, 0⟩⟩ :=
    ⟨hvalid, fun r hr => by cases hinitial.symm.trans hr⟩
  constructor
  · intro x run
    have hx := hR.counts hstart run
    refine ⟨hx.inBounds_iff, fun r hr => ?_⟩
    have hconsumed := hR.consumed x.receiver r x.buffer hx.1 hr
    omega
  · intro x run
    have hall : Lawful.Counts R valid x ∧ x.track.handed ≤ x.track.stated := by
      induction run with
      | refl => exact ⟨hstart, Nat.le_refl 0⟩
      | tail _ hstep ih =>
        exact ⟨hR.counts_step ih.1 hstep.1, hR.handed_step ih.1 ih.2 hstep.2 hstep.1⟩
    exact hall.2

end Upcn.Framing
