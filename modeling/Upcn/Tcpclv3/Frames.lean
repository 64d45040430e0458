import Upcn.Lib.Framing
import Upcn.Tcpclv3.Segments

/-!
# Segments as frames

A TCPCLv3 link is a receiver of frames: a data segment has `fragment_size`, which counts what
the calls consume, and not the bulks.  What the task does is a run of the receiver
(`run_steps`).
-/

namespace Upcn

open Relation (ReflTransGen)
open Upcn.Framing (Receiver Lawful FrameBound Step)
open Upcn.Tcpclv3 (Version BundleParser ParserResult)

variable {σ β : Type} {P : Version → BundleParser σ β}

/-- A call consumes no more than it is given. -/
def Consumes (P : Version → BundleParser σ β) : Prop :=
  ∀ v s buffer, ((P v).read s buffer).consumed ≤ buffer.length

namespace Tcpclv3

/-- A TCPCLv3 link as a receiver of frames. -/
def receiver (P : Version → BundleParser σ β) : Receiver UInt8 (Link σ β) where
  remaining l := if l.stage = .forwardBundle then some l.fragmentSize else none
  bulk l := l.curBulk P
  good l := decide (l.curStatus P = .good)
  reset l := l.resetParsers P
  forward l buffer := l.forwardToSpecificParser P buffer
  forwardBulk l data := l.forwardBulk P data

/-- A bundle parser is used for the content of a segment only. -/
def Valid (l : Link σ β) : Prop := l.curParser ≠ none → l.stage = .forwardBundle

variable {l : Link σ β}

theorem remaining_eq_some {r : Nat} :
    (receiver P).remaining l = some r ↔ l.stage = .forwardBundle ∧ l.fragmentSize = r := by
  show (if l.stage = .forwardBundle then some l.fragmentSize else none) = some r ↔ _
  by_cases hstage : l.stage = .forwardBundle
  · rw [if_pos hstage, Option.some_inj]
    exact (and_iff_right hstage).symm
  · rw [if_neg hstage]
    exact iff_of_false (fun h => by cases h) fun h => hstage h.1

theorem valid_of_stage (hstage : l.stage = .forwardBundle) : Valid l := fun _ => hstage

theorem valid_resetParsers (l : Link σ β) : Valid (l.resetParsers P) := fun h => absurd rfl h

/-- The version is selected from bytes of the segment, and the segment stays the same. -/
theorem selectBundleParserVersion_spec (hP : Consumes P) (l : Link σ β) (buffer : List UInt8) :
    (l.selectBundleParserVersion P buffer).2 ≤ buffer.length ∧
      (l.selectBundleParserVersion P buffer).1.stage = l.stage ∧
      (l.selectBundleParserVersion P buffer).1.fragmentSize = l.fragmentSize := by
  cases buffer with
  | nil => exact ⟨Nat.le_refl 0, rfl, rfl⟩
  | cons byte buffer =>
    unfold Link.selectBundleParserVersion
    dsimp only
    cases Link.versionOf byte with
    | none => exact ⟨Nat.zero_le _, rfl, rfl⟩
    | some v => exact ⟨hP v _ _, rfl, rfl⟩

theorem remaining_countDown {n r : Nat}
    (h : (receiver P).remaining (l.countDown P n) = some r) :
    l.stage = .forwardBundle ∧ r = l.fragmentSize - n := by
  obtain ⟨hstage, hsize⟩ := remaining_eq_some.mp h
  unfold Link.countDown at hstage hsize
  dsimp only at hstage hsize
  split at hstage
  · cases hstage
  · rename_i hne
    rw [if_neg hne] at hsize
    exact ⟨hstage, hsize.symm⟩

theorem valid_countDown (n : Nat) (h : Valid l) : Valid (l.countDown P n) := by
  unfold Link.countDown
  dsimp only
  split
  · exact valid_resetParsers _
  · exact h

theorem curParser_readByte (l : Link σ β) (byte : UInt8) :
    (l.tcpclv3ParserReadByte byte).curParser = l.curParser := by
  unfold Link.tcpclv3ParserReadByte
  cases l.stage with
  | expectTypeFlags =>
    dsimp only
    split <;> rfl
  | getSize =>
    dsimp only
    split
    · rfl
    · split <;> rfl
    · rfl
  | forwardBundle => rfl

theorem curParser_read (l : Link σ β) (buffer : List UInt8) :
    (l.tcpclv3ParserRead buffer).1.curParser = l.curParser := by
  induction buffer generalizing l with
  | nil => rfl
  | cons byte buffer ih =>
    rw [Link.tcpclv3ParserRead]
    split
    · exact (ih _).trans (curParser_readByte l byte)
    · rfl

/-- In a segment, a call consumes bytes of the segment and counts them. -/
theorem forward_inside (hP : Consumes P) (hstage : l.stage = .forwardBundle)
    (buffer : List UInt8) :
    (l.forwardToSpecificParser P buffer).2 ≤ min l.fragmentSize buffer.length ∧
      (∀ r, (receiver P).remaining (l.forwardToSpecificParser P buffer).1 = some r →
        r = l.fragmentSize - (l.forwardToSpecificParser P buffer).2) ∧
      Valid (l.forwardToSpecificParser P buffer).1 := by
  have htake : (buffer.take l.fragmentSize).length = min l.fragmentSize buffer.length :=
    List.length_take
  unfold Link.forwardToSpecificParser
  rw [if_neg fun h => h hstage]
  cases l.payloadType with
  | none =>
    obtain ⟨hconsumed, hstage', hsize⟩ :=
      selectBundleParserVersion_spec hP l (buffer.take l.fragmentSize)
    dsimp only
    rw [htake] at hconsumed
    by_cases hzero : (l.selectBundleParserVersion P (buffer.take l.fragmentSize)).2 = 0
    · rw [if_pos hzero]
      refine ⟨hconsumed, fun r hr => ?_, valid_countDown _ (valid_resetParsers _)⟩
      cases (remaining_countDown hr).1
    · rw [if_neg hzero]
      refine ⟨hconsumed, fun r hr => ?_, valid_countDown _ (valid_of_stage (hstage'.trans hstage))⟩
      rw [(remaining_countDown hr).2, hsize]
  | some v =>
    dsimp only
    have hconsumed := hP v (l.parsers v) (buffer.take l.fragmentSize)
    rw [htake] at hconsumed
    exact ⟨hconsumed, fun r hr => (remaining_countDown hr).2,
      valid_countDown _ (valid_of_stage hstage)⟩

theorem forwardBulk_inside (hstage : l.stage = .forwardBundle) (data : List UInt8) :
    (∀ r, (receiver P).remaining (l.forwardBulk P data) = some r → r = l.fragmentSize) ∧
      Valid (l.forwardBulk P data) := by
  unfold Link.forwardBulk
  rw [if_neg fun h => h hstage]
  cases l.payloadType with
  | none =>
    refine ⟨fun r hr => ?_, valid_countDown _ (valid_resetParsers _)⟩
    cases (remaining_countDown hr).1
  | some v =>
    exact ⟨fun r hr => (remaining_countDown hr).2, valid_countDown _ (valid_of_stage hstage)⟩

theorem receiver_lawful (hP : Consumes P) : Lawful (receiver P) Valid where
  consumed l r buffer _ hr := by
    obtain ⟨hstage, rfl⟩ := remaining_eq_some.mp hr
    exact (forward_inside hP hstage buffer).1
  forward l r buffer r' _ hr hr' := by
    obtain ⟨hstage, rfl⟩ := remaining_eq_some.mp hr
    obtain ⟨hconsumed, hcount, -⟩ := forward_inside hP hstage buffer
    have hr'' := hcount r' hr'
    show r' + (l.forwardToSpecificParser P buffer).2 = l.fragmentSize
    omega
  forwardBulk l data r _ hr := by
    by_cases hstage : l.stage = .forwardBundle
    · rw [(forwardBulk_inside hstage data).1 r hr]
      exact remaining_eq_some.mpr ⟨hstage, rfl⟩
    · have hsame : l.forwardBulk P data = l := if_pos hstage
      rw [← hr]
      show _ = (receiver P).remaining (l.forwardBulk P data)
      rw [hsame]
  reset l := rfl
  bulk l n hvalid hbulk := by
    have hcur : l.curParser ≠ none := by
      intro hnone
      have hbulk' : l.curBulk P = some n := hbulk
      rw [Link.curBulk, hnone] at hbulk'
      cases hbulk'
    exact ⟨l.fragmentSize, remaining_eq_some.mpr ⟨hvalid hcur, rfl⟩⟩
  valid_forward l buffer hvalid := by
    by_cases hstage : l.stage = .forwardBundle
    · exact (forward_inside hP hstage buffer).2.2
    · have hread : (receiver P).forward l buffer = l.tcpclv3ParserRead buffer := if_pos hstage
      intro hcur
      rw [hread, curParser_read] at hcur
      exact absurd (hvalid hcur) hstage
  valid_forwardBulk l data hvalid := by
    by_cases hstage : l.stage = .forwardBundle
    · exact (forwardBulk_inside hstage data).2
    · have hsame : (receiver P).forwardBulk l data = l := if_pos hstage
      rw [hsame]
      exact hvalid
  valid_reset l _ := valid_resetParsers l

/-! ## The turns of the task -/

namespace Link

/-- The link with another buffer. -/
def withBuffer (l : Link σ β) (rest : List UInt8) : Link σ β := { l with buffer := rest }

theorem readByte_withBuffer (l : Link σ β) (rest : List UInt8) (byte : UInt8) :
    (l.withBuffer rest).tcpclv3ParserReadByte byte =
      (l.tcpclv3ParserReadByte byte).withBuffer rest := by
  obtain ⟨status, stage, type, sdnvState, fragmentSize, payloadType, curParser, parsers, own,
    delivered⟩ := l
  unfold tcpclv3ParserReadByte withBuffer
  cases stage with
  | expectTypeFlags =>
    dsimp only
    split <;> rfl
  | getSize =>
    dsimp only
    cases (Bundle6.sdnvReadU32 sdnvState fragmentSize byte).1.status with
    | inProgress => rfl
    | done =>
      dsimp only
      split <;> rfl
    | error => rfl
  | forwardBundle => rfl

theorem read_withBuffer (l : Link σ β) (rest buffer : List UInt8) :
    (l.withBuffer rest).tcpclv3ParserRead buffer =
      ((l.tcpclv3ParserRead buffer).1.withBuffer rest, (l.tcpclv3ParserRead buffer).2) := by
  induction buffer generalizing l with
  | nil => rfl
  | cons byte buffer ih =>
    rw [tcpclv3ParserRead, tcpclv3ParserRead]
    by_cases hgood : l.status = .good ∧ l.stage ≠ .forwardBundle
    · have hgood' : (l.withBuffer rest).status = .good ∧
          (l.withBuffer rest).stage ≠ .forwardBundle := hgood
      rw [if_pos hgood, if_pos hgood', readByte_withBuffer, ih]
    · have hgood' : ¬((l.withBuffer rest).status = .good ∧
          (l.withBuffer rest).stage ≠ .forwardBundle) := hgood
      rw [if_neg hgood, if_neg hgood']

theorem countDown_withBuffer (l : Link σ β) (rest : List UInt8) (n : Nat) :
    (l.withBuffer rest).countDown P n = (l.countDown P n).withBuffer rest := by
  unfold countDown withBuffer
  dsimp only
  split <;> rfl

theorem select_withBuffer (l : Link σ β) (rest buffer : List UInt8) :
    (l.withBuffer rest).selectBundleParserVersion P buffer =
      ((l.selectBundleParserVersion P buffer).1.withBuffer rest,
        (l.selectBundleParserVersion P buffer).2) := by
  cases buffer with
  | nil => rfl
  | cons byte buffer =>
    unfold selectBundleParserVersion
    dsimp only
    cases versionOf byte <;> rfl

theorem forward_withBuffer (l : Link σ β) (rest buffer : List UInt8) :
    (l.withBuffer rest).forwardToSpecificParser P buffer =
      ((l.forwardToSpecificParser P buffer).1.withBuffer rest,
        (l.forwardToSpecificParser P buffer).2) := by
  unfold forwardToSpecificParser
  by_cases hstage : l.stage = .forwardBundle
  · rw [if_neg fun h => h hstage, if_neg fun h => h hstage]
    rw [show (l.withBuffer rest).payloadType = l.payloadType from rfl]
    cases l.payloadType with
    | none =>
      dsimp only
      rw [show (l.withBuffer rest).fragmentSize = l.fragmentSize from rfl, select_withBuffer]
      by_cases hzero : (l.selectBundleParserVersion P (buffer.take l.fragmentSize)).2 = 0
      · rw [if_pos hzero, if_pos hzero, ← countDown_withBuffer]
        rfl
      · rw [if_neg hzero, if_neg hzero, ← countDown_withBuffer]
    | some v =>
      dsimp only
      rw [← countDown_withBuffer]
      rfl
  · have hstage' : (l.withBuffer rest).stage ≠ .forwardBundle := hstage
    rw [if_pos hstage, if_pos hstage', read_withBuffer]

theorem forwardBulk_withBuffer (l : Link σ β) (rest data : List UInt8) :
    (l.withBuffer rest).forwardBulk P data = (l.forwardBulk P data).withBuffer rest := by
  unfold forwardBulk
  by_cases hstage : l.stage = .forwardBundle
  · rw [if_neg fun h => h hstage, if_neg fun h => h hstage]
    rw [show (l.withBuffer rest).payloadType = l.payloadType from rfl]
    cases l.payloadType with
    | none => exact countDown_withBuffer (l.resetParsers P) rest 0
    | some v => exact countDown_withBuffer (l.withResult v _) rest 0
  · have hstage' : (l.withBuffer rest).stage ≠ .forwardBundle := hstage
    rw [if_pos hstage, if_pos hstage']

theorem chunkLoop_withBuffer (turns : Nat) (l : Link σ β) (rest stream : List UInt8) :
    chunkLoop P turns (l.withBuffer rest) stream =
      ((chunkLoop P turns l stream).1.withBuffer rest, (chunkLoop P turns l stream).2) := by
  induction turns generalizing l stream with
  | zero => rfl
  | succ turns ih =>
    rw [chunkLoop, chunkLoop]
    by_cases hempty : stream = []
    · rw [if_pos hempty, if_pos hempty]
    rw [if_neg hempty, if_neg hempty, forward_withBuffer]
    dsimp only
    generalize l.forwardToSpecificParser P stream = called
    obtain ⟨l', parsed⟩ := called
    show (if l'.curStatus P ≠ .good then
        chunkLoop P turns ((l'.resetParsers P).withBuffer rest) (stream.drop parsed)
      else if (l'.curBulk P).isSome then (l'.withBuffer rest, stream.drop parsed)
      else if parsed = 0 then (l'.withBuffer rest, stream.drop parsed)
      else chunkLoop P turns (l'.withBuffer rest) (stream.drop parsed)) = _
    rw [ih, ih]
    dsimp only
    split
    · rfl
    split
    · rfl
    split <;> rfl

end Link

/-- The turns of `chunk_read` are calls. -/
theorem chunkLoop_steps (turns : Nat) (l : Link σ β) (buffer : List UInt8)
    (track : Framing.Track) (hbulk : l.curBulk P = none) :
    ∃ track', ReflTransGen (Step (receiver P)) ⟨l, buffer, track⟩
      ⟨(Link.chunkLoop P turns l buffer).1, (Link.chunkLoop P turns l buffer).2, track'⟩ := by
  induction turns generalizing l buffer track with
  | zero => exact ⟨track, .refl⟩
  | succ turns ih =>
    rw [Link.chunkLoop]
    by_cases hempty : buffer = []
    · rw [if_pos hempty]
      exact ⟨track, .refl⟩
    rw [if_neg hempty]
    have hcall : Step (receiver P) ⟨l, buffer, track⟩ _ := .call hbulk
    have hforward : (receiver P).forward l buffer = l.forwardToSpecificParser P buffer := rfl
    rw [hforward] at hcall
    dsimp only
    by_cases hgood : (l.forwardToSpecificParser P buffer).1.curStatus P = .good
    · have hsettle : (receiver P).settle (l.forwardToSpecificParser P buffer).1 =
          (l.forwardToSpecificParser P buffer).1 := if_pos (decide_eq_true hgood)
      rw [hsettle] at hcall
      rw [if_neg fun h => h hgood]
      cases hnext : (l.forwardToSpecificParser P buffer).1.curBulk P with
      | some n => exact ⟨_, .single hcall⟩
      | none =>
        rw [if_neg (show ¬(none : Option Nat).isSome from Bool.false_ne_true)]
        split
        · exact ⟨_, .single hcall⟩
        · obtain ⟨track', hsteps⟩ := ih _ (buffer.drop (l.forwardToSpecificParser P buffer).2) _ hnext
          exact ⟨track', .head hcall hsteps⟩
    · have hsettle : (receiver P).settle (l.forwardToSpecificParser P buffer).1 =
          (l.forwardToSpecificParser P buffer).1.resetParsers P :=
        if_neg fun h => hgood (of_decide_eq_true h)
      rw [hsettle] at hcall
      rw [if_pos hgood]
      obtain ⟨track', hsteps⟩ := ih ((l.forwardToSpecificParser P buffer).1.resetParsers P)
        (buffer.drop (l.forwardToSpecificParser P buffer).2) _ rfl
      exact ⟨track', .head hcall hsteps⟩

/-- A link as a state of the receiver. -/
def frameState (l : Link σ β) (track : Framing.Track) : Framing.State UInt8 (Link σ β) :=
  ⟨l.withBuffer [], l.buffer, track⟩

/-- What is done with the rest of the buffer is at most a reset. -/
theorem shift_steps (l : Link σ β) (rest : List UInt8) (track : Framing.Track) :
    ReflTransGen (Step (receiver P)) ⟨l.withBuffer [], rest, track⟩
      (frameState (l.shift P rest) track) := by
  unfold Link.shift
  split
  · exact .single .discard
  · exact .refl

/-- A turn of the task is a run of the receiver. -/
theorem turn_steps {x y : Link σ β × List UInt8} (hturn : Turn P x y) (track : Framing.Track) :
    ∃ track', ReflTransGen (Step (receiver P)) (frameState x.1 track) (frameState y.1 track') := by
  cases hturn with
  | @chunk l piece rest hbulk hpiece hroom =>
    have hread : Step (receiver P) (frameState l track)
        ⟨l.withBuffer [], l.buffer ++ piece, track⟩ := .read hbulk piece
    obtain ⟨track', hsteps⟩ := chunkLoop_steps (2 * (l.buffer ++ piece).length + 1)
      (l.withBuffer []) (l.buffer ++ piece) track hbulk
    rw [Link.chunkLoop_withBuffer] at hsteps
    exact ⟨track', (ReflTransGen.head hread hsteps).trans (shift_steps _ _ _)⟩
  | @bulk l n piece rest hbulk hpiece =>
    have hbulk' : Step (receiver P) (frameState l track) _ := .bulk hbulk hpiece
    have hforward : (receiver P).settle
        ((receiver P).forwardBulk (l.withBuffer []) ((l.buffer ++ piece).take n)) =
        (if (l.forwardBulk P ((l.buffer ++ piece).take n)).curStatus P ≠ .good then
          (l.forwardBulk P ((l.buffer ++ piece).take n)).resetParsers P
        else l.forwardBulk P ((l.buffer ++ piece).take n)).withBuffer [] := by
      show (receiver P).settle ((l.withBuffer []).forwardBulk P ((l.buffer ++ piece).take n)) = _
      rw [Link.forwardBulk_withBuffer]
      by_cases hgood : (l.forwardBulk P ((l.buffer ++ piece).take n)).curStatus P = .good
      · rw [if_neg fun h => h hgood]
        exact if_pos (decide_eq_true hgood)
      · rw [if_pos hgood]
        exact if_neg fun h => hgood (of_decide_eq_true h)
    rw [hforward] at hbulk'
    exact ⟨_, .head hbulk' (shift_steps _ _ _)⟩

/-- What the task does with a stream is a run of the receiver, of which `frameBound_links`
tells. -/
theorem run_steps {x y : Link σ β × List UInt8} (run : ReflTransGen (Turn P) x y)
    (track : Framing.Track) :
    ∃ track', ReflTransGen (Step (receiver P)) (frameState x.1 track) (frameState y.1 track') := by
  induction run with
  | refl => exact ⟨track, .refl⟩
  | tail _ hturn ih =>
    obtain ⟨track', hsteps⟩ := ih
    obtain ⟨track'', hsteps'⟩ := turn_steps hturn track'
    exact ⟨track'', hsteps.trans hsteps'⟩

/-! ## With the BPv6 parser -/

theorem consumes_examplePair : Consumes examplePair := fun _ _ _ => Nat.sub_le _ _

/-- A bundle with two bytes of payload, of which the segment has one. -/
def longPayload : Segment :=
  ⟨0x13, [28], [6, 0, 21, 0, 4, 0, 4, 0, 4, 0, 4, 0, 0, 0, 9,
    100, 116, 110, 0, 110, 111, 110, 101, 0, 1, 8, 2, 42]⟩

/-- The bulk goes on behind the end of the segment. -/
theorem bulk_behind_segment : ∃ x y,
    ReflTransGen (Framing.Step (receiver examplePair)) ⟨exampleLink, [], ⟨0, 0, 0⟩⟩ x ∧
      ¬(receiver examplePair).InBounds x ∧ Framing.Step (receiver examplePair) x y ∧
      y.track.stated < y.track.handed := by
  have hread : Framing.Step (receiver examplePair) ⟨exampleLink, [], ⟨0, 0, 0⟩⟩
      ⟨exampleLink, longPayload.bytes, ⟨0, 0, 0⟩⟩ := .read rfl longPayload.bytes
  refine ⟨_, _, ((ReflTransGen.single hread).tail (.call rfl)).tail (.call (by decide +kernel)),
    fun h => absurd (h (by decide +kernel)) (by decide +kernel),
    @Framing.Step.bulk _ _ _ _ _ [6] _ 2 (by decide +kernel) (by decide +kernel), by decide +kernel⟩

end Tcpclv3

end Upcn
