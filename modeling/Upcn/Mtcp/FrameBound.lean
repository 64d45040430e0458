import Upcn.Lib.CborItems
import Upcn.Mtcp.Link
import Upcn.Tcpclv3.Frames

/-!
# The bound of a frame

An MTCP link is a receiver of frames as well: a byte string has `next_bytes`.  Neither kind
of link counts the bulks.
-/

namespace Upcn

open Upcn.Framing (Receiver Lawful FrameBound)
open Upcn.Tcpclv3 (Version BundleParser ParserResult)

variable {σ β : Type} {P : Version → BundleParser σ β}

namespace Mtcp

/-- An MTCP link as a receiver of frames. -/
def receiver (P : Version → BundleParser σ β) (header : List UInt8 → Header) :
    Receiver UInt8 (Link σ β) where
  remaining l := if l.dataSubparser then some l.nextBytes else none
  bulk l := l.curBulk P
  good l := decide (l.curStatus P = .good)
  reset l := l.resetParsers P
  forward l buffer := l.forwardToSpecificParser P header buffer
  forwardBulk l data := l.forwardBulk P data

/-- A bundle parser is used for the content of a byte string only. -/
def Valid (l : Link σ β) : Prop := l.curParser ≠ none → l.dataSubparser = true

variable {l : Link σ β} {header : List UInt8 → Header}

theorem remaining_eq_some {r : Nat} :
    (receiver P header).remaining l = some r ↔ l.dataSubparser = true ∧ l.nextBytes = r := by
  show (if l.dataSubparser then some l.nextBytes else none) = some r ↔ _
  cases hdata : l.dataSubparser with
  | true =>
    rw [if_pos rfl, Option.some_inj]
    exact (and_iff_right rfl).symm
  | false =>
    rw [if_neg Bool.false_ne_true]
    exact iff_of_false (fun h => by cases h) fun h => by cases h.1

theorem valid_resetParsers (l : Link σ β) : Valid (l.resetParsers P) := fun h => absurd rfl h

/-- The version is selected from bytes of the byte string, which stays the same. -/
theorem selectBundleParserVersion_spec (hP : Consumes P) (l : Link σ β) (buffer : List UInt8) :
    (l.selectBundleParserVersion P buffer).2 ≤ buffer.length ∧
      (l.selectBundleParserVersion P buffer).1.dataSubparser = l.dataSubparser ∧
      (l.selectBundleParserVersion P buffer).1.nextBytes = l.nextBytes := by
  cases buffer with
  | nil => exact ⟨Nat.le_refl 0, rfl, rfl⟩
  | cons byte buffer =>
    unfold Link.selectBundleParserVersion
    dsimp only
    cases Tcpclv3.Link.versionOf byte with
    | none => exact ⟨Nat.zero_le _, rfl, rfl⟩
    | some v => exact ⟨hP v _ _, rfl, rfl⟩

theorem remaining_countDown {n r : Nat}
    (h : (receiver P header).remaining (l.countDown P n) = some r) :
    l.dataSubparser = true ∧ r = l.nextBytes - n := by
  obtain ⟨hdata, hsize⟩ := remaining_eq_some.mp h
  unfold Link.countDown at hdata hsize
  dsimp only at hdata hsize
  split at hdata
  · cases hdata
  · rename_i hne
    rw [if_neg hne] at hsize
    exact ⟨hdata, hsize.symm⟩

theorem valid_countDown (n : Nat) (h : Valid l) : Valid (l.countDown P n) := by
  unfold Link.countDown
  dsimp only
  split
  · exact valid_resetParsers _
  · exact h

/-- In a byte string, a call consumes bytes of it and counts them. -/
theorem forward_inside (hP : Consumes P) (hdata : l.dataSubparser = true)
    (buffer : List UInt8) :
    (l.forwardToSpecificParser P header buffer).2 ≤ min l.nextBytes buffer.length ∧
      (∀ r, (receiver P header).remaining (l.forwardToSpecificParser P header buffer).1 = some r →
        r = l.nextBytes - (l.forwardToSpecificParser P header buffer).2) ∧
      Valid (l.forwardToSpecificParser P header buffer).1 := by
  have htake : (buffer.take l.nextBytes).length = min l.nextBytes buffer.length :=
    List.length_take
  unfold Link.forwardToSpecificParser
  rw [if_neg (by simp [hdata])]
  cases l.payloadType with
  | none =>
    obtain ⟨hconsumed, hdata', hsize⟩ :=
      selectBundleParserVersion_spec hP l (buffer.take l.nextBytes)
    dsimp only
    rw [htake] at hconsumed
    by_cases hzero : (l.selectBundleParserVersion P (buffer.take l.nextBytes)).2 = 0
    · rw [if_pos hzero]
      refine ⟨hconsumed, fun r hr => ?_, valid_countDown _ (valid_resetParsers _)⟩
      cases (remaining_countDown hr).1
    · rw [if_neg hzero]
      refine ⟨hconsumed, fun r hr => ?_, valid_countDown _ fun _ => hdata'.trans hdata⟩
      rw [(remaining_countDown hr).2, hsize]
  | some v =>
    dsimp only
    have hconsumed := hP v (l.parsers v) (buffer.take l.nextBytes)
    rw [htake] at hconsumed
    exact ⟨hconsumed, fun r hr => (remaining_countDown hr).2, valid_countDown _ fun _ => hdata⟩

theorem forwardBulk_inside (header : List UInt8 → Header) (hdata : l.dataSubparser = true)
    (data : List UInt8) :
    (∀ r, (receiver P header).remaining (l.forwardBulk P data) = some r → r = l.nextBytes) ∧
      Valid (l.forwardBulk P data) := by
  unfold Link.forwardBulk
  rw [if_neg (by simp [hdata])]
  cases l.payloadType with
  | none =>
    refine ⟨fun r hr => ?_, valid_countDown _ (valid_resetParsers _)⟩
    cases (remaining_countDown hr).1
  | some v => exact ⟨fun r hr => (remaining_countDown hr).2, valid_countDown _ fun _ => hdata⟩

theorem forwardBulk_outside (hdata : l.dataSubparser = false) (data : List UInt8) :
    l.forwardBulk P data = l := by
  unfold Link.forwardBulk
  rw [if_pos (by simp [hdata])]

theorem curParser_mtcpParserParse (l : Link σ β) (buffer : List UInt8) :
    (l.mtcpParserParse header buffer).1.curParser = l.curParser := by
  unfold Link.mtcpParserParse
  split <;> rfl

theorem receiver_lawful (hP : Consumes P) : Lawful (receiver P header) Valid where
  consumed l r buffer _ hr := by
    obtain ⟨hdata, rfl⟩ := remaining_eq_some.mp hr
    exact (forward_inside hP hdata buffer).1
  forward l r buffer r' _ hr hr' := by
    obtain ⟨hdata, rfl⟩ := remaining_eq_some.mp hr
    obtain ⟨hconsumed, hcount, -⟩ := forward_inside hP hdata buffer
    have hr'' := hcount r' hr'
    show r' + (l.forwardToSpecificParser P header buffer).2 = l.nextBytes
    omega
  forwardBulk l data r _ hr := by
    cases hdata : l.dataSubparser with
    | true =>
      rw [(forwardBulk_inside header hdata data).1 r hr]
      exact remaining_eq_some.mpr ⟨hdata, rfl⟩
    | false =>
      have hsame : (receiver P header).forwardBulk l data = l := forwardBulk_outside hdata data
      rwa [hsame] at hr
  reset l := rfl
  bulk l n hvalid hbulk := by
    have hcur : l.curParser ≠ none := by
      intro hnone
      have hbulk' : l.curBulk P = some n := hbulk
      rw [Link.curBulk, hnone] at hbulk'
      cases hbulk'
    exact ⟨l.nextBytes, remaining_eq_some.mpr ⟨hvalid hcur, rfl⟩⟩
  valid_forward l buffer hvalid := by
    cases hdata : l.dataSubparser with
    | true => exact (forward_inside hP hdata buffer).2.2
    | false =>
      have hparse : (receiver P header).forward l buffer = l.mtcpParserParse header buffer :=
        if_pos (by simp [hdata])
      intro hcur
      rw [hparse, curParser_mtcpParserParse] at hcur
      exact absurd ((hvalid hcur).symm.trans hdata) (by decide)
  valid_forwardBulk l data hvalid := by
    cases hdata : l.dataSubparser with
    | true => exact (forwardBulk_inside header hdata data).2
    | false =>
      have hsame : (receiver P header).forwardBulk l data = l := forwardBulk_outside hdata data
      rw [hsame]
      exact hvalid
  valid_reset l _ := valid_resetParsers l

end Mtcp

/-! ## The result -/

/-- On both kinds of links, what a bundle parser is given ends in the frame exactly when a
bulk fits into what is left of the frame, besides the bulks before, and the buffer does not
reach beyond the frame behind a bulk. -/
theorem frameBound_links (P : Version → BundleParser σ β) (header : List UInt8 → Mtcp.Header)
    (parsers : Version → σ) (hP : Consumes P) :
    FrameBound (Tcpclv3.receiver P) (.initial parsers) ∧
      FrameBound (Mtcp.receiver P header) (.initial parsers) :=
  ⟨(Tcpclv3.receiver_lawful hP).frameBound (fun h => absurd rfl h) rfl,
    (Mtcp.receiver_lawful hP).frameBound (fun h => absurd rfl h) rfl⟩

/-- The header of a byte string of definite length. -/
def byteStringHeader : List UInt8 → Mtcp.Header
  | [] => .incomplete
  | byte :: buffer =>
    if byte.toNat / 2 ^ 5 ≠ 2 ∨ 28 ≤ byte.toNat % 2 ^ 5 then .invalid
    else
      match Cbor.readHead (byte :: buffer) with
      | none => .incomplete
      | some (_, length, rest) => .byteString length (buffer.length + 1 - rest.length)

/-- With the BPv6 parser. -/
theorem frameBound_examplePair :
    FrameBound (Tcpclv3.receiver Tcpclv3.examplePair) Tcpclv3.exampleLink ∧
      FrameBound (Mtcp.receiver Tcpclv3.examplePair byteStringHeader)
        (.initial fun _ => .init 0) :=
  frameBound_links Tcpclv3.examplePair byteStringHeader (fun _ => .init 0)
    Tcpclv3.consumes_examplePair

end Upcn
