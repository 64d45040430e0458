import Upcn.Cla.RxTask
import Upcn.Mtcp.FrameBound
import Upcn.Tcpspp.Link

/-!
# The receive loop

The loop of `chunk_read` and the turns of `cla_contact_rx_task`, for the three kinds of links.
A call that consumes nothing and leaves a parser that failed is followed by a reset, and behind
a reset the parser of the headers consumes a byte or waits for more.

* `receiveProgress_links` is the result for the three links.
-/

namespace Upcn

open Upcn.Framing (Receiver Progresses ReceiveProgress)
open Upcn.Tcpclv3 (Version BundleParser claRxBufferSize)

variable {τ σ β : Type} {P : Version → BundleParser σ β}

/-! ## TCPCLv3 -/

namespace Tcpclv3

theorem consumed_tcpclv3ParserRead (l : Link σ β) (buffer : List UInt8) :
    (l.tcpclv3ParserRead buffer).2 ≤ buffer.length := by
  induction buffer generalizing l with
  | nil => exact Nat.le_refl 0
  | cons byte buffer ih =>
    rw [Link.tcpclv3ParserRead]
    split
    · exact Nat.succ_le_succ (ih _)
    · exact Nat.zero_le _

theorem receiver_progresses (hP : Consumes P) : Progresses (receiver P) where
  bounded l buffer _ := by
    by_cases hstage : l.stage = .forwardBundle
    · exact Nat.le_trans (forward_inside hP hstage buffer).1 (Nat.min_le_right _ _)
    · have hread : (receiver P).forward l buffer = l.tcpclv3ParserRead buffer := if_pos hstage
      rw [hread]
      exact consumed_tcpclv3ParserRead l buffer
  restarts l buffer hbuffer _ := by
    cases buffer with
    | nil => exact absurd rfl hbuffer
    | cons byte buffer => exact Nat.succ_pos _

end Tcpclv3

/-! ## MTCP -/

namespace Mtcp

variable {header : List UInt8 → Header}

/-- A header that is read is not empty, and in the buffer. -/
def HeaderConsumes (header : List UInt8 → Header) : Prop :=
  ∀ buffer length consumed, header buffer = .byteString length consumed →
    0 < consumed ∧ consumed ≤ buffer.length

theorem consumed_mtcpParserParse (hheader : HeaderConsumes header) (l : Link σ β)
    {buffer : List UInt8} (hbuffer : buffer ≠ []) :
    (l.mtcpParserParse header buffer).2 ≤ buffer.length := by
  unfold Link.mtcpParserParse
  split
  · exact Nat.zero_le _
  · exact List.length_pos_iff.mpr hbuffer
  · exact (hheader _ _ _ ‹_›).2

theorem receiver_progresses (hP : Consumes P) (hheader : HeaderConsumes header) :
    Progresses (receiver P header) where
  bounded l buffer hbuffer := by
    cases hdata : l.dataSubparser with
    | true => exact Nat.le_trans (forward_inside hP hdata buffer).1 (Nat.min_le_right _ _)
    | false =>
      have hparse : (receiver P header).forward l buffer = l.mtcpParserParse header buffer :=
        if_pos (by simp [hdata])
      rw [hparse]
      exact consumed_mtcpParserParse hheader l hbuffer
  restarts l buffer _ hbad := by
    have hparse : (receiver P header).forward ((receiver P header).reset l) buffer =
        (l.resetParsers P).mtcpParserParse header buffer := rfl
    rw [hparse] at hbad ⊢
    unfold Link.mtcpParserParse at hbad ⊢
    split at hbad
    · -- The parser of the headers waits for more bytes.
      exact absurd hbad (by simp [receiver, Link.curStatus, Link.resetParsers])
    · exact Nat.one_pos
    · exact (hheader _ _ _ ‹_›).1

end Mtcp

/-! ## TCPSPP -/

namespace Tcpspp

variable {ctx : SppContext τ}

/-- A TCPSPP link as a receiver.  It does not count what is left of a packet. -/
def receiver (ctx : SppContext τ) (P : Version → BundleParser σ β) :
    Receiver UInt8 (Link τ σ β) where
  remaining _ := none
  bulk l := l.curBulk P
  good l := decide (l.curStatus P = .good)
  reset l := l.resetParsers P
  forward l buffer := l.forwardToSpecificParser ctx P buffer
  forwardBulk l data := l.forwardBulk P data

theorem consumed_sppParserRead (l : Link τ σ β) (buffer : List UInt8) :
    (l.sppParserRead ctx buffer).2 ≤ buffer.length := by
  induction buffer generalizing l with
  | nil => exact Nat.le_refl 0
  | cons byte buffer ih =>
    rw [Link.sppParserRead]
    split
    · exact Nat.succ_le_succ (Nat.zero_le _)
    · exact Nat.succ_le_succ (ih _)

/-- The space packet parser consumes a byte. -/
theorem sppParserRead_pos (l : Link τ σ β) {buffer : List UInt8} (hbuffer : buffer ≠ []) :
    0 < (l.sppParserRead ctx buffer).2 := by
  cases buffer with
  | nil => exact absurd rfl hbuffer
  | cons byte buffer =>
    rw [Link.sppParserRead]
    split
    · exact Nat.one_pos
    · exact Nat.succ_pos _

theorem consumed_selectBundleParserVersion (hP : Consumes P) (l : Link τ σ β)
    (buffer : List UInt8) : (l.selectBundleParserVersion P buffer).2 ≤ buffer.length := by
  cases buffer with
  | nil => exact Nat.le_refl 0
  | cons byte buffer =>
    unfold Link.selectBundleParserVersion
    dsimp only
    split
    · exact Nat.zero_le _
    · exact hP _ _ _

theorem consumed_forwardUnknown (hP : Consumes P) (l : Link τ σ β) (buffer : List UInt8) :
    (l.forwardUnknown P buffer).2 ≤ buffer.length := by
  unfold Link.forwardUnknown
  split
  · exact consumed_selectBundleParserVersion hP l buffer
  · exact Nat.min_le_left _ _

theorem receiver_progresses (hP : Consumes P) : Progresses (receiver ctx P) where
  bounded l buffer _ := by
    show (l.forwardToSpecificParser ctx P buffer).2 ≤ buffer.length
    unfold Link.forwardToSpecificParser
    split
    · exact consumed_sppParserRead l buffer
    · cases l.payloadType with
      | none => exact consumed_forwardUnknown hP l buffer
      | some v => exact hP v _ _
  restarts l buffer hbuffer _ := by
    have hread : (receiver ctx P).forward ((receiver ctx P).reset l) buffer =
        (l.resetParsers P).sppParserRead ctx buffer := rfl
    rw [hread]
    exact sppParserRead_pos _ hbuffer

end Tcpspp

/-! ## The result -/

/-- On the three kinds of links, the loop ends from any state with any content of the buffer,
and the reads of a run have a target. -/
theorem receiveProgress_links (P : Version → BundleParser σ β) (header : List UInt8 → Mtcp.Header)
    (ctx : Tcpspp.SppContext τ) (hP : Consumes P) (hheader : Mtcp.HeaderConsumes header) :
    ReceiveProgress (Tcpclv3.receiver P) claRxBufferSize ∧
      ReceiveProgress (Mtcp.receiver P header) claRxBufferSize ∧
      ReceiveProgress (Tcpspp.receiver ctx P) claRxBufferSize :=
  ⟨(Tcpclv3.receiver_progresses hP).receiveProgress (by decide),
    (Mtcp.receiver_progresses hP hheader).receiveProgress (by decide),
    (Tcpspp.receiver_progresses hP).receiveProgress (by decide)⟩

theorem length_readHead {byte : UInt8} {buffer rest : List UInt8} {major value : Nat}
    (h : Cbor.readHead (byte :: buffer) = some (major, value, rest)) :
    rest.length ≤ buffer.length := by
  unfold Cbor.readHead at h
  dsimp only at h
  split_ifs at h <;> cases h
  · exact Nat.le_refl _
  · rw [List.length_drop]
    exact Nat.sub_le _ _

theorem headerConsumes_byteString : Mtcp.HeaderConsumes byteStringHeader := by
  intro buffer length consumed h
  cases buffer with
  | nil => cases h
  | cons byte buffer =>
    unfold byteStringHeader at h
    dsimp only at h
    split_ifs at h
    cases hread : Cbor.readHead (byte :: buffer) with
    | none =>
      rw [hread] at h
      cases h
    | some read =>
      rw [hread] at h
      obtain ⟨-, rfl⟩ := Mtcp.Header.byteString.inj h
      have hrest := length_readHead hread
      rw [List.length_cons]
      omega

/-- With the BPv6 parser, and without a timecode. -/
theorem receiveProgress_examplePair :
    ReceiveProgress (Tcpclv3.receiver Tcpclv3.examplePair) claRxBufferSize ∧
      ReceiveProgress (Mtcp.receiver Tcpclv3.examplePair byteStringHeader) claRxBufferSize ∧
      ReceiveProgress (Tcpspp.receiver (⟨0, none, fun t _ => (t, .error)⟩ : Tcpspp.SppContext Unit)
        Tcpclv3.examplePair) claRxBufferSize :=
  receiveProgress_links Tcpclv3.examplePair byteStringHeader _ Tcpclv3.consumes_examplePair
    headerConsumes_byteString

end Upcn
