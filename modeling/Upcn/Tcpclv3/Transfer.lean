import Upcn.Bundle6.Content
import Upcn.Bundle6.SdnvCodec
import Upcn.Cla.Content
import Upcn.Cla.Delivery
import Upcn.Cla.Progress
import Upcn.Tcpclv3.Segments

/-!
# Packets over a TCPCLv3 link

What `tcpclv3_begin_packet` and the bytes of a packet make of a list of packets is received as
these packets, in any pieces (`delivers_packets`).  The bundle parser has to count down to the
last byte of a packet (`Whole`): with the last byte of a segment everything is reset.
-/

namespace Upcn.Tcpclv3

open Upcn.Bundle6 (ParserStatus sdnvWriteU32)
open Upcn.Framing (Delivers Receiver)

variable {σ β : Type} {P : Version → BundleParser σ β}
  {G : Version → σ → List UInt8 → β → Prop} {packets : List (Packet β)}

/-! ## The sender -/

/-- `tcpclv3_begin_packet`: the header of a segment with so many bytes of content.  The length is
an `uint32_t`. -/
def tcpclv3BeginPacket (length : Nat) : List UInt8 := 0x13 :: sdnvWriteU32 (length % 2 ^ 32)

/-- The bytes of a packet on the link. -/
def frame (f : Packet β) : List UInt8 := tcpclv3BeginPacket f.content.length ++ f.content

/-- The segment that is sent for a packet. -/
def segmentOf (f : Packet β) : Segment :=
  ⟨0x13, sdnvWriteU32 (f.content.length % 2 ^ 32), f.content⟩

theorem stream_segmentOf (packets : List (Packet β)) :
    stream (packets.map segmentOf) = packets.flatMap frame := by
  rw [stream, List.flatMap_map]
  rfl

theorem wellFramed_segmentOf {f : Packet β} (h : f.content.length < 2 ^ 32) :
    (segmentOf f).WellFramed where
  typeByte := (by decide : startsSegment 0x13 = true)
  size := by
    show IsSdnv (sdnvWriteU32 (f.content.length % 2 ^ 32)) f.content.length
    rw [Nat.mod_eq_of_lt h]
    obtain ⟨hfits, hpos, hle⟩ := Bundle6.sdnvGetSizeU32_spec h
    obtain ⟨front, last, hwritten⟩ := Bundle6.exists_written hpos hfits
    have hbytes : sdnvWriteU32 f.content.length = front ++ [last] := hwritten.bytes
    have hlength := hwritten.length
    rw [hbytes]
    exact ⟨⟨front, last, rfl, hwritten.marked, hwritten.ended⟩, by omega, hwritten.number, h⟩

/-! ## The receiver -/

/-- The parser is in a packet, of which so much is not read. -/
def InPacket (g : σ → List UInt8 → β → Prop) (s : σ) (unread : List UInt8) (_ : Nat)
    (out : List β) : Prop :=
  ∃ b, g s unread b ∧ Whole g b ∧ out = [b]

section
variable {p : BundleParser σ β} {g : σ → List UInt8 → β → Prop} {s : σ}
  {unread piece rest after : List UInt8} {b : β}

theorem skipped_nil : Skipped [] := fun _ hbyte => absurd hbyte List.not_mem_nil

theorem not_good_of_done {s : σ} (h : p.status s = .done) : p.status s ≠ .good := by
  rw [h]
  exact ParserStatus.noConfusion

/-- A call in a packet. -/
theorem outcome_call (hg : Parses p g) (hreads : g s unread b) (hwhole : Whole g b)
    (hbulk : p.bulkRead s = none) (hpiece : piece ≠ []) (heq : piece ++ rest = unread ++ after)
    (slack : Nat) :
    (p.read s piece).consumed ≤ piece.length ∧ 0 < (p.read s piece).consumed ∧
      Outcome p (InPacket g) unread slack [b] piece.length (p.read s piece) := by
  obtain ⟨hpos, hle, hle', hgoes, hpending⟩ := hg.call hreads hbulk piece rest after hpiece heq
  refine ⟨hle, hpos, ?_⟩
  cases hgoes with
  | done hstatus hall hdelivered =>
    refine .finished hle' (.inl (not_good_of_done hstatus)) ?_ hdelivered.symm
    rw [hall, List.drop_length]
    exact skipped_nil
  | on hstands hdelivered =>
    refine .goesOn [b] ?_ ⟨b, hstands, hwhole, rfl⟩ fun n hn => ?_
    · rw [hdelivered]
      rfl
    · exact hpending n hn (hg.good hstands)

/-- The parser goes through a packet. -/
theorem follows_inPacket (hg : Parses p g) : Follows p (InPacket g) where
  good := by
    rintro s unread slack out ⟨b, hreads, -, -⟩
    exact hg.good hreads
  unread := by
    rintro s unread slack out ⟨b, hreads, hwhole, -⟩
    exact hwhole _ _ hreads
  read := by
    rintro s unread slack out ⟨b, hreads, hwhole, rfl⟩ hbulk piece rest after hpiece heq -
    obtain ⟨hle, hpos, houtcome⟩ := outcome_call hg hreads hwhole hbulk hpiece heq slack
    exact ⟨hle, houtcome, fun _ => hpos⟩
  bulk := by
    rintro s unread slack out n ⟨b, hreads, hwhole, rfl⟩ hbulk
    obtain ⟨hle, hgoes, hnone⟩ := hg.bulk hreads hbulk
    refine ⟨hle, ?_⟩
    cases hgoes with
    | done hstatus hall hdelivered =>
      refine .inl ⟨not_good_of_done hstatus, ?_, hdelivered.symm⟩
      rw [hall, List.drop_length]
      exact skipped_nil
    | on hstands hdelivered =>
      refine .inr ⟨[b], ?_, ⟨b, hstands, hwhole, rfl⟩, hnone (hg.good hstands)⟩
      rw [hdelivered]
      rfl

end

theorem clean_of_carries {v : Version} {content : List UInt8} {b : β}
    (hg : Parses (P v) (G v)) (h : Carries P v (G v) content b) (hwhole : Whole (G v) b) :
    Clean P content [b] := by
  refine ⟨h.ne_nil, v, InPacket (G v), h.version, follows_inPacket hg, ?_⟩
  intro s piece rest hpiece heq _
  obtain ⟨hstart, hbulk⟩ := h.start s
  have heq' : piece ++ rest = content ++ [] := by rw [heq, List.append_nil]
  obtain ⟨hle, hpos, houtcome⟩ := outcome_call hg hstart hwhole hbulk hpiece heq' 0
  exact ⟨hle, hpos, houtcome⟩

/-! ## A bundle behind a bad frame -/

/-- A bundle with one byte of payload. -/
def goodBundle : Bundle6.Bundle := Bundle6.referringBundle [[97, 58, 98]]

/-- The segment that it is sent in. -/
def goodSegment : Segment := segmentOf ⟨goodBundle.packet, goodBundle.transferred⟩

theorem sendable_goodBundle : Bundle6.Parser.Sendable ⟨fun _ => true, 2 ^ 30⟩ (fun _ => 0)
    goodBundle := by
  refine ⟨Bundle6.wellFormed_referringBundle _ ?_ (by decide), by decide, by decide, by decide,
    fun _ => ⟨fun _ => rfl, by decide, by decide⟩⟩
  simp only [List.mem_singleton, forall_eq]
  exact ⟨by decide, by decide⟩

theorem clean_goodSegment : Clean examplePair goodSegment.content [goodBundle.transferred] := by
  have hends : Bundle6.Parser.EndsInData goodBundle := ⟨[], _, rfl, List.cons_ne_nil _ _⟩
  refine clean_of_carries (G := fun _ => Bundle6.Parser.InBundle ⟨fun _ => true, 2 ^ 30⟩)
    (v := .bundle6) (@Bundle6.Parser.parses_inBundle _ fun _ => 0)
    (Bundle6.Bundle.carries_bundle6 rfl sendable_goodBundle) fun s unread hstands => ?_
  exact hstands.ne_nil (Bundle6.Bundle.endsInData_transferred hends)

/-- Two beginnings of a bundle, and a bundle behind them. -/
def cutsAndBundle (seg : Segment) : List Segment := [cutBundle, seg, goodSegment]

/-- What is to be delivered from these segments. -/
def cutsDeliver (seg : Segment) : List Bundle6.Bundle :=
  if seg = goodSegment then [goodBundle.transferred] else []

theorem cutsAndBundle_clean {seg : Segment} (hseg : seg = cutBundle ∨ seg = longerCut) :
    ∀ s ∈ cutsAndBundle seg, s.WellFramed ∧ Clean examplePair s.content (cutsDeliver s) ∧
      s.content.head? ≠ some 0x9f := by
  have hcut : cutBundle.WellFramed :=
    ⟨by decide, ⟨[], 1, rfl, by simp, by decide⟩, by decide, by decide, by decide⟩
  have hlonger : longerCut.WellFramed :=
    ⟨by decide, ⟨[], 2, rfl, by simp, by decide⟩, by decide, by decide, by decide⟩
  simp only [cutsAndBundle, List.mem_cons, List.not_mem_nil, or_false, forall_eq_or_imp, forall_eq]
  refine ⟨⟨hcut, clean_cutBundle, by decide⟩, ?_,
    wellFramed_segmentOf (by decide), clean_goodSegment, by decide⟩
  rcases hseg with rfl | rfl
  · exact ⟨hcut, clean_cutBundle, by decide⟩
  · exact ⟨hlonger, clean_longerCut, by decide⟩

/-- The stream is received in two pieces. -/
theorem proceeds_twice {segs : List Segment} (n : Nat)
    (hsix : ∀ s ∈ segs, s.content.head? ≠ some 0x9f)
    (hfirst : (stream segs).take n ≠ [] ∧ ((stream segs).take n).length ≤ claRxBufferSize)
    (hbulk : (exampleLink.chunkRead examplePair ((stream segs).take n)).curBulk examplePair = none)
    (hsecond : (stream segs).drop n ≠ [] ∧ ((stream segs).drop n).length ≤ claRxBufferSize -
      (exampleLink.chunkRead examplePair ((stream segs).take n)).buffer.length) :
    Relation.ReflTransGen (Proceeds examplePair segs) (exampleLink, stream segs)
      ((exampleLink.chunkRead examplePair ((stream segs).take n)).chunkRead examplePair
        ((stream segs).drop n), []) := by
  have hnot : ∀ rest, NotCut segs rest := fun rest done seg todo heq hseven =>
    absurd hseven (hsix seg (by rw [heq]; simp))
  have hone : Turn examplePair (exampleLink, (stream segs).take n ++ (stream segs).drop n) _ :=
    .chunk rfl hfirst.1 hfirst.2
  rw [List.take_append_drop] at hone
  have htwo : Turn examplePair (_, (stream segs).drop n ++ []) _ :=
    .chunk hbulk hsecond.1 hsecond.2
  rw [List.append_nil] at htwo
  exact .tail (.single ⟨hone, hnot _⟩) ⟨htwo, hnot _⟩

/-- The bundle is delivered behind either of them; the first piece ends within its header. -/
theorem delivered_after_cuts :
    ((exampleLink.chunkRead examplePair ((stream (cutsAndBundle cutBundle)).take 20)).chunkRead
        examplePair ((stream (cutsAndBundle cutBundle)).drop 20)).delivered =
      [goodBundle.transferred] ∧
    ((exampleLink.chunkRead examplePair ((stream (cutsAndBundle longerCut)).take 20)).chunkRead
        examplePair ((stream (cutsAndBundle longerCut)).drop 20)).delivered =
      [goodBundle.transferred] := by
  have hcut := cutsAndBundle_clean (.inl rfl)
  have hlonger := cutsAndBundle_clean (.inr rfl)
  exact delivered_after examplePair cutsDeliver [cutBundle] [goodSegment] cutBundle longerCut
    (fun _ => .init 0) _ _ (fun _ => ⟨.init 0, rfl⟩)
    (fun s hs => (hcut s hs).1) (fun s hs => (hlonger s hs).1)
    (fun s hs => (hcut s hs).2.1) (fun s hs => (hlonger s hs).2.1)
    (proceeds_twice 20 (fun s hs => (hcut s hs).2.2) (by decide +kernel) (by decide +kernel)
      (by decide +kernel))
    (proceeds_twice 20 (fun s hs => (hlonger s hs).2.2) (by decide +kernel) (by decide +kernel)
      (by decide +kernel))
    (by decide +kernel) (by decide +kernel)

/-! ## The packets as segments -/

/-- What is to be delivered from a segment. -/
noncomputable def bundleOf (P : Version → BundleParser σ β)
    (G : Version → σ → List UInt8 → β → Prop) (seg : Segment) : List β :=
  open Classical in
  if h : ∃ b, ∃ v, Carries P v (G v) seg.content b then [h.choose] else []

/-- A content is one bundle only. -/
theorem bundleOf_eq (hG : ∀ v, Parses (P v) (G v)) (s : σ) {v : Version} {seg : Segment} {b : β}
    (h : Carries P v (G v) seg.content b) : bundleOf P G seg = [b] := by
  have hexists : ∃ b, ∃ v, Carries P v (G v) seg.content b := ⟨b, v, h⟩
  obtain ⟨v', h'⟩ := hexists.choose_spec
  obtain rfl : v' = v := Option.some.inj (h'.version.symm.trans h.version)
  rw [bundleOf, dif_pos hexists, (hG v').unique (h'.start s).1 (h.start s).1]

/-! ## The task over the stream -/

section
variable {segs : List Segment} {outs : Segment → List β} {l : Link σ β}
  {unread piece rest : List UInt8} {out : List β}

theorem settle_eq (l : Link σ β) : (receiver P).settle l =
    if l.curStatus P = .good then l else l.resetParsers P := by
  rw [Receiver.settle]
  by_cases hgood : l.curStatus P = .good
  · rw [if_pos hgood]
    exact if_pos (decide_eq_true hgood)
  · rw [if_neg hgood]
    exact if_neg fun h => hgood (of_decide_eq_true h)

/-- Without a BPv7 bundle, nothing can be cut behind its first byte. -/
theorem notCut_of_six (hsix : ∀ seg ∈ segs, seg.content.head? ≠ some 0x9f) (rest : List UInt8) :
    NotCut segs rest := by
  intro done seg todo hsegs hseven
  exact absurd hseven (hsix seg (by rw [hsegs]; simp))

/-- What a call leaves, as the task sees it. -/
theorem At.call (hframed : ∀ seg ∈ segs, seg.WellFramed)
    (hclean : ∀ seg ∈ segs, Clean P seg.content (outs seg))
    (hsix : ∀ seg ∈ segs, seg.content.head? ≠ some 0x9f) (h : At P segs outs l unread out)
    (hbulk : l.curBulk P = none) (hpiece : piece ≠ []) (heq : piece ++ rest = unread) :
    ∃ l' n later, l.forwardToSpecificParser P piece = (l', n) ∧ n ≤ piece.length ∧
      l.delivered ++ out = ((receiver P).settle l').delivered ++ later ∧
      At P segs outs ((receiver P).settle l') (unread.drop n) later ∧
      (∀ k, ((receiver P).settle l').curBulk P = some k → piece.length ≤ n + k) ∧
      (n = 0 → piece.length < claRxBufferSize ∧ rest ≠ []) := by
  subst heq
  obtain ⟨l', n, new, later, hcall, hn, hout, hdelivered, hstands, hprogress⟩ :=
    h.forward hframed hclean (notCut_of_six hsix rest) hpiece hbulk
  have hdrop : (piece ++ rest).drop n = piece.drop n ++ rest :=
    List.drop_append_of_le_length hn
  have hlength : (piece.drop n).length = piece.length - n := List.length_drop
  have hwaits : n = 0 → piece.length < claRxBufferSize ∧ rest ≠ [] := by
    intro hzero
    constructor
    · by_contra hfull
      have hpos := hprogress (.inr (.inl (by omega)))
      omega
    · intro hend
      have hpos := hprogress (.inr (.inr hend))
      omega
  refine ⟨l', n, later, hcall, hn, ?_⟩
  rw [settle_eq, hdrop]
  rcases hstands with ⟨hbad, -, hat⟩ | ⟨hgood, hat, hpending⟩
  · rw [if_neg hbad]
    refine ⟨?_, hat, fun k hk => ?_, hwaits⟩
    · show _ = l'.delivered ++ later
      rw [hdelivered, hout, List.append_assoc]
    · rw [(l'.resetParsers_fresh P).curBulk] at hk
      cases hk
  · rw [if_pos hgood]
    refine ⟨by rw [hdelivered, hout, List.append_assoc], hat, fun k hk => ?_, hwaits⟩
    rcases hpending k hk with hlt | hempty
    · omega
    · rw [hempty, List.length_nil] at hlength
      omega

/-- What a bulk leaves. -/
theorem At.bulk {n : Nat} (h : At P segs outs l unread out) (hbulk : l.curBulk P = some n) :
    n ≤ unread.length ∧
      ((receiver P).settle (l.forwardBulk P (unread.take n))).curBulk P = none ∧
      ∃ later, l.delivered ++ out =
          ((receiver P).settle (l.forwardBulk P (unread.take n))).delivered ++ later ∧
        At P segs outs ((receiver P).settle (l.forwardBulk P (unread.take n))) (unread.drop n)
          later := by
  obtain ⟨done, todo, v, R, bytes, slack, o, hsegs, hfollows, hreads, hstage, hsdnv, hpayload,
    hnext, hvalue, rfl, rfl⟩ := h.of_bulk hbulk
  obtain ⟨hle, hresult⟩ := hfollows.bulk hreads hnext
  have hne := List.length_pos_iff.mpr (hfollows.unread hreads)
  have htake : (bytes ++ stream todo).take n = bytes.take n :=
    List.take_append_of_le_length hle
  have hdrop : (bytes ++ stream todo).drop n = bytes.drop n ++ stream todo :=
    List.drop_append_of_le_length hle
  have hforward : l.forwardBulk P (bytes.take n) =
      l.withResult v ((P v).readBulk (l.parsers v) (bytes.take n)) := by
    rw [Link.forwardBulk, if_neg fun h => h hstage, hpayload]
    dsimp only
    rw [Link.countDown, if_neg]
    · rfl
    · show l.fragmentSize - 0 ≠ 0
      omega
  refine ⟨by rw [List.length_append]; omega, ?_⟩
  rw [htake, hdrop, hforward, settle_eq]
  generalize (P v).readBulk (l.parsers v) (bytes.take n) = result at hresult
  have hparser : Function.update l.parsers v result.parser v = result.parser :=
    Function.update_self ..
  have hstatus : (l.withResult v result).curStatus P = (P v).status result.parser :=
    congrArg (P v).status hparser
  rw [hstatus]
  rcases hresult with ⟨hbad, hskip, hdelivered⟩ | ⟨later, hlater, hafter, hnone⟩
  · rw [if_neg hbad]
    have hfresh := (l.withResult v result).resetParsers_fresh P
    refine ⟨hfresh.curBulk, todo.flatMap outs, ?_, at_resetParsers hsegs hskip hsdnv⟩
    show _ = (l.delivered ++ result.delivered) ++ todo.flatMap outs
    rw [hdelivered, List.append_assoc]
  · rw [if_pos (hfollows.good hafter)]
    have hreads' : R ((l.withResult v result).parsers v) (bytes.drop n) (slack + n) later := by
      show R (Function.update l.parsers v result.parser v) _ _ _
      rw [hparser]
      exact hafter
    have hvalue' : l.fragmentSize = (bytes.drop n).length + (slack + n) := by
      rw [List.length_drop]
      omega
    refine ⟨?_, later ++ todo.flatMap outs, ?_,
      .inside done todo hsegs hfollows hreads' hstage hsdnv hpayload rfl hvalue'⟩
    · show (P v).bulkRead (Function.update l.parsers v result.parser v) = none
      rw [hparser, hnone]
    · show _ = (l.delivered ++ result.delivered) ++ _
      rw [hlater]
      simp only [List.append_assoc]

/-- At the end of the stream there is nothing more to deliver. -/
theorem At.finished (hclean : ∀ seg ∈ segs, Clean P seg.content (outs seg))
    (h : At P segs outs l [] out) : out = [] := by
  generalize hnil : ([] : List UInt8) = bytes at h
  cases h with
  | idle done todo =>
    cases todo with
    | nil => rfl
    | cons seg todo =>
      obtain ⟨-, hstream⟩ := List.append_eq_nil_iff.mp hnil.symm
      cases hstream
  | size done seg todo hsegs hfresh hstage htype hsize hpost =>
    exact absurd (List.append_eq_nil_iff.mp hnil.symm).1 hpost
  | start done seg todo hsegs =>
    obtain ⟨hne, -⟩ := hclean seg (by rw [hsegs]; simp)
    exact absurd (List.append_eq_nil_iff.mp hnil.symm).1 hne
  | inside done todo hsegs hfollows hreads =>
    exact absurd (List.append_eq_nil_iff.mp hnil.symm).1 (hfollows.unread hreads)

theorem follows_segments (hframed : ∀ seg ∈ segs, seg.WellFramed)
    (hclean : ∀ seg ∈ segs, Clean P seg.content (outs seg))
    (hsix : ∀ seg ∈ segs, seg.content.head? ≠ some 0x9f) :
    Framing.Follows (receiver P) claRxBufferSize (·.delivered) (At P segs outs) where
  consumed hat hbulk piece rest hpiece heq := by
    obtain ⟨l', n, later, hcall, hn, -⟩ := hat.call hframed hclean hsix hbulk hpiece heq
    show (Link.forwardToSpecificParser P _ piece).2 ≤ piece.length
    rw [hcall]
    exact hn
  call {l unread out} hat hbulk piece rest hpiece heq := by
    obtain ⟨l', n, later, hcall, -, hout, hat', -⟩ :=
      hat.call hframed hclean hsix hbulk hpiece heq
    have hforward : (receiver P).forward l piece = (l', n) := hcall
    rw [hforward]
    exact ⟨later, hout, hat'⟩
  pending {l unread out} hat hbulk piece rest k hpiece heq hk := by
    obtain ⟨l', n, later, hcall, -, -, -, hpending, -⟩ :=
      hat.call hframed hclean hsix hbulk hpiece heq
    have hforward : (receiver P).forward l piece = (l', n) := hcall
    rw [hforward] at hk ⊢
    exact hpending k hk
  waits {l unread out} hat hbulk piece rest hpiece heq hzero _ := by
    obtain ⟨l', n, later, hcall, -, -, -, -, hwaits⟩ :=
      hat.call hframed hclean hsix hbulk hpiece heq
    have hforward : (receiver P).forward l piece = (l', n) := hcall
    rw [hforward] at hzero
    exact hwaits hzero
  bulk hat hbulk := hat.bulk hbulk
  reset l := (l.resetParsers_fresh P).curBulk
  finished hat _ := hat.finished hclean

end

/-- The packets are delivered, in whatever pieces the stream arrives. -/
theorem delivers_packets (hG : ∀ v, Parses (P v) (G v)) (hP : Consumes P)
    (hsound : Sound P G packets) (hlength : ∀ f ∈ packets, f.content.length < 2 ^ 32)
    (hsix : ∀ f ∈ packets, f.content.head? ≠ some 0x9f) {parsers : Version → σ}
    (hready : ∀ v, ∃ s, parsers v = (P v).reset s) :
    Delivers (receiver P) claRxBufferSize (·.delivered) (.initial parsers)
      (packets.flatMap frame) (packets.map Packet.bundle) := by
  have hmem : ∀ seg ∈ packets.map segmentOf, ∃ f ∈ packets, segmentOf f = seg :=
    fun seg hseg => List.mem_map.mp hseg
  have hclean : ∀ seg ∈ packets.map segmentOf, Clean P seg.content (bundleOf P G seg) := by
    intro seg hseg
    obtain ⟨f, hf, rfl⟩ := hmem seg hseg
    obtain ⟨v, hcarries, hwhole⟩ := hsound f hf
    rw [bundleOf_eq hG (parsers v) hcarries]
    exact clean_of_carries (hG v) hcarries hwhole
  have hframed : ∀ seg ∈ packets.map segmentOf, seg.WellFramed := by
    intro seg hseg
    obtain ⟨f, hf, rfl⟩ := hmem seg hseg
    exact wellFramed_segmentOf (hlength f hf)
  have hsix' : ∀ seg ∈ packets.map segmentOf, seg.content.head? ≠ some 0x9f := by
    intro seg hseg
    obtain ⟨f, hf, rfl⟩ := hmem seg hseg
    exact hsix f hf
  have hstart : At P (packets.map segmentOf) (bundleOf P G) (.initial parsers)
      (packets.flatMap frame) (packets.map Packet.bundle) := by
    have hat : At P (packets.map segmentOf) (bundleOf P G) (.initial parsers)
        ([] ++ stream (packets.map segmentOf)) ((packets.map segmentOf).flatMap (bundleOf P G)) :=
      .idle [] _ rfl skipped_nil ⟨rfl, rfl, rfl, hready⟩ rfl rfl
    rw [List.nil_append, stream_segmentOf] at hat
    have hbundles : (packets.map segmentOf).flatMap (bundleOf P G) =
        packets.map Packet.bundle := by
      rw [List.flatMap_map, List.map_eq_flatMap]
      refine List.flatMap_congr fun f hf => ?_
      obtain ⟨v, hcarries, -⟩ := hsound f hf
      exact bundleOf_eq hG (parsers v) hcarries
    rwa [hbundles] at hat
  exact (follows_segments hframed hclean hsix').delivers (receiver_progresses hP) (by decide) hstart rfl

end Upcn.Tcpclv3
