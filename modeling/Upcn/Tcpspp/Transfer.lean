import Upcn.Cla.Content
import Upcn.Cla.Delivery
import Upcn.Cla.Progress
import Upcn.Crc
import Upcn.Spp.RoundTrip

/-!
# Packets over a TCPSPP link

What `tcpspp_begin_packet`, the bytes of a packet and `tcpspp_end_packet` make of a list of packets
is received as these packets, in any pieces (`delivers_packets`).  The link does not count the bytes
of a space packet: it is behind the content when the bundle parser is, and skips the CRC then.
-/

namespace Upcn.Tcpspp

open Upcn.Bundle6 (ParserStatus)
open Upcn.Crc (crcInit)
open Upcn.Framing (Delivers Receiver)
open Upcn.Spp (SppMeta SppParser SppPrimaryHeader SppState TcParser)
open Upcn.Tcpclv3 (Version BundleParser ParserResult claRxBufferSize)

variable {τ σ β : Type} {P : Version → BundleParser σ β} {ctx : SppContext τ}
  {G : Version → σ → List UInt8 → β → Prop}

/-! ## The sender -/

/-- `tcpspp_begin_packet`: the header of a space packet with so many bytes of content and the CRC,
or `none` where `spp_serialize_header` fails. -/
def tcpsppBeginPacket (ctx : Spp.SppContext) (apid : UInt16) (timestamp : UInt64) (length : Nat) :
    Option (List UInt8) :=
  ctx.serializeHeader
    { isRequest := false
      apid := apid
      segmentStatus := .unsegmented
      segmentNumber := 0
      dtnTimestamp := timestamp
      dtnCounter := 0 } (UInt64.ofNat length + 2)

/-- `tcpspp_end_packet`: the CRC of the header and the content, in network byte order. -/
def tcpsppEndPacket (header content : List UInt8) : List UInt8 :=
  let crc := (((crcInit .crc16CcittFalse).crcFeedBytes header).crcFeedBytes content).feedEof
  [(crc.checksum >>> 8).toUInt8, crc.checksum.toUInt8]

/-- A space packet on the link. -/
structure Frame (β : Type) extends Packet β where
  header : List UInt8
  crc : List UInt8

/-- The bytes of it. -/
def Frame.bytes (f : Frame β) : List UInt8 := f.header ++ (f.content ++ f.crc)

/-- What is sent for a packet at this time. -/
def sent (ctx : Spp.SppContext) (apid : UInt16) (timestamp : UInt64) (f : Packet β) : Frame β :=
  let header := (tcpsppBeginPacket ctx apid timestamp f.content.length).getD []
  { f with header := header, crc := tcpsppEndPacket header f.content }

/-! ## Where the link stands -/

/-- Nothing of a bundle is parsed yet, and the space packet parser is in use. -/
structure Link.Ready (P : Version → BundleParser σ β) (l : Link τ σ β) : Prop where
  sppStatus : l.sppStatus = .good
  payloadType : l.payloadType = none
  tcpsppPayloadType : l.tcpsppPayloadType = .data
  curParser : l.curParser = .spp
  parsers : ∀ v, ∃ s, l.parsers v = (P v).reset s

/-- The link takes the bytes as the header of a space packet, and stands before the data with the
last one of them. -/
inductive HeaderReads (ctx : SppContext τ) (P : Version → BundleParser σ β) :
    Link τ σ β → List UInt8 → Prop where
  | last {l l' : Link τ σ β} {byte : UInt8} (hstate : l.sppState ≠ .dataSubparser)
    (hparse : l.sppParseByte ctx byte = (l', false)) (hdata : l'.sppState = .dataSubparser)
    (hready : l'.Ready P) (hdelivered : l'.delivered = l.delivered) : HeaderReads ctx P l [byte]
  | more {l l' : Link τ σ β} {byte : UInt8} {rest : List UInt8}
    (hstate : l.sppState ≠ .dataSubparser) (hparse : l.sppParseByte ctx byte = (l', true))
    (hready : l'.Ready P) (hdelivered : l'.delivered = l.delivered)
    (hrest : HeaderReads ctx P l' rest) : HeaderReads ctx P l (byte :: rest)

/-- Every frame has a header that is read as such, a bundle as its content, and two more bytes. -/
structure Frame.Sound (ctx : SppContext τ) (P : Version → BundleParser σ β)
    (G : Version → σ → List UInt8 → β → Prop) (f : Frame β) : Prop where
  header : ∀ l : Link τ σ β, l.Ready P → l.sppState = .phP1Msb → HeaderReads ctx P l f.header
  content : ∃ v, Carries P v (G v) f.content f.bundle
  crc : f.crc.length = 2

/-- The link stands in the stream of these frames: behind all of them, in a header, behind one, in
a bundle, or in a CRC. -/
inductive At (ctx : SppContext τ) (P : Version → BundleParser σ β)
    (G : Version → σ → List UInt8 → β → Prop) : Link τ σ β → List UInt8 → List β → Prop where
  | finished {l : Link τ σ β} (hready : l.Ready P) : At ctx P G l [] []
  | header {l : Link τ σ β} {unread : List UInt8} {f : Frame β} {todo : List (Frame β)}
    (hsound : ∀ g ∈ f :: todo, g.Sound ctx P G) (hready : l.Ready P)
    (hreads : HeaderReads ctx P l unread) :
    At ctx P G l (unread ++ (f.content ++ (f.crc ++ todo.flatMap Frame.bytes)))
      (f.bundle :: todo.map (·.bundle))
  | start {l : Link τ σ β} {f : Frame β} {todo : List (Frame β)}
    (hsound : ∀ g ∈ f :: todo, g.Sound ctx P G) (hready : l.Ready P)
    (hdata : l.sppState = .dataSubparser) :
    At ctx P G l (f.content ++ (f.crc ++ todo.flatMap Frame.bytes))
      (f.bundle :: todo.map (·.bundle))
  | inside {l : Link τ σ β} {v : Version} {unread crc : List UInt8} {b : β}
    {todo : List (Frame β)} (hsound : ∀ f ∈ todo, f.Sound ctx P G)
    (hstands : G v (l.parsers v) unread b) (hcrc : crc.length = 2)
    (hdata : l.sppState = .dataSubparser) (hpayload : l.payloadType = some v)
    (hcur : l.curParser = .bundle v) :
    At ctx P G l (unread ++ (crc ++ todo.flatMap Frame.bytes)) (b :: todo.map (·.bundle))
  | crc {l : Link τ σ β} {unread : List UInt8} {todo : List (Frame β)}
    (hsound : ∀ f ∈ todo, f.Sound ctx P G) (hleft : l.crcCtr + unread.length = 2)
    (hunread : unread ≠ []) (hdata : l.sppState = .dataSubparser) (hstatus : l.crcStatus = .good)
    (hpayload : l.payloadType = none) (hcrc : l.tcpsppPayloadType = .crc16)
    (hcur : l.curParser = .crc) :
    At ctx P G l (unread ++ todo.flatMap Frame.bytes) (todo.map (·.bundle))

variable {l : Link τ σ β} {unread piece rest : List UInt8} {out : List β}
  {f : Frame β} {todo : List (Frame β)}

theorem Link.Ready.curStatus (h : l.Ready P) : l.curStatus P = .good := by
  rw [Link.curStatus, h.curParser]
  exact h.sppStatus

theorem Link.Ready.curBulk (h : l.Ready P) : l.curBulk P = none := by
  rw [Link.curBulk, h.curParser]

theorem Link.resetParsers_ready (P : Version → BundleParser σ β) (l : Link τ σ β) :
    (l.resetParsers P).Ready P := ⟨rfl, rfl, rfl, rfl, fun v => ⟨l.parsers v, rfl⟩⟩

theorem settle_eq (l : Link τ σ β) : (receiver ctx P).settle l =
    if l.curStatus P = .good then l else l.resetParsers P := by
  rw [Receiver.settle]
  by_cases hgood : l.curStatus P = .good
  · rw [if_pos hgood]
    exact if_pos (decide_eq_true hgood)
  · rw [if_neg hgood]
    exact if_neg fun h => hgood (of_decide_eq_true h)

theorem settle_of_good (ctx : SppContext τ) (h : l.curStatus P = .good) :
    (receiver ctx P).settle l = l := by
  rw [settle_eq, if_pos h]

/-- Behind the CRC everything is reset. -/
theorem settle_of_crc (hcur : l.curParser = .crc) (hstatus : l.crcStatus = .done) :
    (receiver ctx P).settle l = l.resetParsers P := by
  have hdone : l.curStatus P = .done := by
    rw [Link.curStatus, hcur]
    exact hstatus
  rw [settle_eq, hdone, if_neg ParserStatus.noConfusion]

/-- Before a frame, or behind all of them. -/
theorem at_ready (hsound : ∀ f ∈ todo, f.Sound ctx P G) (hready : l.Ready P)
    (hstate : l.sppState = .phP1Msb) :
    At ctx P G l (todo.flatMap Frame.bytes) (todo.map (·.bundle)) := by
  cases todo with
  | nil => exact .finished hready
  | cons f todo =>
    have hreads := (hsound f List.mem_cons_self).header l hready hstate
    rw [List.flatMap_cons, List.map_cons, Frame.bytes, List.append_assoc, List.append_assoc]
    exact .header hsound hready hreads

/-! ## A call -/

/-- What a call with a piece of the stream leaves. -/
structure Called (ctx : SppContext τ) (P : Version → BundleParser σ β)
    (G : Version → σ → List UInt8 → β → Prop) (l : Link τ σ β) (out : List β)
    (piece rest : List UInt8) (result : Link τ σ β × Nat) : Prop where
  consumed : 0 < result.2 ∧ result.2 ≤ piece.length
  stands : ∃ later, l.delivered ++ out = ((receiver ctx P).settle result.1).delivered ++ later ∧
    At ctx P G ((receiver ctx P).settle result.1) (piece.drop result.2 ++ rest) later
  pending : ∀ n, ((receiver ctx P).settle result.1).curBulk P = some n →
    piece.length ≤ result.2 + n

/-- The space packet parser in a header: it stops behind it, or has read the whole piece. -/
theorem HeaderReads.read (h : HeaderReads ctx P l unread) (hready : l.Ready P) {after : List UInt8}
    (hpiece : piece ≠ []) (heq : piece ++ rest = unread ++ after) :
    (l.sppParserRead ctx piece).2 ≤ piece.length ∧ 0 < (l.sppParserRead ctx piece).2 ∧
      (l.sppParserRead ctx piece).1.Ready P ∧
      (l.sppParserRead ctx piece).1.delivered = l.delivered ∧
      (((l.sppParserRead ctx piece).1.sppState = .dataSubparser ∧
          piece.drop (l.sppParserRead ctx piece).2 ++ rest = after) ∨
        ∃ left, HeaderReads ctx P (l.sppParserRead ctx piece).1 left ∧
          piece.drop (l.sppParserRead ctx piece).2 ++ rest = left ++ after) := by
  induction h generalizing piece with
  | @last l l' byte hstate hparse hdata hready' hdelivered =>
    obtain ⟨first, piece', rfl⟩ := List.exists_cons_of_ne_nil hpiece
    obtain ⟨rfl, hrest⟩ := List.cons.inj heq
    rw [Link.sppParserRead, hparse]
    exact ⟨Nat.le_add_left 1 _, Nat.one_pos, hready', hdelivered, .inl ⟨hdata, hrest⟩⟩
  | @more l l' byte left hstate hparse hready' hdelivered hleft ih =>
    obtain ⟨first, piece', rfl⟩ := List.exists_cons_of_ne_nil hpiece
    obtain ⟨rfl, hrest⟩ := List.cons.inj heq
    rw [Link.sppParserRead, hparse]
    dsimp only
    by_cases hnil : piece' = []
    · subst hnil
      exact ⟨Nat.le_refl 1, Nat.one_pos, hready', hdelivered, .inr ⟨left, hleft, hrest⟩⟩
    · obtain ⟨hle, -, hready'', hdelivered', hstands⟩ := ih hready' hnil hrest
      refine ⟨Nat.succ_le_succ hle, Nat.succ_pos _, hready'', hdelivered'.trans hdelivered, ?_⟩
      rw [List.drop_succ_cons]
      exact hstands

theorem called_header (hsound : ∀ g ∈ f :: todo, g.Sound ctx P G) (hready : l.Ready P)
    (hreads : HeaderReads ctx P l unread) (hpiece : piece ≠ [])
    (heq : piece ++ rest = unread ++ (f.content ++ (f.crc ++ todo.flatMap Frame.bytes))) :
    Called ctx P G l (f.bundle :: todo.map (·.bundle)) piece rest
      (l.forwardToSpecificParser ctx P piece) := by
  have hstate : l.sppState ≠ .dataSubparser := by
    cases hreads with
    | last hstate => exact hstate
    | more hstate => exact hstate
  rw [Link.forwardToSpecificParser, if_pos hstate]
  obtain ⟨hle, hpos, hready', hdelivered, hstands⟩ := hreads.read hready hpiece heq
  have hsettle := settle_of_good ctx hready'.curStatus
  refine ⟨⟨hpos, hle⟩, ⟨f.bundle :: todo.map (·.bundle), ?_, ?_⟩, fun n hn => ?_⟩
  · rw [hsettle, hdelivered]
  · rw [hsettle]
    rcases hstands with ⟨hdata, hrest⟩ | ⟨left, hleft, hrest⟩
    · rw [hrest]
      exact .start hsound hready' hdata
    · rw [hrest]
      exact .header hsound hready' hleft
  · rw [hsettle, hready'.curBulk] at hn
    cases hn

/-- Behind a bundle the CRC is expected, and the task goes on. -/
theorem settle_expectCrc (ctx : SppContext τ) (P : Version → BundleParser σ β)
    (l : Link τ σ β) (v : Version) (result : ParserResult σ β) :
    ((P v).status result.parser = .done →
      (receiver ctx P).settle ((l.withResult v result).expectCrc P) =
        Link.crc16ParserInit
          { l.withResult v result with tcpsppPayloadType := .crc16, payloadType := none }) ∧
    ((P v).status result.parser = .good →
      (receiver ctx P).settle ((l.withResult v result).expectCrc P) = l.withResult v result) := by
  have hparser : Function.update l.parsers v result.parser v = result.parser :=
    Function.update_self ..
  have hstatus : (l.withResult v result).curStatus P = (P v).status result.parser :=
    congrArg (P v).status hparser
  have hexpect : (l.withResult v result).expectCrc P =
      if (P v).status result.parser = .done then
        Link.crc16ParserInit
          { l.withResult v result with tcpsppPayloadType := .crc16, payloadType := none }
      else l.withResult v result := by
    rw [← hstatus]
    rfl
  refine ⟨fun hdone => ?_, fun hgood => ?_⟩
  · rw [hexpect, if_pos hdone]
    exact settle_of_good ctx rfl
  · have hnot : ¬ (P v).status result.parser = .done := by
      rw [hgood]
      exact ParserStatus.noConfusion
    rw [hexpect, if_neg hnot]
    exact settle_of_good ctx (hstatus.trans hgood)

/-- What a bundle parser leaves, of the data of a frame. -/
theorem called_inside {v : Version} {crc : List UInt8} {b : β} (hG : Parses (P v) (G v))
    (hsound : ∀ f ∈ todo, f.Sound ctx P G) (hstands : G v (l.parsers v) unread b)
    (hbulk : (P v).bulkRead (l.parsers v) = none) (hcrc : crc.length = 2)
    (hdata : l.sppState = .dataSubparser) (hpayload : l.payloadType = some v)
    (hpiece : piece ≠ []) (heq : piece ++ rest = unread ++ (crc ++ todo.flatMap Frame.bytes)) :
    Called ctx P G l (b :: todo.map (·.bundle)) piece rest
      ((l.withResult v ((P v).read (l.parsers v) piece)).expectCrc P,
        ((P v).read (l.parsers v) piece).consumed) := by
  obtain ⟨hpos, hle, hle', hgoes, hpending⟩ := hG.call hstands hbulk _ _ _ hpiece heq
  generalize (P v).read (l.parsers v) piece = result at *
  have hdrop : piece.drop result.consumed ++ rest =
      unread.drop result.consumed ++ (crc ++ todo.flatMap Frame.bytes) := by
    rw [← List.drop_append_of_le_length hle, heq, List.drop_append_of_le_length hle']
  obtain ⟨hsettle, hother⟩ := settle_expectCrc ctx P l v result
  cases hgoes with
  | done hdone hall hdelivered =>
    -- the CRC follows
    have hnow := hsettle hdone
    refine ⟨⟨hpos, hle⟩, ⟨todo.map (·.bundle), ?_, ?_⟩, fun n hn => ?_⟩
    · rw [hnow]
      show _ = (l.delivered ++ result.delivered) ++ _
      rw [hdelivered, List.append_assoc]
      rfl
    · rw [hnow, hdrop, hall, List.drop_length, List.nil_append]
      refine .crc hsound ?_ ?_ hdata rfl rfl rfl rfl
      · show 0 + crc.length = 2
        omega
      · rintro rfl
        cases hcrc
    · rw [hnow] at hn
      cases hn
  | on hlater hdelivered =>
    have hgood := hG.good hlater
    have hnow := hother hgood
    refine ⟨⟨hpos, hle⟩, ⟨b :: todo.map (·.bundle), ?_, ?_⟩, fun n hn => ?_⟩
    · rw [hnow]
      show _ = (l.delivered ++ result.delivered) ++ _
      rw [hdelivered, List.append_nil]
    · rw [hnow, hdrop]
      refine .inside hsound ?_ hcrc hdata hpayload rfl
      show G v (Function.update l.parsers v result.parser v) _ _
      rw [Function.update_self]
      exact hlater
    · rw [hnow] at hn
      change (P v).bulkRead (Function.update l.parsers v result.parser v) = some n at hn
      rw [Function.update_self] at hn
      have hstays := hpending n hn hgood
      dsimp only
      omega

/-- The first byte of the data selects the parser. -/
theorem called_start (hG : ∀ v, Parses (P v) (G v)) (hsound : ∀ g ∈ f :: todo, g.Sound ctx P G)
    (hready : l.Ready P) (hdata : l.sppState = .dataSubparser) (hpiece : piece ≠ [])
    (heq : piece ++ rest = f.content ++ (f.crc ++ todo.flatMap Frame.bytes)) :
    Called ctx P G l (f.bundle :: todo.map (·.bundle)) piece rest
      (l.forwardToSpecificParser ctx P piece) := by
  obtain ⟨v, hcarries⟩ := (hsound f List.mem_cons_self).content
  have hcrc := (hsound f List.mem_cons_self).crc
  have htodo : ∀ g ∈ todo, g.Sound ctx P G := fun g hg => hsound g (List.mem_cons_of_mem _ hg)
  obtain ⟨s, hs⟩ := hready.parsers v
  obtain ⟨hstands, hnone⟩ := hcarries.start s
  rw [← hs] at hstands hnone
  have hcalled := @called_inside _ _ _ P ctx G { l with payloadType := some v } _ piece rest todo v
    f.crc f.bundle (hG v) htodo hstands hnone hcrc hdata rfl hpiece heq
  obtain ⟨byte, content, hcontent⟩ := List.exists_cons_of_ne_nil hcarries.ne_nil
  obtain ⟨first, piece', rfl⟩ := List.exists_cons_of_ne_nil hpiece
  rw [hcontent] at heq
  obtain ⟨rfl, -⟩ := List.cons.inj heq
  have hversion : Tcpclv3.Link.versionOf first = some v := by
    have h := hcarries.version
    rw [hcontent] at h
    exact h
  have hpos := hcalled.consumed.1
  have hselect : l.selectBundleParserVersion P (first :: piece') =
      Link.callParser P { l with payloadType := some v } v (first :: piece') := by
    rw [Link.selectBundleParserVersion, hversion]
  have hunknown : l.forwardUnknown P (first :: piece') =
      (Link.withResult { l with payloadType := some v } v
          ((P v).read (l.parsers v) (first :: piece')),
        ((P v).read (l.parsers v) (first :: piece')).consumed) := by
    simp only [Link.forwardUnknown, hready.tcpsppPayloadType, hselect, Link.callParser,
      if_neg (Nat.ne_of_gt hpos)]
  have hcall : l.forwardToSpecificParser ctx P (first :: piece') =
      ((Link.withResult { l with payloadType := some v } v
          ((P v).read (l.parsers v) (first :: piece'))).expectCrc P,
        ((P v).read (l.parsers v) (first :: piece')).consumed) := by
    rw [Link.forwardToSpecificParser, if_neg (not_not_intro hdata), hready.payloadType]
    dsimp only
    rw [hunknown]
  rw [hcall]
  exact ⟨hcalled.consumed, hcalled.stands, hcalled.pending⟩

/-- The CRC is skipped. -/
theorem called_crc (hsound : ∀ f ∈ todo, f.Sound ctx P G) (hleft : l.crcCtr + unread.length = 2)
    (hunread : unread ≠ []) (hdata : l.sppState = .dataSubparser) (hstatus : l.crcStatus = .good)
    (hpayload : l.payloadType = none) (hcrc : l.tcpsppPayloadType = .crc16)
    (hcur : l.curParser = .crc) (hpiece : piece ≠ [])
    (heq : piece ++ rest = unread ++ todo.flatMap Frame.bytes) :
    Called ctx P G l (todo.map (·.bundle)) piece rest
      (l.forwardToSpecificParser ctx P piece) := by
  have hpos := List.length_pos_iff.mpr hunread
  have hpieceLength := List.length_pos_iff.mpr hpiece
  have hcount : min piece.length ((2 + 2 ^ 32 - l.crcCtr % 2 ^ 32) % 2 ^ 32) =
      min piece.length unread.length := by
    rw [Nat.mod_eq_of_lt (by omega : l.crcCtr < 2 ^ 32)]
    congr 1
    omega
  have hread : l.crc16ParserRead piece =
      ({ l with
          crcCtr := l.crcCtr + min piece.length unread.length
          crcStatus := if 2 ≤ l.crcCtr + min piece.length unread.length then .done
            else l.crcStatus },
        min piece.length unread.length) := by
    rw [Link.crc16ParserRead, hcount]
  have hdrop : piece.drop (min piece.length unread.length) ++ rest =
      unread.drop (min piece.length unread.length) ++ todo.flatMap Frame.bytes := by
    rw [← List.drop_append_of_le_length (Nat.min_le_left _ _), heq,
      List.drop_append_of_le_length (Nat.min_le_right _ _)]
  have hforward : l.forwardToSpecificParser ctx P piece =
      if 2 ≤ l.crcCtr + min piece.length unread.length then
        ({ l with
            crcCtr := l.crcCtr + min piece.length unread.length
            crcStatus := .done
            tcpsppPayloadType := .data }, min piece.length unread.length)
      else
        ({ l with crcCtr := l.crcCtr + min piece.length unread.length },
          min piece.length unread.length) := by
    rw [Link.forwardToSpecificParser, if_neg (not_not_intro hdata), hpayload]
    dsimp only
    rw [Link.forwardUnknown, hcrc]
    dsimp only
    rw [hread]
    split <;> simp [Link.curStatus, Link.expectCrc, hcur, hstatus, hpayload, hcrc]
  rw [hforward]
  by_cases hshort : piece.length < unread.length
  · -- the second byte is still to come
    have hstatus' : Link.curStatus P
        { l with crcCtr := l.crcCtr + min piece.length unread.length } = .good := by
      rw [Link.curStatus, hcur]
      exact hstatus
    have hsettle := settle_of_good ctx hstatus'
    rw [if_neg (by omega)]
    refine ⟨⟨by dsimp only; omega, Nat.min_le_left _ _⟩, ⟨todo.map (·.bundle), ?_, ?_⟩,
      fun n hn => ?_⟩
    · rw [hsettle]
    · rw [hsettle, hdrop]
      refine .crc hsound ?_ ?_ hdata hstatus hpayload hcrc hcur
      · show l.crcCtr + min piece.length unread.length + _ = 2
        rw [List.length_drop]
        omega
      · rw [Ne, List.drop_eq_nil_iff]
        omega
    · rw [hsettle, Link.curBulk, hcur] at hn
      cases hn
  · have hmin : min piece.length unread.length = unread.length := by omega
    have hsettle : (receiver ctx P).settle
        { l with
          crcCtr := l.crcCtr + min piece.length unread.length
          crcStatus := .done
          tcpsppPayloadType := .data } = Link.resetParsers P
        { l with
          crcCtr := l.crcCtr + min piece.length unread.length
          crcStatus := .done
          tcpsppPayloadType := .data } := settle_of_crc hcur rfl
    rw [if_pos (by omega)]
    refine ⟨⟨by dsimp only; omega, Nat.min_le_left _ _⟩, ⟨todo.map (·.bundle), ?_, ?_⟩,
      fun n hn => ?_⟩
    · rw [hsettle]
      rfl
    · rw [hsettle, hdrop, hmin, List.drop_length, List.nil_append]
      exact at_ready hsound (Link.resetParsers_ready P _) rfl
    · rw [hsettle, (Link.resetParsers_ready P _).curBulk] at hn
      cases hn

/-- A call from the loop of `chunk_read`. -/
theorem At.call (hG : ∀ v, Parses (P v) (G v)) (h : At ctx P G l unread out)
    (hbulk : l.curBulk P = none) (hpiece : piece ≠ []) (heq : piece ++ rest = unread) :
    Called ctx P G l out piece rest (l.forwardToSpecificParser ctx P piece) := by
  cases h with
  | finished => exact absurd (List.append_eq_nil_iff.mp heq).1 hpiece
  | header hsound hready hreads => exact called_header hsound hready hreads hpiece heq
  | start hsound hready hdata => exact called_start hG hsound hready hdata hpiece heq
  | @inside v bytes crc b todo hsound hstands hcrc hdata hpayload hcur =>
    have hnone : (P v).bulkRead (l.parsers v) = none := by
      rw [Link.curBulk, hcur] at hbulk
      exact hbulk
    have hcall : l.forwardToSpecificParser ctx P piece =
        ((l.withResult v ((P v).read (l.parsers v) piece)).expectCrc P,
          ((P v).read (l.parsers v) piece).consumed) := by
      rw [Link.forwardToSpecificParser, if_neg (not_not_intro hdata), hpayload]
      rfl
    rw [hcall]
    exact called_inside (hG v) hsound hstands hnone hcrc hdata hpayload hpiece heq
  | crc hsound hleft hunread hdata hstatus hpayload hcrc hcur =>
    exact called_crc hsound hleft hunread hdata hstatus hpayload hcrc hcur hpiece heq

/-! ## A bulk -/

/-- Only a bundle parser requests a bulk. -/
theorem At.bulk (hG : ∀ v, Parses (P v) (G v)) (h : At ctx P G l unread out) {n : Nat}
    (hbulk : l.curBulk P = some n) :
    n ≤ unread.length ∧
      ((receiver ctx P).settle (l.forwardBulk P (unread.take n))).curBulk P = none ∧
      ∃ later, l.delivered ++ out =
          ((receiver ctx P).settle (l.forwardBulk P (unread.take n))).delivered ++ later ∧
        At ctx P G ((receiver ctx P).settle (l.forwardBulk P (unread.take n))) (unread.drop n)
          later := by
  cases h with
  | finished hready =>
    rw [hready.curBulk] at hbulk
    cases hbulk
  | header hsound hready =>
    rw [hready.curBulk] at hbulk
    cases hbulk
  | start hsound hready =>
    rw [hready.curBulk] at hbulk
    cases hbulk
  | crc hsound hleft hunread hdata hstatus hpayload hcrc hcur =>
    rw [Link.curBulk, hcur] at hbulk
    cases hbulk
  | @inside v bytes crc b todo hsound hstands hcrc hdata hpayload hcur =>
    have hrequest : (P v).bulkRead (l.parsers v) = some n := by
      rw [Link.curBulk, hcur] at hbulk
      exact hbulk
    obtain ⟨hle, hgoes, hnone⟩ := (hG v).bulk hstands hrequest
    have hforward : l.forwardBulk P (bytes.take n) =
        (l.withResult v ((P v).readBulk (l.parsers v) (bytes.take n))).expectCrc P := by
      rw [Link.forwardBulk, if_neg (not_not_intro hdata), hpayload]
    refine ⟨by rw [List.length_append]; omega, ?_⟩
    rw [List.take_append_of_le_length hle, List.drop_append_of_le_length hle, hforward]
    generalize (P v).readBulk (l.parsers v) (bytes.take n) = result at *
    obtain ⟨hsettle, hother⟩ := settle_expectCrc ctx P l v result
    cases hgoes with
    | done hdone hall hdelivered =>
      rw [hsettle hdone]
      refine ⟨rfl, todo.map (·.bundle), ?_, ?_⟩
      · show _ = (l.delivered ++ result.delivered) ++ _
        rw [hdelivered, List.append_assoc]
        rfl
      · rw [hall, List.drop_length, List.nil_append]
        refine .crc hsound ?_ ?_ hdata rfl rfl rfl rfl
        · show 0 + crc.length = 2
          omega
        · rintro rfl
          cases hcrc
    | on hlater hdelivered =>
      have hgood := (hG v).good hlater
      rw [hother hgood]
      refine ⟨?_, b :: todo.map (·.bundle), ?_, ?_⟩
      · show (P v).bulkRead (Function.update l.parsers v result.parser v) = none
        rw [Function.update_self]
        exact hnone hgood
      · show _ = (l.delivered ++ result.delivered) ++ _
        rw [hdelivered, List.append_nil]
      · refine .inside hsound ?_ hcrc hdata hpayload rfl
        show G v (Function.update l.parsers v result.parser v) _ _
        rw [Function.update_self]
        exact hlater

/-! ## The stream -/

theorem At.finished_nil (h : At ctx P G l [] out) : out = [] := by
  generalize hnil : ([] : List UInt8) = bytes at h
  cases h with
  | finished => rfl
  | @header _ f todo hsound hready hreads =>
    cases hreads <;> cases hnil
  | @start f todo hsound =>
    obtain ⟨v, hcarries⟩ := (hsound f List.mem_cons_self).content
    exact absurd (List.append_eq_nil_iff.mp hnil.symm).1 hcarries.ne_nil
  | @inside _ _ crc _ _ _ _ hcrc =>
    have hempty := (List.append_eq_nil_iff.mp (List.append_eq_nil_iff.mp hnil.symm).2).1
    rw [hempty] at hcrc
    cases hcrc
  | crc _ _ hunread => exact absurd (List.append_eq_nil_iff.mp hnil.symm).1 hunread

theorem follows_frames (hG : ∀ v, Parses (P v) (G v)) :
    Framing.Follows (receiver ctx P) claRxBufferSize (·.delivered) (At ctx P G) where
  consumed hat hbulk _ _ hpiece heq := (hat.call hG hbulk hpiece heq).consumed.2
  call {l unread out} hat hbulk piece rest hpiece heq := by
    have hcalled := hat.call hG hbulk hpiece heq
    obtain ⟨later, hdelivered, hat'⟩ := hcalled.stands
    have hdrop : unread.drop (l.forwardToSpecificParser ctx P piece).2 =
        piece.drop (l.forwardToSpecificParser ctx P piece).2 ++ rest := by
      rw [← heq, List.drop_append_of_le_length hcalled.consumed.2]
    rw [← hdrop] at hat'
    exact ⟨later, hdelivered, hat'⟩
  pending hat hbulk _ _ n hpiece heq := (hat.call hG hbulk hpiece heq).pending n
  waits hat hbulk _ _ hpiece heq hzero _ :=
    absurd hzero (Nat.ne_of_gt (hat.call hG hbulk hpiece heq).consumed.1)
  bulk hat hbulk := hat.bulk hG hbulk
  reset l := (l.resetParsers_ready P).curBulk
  finished hat _ := hat.finished_nil

/-- The frames are delivered, in whatever pieces the stream arrives. -/
theorem delivers_frames (hG : ∀ v, Parses (P v) (G v)) (hP : Consumes P) {frames : List (Frame β)}
    (hsound : ∀ f ∈ frames, f.Sound ctx P G) (hready : l.Ready P) (hstate : l.sppState = .phP1Msb)
    (hdelivered : l.delivered = []) :
    Delivers (receiver ctx P) claRxBufferSize (·.delivered) l (frames.flatMap Frame.bytes)
      (frames.map (·.bundle)) :=
  (follows_frames hG).delivers (receiver_progresses hP) (by decide)
    (at_ready hsound hready hstate) hdelivered

/-! ## The header -/

/-- The context of the link: the timecode is parsed by `spp_tc_parser_feed`, of which a fault is an
error here. -/
def linkContext (ctx : Spp.SppContext) : SppContext TcParser where
  ancillaryDataLen := ctx.ancillaryDataLen
  timecode := ctx.timecode.map fun timecode tcParser => tcParser.init timecode
  feed tcParser byte :=
    match tcParser.feed byte with
    | .ok (status, tcParser) => (tcParser, status)
    | .error _ => (tcParser, .error)

/-! ## The parser of the header -/

/-- The link whose space packet parser is `parser`. -/
def Link.withParser (l : Link TcParser σ β) (parser : SppParser) : Link TcParser σ β :=
  { l with
    sppStatus := parser.status
    sppState := parser.state
    bufw := parser.bufw
    hasSecondaryHeader := parser.header.hasSecondaryHeader
    dataLength := parser.dataLength
    tcParser := parser.tcParser }

section
variable {parser parser' : SppParser} {sppCtx : Spp.SppContext} (l : Link TcParser σ β)
  {byte : UInt8} {more : Bool}

/-- The last byte of the primary header. -/
theorem withParser_lenLsb (byte : UInt8) (hstate : parser.state = .phLenLsb) :
    (l.withParser parser).sppParseByte (linkContext sppCtx) byte =
      (l.withParser (parser.parseLenLsb sppCtx byte).2, (parser.parseLenLsb sppCtx byte).1) := by
  have hlink : (l.withParser parser).sppState = .phLenLsb := hstate
  rw [Link.sppParseByte, hlink, SppParser.parseLenLsb]
  cases hsecondary : parser.header.hasSecondaryHeader with
  | false =>
    have hnone : (l.withParser parser).hasSecondaryHeader = false := hsecondary
    simp only [hnone, SppParser.parsePhLen, hsecondary, Bool.not_false, if_true]
    simp only [Link.withParser, hsecondary]
    rfl
  | true =>
    have hsome : (l.withParser parser).hasSecondaryHeader = true := hsecondary
    simp only [hsome, SppParser.parsePhLen, hsecondary, Bool.not_true, Bool.false_eq_true, if_false]
    cases htimecode : sppCtx.timecode with
    | none =>
      have hlinkTimecode : (linkContext sppCtx).timecode = none := by
        rw [linkContext, htimecode]
        rfl
      rw [hlinkTimecode]
      simp only [Link.behindTimecode, Link.withParser, linkContext, hsecondary]
      split <;> rfl
    | some timecode =>
      have hlinkTimecode : (linkContext sppCtx).timecode =
          some fun tcParser => tcParser.init timecode := by
        rw [linkContext, htimecode]
        rfl
      rw [hlinkTimecode]
      simp only [Link.withParser, hsecondary]
      rfl

/-- A byte of the timecode. -/
theorem withParser_timecode (hstate : parser.state = .shTimecodeSubparser)
    (h : parser.parseTimecode sppCtx byte = .ok (more, parser')) :
    (l.withParser parser).sppParseByte (linkContext sppCtx) byte =
      (l.withParser parser', more) := by
  have hlink : (l.withParser parser).sppState = .shTimecodeSubparser := hstate
  unfold SppParser.parseTimecode at h
  cases hfeed : parser.tcParser.feed byte with
  | error fault =>
    simp only [hfeed] at h
    cases h
  | ok result =>
    obtain ⟨status, next⟩ := result
    have hread : (linkContext sppCtx).feed (l.withParser parser).tcParser byte = (next, status) := by
      simp only [linkContext, Link.withParser, hfeed]
    rw [Link.sppParseByte, hlink]
    simp only [hread]
    simp only [hfeed] at h
    cases status with
    | good =>
      obtain ⟨rfl, rfl⟩ := Prod.mk.inj (Except.ok.inj h)
      simp only [Link.withParser, hstate]
    | error =>
      obtain ⟨rfl, rfl⟩ := Prod.mk.inj (Except.ok.inj h)
      simp only [Link.withParser, hstate]
    | done =>
      dsimp only at h ⊢
      split at h <;> rename_i hancillary <;> obtain ⟨rfl, rfl⟩ := Prod.mk.inj (Except.ok.inj h)
      · exact if_pos hancillary
      · exact if_neg hancillary

/-- A byte. -/
theorem withParser_sppParseByte (h : parser.parseByte sppCtx byte = .ok (more, parser')) :
    (l.withParser parser).sppParseByte (linkContext sppCtx) byte =
      (l.withParser parser', more) := by
  have hlink : (l.withParser parser).sppState = parser.state := rfl
  unfold SppParser.parseByte at h
  split at h <;> rename_i hstate <;> rw [hstate] at hlink
  · rw [Link.sppParseByte, hlink]
    split at h <;> rename_i hfirst <;> obtain ⟨rfl, rfl⟩ := Prod.mk.inj (Except.ok.inj h)
    · exact if_pos hfirst
    · exact if_neg hfirst
  · obtain ⟨rfl, rfl⟩ := Prod.mk.inj (Except.ok.inj h)
    rw [Link.sppParseByte, hlink]
    rfl
  · obtain ⟨rfl, rfl⟩ := Prod.mk.inj (Except.ok.inj h)
    rw [Link.sppParseByte, hlink]
    rfl
  · obtain ⟨rfl, rfl⟩ := Prod.mk.inj (Except.ok.inj h)
    rw [Link.sppParseByte, hlink]
    rfl
  · obtain ⟨rfl, rfl⟩ := Prod.mk.inj (Except.ok.inj h)
    rw [Link.sppParseByte, hlink]
    rfl
  · obtain ⟨rfl, rfl⟩ := Prod.mk.inj (Except.ok.inj h)
    exact withParser_lenLsb l byte hstate
  · exact withParser_timecode l hstate h
  · cases h
  · cases h

/-- The link reads what `spp_parser_read` does, if that does not fail. -/
theorem withParser_sppParserRead {buffer : List UInt8} {count : Nat}
    (h : parser.read sppCtx buffer = .ok (count, parser')) :
    (l.withParser parser).sppParserRead (linkContext sppCtx) buffer =
      (l.withParser parser', count) := by
  induction buffer generalizing parser count with
  | nil =>
    obtain ⟨rfl, rfl⟩ := Prod.mk.inj (Except.ok.inj h)
    rfl
  | cons byte buffer ih =>
    rw [SppParser.read] at h
    cases hparse : parser.parseByte sppCtx byte with
    | error fault =>
      rw [hparse] at h
      cases h
    | ok result =>
      obtain ⟨more, next⟩ := result
      rw [hparse] at h
      rw [Link.sppParserRead, withParser_sppParseByte l hparse]
      cases more with
      | false =>
        obtain ⟨rfl, rfl⟩ := Prod.mk.inj (Except.ok.inj h)
        rfl
      | true =>
        change (next.read sppCtx buffer >>= fun x => pure (x.1 + 1, x.2)) = _ at h
        cases hread : next.read sppCtx buffer with
        | error fault =>
          rw [hread] at h
          cases h
        | ok result =>
          rw [hread] at h
          obtain ⟨rfl, rfl⟩ := Prod.mk.inj (Except.ok.inj h)
          dsimp only
          rw [ih hread]

/-- The header that the parser takes is one for the link. -/
theorem headerReads_withParser {header : List UInt8}
    (h : SppParser.Reads sppCtx parser header parser') (hgood : parser'.status = .good)
    (hready : (l.withParser parser).Ready P) :
    HeaderReads (linkContext sppCtx) P (l.withParser parser) header := by
  induction h with
  | @last parser parser' byte hstep hdata =>
    have hnot : (l.withParser parser).sppState ≠ .dataSubparser :=
      (SppParser.Reads.last hstep hdata).not_data
    refine .last hnot (withParser_sppParseByte l hstep) hdata ?_ rfl
    exact ⟨hgood, hready.payloadType, hready.tcpsppPayloadType, hready.curParser, hready.parsers⟩
  | @more parser next parser' byte rest hstep hrest ih =>
    have hnot : (l.withParser parser).sppState ≠ .dataSubparser :=
      (SppParser.Reads.more hstep hrest).not_data
    have hnext : (l.withParser next).Ready P :=
      ⟨hrest.good hgood, hready.payloadType, hready.tcpsppPayloadType, hready.curParser,
        hready.parsers⟩
    exact .more hnot (withParser_sppParseByte l hstep) hnext rfl (ih hgood hnext)

end

section
variable {sppCtx : Spp.SppContext} {l : Link TcParser σ β}

/-- The space packet parser of a link, of which it does not keep all fields of the header. -/
def Link.parser (l : Link TcParser σ β) : SppParser where
  status := l.sppStatus
  bufw := l.bufw
  header := ⟨false, l.hasSecondaryHeader, 0, .continuation, 0, 0⟩
  state := l.sppState
  tcParser := l.tcParser
  dataLength := l.dataLength
  dtnTimestamp := 0

/-- The header that is sent is read, by a link whose parser was reset. -/
theorem headerReads_serializeHeader (hctx : sppCtx.Supported) {metadata : SppMeta}
    {payloadLen : UInt64} (hmeta : metadata.InRange) (hmin : sppCtx.minPayloadSize ≤ payloadLen)
    (hmax : payloadLen ≤ sppCtx.maxPayloadSize) :
    ∃ header, sppCtx.serializeHeader metadata payloadLen = some header ∧
      ∀ l : Link TcParser σ β, l.Ready P → l.sppState = .phP1Msb →
        HeaderReads (linkContext sppCtx) P l header := by
  have hreads := fun start => @Spp.SppContext.Supported.reads _ _ _ hctx hmeta hmin hmax start
  obtain ⟨header, -, hserialize, -⟩ := hreads SppParser.blank rfl
  refine ⟨header, hserialize, fun l hready hstate => ?_⟩
  obtain ⟨header', parser, hserialize', -, hread, hstatus, -⟩ := hreads l.parser hstate
  rw [hserialize] at hserialize'
  obtain rfl := Option.some.inj hserialize'
  exact headerReads_withParser l hread (hstatus.trans hready.sppStatus) hready

/-- The packets are delivered, in whatever pieces the stream arrives, whenever each of them was
sent. -/
theorem delivers_packets (hctx : sppCtx.Supported) {apid : UInt16} (hapid : apid ≤ Spp.sppMaxApid)
    (hG : ∀ v, Parses (P v) (G v)) (hP : Consumes P) {packets : List (UInt64 × Packet β)}
    (hsound : ∀ f ∈ packets, ∃ v, Carries P v (G v) f.2.content f.2.bundle)
    (hlength : ∀ f ∈ packets, f.2.content.length + 2 ≤ sppCtx.maxPayloadSize.toNat)
    (hready : l.Ready P) (hstate : l.sppState = .phP1Msb) (hdelivered : l.delivered = []) :
    Delivers (receiver (linkContext sppCtx) P) claRxBufferSize (·.delivered) l
      (packets.flatMap fun f => (sent sppCtx apid f.1 f.2).bytes)
      (packets.map (·.2.bundle)) := by
  have hframes : ∀ g ∈ packets.map fun f => sent sppCtx apid f.1 f.2,
      g.Sound (linkContext sppCtx) P G := by
    intro g hg
    obtain ⟨f, hf, rfl⟩ := List.mem_map.mp hg
    refine ⟨fun l hready hstate => ?_, hsound f hf, rfl⟩
    have hmax : sppCtx.maxPayloadSize.toNat < 2 ^ 64 := sppCtx.maxPayloadSize.toNat_lt
    have hle := hlength f hf
    have hsize : (UInt64.ofNat f.2.content.length + 2).toNat = f.2.content.length + 2 := by
      rw [UInt64.toNat_add, UInt64.toNat_ofNat_of_lt' (by simp only [UInt64.size]; omega)]
      exact Nat.mod_eq_of_lt (show f.2.content.length + 2 < 2 ^ 64 by omega)
    have hmin : sppCtx.minPayloadSize ≤ UInt64.ofNat f.2.content.length + 2 := by
      rw [UInt64.le_iff_toNat_le, hsize, Spp.SppContext.minPayloadSize]
      split
      · exact Nat.zero_le _
      · show 1 ≤ _
        omega
    obtain ⟨header, hserialize, hreads⟩ :=
      @headerReads_serializeHeader _ _ P sppCtx hctx ⟨false, apid, .unsegmented, 0, f.1, 0⟩ _
        ⟨hapid, (by decide : (0 : UInt16) ≤ Spp.sppMaxSegmentNumber)⟩ hmin
        (UInt64.le_iff_toNat_le.mpr (by rw [hsize]; exact hle))
    have hheader : (sent sppCtx apid f.1 f.2).header = header := by
      show (tcpsppBeginPacket sppCtx apid f.1 f.2.content.length).getD [] = header
      rw [tcpsppBeginPacket, hserialize]
      rfl
    rw [hheader]
    exact hreads l hready hstate
  have hdelivers := delivers_frames hG hP hframes hready hstate hdelivered
  rw [List.flatMap_map, List.map_map] at hdelivers
  exact hdelivers

end

end Upcn.Tcpspp
