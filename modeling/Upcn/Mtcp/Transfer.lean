import Upcn.Cla.Content
import Upcn.Cla.Delivery
import Upcn.Cla.Progress

/-!
# Packets over an MTCP link

What `mtcp_begin_packet` and the bytes of a packet make of a list of packets is received as these
packets, in any pieces (`delivers_packets`).  TinyCBOR is the encoder of `Lib/Cbor` for the sender
and a parameter of the receiver, of which `ReadsHeaders` says what it makes of such a header.
-/

namespace Upcn.Mtcp

open Upcn.Bundle6 (ParserStatus)
open Upcn.Framing (Delivers Receiver)
open Upcn.Tcpclv3 (Version BundleParser ParserResult claRxBufferSize)

variable {σ β : Type} {P : Version → BundleParser σ β} {header : List UInt8 → Header}
  {G : Version → σ → List UInt8 → β → Prop} {packets : List (Packet β)}

/-! ## The sender -/

/-- `mtcp_encode_header`: an unsigned integer, of which the first byte is made that of a byte
string. -/
def mtcpEncodeHeader (length : Nat) : List UInt8 :=
  match Cbor.uint length with
  | [] => []
  | byte :: rest => (byte ||| 0x40) :: rest

/-- The bytes of a packet on the link. -/
def frame (f : Packet β) : List UInt8 := mtcpEncodeHeader f.content.length ++ f.content

/-- What the decoder makes of a header that `mtcp_encode_header` has written, and of the beginning
of one. -/
structure ReadsHeaders (header : List UInt8 → Header) : Prop where
  whole : ∀ length rest, length < 2 ^ 64 →
    header (mtcpEncodeHeader length ++ rest) =
      .byteString length (mtcpEncodeHeader length).length
  begun : ∀ length piece rest, length < 2 ^ 64 → piece ++ rest = mtcpEncodeHeader length →
    rest ≠ [] → header piece = .incomplete

theorem length_mtcpEncodeHeader (length : Nat) :
    (mtcpEncodeHeader length).length = Cbor.headSize length := by
  have hlength := Cbor.length_uint length
  unfold mtcpEncodeHeader
  cases h : Cbor.uint length with
  | nil =>
    rw [h] at hlength
    exact hlength
  | cons byte rest =>
    rw [h] at hlength
    exact hlength

theorem mtcpEncodeHeader_le (length : Nat) :
    0 < (mtcpEncodeHeader length).length ∧ (mtcpEncodeHeader length).length ≤ 9 := by
  rw [length_mtcpEncodeHeader]
  unfold Cbor.headSize
  split_ifs <;> omega

/-- The changed byte is that of a byte string. -/
theorem mtcpEncodeHeader_eq (length : Nat) : mtcpEncodeHeader length = Cbor.head 2 length := by
  have hbyte : ∀ info < 28, (UInt8.ofNat (0 * 2 ^ 5 + info) ||| 0x40) =
      UInt8.ofNat (2 * 2 ^ 5 + info) := by decide
  have hcons : ∀ (info : Nat) (rest : List UInt8), info < 28 →
      Cbor.uint length = UInt8.ofNat (0 * 2 ^ 5 + info) :: rest →
      mtcpEncodeHeader length = UInt8.ofNat (2 * 2 ^ 5 + info) :: rest := by
    intro info rest hinfo huint
    rw [mtcpEncodeHeader, huint]
    simp only [hbyte info hinfo]
  unfold Cbor.head
  split_ifs with h1 h2 h3 h4
  · exact hcons length [] (by omega) (if_pos h1)
  · exact hcons 24 _ (by omega) (by simp only [Cbor.uint, Cbor.head, if_neg h1, if_pos h2])
  · exact hcons 25 _ (by omega)
      (by simp only [Cbor.uint, Cbor.head, if_neg h1, if_neg h2, if_pos h3])
  · exact hcons 26 _ (by omega)
      (by simp only [Cbor.uint, Cbor.head, if_neg h1, if_neg h2, if_neg h3, if_pos h4])
  · exact hcons 27 _ (by omega)
      (by simp only [Cbor.uint, Cbor.head, if_neg h1, if_neg h2, if_neg h3, if_neg h4])

theorem readHead_mtcpEncodeHeader {length : Nat} (h : length < 2 ^ 64) (rest : List UInt8) :
    Cbor.readHead (mtcpEncodeHeader length ++ rest) = some (2, length, rest) := by
  rw [mtcpEncodeHeader_eq]
  exact Cbor.readHead_of_encodes (by decide) (Cbor.encodesHead_head h) rest

/-- A decoder that reads a head of definite length is one. -/
theorem readsHeaders_byteString : ReadsHeaders byteStringHeader where
  whole length rest hlength := by
    have hread := readHead_mtcpEncodeHeader hlength rest
    cases hbytes : mtcpEncodeHeader length ++ rest with
    | nil =>
      obtain ⟨hpos, -⟩ := mtcpEncodeHeader_le length
      rw [(List.append_eq_nil_iff.mp hbytes).1] at hpos
      cases hpos
    | cons byte buffer =>
      rw [hbytes] at hread
      obtain ⟨hmajor, hinfo⟩ := Cbor.byte_of_readHead hread
      have hguard : ¬ (byte.toNat / 2 ^ 5 ≠ 2 ∨ 28 ≤ byte.toNat % 2 ^ 5) := by omega
      have hcount := congrArg List.length hbytes
      rw [List.length_append, List.length_cons] at hcount
      unfold byteStringHeader
      dsimp only
      rw [if_neg hguard, hread]
      dsimp only
      rw [← hcount, Nat.add_sub_cancel]
  begun length piece rest hlength heq hrest := by
    cases piece with
    | nil => rfl
    | cons byte buffer =>
      have hread := readHead_mtcpEncodeHeader hlength []
      rw [List.append_nil, ← heq] at hread
      obtain ⟨hmajor, hinfo⟩ := Cbor.byte_of_readHead hread
      have hguard : ¬ (byte.toNat / 2 ^ 5 ≠ 2 ∨ 28 ≤ byte.toNat % 2 ^ 5) := by omega
      unfold byteStringHeader
      dsimp only
      rw [if_neg hguard]
      cases hpiece : Cbor.readHead (byte :: buffer) with
      | none => rfl
      | some result =>
        obtain ⟨major, value, left⟩ := result
        rw [Cbor.readHead_append hpiece] at hread
        obtain ⟨-, -, hnil⟩ := by simpa using hread
        exact absurd hnil.2 hrest

/-! ## Where the link stands -/

/-- Nothing of a bundle is parsed yet. -/
structure Link.Fresh (P : Version → BundleParser σ β) (l : Link σ β) : Prop where
  payloadType : l.payloadType = none
  curParser : l.curParser = none
  parsers : ∀ v, ∃ s, l.parsers v = (P v).reset s

/-- The link stands in the stream of these packets: before a header, behind one, or in a packet,
of which it counts at least the bytes that are left. -/
inductive At (P : Version → BundleParser σ β) (G : Version → σ → List UInt8 → β → Prop) :
    Link σ β → List UInt8 → List β → Prop where
  | idle {l : Link σ β} {todo : List (Packet β)} (hsound : Sound P G todo)
    (hlength : ∀ f ∈ todo, f.content.length < 2 ^ 64) (hfresh : l.Fresh P)
    (hdata : l.dataSubparser = false) :
    At P G l (todo.flatMap frame) (todo.map Packet.bundle)
  | start {l : Link σ β} {f : Packet β} {todo : List (Packet β)} (hsound : Sound P G (f :: todo))
    (hlength : ∀ f ∈ todo, f.content.length < 2 ^ 64) (hfresh : l.Fresh P)
    (hdata : l.dataSubparser = true) (hnext : l.nextBytes = f.content.length) :
    At P G l (f.content ++ todo.flatMap frame) (f.bundle :: todo.map Packet.bundle)
  | inside {l : Link σ β} {v : Version} {unread : List UInt8} {b : β} {todo : List (Packet β)}
    (hsound : Sound P G todo) (hlength : ∀ f ∈ todo, f.content.length < 2 ^ 64)
    (hstands : G v (l.parsers v) unread b) (hwhole : Whole (G v) b)
    (hdata : l.dataSubparser = true) (hpayload : l.payloadType = some v)
    (hcur : l.curParser = some v) (hnext : unread.length ≤ l.nextBytes) :
    At P G l (unread ++ todo.flatMap frame) (b :: todo.map Packet.bundle)

variable {l : Link σ β} {unread piece rest : List UInt8} {out : List β}

theorem Link.Fresh.curStatus (h : l.Fresh P) : l.curStatus P = .good := by
  rw [Link.curStatus, h.curParser]

theorem Link.Fresh.curBulk (h : l.Fresh P) : l.curBulk P = none := by
  rw [Link.curBulk, h.curParser]

theorem Link.resetParsers_fresh (P : Version → BundleParser σ β) (l : Link σ β) :
    (l.resetParsers P).Fresh P := ⟨rfl, rfl, fun v => ⟨l.parsers v, rfl⟩⟩

theorem settle_eq (l : Link σ β) : (receiver P header).settle l =
    if l.curStatus P = .good then l else l.resetParsers P := by
  rw [Receiver.settle]
  by_cases hgood : l.curStatus P = .good
  · rw [if_pos hgood]
    exact if_pos (decide_eq_true hgood)
  · rw [if_neg hgood]
    exact if_neg fun h => hgood (of_decide_eq_true h)

theorem settle_fresh (h : l.Fresh P) : (receiver P header).settle l = l := by
  rw [settle_eq, if_pos h.curStatus]

theorem not_header (h : l.dataSubparser = true) : ¬ (!l.dataSubparser) = true := by
  rw [h]
  exact Bool.false_ne_true

/-- Behind a packet, the link is before the next header. -/
theorem at_resetParsers {todo : List (Packet β)} (hsound : Sound P G todo)
    (hlength : ∀ f ∈ todo, f.content.length < 2 ^ 64) (l : Link σ β) :
    At P G (l.resetParsers P) (todo.flatMap frame) (todo.map Packet.bundle) :=
  .idle hsound hlength (l.resetParsers_fresh P) rfl

/-! ## A call -/

/-- What a call with a piece of the stream leaves. -/
structure Called (P : Version → BundleParser σ β) (header : List UInt8 → Header)
    (G : Version → σ → List UInt8 → β → Prop) (l : Link σ β) (out : List β)
    (piece rest : List UInt8) (result : Link σ β × Nat) : Prop where
  consumed : result.2 ≤ piece.length
  stands : ∃ later, l.delivered ++ out = ((receiver P header).settle result.1).delivered ++ later ∧
    At P G ((receiver P header).settle result.1) (piece.drop result.2 ++ rest) later
  pending : ∀ n, ((receiver P header).settle result.1).curBulk P = some n →
    piece.length ≤ result.2 + n
  waits : result.2 = 0 → piece.length < claRxBufferSize ∧ rest ≠ []

/-- A call that leaves nothing of a bundle. -/
theorem called_fresh {l' : Link σ β} {n : Nat} (hfresh : l'.Fresh P)
    (hdelivered : l'.delivered = l.delivered) (hn : n ≤ piece.length)
    (hat : At P G l' (piece.drop n ++ rest) out)
    (hwaits : n = 0 → piece.length < claRxBufferSize ∧ rest ≠ []) :
    Called P header G l out piece rest (l', n) := by
  have hsettle : (receiver P header).settle l' = l' := settle_fresh hfresh
  refine ⟨hn, ⟨out, ?_, ?_⟩, fun k hk => ?_, hwaits⟩
  · rw [hsettle, hdelivered]
  · rw [hsettle]
    exact hat
  · rw [hsettle, hfresh.curBulk] at hk
    cases hk

/-- Before a header. -/
theorem called_idle (hheader : ReadsHeaders header) {todo : List (Packet β)}
    (hsound : Sound P G todo) (hlength : ∀ f ∈ todo, f.content.length < 2 ^ 64)
    (hfresh : l.Fresh P) (hdata : l.dataSubparser = false) (hpiece : piece ≠ [])
    (heq : piece ++ rest = todo.flatMap frame) :
    Called P header G l (todo.map Packet.bundle) piece rest
      (l.forwardToSpecificParser P header piece) := by
  have hcall : l.forwardToSpecificParser P header piece = l.mtcpParserParse header piece := by
    rw [Link.forwardToSpecificParser, hdata]
    rfl
  rw [hcall, Link.mtcpParserParse]
  cases todo with
  | nil => exact absurd (List.append_eq_nil_iff.mp heq).1 hpiece
  | cons f todo =>
    have hsize := hlength f List.mem_cons_self
    obtain ⟨hpos, hnine⟩ := mtcpEncodeHeader_le f.content.length
    have hstream : piece ++ rest =
        mtcpEncodeHeader f.content.length ++ (f.content ++ todo.flatMap frame) := by
      rw [heq, List.flatMap_cons, frame, List.append_assoc]
    by_cases hshort : piece.length < (mtcpEncodeHeader f.content.length).length
    · -- the header is not there yet
      obtain ⟨more, hmore⟩ : piece <+: mtcpEncodeHeader f.content.length :=
        List.prefix_of_prefix_length_le ⟨rest, hstream⟩ (List.prefix_append _ _)
          (Nat.le_of_lt hshort)
      have hmore' : more ≠ [] := by
        rintro rfl
        rw [List.append_nil] at hmore
        rw [hmore] at hshort
        exact Nat.lt_irrefl _ hshort
      rw [hheader.begun f.content.length piece more hsize hmore hmore']
      refine called_fresh hfresh rfl (Nat.zero_le _) ?_ fun _ => ⟨?_, ?_⟩
      · rw [List.drop_zero, heq]
        exact .idle hsound hlength hfresh hdata
      · show piece.length < 64
        omega
      · rintro rfl
        have hle := congrArg List.length hstream
        rw [List.append_nil, List.length_append] at hle
        omega
    · obtain ⟨more, rfl⟩ : mtcpEncodeHeader f.content.length <+: piece :=
        List.prefix_of_prefix_length_le ⟨_, hstream.symm⟩ (List.prefix_append _ _) (by omega)
      rw [hheader.whole f.content.length more hsize]
      have hfresh' : Link.Fresh P
          { l with dataSubparser := true, nextBytes := f.content.length } :=
        ⟨hfresh.payloadType, hfresh.curParser, hfresh.parsers⟩
      have hrest : more ++ rest = f.content ++ todo.flatMap frame := by
        rw [List.append_assoc] at hstream
        exact List.append_cancel_left hstream
      refine called_fresh hfresh' rfl ?_ ?_ fun hzero => ?_
      · rw [List.length_append]
        exact Nat.le_add_right _ _
      · rw [List.drop_left, hrest]
        exact .start hsound (fun g hg => hlength g (List.mem_cons_of_mem _ hg)) hfresh' rfl rfl
      · omega

/-- A call of the bundle parser in a packet, of which the link counts at least the bytes that are
left: they end with the packet, or the link goes on in it. -/
theorem called_inside {v : Version} {b : β} {todo : List (Packet β)}
    (hG : Parses (P v) (G v)) (hsound : Sound P G todo)
    (hlength : ∀ f ∈ todo, f.content.length < 2 ^ 64) (hstands : G v (l.parsers v) unread b)
    (hwhole : Whole (G v) b) (hbulk : (P v).bulkRead (l.parsers v) = none)
    (hdata : l.dataSubparser = true) (hpayload : l.payloadType = some v)
    (hnext : unread.length ≤ l.nextBytes) (hpiece : piece ≠ [])
    (heq : piece ++ rest = unread ++ todo.flatMap frame) :
    Called P header G l (b :: todo.map Packet.bundle) piece rest
        ((l.withResult v ((P v).read (l.parsers v) (piece.take l.nextBytes))).countDown P
          ((P v).read (l.parsers v) (piece.take l.nextBytes)).consumed,
        ((P v).read (l.parsers v) (piece.take l.nextBytes)).consumed) ∧
      0 < ((P v).read (l.parsers v) (piece.take l.nextBytes)).consumed := by
  have hunread := List.length_pos_iff.mpr (hwhole _ _ hstands)
  have htake : piece.take l.nextBytes ≠ [] := by
    rw [Ne, List.take_eq_nil_iff, not_or]
    exact ⟨by omega, hpiece⟩
  have heq' : piece.take l.nextBytes ++ (piece.drop l.nextBytes ++ rest) =
      unread ++ todo.flatMap frame := by
    rw [← List.append_assoc, List.take_append_drop, heq]
  have htakeLength : (piece.take l.nextBytes).length = min l.nextBytes piece.length :=
    List.length_take
  obtain ⟨hpos, hle, hle', hgoes, hpending⟩ := hG.call hstands hbulk _ _ _ htake heq'
  generalize (P v).read (l.parsers v) (piece.take l.nextBytes) = result at *
  rw [htakeLength] at hle hpending
  have hdrop : piece.drop result.consumed ++ rest =
      unread.drop result.consumed ++ todo.flatMap frame := by
    rw [← List.drop_append_of_le_length (by omega), heq, List.drop_append_of_le_length hle']
  have hparser : Function.update l.parsers v result.parser v = result.parser :=
    Function.update_self ..
  have hstatus : ((l.withResult v result).countDown P result.consumed).curStatus P =
      if l.nextBytes - result.consumed = 0 then .good else (P v).status result.parser := by
    rw [Link.countDown]
    show (if l.nextBytes - result.consumed = 0 then _ else _ : Link σ β).curStatus P = _
    split
    · exact ((l.withResult v result).resetParsers_fresh P).curStatus
    · exact congrArg (P v).status hparser
  refine ⟨?_, hpos⟩
  cases hgoes with
  | done hdone hall hdelivered =>
    -- the link is reset, by the count or by the task
    have hreset : ∃ l' : Link σ β, l'.delivered = l.delivered ++ [b] ∧
        (receiver P header).settle ((l.withResult v result).countDown P result.consumed) =
          l'.resetParsers P := by
      rw [settle_eq, hstatus]
      by_cases hzero : l.nextBytes - result.consumed = 0
      · rw [if_pos hzero, if_pos rfl, Link.countDown]
        refine ⟨_, ?_, if_pos hzero⟩
        rw [← hdelivered]
        rfl
      · rw [if_neg hzero, hdone, if_neg ParserStatus.noConfusion, Link.countDown]
        refine ⟨{ l.withResult v result with nextBytes := l.nextBytes - result.consumed }, ?_, ?_⟩
        · rw [← hdelivered]
          rfl
        · exact congrArg (Link.resetParsers P) (if_neg hzero)
    obtain ⟨l', hl', hsettle⟩ := hreset
    refine ⟨by dsimp only; omega, ⟨todo.map Packet.bundle, ?_, ?_⟩, fun n hn => ?_,
      fun hzero => absurd hzero (Nat.ne_of_gt hpos)⟩
    · rw [hsettle]
      show _ = l'.delivered ++ _
      rw [hl', List.append_assoc]
      rfl
    · rw [hsettle]
      show At P G _ (piece.drop result.consumed ++ rest) _
      rw [hdrop, hall, List.drop_length]
      exact at_resetParsers hsound hlength l'
    · rw [hsettle, (l'.resetParsers_fresh P).curBulk] at hn
      cases hn
  | on hlater hdelivered =>
    have hgood := hG.good hlater
    have hleft := List.length_pos_iff.mpr (hwhole _ _ hlater)
    rw [List.length_drop] at hleft
    have hcount : (l.withResult v result).countDown P result.consumed =
        { l.withResult v result with nextBytes := l.nextBytes - result.consumed } := by
      rw [Link.countDown]
      exact if_neg (show ¬ l.nextBytes - result.consumed = 0 by omega)
    have hsettle :
        (receiver P header).settle ((l.withResult v result).countDown P result.consumed) =
          { l.withResult v result with nextBytes := l.nextBytes - result.consumed } := by
      have hne : ¬ l.nextBytes - result.consumed = 0 := by omega
      rw [settle_eq, hstatus, if_neg hne, if_pos hgood, hcount]
    refine ⟨by dsimp only; omega, ⟨b :: todo.map Packet.bundle, ?_, ?_⟩, fun n hn => ?_,
      fun hzero => absurd hzero (Nat.ne_of_gt hpos)⟩
    · rw [hsettle]
      show _ = (l.delivered ++ result.delivered) ++ _
      rw [hdelivered, List.append_nil]
    · rw [hsettle]
      show At P G _ (piece.drop result.consumed ++ rest) _
      rw [hdrop]
      refine .inside hsound hlength ?_ hwhole hdata hpayload rfl ?_
      · show G v (Function.update l.parsers v result.parser v) _ _
        rw [hparser]
        exact hlater
      · show _ ≤ l.nextBytes - result.consumed
        rw [List.length_drop]
        omega
    · rw [hsettle] at hn
      change (P v).bulkRead (Function.update l.parsers v result.parser v) = some n at hn
      rw [hparser] at hn
      obtain ⟨hfits, -⟩ := hG.bulk hlater hn
      rw [List.length_drop] at hfits
      have hstays := hpending n hn hgood
      dsimp only
      omega

/-- At the start of a packet. -/
theorem called_start (hG : ∀ v, Parses (P v) (G v)) {f : Packet β} {todo : List (Packet β)}
    (hsound : Sound P G (f :: todo)) (hlength : ∀ f ∈ todo, f.content.length < 2 ^ 64)
    (hfresh : l.Fresh P) (hdata : l.dataSubparser = true) (hnext : l.nextBytes = f.content.length)
    (hpiece : piece ≠ []) (heq : piece ++ rest = f.content ++ todo.flatMap frame) :
    Called P header G l (f.bundle :: todo.map Packet.bundle) piece rest
      (l.forwardToSpecificParser P header piece) := by
  obtain ⟨v, hcarries, hwhole⟩ := hsound f List.mem_cons_self
  obtain ⟨s, hs⟩ := hfresh.parsers v
  obtain ⟨hstands, hnone⟩ := hcarries.start s
  rw [← hs] at hstands hnone
  have htodo : Sound P G todo := fun g hg => hsound g (List.mem_cons_of_mem _ hg)
  obtain ⟨hcalled, hpos⟩ :
      Called P header G l (f.bundle :: todo.map Packet.bundle) piece rest
          ((Link.withResult { l with payloadType := some v } v
            ((P v).read (l.parsers v) (piece.take l.nextBytes))).countDown P
            ((P v).read (l.parsers v) (piece.take l.nextBytes)).consumed,
          ((P v).read (l.parsers v) (piece.take l.nextBytes)).consumed) ∧
        0 < ((P v).read (l.parsers v) (piece.take l.nextBytes)).consumed := by
    have hparser := @called_inside _ _ P header G { l with payloadType := some v } _ piece rest v
      f.bundle todo (hG v) htodo hlength hstands hwhole hnone hdata rfl (Nat.le_of_eq hnext.symm)
      hpiece heq
    exact ⟨⟨hparser.1.consumed, hparser.1.stands, hparser.1.pending, hparser.1.waits⟩, hparser.2⟩
  -- the first byte selects the parser
  obtain ⟨byte, content, hcontent⟩ := List.exists_cons_of_ne_nil hcarries.ne_nil
  obtain ⟨first, piece', rfl⟩ := List.exists_cons_of_ne_nil hpiece
  rw [hcontent] at heq hnext
  obtain ⟨rfl, -⟩ := List.cons.inj heq
  have hversion : Tcpclv3.Link.versionOf first = some v := by
    have h := hcarries.version
    rw [hcontent] at h
    exact h
  have hselect : l.selectBundleParserVersion P ((first :: piece').take l.nextBytes) =
      Link.callParser P { l with payloadType := some v } v
        ((first :: piece').take l.nextBytes) := by
    have htake : (first :: piece').take l.nextBytes = first :: piece'.take content.length := by
      rw [hnext, List.length_cons, List.take_succ_cons]
    rw [htake, Link.selectBundleParserVersion, hversion]
  have hcall : l.forwardToSpecificParser P header (first :: piece') =
      ((Link.withResult { l with payloadType := some v } v
          ((P v).read (l.parsers v) ((first :: piece').take l.nextBytes))).countDown P
          ((P v).read (l.parsers v) ((first :: piece').take l.nextBytes)).consumed,
        ((P v).read (l.parsers v) ((first :: piece').take l.nextBytes)).consumed) := by
    rw [Link.forwardToSpecificParser, if_neg (not_header hdata), hfresh.payloadType]
    dsimp only
    rw [hselect, Link.callParser]
    dsimp only
    rw [if_neg (Nat.ne_of_gt hpos)]
  rw [hcall]
  exact hcalled

/-- A call from the loop of `chunk_read`. -/
theorem At.call (hheader : ReadsHeaders header) (hG : ∀ v, Parses (P v) (G v))
    (h : At P G l unread out) (hbulk : l.curBulk P = none) (hpiece : piece ≠ [])
    (heq : piece ++ rest = unread) :
    Called P header G l out piece rest (l.forwardToSpecificParser P header piece) := by
  cases h with
  | idle hsound hlength hfresh hdata =>
    exact called_idle hheader hsound hlength hfresh hdata hpiece heq
  | start hsound hlength hfresh hdata hnext =>
    exact called_start hG hsound hlength hfresh hdata hnext hpiece heq
  | @inside v bytes b todo hsound hlength hstands hwhole hdata hpayload hcur hnext =>
    have hnone : (P v).bulkRead (l.parsers v) = none := by
      rw [Link.curBulk, hcur] at hbulk
      exact hbulk
    have hcall : l.forwardToSpecificParser P header piece =
        ((l.withResult v ((P v).read (l.parsers v) (piece.take l.nextBytes))).countDown P
            ((P v).read (l.parsers v) (piece.take l.nextBytes)).consumed,
          ((P v).read (l.parsers v) (piece.take l.nextBytes)).consumed) := by
      rw [Link.forwardToSpecificParser, if_neg (not_header hdata), hpayload]
      rfl
    rw [hcall]
    exact (called_inside (hG v) hsound hlength hstands hwhole hnone hdata hpayload hnext hpiece
      heq).1

/-! ## A bulk -/

/-- Only a bundle parser requests a bulk. -/
theorem At.bulk (hG : ∀ v, Parses (P v) (G v)) (h : At P G l unread out) {n : Nat}
    (hbulk : l.curBulk P = some n) :
    n ≤ unread.length ∧
      ((receiver P header).settle (l.forwardBulk P (unread.take n))).curBulk P = none ∧
      ∃ later, l.delivered ++ out =
          ((receiver P header).settle (l.forwardBulk P (unread.take n))).delivered ++ later ∧
        At P G ((receiver P header).settle (l.forwardBulk P (unread.take n))) (unread.drop n)
          later := by
  cases h with
  | idle hsound hlength hfresh =>
    rw [hfresh.curBulk] at hbulk
    cases hbulk
  | start hsound hlength hfresh =>
    rw [hfresh.curBulk] at hbulk
    cases hbulk
  | @inside v bytes b todo hsound hlength hstands hwhole hdata hpayload hcur hnext =>
    have hrequest : (P v).bulkRead (l.parsers v) = some n := by
      rw [Link.curBulk, hcur] at hbulk
      exact hbulk
    obtain ⟨hle, hgoes, hnone⟩ := (hG v).bulk hstands hrequest
    have hpos := List.length_pos_iff.mpr (hwhole _ _ hstands)
    have htake : (bytes ++ todo.flatMap frame).take n = bytes.take n :=
      List.take_append_of_le_length hle
    have hdrop : (bytes ++ todo.flatMap frame).drop n = bytes.drop n ++ todo.flatMap frame :=
      List.drop_append_of_le_length hle
    -- the bulk is not counted
    have hforward : l.forwardBulk P (bytes.take n) =
        l.withResult v ((P v).readBulk (l.parsers v) (bytes.take n)) := by
      rw [Link.forwardBulk, if_neg (not_header hdata), hpayload]
      dsimp only
      rw [Link.countDown]
      exact if_neg (show ¬ l.nextBytes - 0 = 0 by omega)
    refine ⟨by rw [List.length_append]; omega, ?_⟩
    rw [htake, hdrop, hforward, settle_eq]
    generalize (P v).readBulk (l.parsers v) (bytes.take n) = result at *
    have hparser : Function.update l.parsers v result.parser v = result.parser :=
      Function.update_self ..
    have hstatus : (l.withResult v result).curStatus P = (P v).status result.parser :=
      congrArg (P v).status hparser
    rw [hstatus]
    cases hgoes with
    | done hdone hall hdelivered =>
      have hbad : ¬ (P v).status result.parser = .good := by
        rw [hdone]
        exact ParserStatus.noConfusion
      rw [if_neg hbad]
      refine ⟨((l.withResult v result).resetParsers_fresh P).curBulk, todo.map Packet.bundle, ?_, ?_⟩
      · show _ = (l.delivered ++ result.delivered) ++ _
        rw [hdelivered, List.append_assoc]
        rfl
      · rw [hall, List.drop_length]
        exact at_resetParsers hsound hlength _
    | on hlater hdelivered =>
      have hgood := (hG v).good hlater
      rw [if_pos hgood]
      refine ⟨?_, b :: todo.map Packet.bundle, ?_, .inside hsound hlength ?_ hwhole hdata hpayload
        rfl ?_⟩
      · show (P v).bulkRead (Function.update l.parsers v result.parser v) = none
        rw [hparser]
        exact hnone hgood
      · show _ = (l.delivered ++ result.delivered) ++ _
        rw [hdelivered, List.append_nil]
      · show G v (Function.update l.parsers v result.parser v) _ _
        rw [hparser]
        exact hlater
      · show (bytes.drop n).length ≤ l.nextBytes
        rw [List.length_drop]
        omega

/-! ## The stream -/

theorem At.finished (h : At P G l [] out) : out = [] := by
  generalize hnil : ([] : List UInt8) = bytes at h
  cases h with
  | @idle todo hsound hlength hfresh hdata =>
    cases todo with
    | nil => rfl
    | cons f todo =>
      obtain ⟨hpos, -⟩ := mtcpEncodeHeader_le f.content.length
      have hlength := congrArg List.length hnil
      rw [List.flatMap_cons, frame, List.length_append, List.length_append, List.length_nil]
        at hlength
      omega
  | @start f todo hsound =>
    obtain ⟨v, hcarries, -⟩ := hsound f List.mem_cons_self
    exact absurd (List.append_eq_nil_iff.mp hnil.symm).1 hcarries.ne_nil
  | inside hsound hlength hstands hwhole =>
    exact absurd (List.append_eq_nil_iff.mp hnil.symm).1 (hwhole _ _ hstands)

theorem follows_packets (hheader : ReadsHeaders header) (hG : ∀ v, Parses (P v) (G v)) :
    Framing.Follows (receiver P header) claRxBufferSize (·.delivered) (At P G) where
  consumed hat hbulk _ _ hpiece heq := (hat.call hheader hG hbulk hpiece heq).consumed
  call {l unread out} hat hbulk piece rest hpiece heq := by
    have hcalled := hat.call hheader hG hbulk hpiece heq
    obtain ⟨later, hdelivered, hat'⟩ := hcalled.stands
    have hdrop : unread.drop (l.forwardToSpecificParser P header piece).2 =
        piece.drop (l.forwardToSpecificParser P header piece).2 ++ rest := by
      rw [← heq, List.drop_append_of_le_length hcalled.consumed]
    rw [← hdrop] at hat'
    exact ⟨later, hdelivered, hat'⟩
  pending hat hbulk _ _ n hpiece heq := (hat.call hheader hG hbulk hpiece heq).pending n
  waits hat hbulk _ _ hpiece heq hzero _ := (hat.call hheader hG hbulk hpiece heq).waits hzero
  bulk hat hbulk := hat.bulk hG hbulk
  reset l := (l.resetParsers_fresh P).curBulk
  finished hat _ := hat.finished

/-- The packets are delivered, in whatever pieces the stream arrives. -/
theorem delivers_packets (hheader : ReadsHeaders header) (hconsumes : HeaderConsumes header)
    (hG : ∀ v, Parses (P v) (G v)) (hP : Consumes P) (hsound : Sound P G packets)
    (hlength : ∀ f ∈ packets, f.content.length < 2 ^ 64) {parsers : Version → σ}
    (hready : ∀ v, ∃ s, parsers v = (P v).reset s) :
    Delivers (receiver P header) claRxBufferSize (·.delivered) (.initial parsers)
      (packets.flatMap frame) (packets.map Packet.bundle) :=
  (follows_packets hheader hG).delivers (receiver_progresses hP hconsumes) (by decide)
    (.idle hsound hlength ⟨rfl, rfl, hready⟩ rfl) rfl

end Upcn.Mtcp
