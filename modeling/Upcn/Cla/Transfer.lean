import Upcn.Bundle6.Content
import Upcn.Mtcp.Transfer
import Upcn.Tcpclv3.Transfer
import Upcn.Tcpspp.Transfer

/-!
# Bundles from one node to another

`cla_contact_tx_task` sends the bundles of a contact, and the receive task of the other side is
given these bytes in any pieces: it delivers the bundles that were reported as transmitted, in this
order, each once, and nothing else.

The bundles are BPv6 bundles, and what arrives is their received form (`Bundle.transferred`), with
the EID references in the order in which the parser leaves them.  Of the other bundle parser nothing
is needed, since none of these bytes are for it.  The link stays active, and neither sending nor
`bundle_serialize` fails.
-/

namespace Upcn.Transfer

open Upcn.Bundle6 (ParserEnv)
open Upcn.Bundle6.Parser (Sendable bundleParser InBundle EndsInData parses_inBundle)
open Upcn.Framing (Delivers)
open Upcn.Tcpclv3 (Version BundleParser claRxBufferSize)

/-! ## The sending task -/

/-- What `cla_begin_packet` sends at a time, with the length of the packet, and `cla_end_packet`
behind the content. -/
structure Sender where
  beginPacket : UInt64 → Nat → List UInt8
  endPacket : UInt64 → List UInt8 → List UInt8

/-- The bytes that are sent for a bundle. -/
def Sender.packet (s : Sender) (time : UInt64) (b : Bundle6.Bundle) : List UInt8 :=
  s.beginPacket time b.bundle6GetSerializedSize.1 ++ (b.packet ++ s.endPacket time b.packet)

/-- The loop of `cla_contact_tx_task` over the bundles of a command, each with the time at which it
is sent: the bytes, and what is reported of each bundle. -/
def claContactTx (s : Sender) (storage : Nat → Option Bundle6.Bundle) :
    List (UInt64 × Nat) → List UInt8 × List (Nat × Bool)
  | [] => ([], [])
  | (time, id) :: rest =>
    let (bytes, reports) := claContactTx s storage rest
    match storage id with
    | some b => (s.packet time b ++ bytes, (id, true) :: reports)
    | none => (bytes, (id, false) :: reports)

/-- The bundles that are reported as transmitted, as they are received. -/
def transmitted (storage : Nat → Option Bundle6.Bundle) (reports : List (Nat × Bool)) :
    List Bundle6.Bundle :=
  reports.filterMap fun r => if r.2 then (storage r.1).map Bundle6.Bundle.transferred else none

variable {env : ParserEnv} {usage : Bundle6.Parser → Nat}
  {P : Version → BundleParser Bundle6.Parser Bundle6.Bundle}
  {storage : Nat → Option Bundle6.Bundle} {commands : List (UInt64 × Nat)} {s : Sender}

/-- The bundles that are sent, with their times. -/
def found (storage : Nat → Option Bundle6.Bundle) (commands : List (UInt64 × Nat)) :
    List (UInt64 × Packet Bundle6.Bundle) :=
  commands.filterMap fun c => (storage c.2).map fun b => (c.1, ⟨b.packet, b.transferred⟩)

theorem claContactTx_reports (s : Sender) (storage : Nat → Option Bundle6.Bundle)
    (commands : List (UInt64 × Nat)) :
    (found storage commands).map (·.2.bundle) =
      transmitted storage (claContactTx s storage commands).2 := by
  unfold found transmitted
  induction commands with
  | nil => rfl
  | cons c commands ih =>
    rw [claContactTx]
    cases hfound : storage c.2 with
    | none => simpa [hfound] using ih
    | some b => simpa [hfound] using ih

theorem claContactTx_bytes {frame : UInt64 × Packet Bundle6.Bundle → List UInt8}
    (hframe : ∀ c ∈ commands, ∀ b, storage c.2 = some b →
      s.packet c.1 b = frame (c.1, ⟨b.packet, b.transferred⟩)) :
    (claContactTx s storage commands).1 = (found storage commands).flatMap frame := by
  unfold found
  induction commands with
  | nil => rfl
  | cons c commands ih =>
    have hrest := ih fun c' hc' => hframe c' (List.mem_cons_of_mem _ hc')
    rw [claContactTx]
    cases hfound : storage c.2 with
    | none => simpa [hfound] using hrest
    | some b =>
      have hthis := hframe c List.mem_cons_self b hfound
      simp only [List.filterMap_cons, hfound, Option.map_some, List.flatMap_cons, hrest, hthis]

theorem mem_found {storage : Nat → Option Bundle6.Bundle} {f : UInt64 × Packet Bundle6.Bundle}
    (h : f ∈ found storage commands) :
    ∃ c ∈ commands, ∃ b, storage c.2 = some b ∧ f = (c.1, ⟨b.packet, b.transferred⟩) := by
  obtain ⟨c, hc, hsome⟩ := List.mem_filterMap.mp h
  obtain ⟨b, hb, rfl⟩ := Option.map_eq_some_iff.mp hsome
  exact ⟨c, hc, b, hb, rfl⟩

/-! ## The bundle parsers -/

/-- Where a parser stands in a bundle. -/
def bundlesIn (env : ParserEnv) : Version → Bundle6.Parser → List UInt8 → Bundle6.Bundle → Prop
  | .bundle6 => InBundle env
  | .bundle7 => fun _ _ _ => False

theorem parses_bundlesIn (hP : P .bundle6 = bundleParser env usage) (v : Version) :
    Parses (P v) (bundlesIn env v) := by
  cases v with
  | bundle6 =>
    rw [hP]
    exact parses_inBundle
  | bundle7 =>
    exact ⟨False.elim, fun h => h.elim, fun h => h.elim, fun h => h.elim, fun h => h.elim⟩

/-- The content of the packets that are sent. -/
theorem carries_found (hP : P .bundle6 = bundleParser env usage)
    (hsend : ∀ c ∈ commands, ∀ b, storage c.2 = some b → Sendable env usage b)
    {f : UInt64 × Packet Bundle6.Bundle} (hf : f ∈ found storage commands) :
    Carries P .bundle6 (bundlesIn env .bundle6) f.2.content f.2.bundle := by
  obtain ⟨c, hc, b, hb, rfl⟩ := mem_found hf
  exact Bundle6.Bundle.carries_bundle6 hP (hsend c hc b hb)

/-- All parsers count down to the last byte of these bundles. -/
theorem sound_found (hP : P .bundle6 = bundleParser env usage)
    (hsend : ∀ c ∈ commands, ∀ b, storage c.2 = some b → Sendable env usage b ∧ EndsInData b) :
    Sound P (bundlesIn env) ((found storage commands).map Prod.snd) := by
  intro f hf
  obtain ⟨g, hg, rfl⟩ := List.mem_map.mp hf
  refine ⟨.bundle6, carries_found hP (fun c hc b hb => (hsend c hc b hb).1) hg, ?_⟩
  obtain ⟨c, hc, b, hb, rfl⟩ := mem_found hg
  exact fun _ _ hstands =>
    InBundle.ne_nil hstands (Bundle6.Bundle.endsInData_transferred (hsend c hc b hb).2)

theorem length_found (hsend : ∀ c ∈ commands, ∀ b, storage c.2 = some b → Sendable env usage b)
    {f : UInt64 × Packet Bundle6.Bundle} (hf : f ∈ found storage commands) :
    f.2.content.length < 2 ^ 32 := by
  obtain ⟨c, hc, b, hb, rfl⟩ := mem_found hf
  have h := hsend c hc b hb
  show b.packet.length < 2 ^ 32
  rw [Bundle6.Bundle.length_packet h]
  exact h.size_lt

/-! ## The three links -/

/-- `cla_tcpclv3.c`. -/
def tcpclv3Sender : Sender := ⟨fun _ length => Tcpclv3.tcpclv3BeginPacket length, fun _ _ => []⟩

/-- `cla_mtcp.c`. -/
def mtcpSender : Sender := ⟨fun _ length => Mtcp.mtcpEncodeHeader length, fun _ _ => []⟩

/-- `cla_tcpspp.c`. -/
def tcpsppSender (ctx : Spp.SppContext) (apid : UInt16) : Sender where
  beginPacket time length := (Tcpspp.tcpsppBeginPacket ctx apid time length).getD []
  endPacket time content :=
    Tcpspp.tcpsppEndPacket ((Tcpspp.tcpsppBeginPacket ctx apid time content.length).getD []) content

/-! ## A contact -/

/-- Both parsers of the contact below. -/
def contactPair : Version → BundleParser Bundle6.Parser Bundle6.Bundle :=
  fun _ => bundleParser Bundle6.Parser.plainParserEnv fun _ => 0

theorem consumes_contactPair : Consumes contactPair := fun _ _ _ => Nat.sub_le _ _

/-- Two bundles are in the store, the second with two references. -/
def contactStorage : Nat → Option Bundle6.Bundle
  | 1 => some (Bundle6.referringBundle [[97, 58, 98]])
  | 2 => some (Bundle6.referringBundle [[97, 58, 98], [97, 58, 99]])
  | _ => none

theorem sendable_contactStorage {id : Nat} {b : Bundle6.Bundle} (h : contactStorage id = some b) :
    Sendable Bundle6.Parser.plainParserEnv (fun _ => 0) b ∧ EndsInData b := by
  unfold contactStorage at h
  split at h
  · obtain rfl := Option.some.inj h
    refine ⟨⟨Bundle6.wellFormed_referringBundle _ ?_ (by decide), by decide, by decide, by decide,
      fun _ => ⟨fun _ => rfl, by decide, by decide⟩⟩, [], _, rfl, List.cons_ne_nil _ _⟩
    simp only [List.mem_singleton, forall_eq]
    exact ⟨by decide, by decide⟩
  · obtain rfl := Option.some.inj h
    refine ⟨⟨Bundle6.wellFormed_referringBundle _ ?_ (by decide), by decide, by decide, by decide,
      fun _ => ⟨fun _ => rfl, by decide, by decide⟩⟩, [], _, rfl, List.cons_ne_nil _ _⟩
    simp only [List.mem_cons, List.not_mem_nil, or_false, forall_eq_or_imp, forall_eq]
    exact ⟨⟨by decide, by decide⟩, by decide, by decide⟩
  · cases h

/-! ## The transfer -/

/-- What the receive task makes of the bytes of a contact: in whatever pieces they arrive, it
delivers the bundles that were reported as transmitted. -/
def Transfers {σ : Type} (R : Framing.Receiver UInt8 σ) (delivered : σ → List Bundle6.Bundle)
    (start : σ) (s : Sender) (storage : Nat → Option Bundle6.Bundle)
    (commands : List (UInt64 × Nat)) : Prop :=
  Delivers R claRxBufferSize delivered start (claContactTx s storage commands).1
    (transmitted storage (claContactTx s storage commands).2)

end Upcn.Transfer
