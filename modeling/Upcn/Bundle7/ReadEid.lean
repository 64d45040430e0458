import Upcn.Bundle7.Reading
import Upcn.Lib.CborReads

/-!
# Reading endpoints and times

What `bundle7_eid_parse_cbor` and `bundle7_timestamp_parse` make of what was serialized, in a buffer
that may end inside of it.
-/

namespace Upcn.Bundle7.Parser

open Cbor
open Upcn.Bundle7Parser (illegalUnless)

variable {cbor : DataDecoder} {At : cbor.Value → Place → Prop} {v : cbor.Value} {p : Place}
  {later more : List UInt8} {eid bytes ssp : List UInt8}

@[simp] theorem illegalUnless_true_bind {β : Type} (f : Unit → Except CborError β) :
    (illegalUnless true >>= f) = f () := rfl

/-! ## Two numbers -/

/-- The two numbers of an array, as they are read for an `ipn` EID and for a time. -/
def twoNumbers (cbor : DataDecoder) (it : cbor.Value) :
    Except CborError ((UInt64 × UInt64) × cbor.Value) := do
  illegalUnless (cbor.isArray it)
  let time ← cbor.enterContainer it
  illegalUnless (cbor.isUnsignedInteger time)
  let sequence ← cbor.advance time
  illegalUnless (cbor.isUnsignedInteger sequence)
  let ended ← cbor.advance sequence
  illegalUnless (cbor.atEnd ended)
  let next ← cbor.leaveContainer it ended
  return ((cbor.getUint64 time, cbor.getUint64 sequence), next)

/-- Two numbers that were serialized are read. -/
theorem reads_twoNumbers (hfollows : cbor.Follows At) (hat : At v p) (hleft : p.left ≠ some 0)
    (first second : UInt64)
    (heq : p.rest ++ later = array 2 ++ (uint first.toNat ++ uint second.toNat) ++ more) :
    Reads At (fun v => ((first, second), v)) p (array 2 ++ (uint first.toNat ++ uint second.toNat))
      (p.left.map (· - 1)) (twoNumbers cbor v) := by
  have hfirst : first.toNat < 2 ^ 64 := first.toNat_lt
  have hsecond : second.toNat < 2 ^ 64 := second.toNat_lt
  rw [List.append_assoc] at heq
  obtain ⟨harray, -, -, henter⟩ := reads_enter hfollows hat hleft (by decide) (by decide) heq
  unfold twoNumbers
  rw [harray]
  refine henter.bind (by decide) ((begins_uint hfirst).append _) heq fun v₁ h₁ heq => ?_
  rw [List.append_assoc] at heq
  obtain ⟨hunsigned, hget, -, hreads⟩ := reads_uint hfollows h₁ (by simp) hfirst heq
  show Reads At _ _ _ _ (illegalUnless (cbor.isUnsignedInteger v₁) >>= _)
  rw [hunsigned]
  refine hreads.bind (by simp) (begins_uint hsecond) heq fun v₂ h₂ heq => ?_
  obtain ⟨hunsigned', hget', -, hreads'⟩ := reads_uint hfollows h₂ (by simp) hsecond heq
  show Reads At _ _ _ _ (illegalUnless (cbor.isUnsignedInteger v₂) >>= _)
  rw [hunsigned']
  refine hreads'.leave fun ended hended => ?_
  have hend : cbor.atEnd ended = true := (hfollows.atEnd ended _ hended).mpr rfl
  refine ⟨_, hfollows.leave v ended p _ _ hat hleft harray hended, ?_⟩
  show (illegalUnless (cbor.atEnd ended) >>= fun _ => cbor.leaveContainer v ended >>= fun next =>
    pure ((cbor.getUint64 v₁, cbor.getUint64 v₂), next)) = _
  rw [hend, UInt64.toNat_inj.mp hget, UInt64.toNat_inj.mp hget']
  cases cbor.leaveContainer v ended <;> rfl

/-! ## The parts that depend on the scheme -/

/-- `dtn:none`. -/
theorem reads_dtnNone (hfollows : cbor.Follows At) (hat : At v p) (hleft : p.left = some 1)
    (heq : p.rest ++ later = uint 0 ++ more) :
    Reads At (fun v => (dtnNone, v)) p (uint 0) (some 0) (eidParseDtn cbor v) := by
  obtain ⟨hunsigned, hget, hfront, hreads⟩ :=
    reads_uint hfollows hat (by simp [hleft]) (by decide) heq
  obtain ⟨moved, hmoves, hadvance⟩ := hreads.moves hfront
  rw [hleft] at hmoves
  obtain ⟨next, rfl, hnext⟩ := hmoves.ended rfl
  have hfixed : (cbor.advanceFixed v).2 = next := by
    unfold Decoder.advance at hadvance
    split at hadvance
    · cases hadvance
    · rename_i heq
      rw [heq]
      exact Except.ok.inj hadvance
  have hzero : cbor.getUint64 v = 0 := UInt64.toNat_inj.mp hget
  have hparse : eidParseDtn cbor v = .ok (dtnNone, next) := by
    simp [eidParseDtn, hunsigned, hzero, hfixed]
  rw [hparse]
  exact ⟨fun hnot => absurd hfront hnot, fun _ => ⟨.ok next, hmoves, rfl⟩⟩

/-- The text of a `dtn` EID. -/
theorem reads_dtn (hfollows : cbor.Follows At) (hat : At v p) (hleft : p.left = some 1)
    (hdtn : dtnPrefix <+: eid) (hlength : (eid.drop 4).length < 2 ^ 64)
    (heq : p.rest ++ later = textString (eid.drop 4) ++ more) :
    Reads At (fun v => (cString eid, v)) p (textString (eid.drop 4)) (some 0)
      (eidParseDtn cbor v) := by
  obtain ⟨hunsigned, htext, hget, hremaining, hcopied, hreads⟩ :=
    reads_text hfollows hat (by simp [hleft]) hlength heq
  rw [hleft] at hreads
  have hparse : eidParseDtn cbor v = if cbor.remaining v < (eid.drop 4).length then
      .error .unexpectedEOF
    else (cbor.copyTextString v).map fun next =>
      (cString (dtnPrefix ++ cbor.copiedText v), next) := by
    simp [eidParseDtn, hunsigned, htext, hget]
  rw [hparse]
  refine ⟨fun hnot => ?_, fun hthere => ?_⟩
  · split
    · rfl
    · rw [hreads.short hnot]
      rfl
  · rw [if_neg fun hshort => hremaining hshort hthere]
    obtain ⟨moved, hmoves, hcopy⟩ := hreads.moves hthere
    refine ⟨moved, hmoves, ?_⟩
    have heid : dtnPrefix ++ eid.drop 4 = eid := by
      obtain ⟨tail, rfl⟩ := hdtn
      rfl
    rw [hcopied hthere, heid, hcopy]
    cases moved <;> rfl

/-- The numbers of an `ipn` EID. -/
theorem reads_ipn (hfollows : cbor.Follows At) (hat : At v p) (hleft : p.left = some 1)
    {node service : UInt64}
    (heq : p.rest ++ later = array 2 ++ (uint node.toNat ++ uint service.toNat) ++ more) :
    Reads At (fun v => (ipnText node.toNat service.toNat, v)) p
      (array 2 ++ (uint node.toNat ++ uint service.toNat)) (some 0) (eidParseIpn cbor v) := by
  have hreads := reads_twoNumbers hfollows hat (by simp [hleft]) node service heq
  rw [List.append_assoc] at heq
  obtain ⟨harray, hknown, -, -⟩ :=
    reads_enter hfollows hat (by simp [hleft]) (by decide) (by decide) heq
  have hparse : eidParseIpn cbor v = (twoNumbers cbor v).map fun x =>
      (ipnText x.1.1.toNat x.1.2.toNat, x.2) := by
    show _ = (fun x => (ipnText x.1.1.toNat x.1.2.toNat, x.2)) <$> twoNumbers cbor v
    simp only [eidParseIpn, twoNumbers, map_bind, map_pure, harray, hknown, Bool.and_self]
  rw [hparse, hleft] at *
  refine ⟨fun hnot => ?_, fun hthere => ?_⟩
  · rw [hreads.short hnot]
    rfl
  · obtain ⟨moved, hmoves, hr⟩ := hreads.moves hthere
    refine ⟨moved, hmoves, ?_⟩
    rw [hr]
    cases moved <;> rfl

/-! ## Endpoints -/

/-- An EID with a part that depends on its scheme. -/
theorem reads_eidArray (hfollows : cbor.Follows At) (hat : At v p) (hleft : p.left ≠ some 0)
    (schema : UInt64) (hbegins : Begins ssp)
    (hssp : ∀ v q, At v q → q.left = some 1 → q.rest ++ later = ssp ++ more →
      Reads At (fun v => (eid, v)) q ssp (some 0) (eidParseSsp cbor schema v))
    (heq : p.rest ++ later = array 2 ++ (uint schema.toNat ++ ssp) ++ more) :
    Reads At (fun v => (eid, v)) p (array 2 ++ (uint schema.toNat ++ ssp)) (p.left.map (· - 1))
      (bundle7EidParseCbor cbor v) := by
  have hschema : schema.toNat < 2 ^ 64 := schema.toNat_lt
  rw [List.append_assoc] at heq
  obtain ⟨harray, hknown, hlength, henter⟩ :=
    reads_enter hfollows hat hleft (by decide) (by decide) heq
  unfold bundle7EidParseCbor
  rw [harray, hknown, hlength]
  refine henter.bind (by decide) ((begins_uint hschema).append _) heq fun first hfirst heq => ?_
  rw [List.append_assoc] at heq
  obtain ⟨hunsigned, hget, -, hreads⟩ := reads_uint hfollows hfirst (by simp) hschema heq
  show Reads At _ _ _ _ (illegalUnless (cbor.isUnsignedInteger first) >>= _)
  rw [hunsigned]
  refine hreads.bind (by simp) hbegins heq fun second hsecond heq => ?_
  show Reads At _ _ _ _ (eidParseSsp cbor (cbor.getUint64 first) second >>= _)
  rw [UInt64.toNat_inj.mp hget]
  refine (hssp second _ hsecond rfl heq).leave fun ended hended => ?_
  refine ⟨_, hfollows.leave v ended p _ _ hat hleft harray hended, ?_⟩
  show (cbor.leaveContainer v ended >>= fun next => pure (eid, next)) = _
  cases cbor.leaveContainer v ended <;> rfl

/-- An EID that was serialized is read. -/
theorem reads_eid (hfollows : cbor.Follows At) (hat : At v p) (hleft : p.left ≠ some 0)
    (hbytes : eidSerialize eid = some bytes) (heq : p.rest ++ later = bytes ++ more) :
    Reads At (fun v => (eidRead eid, v)) p bytes (p.left.map (· - 1))
      (bundle7EidParseCbor cbor v) := by
  have hsize : eidSerializeCbor eid = some bytes ∧ bytes.length ≤ bufferSize := by
    unfold eidSerialize at hbytes
    split at hbytes
    · cases hbytes
    · rename_i encoded hencoded
      split_ifs at hbytes with hfits
      obtain rfl := Option.some.inj hbytes
      exact ⟨hencoded, hfits⟩
  obtain ⟨hserialize, hfits⟩ := hsize
  unfold eidSerializeCbor at hserialize
  split_ifs at hserialize with hnone hdtn hipn
  · obtain rfl := Option.some.inj hserialize
    have heid : eidRead eid = dtnNone := by
      rw [hnone]
      decide
    rw [heid]
    exact reads_eidArray hfollows hat hleft 1 (begins_uint (by decide))
      (fun v q hq hone hrest => reads_dtnNone hfollows hq hone hrest)
      (by simpa [serializeDtnNone, List.append_assoc] using heq)
  · obtain rfl := Option.some.inj hserialize
    have hlength : (eid.drop 4).length < 2 ^ 64 := by
      simp only [serializeDtn, List.length_append, length_textString, bufferSize] at hfits
      omega
    have heid : eidRead eid = cString eid := if_pos hdtn
    rw [heid]
    exact reads_eidArray hfollows hat hleft 1 (begins_textString hlength)
      (fun v q hq hone hrest => reads_dtn hfollows hq hone hdtn hlength hrest)
      (by simpa [serializeDtn, List.append_assoc] using heq)
  · obtain ⟨⟨node, service⟩, hscan, rfl⟩ := Option.map_eq_some_iff.mp hserialize
    obtain ⟨hnode, hservice⟩ := scanIpn_lt hscan
    have hnode' : (UInt64.ofNat node).toNat = node :=
      UInt64.toNat_ofNat_of_lt' (Nat.lt_trans hnode (by decide))
    have hservice' : (UInt64.ofNat service).toNat = service :=
      UInt64.toNat_ofNat_of_lt' (Nat.lt_trans hservice (by decide))
    have heid : eidRead eid = ipnText node service := by
      rw [eidRead, if_neg hdtn, hscan]
    rw [heid]
    dsimp only
    rw [← hnode', ← hservice'] at heq ⊢
    exact reads_eidArray hfollows hat hleft 2
      ((begins_array (by decide : 2 < 2 ^ 64)).append _)
      (fun v q hq hone hrest => reads_ipn hfollows hq hone hrest)
      (by simpa [List.append_assoc] using heq)

/-! ## Times -/

/-- The fields of a bundle that are set. -/
def stamped (b : Bundle) (time sequence : UInt64) : Bundle :=
  { b with creationTimestamp := time.toNat, sequenceNumber := sequence.toNat }

/-- `bundle7_timestamp_parse` sets the numbers that it reads. -/
theorem bundle7TimestampParse_eq (b : Bundle) (it : cbor.Value) :
    (∃ times next, twoNumbers cbor it = .ok (times, next) ∧
      bundle7TimestampParse cbor b it = (stamped b times.1 times.2, .ok next)) ∨
    ∃ err b', twoNumbers cbor it = .error err ∧
      bundle7TimestampParse cbor b it = (b', .error err) ∧
      ∀ time sequence, stamped b' time sequence = stamped b time sequence := by
  -- Each result of the decoder is looked at in turn.
  cases harray : cbor.isArray it with
  | false => exact .inr ⟨.illegalType, b,
      by simp [twoNumbers, illegalUnless, bind, Except.bind, harray],
      by simp [bundle7TimestampParse, harray], fun _ _ => rfl⟩
  | true =>
  cases henter : cbor.enterContainer it with
  | error err => exact .inr ⟨err, b,
      by simp [twoNumbers, illegalUnless, bind, Except.bind, harray, henter],
      by simp [bundle7TimestampParse, harray, henter], fun _ _ => rfl⟩
  | ok time =>
  cases htime : cbor.isUnsignedInteger time with
  | false => exact .inr ⟨.illegalType, b,
      by simp [twoNumbers, illegalUnless, bind, Except.bind, harray, henter, htime],
      by simp [bundle7TimestampParse, harray, henter, htime], fun _ _ => rfl⟩
  | true =>
  cases hsequence : cbor.advance time with
  | error err => exact .inr ⟨err, { b with creationTimestamp := (cbor.getUint64 time).toNat },
      by simp [twoNumbers, illegalUnless, bind, Except.bind, harray, henter, htime, hsequence],
      by simp [bundle7TimestampParse, harray, henter, htime, hsequence], fun _ _ => rfl⟩
  | ok sequence =>
  cases hunsigned : cbor.isUnsignedInteger sequence with
  | false => exact .inr ⟨.illegalType, { b with creationTimestamp := (cbor.getUint64 time).toNat },
      by simp [twoNumbers, illegalUnless, bind, Except.bind, harray, henter, htime, hsequence,
        hunsigned],
      by simp [bundle7TimestampParse, harray, henter, htime, hsequence, hunsigned], fun _ _ => rfl⟩
  | true =>
  cases hended : cbor.advance sequence with
  | error err => exact .inr ⟨err, stamped b (cbor.getUint64 time) (cbor.getUint64 sequence),
      by simp [twoNumbers, illegalUnless, bind, Except.bind, harray, henter, htime, hsequence,
        hunsigned, hended],
      by simp [bundle7TimestampParse, harray, henter, htime, hsequence, hunsigned, hended, stamped],
        fun _ _ => rfl⟩
  | ok ended =>
  cases hend : cbor.atEnd ended with
  | false => exact .inr ⟨.illegalType, stamped b (cbor.getUint64 time) (cbor.getUint64 sequence),
      by simp [twoNumbers, illegalUnless, bind, Except.bind, harray, henter, htime, hsequence,
        hunsigned, hended, hend],
      by simp [bundle7TimestampParse, harray, henter, htime, hsequence, hunsigned, hended, hend,
        stamped], fun _ _ => rfl⟩
  | true =>
  cases hnext : cbor.leaveContainer it ended with
  | error err => exact .inr ⟨err, stamped b (cbor.getUint64 time) (cbor.getUint64 sequence),
      by simp [twoNumbers, illegalUnless, bind, Except.bind, harray, henter, htime, hsequence,
        hunsigned, hended, hend, hnext],
      by simp [bundle7TimestampParse, harray, henter, htime, hsequence, hunsigned, hended, hend,
        hnext, stamped], fun _ _ => rfl⟩
  | ok next =>
    refine .inl ⟨(cbor.getUint64 time, cbor.getUint64 sequence), next, ?_, ?_⟩
    · simp [twoNumbers, illegalUnless, bind, Except.bind, pure, Except.pure,
        harray, henter, htime, hsequence, hunsigned, hended, hend, hnext]
    · simp [bundle7TimestampParse, harray, henter, htime, hsequence, hunsigned, hended, hend, hnext,
        stamped]

end Upcn.Bundle7.Parser
