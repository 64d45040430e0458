import Upcn.Aap.Parser
import Mathlib.Logic.Relation

/-!
# The AAP round trip

The parser is fed the bytes of a message in pieces of any size; what it does not
consume is presented again.  `At` says where the parser stands in the bytes of a
message: it is the invariant of the feeding, with one constructor a handler.
-/

namespace Upcn.Aap

open Upcn.Bundle6 (ParserStatus)
open Relation (ReflTransGen)

variable {mem : Nat → Bool} {m : Message} {p q : Parser}
  {unread chunk rest tail bytes pre post : List UInt8}

/-! ## Numbers -/

theorem toNat_ofNat_mod (n : Nat) : (UInt8.ofNat (n % 2 ^ 8)).toNat = n % 2 ^ 8 := by
  rw [UInt8.toNat_ofNat']
  omega

theorem readUint_putUint16 {value : Nat} (h : value < 2 ^ 16) :
    readUint (Message.putUint16 value) = value := by
  simp only [readUint, Message.putUint16, List.foldl, toNat_ofNat_mod]
  omega

/-- The number with one more byte of it. -/
theorem div_mul_add_mod (value shift : Nat) :
    value / 2 ^ (shift + 8) * 2 ^ 8 + value / 2 ^ shift % 2 ^ 8 = value / 2 ^ shift := by
  rw [Nat.pow_add, ← Nat.div_div_eq_div_mul]
  exact Nat.div_add_mod' _ _

theorem readUint_putUint64 {value : Nat} (h : value < 2 ^ 64) :
    readUint (Message.putUint64 value) = value := by
  have hfirst : value / 2 ^ 56 % 2 ^ 8 = value / 2 ^ 56 := Nat.mod_eq_of_lt (by omega)
  have hnext := div_mul_add_mod value
  simp only [readUint, Message.putUint64, List.map, List.foldl, toNat_ofNat_mod]
  rw [Nat.zero_mul, Nat.zero_add, hfirst, hnext 48, hnext 40, hnext 32, hnext 24, hnext 16,
    hnext 8, hnext 0, Nat.pow_zero, Nat.div_one]

theorem typeOfNibble_toNat (type : MessageType) :
    typeOfNibble (type.toNat % 2 ^ 4) = type := by
  cases type <;> rfl

theorem header_toNat (m : Message) :
    (UInt8.ofNat (0x1 * 2 ^ 4 + m.type.toNat % 2 ^ 4)).toNat / 2 ^ 4 = 0x1 ∧
      (UInt8.ofNat (0x1 * 2 ^ 4 + m.type.toNat % 2 ^ 4)).toNat % 2 ^ 4 =
        m.type.toNat % 2 ^ 4 := by
  rw [UInt8.toNat_ofNat']
  omega

/-! ## Pieces -/

/-- The beginning of a piece is that of the bytes it is a piece of. -/
theorem take_of_isPrefix {n : Nat} (h : chunk ++ rest = bytes ++ tail)
    (hchunk : n ≤ chunk.length) (hbytes : n ≤ bytes.length) :
    chunk.take n = bytes.take n := by
  have htake := congrArg (List.take n) h
  rwa [List.take_append_of_le_length hchunk, List.take_append_of_le_length hbytes] at htake

/-- The parser is fed a piece of what it has not consumed. -/
inductive Feeds (mem : Nat → Bool) : Parser × List UInt8 → Parser × List UInt8 → Prop where
  | feed {p q : Parser} {chunk rest : List UInt8} {n : Nat} (hgood : p.status = .good)
      (hcall : p.call mem chunk = some (q, n)) :
      Feeds mem (p, chunk ++ rest) (q, (chunk ++ rest).drop n)

/-- However the bytes of the message are fed, no handler writes to `NULL`, the parser
is done exactly when the last byte is consumed, the message that is then extracted says
the same, and the rest, once presented, completes it. -/
structure RoundTrips (mem : Nat → Bool) (m : Message) : Prop where
  size : m.aapSerialize.length = m.aapGetSerializedSize
  run : ∀ p unread, ReflTransGen (Feeds mem) (.aapParserInit, m.aapSerialize) (p, unread) →
    (∀ chunk rest, unread = chunk ++ rest → p.status = .good →
      (p.call mem chunk).isSome = true) ∧
    p.status ≠ .error ∧ (p.status = .done ↔ unread = []) ∧
    (unread = [] → (p.aapParserExtractMessage).1.Same m) ∧
    ∃ q, p.parseAap mem unread = some (q, []) ∧ q.status = .done

/-- The EID of a message with a payload is not empty, and the two buffers can be
allocated. -/
structure Completes (mem : Nat → Bool) (m : Message) : Prop where
  eid : m.type.hasEid = true → mem (m.eidLength + 1) = true
  payload : m.type.hasPayload = true → m.eidLength ≠ 0 ∧ mem m.payloadLength = true

/-! ## Where the parser stands -/

/-- The message while it is read. -/
abbrev partialMessage (m : Message) (eid : Option (List UInt8)) (eidLength : Nat)
    (payload : Option (List UInt8)) (payloadLength : Nat) : Message :=
  ⟨m.type, eid, eidLength, payload, payloadLength, 0⟩

/-- The parser stands in the bytes of the message, and has these before it. -/
inductive At (m : Message) : Parser → List UInt8 → Prop where
  | type (consumed remaining : Nat) :
      At m ⟨.good, 0, .type, .cleared .invalid, consumed, remaining⟩ m.aapSerialize
  | eidLength (hhas : m.type.hasEid = true) (consumed remaining : Nat) :
      At m ⟨.good, 0, .eidLength, partialMessage m none 0 none 0, consumed, remaining⟩
        (Message.putUint16 m.eidLength ++ (m.eidBytes ++ m.serializePayload))
  | eid {pre post : List UInt8} (hhas : m.type.hasEid = true)
      (hsplit : m.eidBytes = pre ++ post) (hpost : post ≠ []) :
      At m ⟨.good, 0, .eid, partialMessage m (some pre) m.eidLength none 0, pre.length,
        post.length⟩ (post ++ m.serializePayload)
  | payloadLength (hhas : m.type.hasPayload = true) :
      At m ⟨.good, 0, .payloadLength, partialMessage m (some m.eidBytes) m.eidLength none 0,
        m.eidLength, 0⟩ (Message.putUint64 m.payloadLength ++ m.payloadBytes)
  | payload {pre post : List UInt8} (hhas : m.type.hasPayload = true)
      (hsplit : m.payloadBytes = pre ++ post) (hpost : post ≠ []) :
      At m ⟨.good, 0, .payload, partialMessage m (some m.eidBytes) m.eidLength (some pre)
        m.payloadLength, pre.length, post.length⟩ post
  | bundleId (hhas : m.type.hasBundleId = true) (consumed remaining : Nat) :
      At m ⟨.good, 0, .bundleId, partialMessage m none 0 none 0, consumed, remaining⟩
        (Message.putUint64 m.bundleId)
  | done {p : Parser} (hstatus : p.status = .done) (hmax : p.maxPayloadLength = 0)
      (hmessage : p.message.Same m) : At m p []

/-- While the parser is not done, there are bytes before it. -/
theorem At.ne_nil (h : At m p unread) (hgood : p.status = .good) : unread ≠ [] := by
  cases h with
  | done hstatus _ _ =>
    rw [hgood] at hstatus
    cases hstatus
  | eid hhas hsplit hpost => simp [hpost]
  | payload hhas hsplit hpost => exact hpost
  | _ => exact List.cons_ne_nil _ _

/-- A call takes the parser on, not beyond the message, and consumes something if it is
given all of it. -/
def Advances (mem : Nat → Bool) (m : Message) (p : Parser) (chunk unread : List UInt8) :
    Prop :=
  ∃ q n, p.call mem chunk = some (q, n) ∧ n ≤ chunk.length ∧ n ≤ unread.length ∧
    At m q (unread.drop n) ∧ (unread.length ≤ chunk.length → 0 < n)

/-- A handler that waits for more bytes. -/
theorem advances_waiting (h : At m p unread) (hcall : p.call mem chunk = some (p, 0))
    (hlt : chunk.length < unread.length) : Advances mem m p chunk unread :=
  ⟨p, 0, hcall, Nat.zero_le _, Nat.zero_le _, h, fun hle => by omega⟩

/-- What `aap_parse_type` makes of the first byte of a message. -/
theorem aapParseType_header (p : Parser) (m : Message) (more : List UInt8) :
    p.aapParseType (UInt8.ofNat (0x1 * 2 ^ 4 + m.type.toNat % 2 ^ 4) :: more) =
      (let p := { p with message := { p.message with type := m.type } }
      (if m.type.hasEid then { p with parse := .eidLength }
      else if m.type.hasBundleId then { p with parse := .bundleId }
      else if m.type = .invalid then { p with status := .error }
      else { p with status := .done }), 1) := by
  obtain ⟨hversion, hnibble⟩ := header_toNat m
  rw [Parser.aapParseType, if_neg fun hne => hne hversion, hnibble, typeOfNibble_toNat]
  cases m.type <;> rfl

theorem At.type_step (hm : m.Valid) (consumed remaining : Nat)
    (heq : chunk ++ rest = m.aapSerialize ++ tail) :
    Advances mem m ⟨.good, 0, .type, .cleared .invalid, consumed, remaining⟩ chunk
      m.aapSerialize := by
  cases chunk with
  | nil => exact advances_waiting (.type consumed remaining) rfl (Nat.succ_pos _)
  | cons byte chunk =>
    rw [Message.aapSerialize, List.cons_append, List.cons_append] at heq
    obtain ⟨hbyte, -⟩ := List.cons.inj heq
    have hcall : (⟨.good, 0, .type, .cleared .invalid, consumed, remaining⟩ : Parser).call mem
        (byte :: chunk) = some (Parser.aapParseType ⟨.good, 0, .type, .cleared .invalid,
          consumed, remaining⟩ (byte :: chunk)) := rfl
    rw [Advances, hcall, hbyte, aapParseType_header, Message.aapSerialize]
    refine ⟨_, 1, rfl, Nat.succ_pos _, Nat.succ_pos _, ?_, fun _ => Nat.one_pos⟩
    rw [List.drop_one, List.tail_cons]
    have htype := hm.type
    cases heid : m.type.hasEid with
    | true =>
      have hid : m.type.hasBundleId = false := by
        cases h : m.type <;> simp_all [MessageType.hasEid, MessageType.hasBundleId]
      rw [if_pos rfl, Message.serializeBundleId, hid, Message.serializeEid, heid, if_pos rfl,
        if_neg Bool.false_ne_true, List.append_nil, List.append_assoc]
      exact .eidLength heid _ _
    | false =>
      have hpayload : m.type.hasPayload = false := by
        cases h : m.type <;> simp_all [MessageType.hasEid, MessageType.hasPayload]
      rw [if_neg Bool.false_ne_true, Message.serializeEid, heid, Message.serializePayload,
        hpayload, if_neg Bool.false_ne_true, if_neg Bool.false_ne_true, List.nil_append,
        List.nil_append, Message.serializeBundleId]
      cases hid : m.type.hasBundleId with
      | true => exact .bundleId hid _ _
      | false =>
        rw [if_neg Bool.false_ne_true, if_neg Bool.false_ne_true, if_neg htype]
        refine .done rfl rfl ⟨rfl, ?_, ?_, ?_, ?_,
          fun h => absurd (hpayload.symm.trans h) Bool.false_ne_true, fun h => ?_⟩
        · show false = m.eid.isSome
          rw [hm.noEid heid]
          rfl
        · simp [Message.eidBytes, hm.noEid heid, Message.cleared]
        · exact fun h => absurd h Bool.false_ne_true
        · exact (hm.payloadBytes_eq_nil hpayload).symm
        · rw [hid] at h
          cases h

/-- A message with a payload that was read with its EID says the same as the original
if its payload does. -/
theorem same_of_eidBytes (hm : m.Valid) (hhas : m.type.hasPayload = true)
    {payload : Option (List UInt8)}
    (hpayload : (partialMessage m (some m.eidBytes) m.eidLength payload
      m.payloadLength).payloadBytes = m.payloadBytes) :
    (partialMessage m (some m.eidBytes) m.eidLength payload m.payloadLength).Same m := by
  have heid : m.type.hasEid = true := by
    cases h : m.type <;> simp_all [MessageType.hasEid, MessageType.hasPayload]
  obtain ⟨eid, hstring, -, -⟩ := hm.eid heid
  refine ⟨rfl, ?_, ?_, fun _ => rfl, hpayload, fun _ => rfl, fun hid => ?_⟩
  · show true = m.eid.isSome
    rw [hstring]
    rfl
  · show m.eidBytes.take m.eidLength = m.eidBytes
    exact List.take_of_length_le (Nat.le_of_eq (hm.length_eidBytes heid))
  · cases h : m.type <;> simp_all [MessageType.hasPayload, MessageType.hasBundleId]

/-- A number of so many bytes is read once it is there. -/
theorem At.eidLength_step (hm : m.Valid) (hcompletes : Completes mem m)
    (hhas : m.type.hasEid = true) (consumed remaining : Nat)
    (heq : chunk ++ rest =
      Message.putUint16 m.eidLength ++ (m.eidBytes ++ m.serializePayload) ++ tail) :
    Advances mem m ⟨.good, 0, .eidLength, partialMessage m none 0 none 0, consumed, remaining⟩
      chunk (Message.putUint16 m.eidLength ++ (m.eidBytes ++ m.serializePayload)) := by
  by_cases hshort : chunk.length < 2
  · refine advances_waiting (.eidLength hhas consumed remaining) (if_pos hshort) ?_
    rw [List.length_append, Message.length_putUint16]
    omega
  · obtain ⟨eid, hstring, hlt, -⟩ := hm.eid hhas
    have htake : chunk.take 2 = Message.putUint16 m.eidLength := by
      rw [take_of_isPrefix heq (by omega) (by simp)]
      rfl
    have hlength := hm.length_eidBytes hhas
    have hcall : (⟨.good, 0, .eidLength, partialMessage m none 0 none 0, consumed, remaining⟩ :
        Parser).call mem chunk = some (⟨if m.eidLength = 0 then .done else .good, 0, .eid,
          partialMessage m (some []) m.eidLength none 0, 0, m.eidLength⟩, 2) := by
      show Parser.aapParseEidLength _ _ _ = _
      rw [Parser.aapParseEidLength, if_neg hshort, htake, readUint_putUint16 hlt,
        if_pos (hcompletes.eid hhas)]
    refine ⟨_, 2, hcall, by omega, by simp, ?_, fun _ => Nat.two_pos⟩
    show At m _ (m.eidBytes ++ m.serializePayload)
    by_cases hzero : m.eidLength = 0
    · have hpayload : m.type.hasPayload = false := by
        cases h : m.type.hasPayload with
        | false => rfl
        | true => exact absurd hzero (hcompletes.payload h).1
      have hnil : m.eidBytes = [] := List.eq_nil_of_length_eq_zero (by omega)
      rw [if_pos hzero, hnil, Message.serializePayload, hpayload,
        if_neg Bool.false_ne_true, List.append_nil]
      refine .done rfl rfl ⟨rfl, ?_, ?_, fun _ => rfl, ?_,
        fun h => absurd (hpayload.symm.trans h) Bool.false_ne_true, fun h => ?_⟩
      · show true = m.eid.isSome
        rw [hstring]
        rfl
      · rw [hnil]
        simp [Message.eidBytes]
      · exact (hm.payloadBytes_eq_nil hpayload).symm
      · cases h' : m.type <;> simp_all [MessageType.hasEid, MessageType.hasBundleId]
    · rw [if_neg hzero]
      have hne : m.eidBytes ≠ [] := fun hnil => hzero (by rw [← hlength, hnil]; rfl)
      have hat := At.eid hhas (show m.eidBytes = [] ++ m.eidBytes from rfl) hne
      rw [hlength] at hat
      exact hat

/-- What a handler copies from a piece of the bytes it waits for. -/
theorem take_min (heq : chunk ++ rest = post ++ tail) :
    chunk.take (min chunk.length post.length) =
      post.take (min chunk.length post.length) :=
  take_of_isPrefix heq (Nat.min_le_left ..) (Nat.min_le_right ..)

/-- What `aap_parse_eid` copies, and where it goes on. -/
theorem aapParseEid_eq {n : Nat} (hhas : m.type.hasEid = true)
    (hn : n = min chunk.length post.length) :
    (⟨.good, 0, .eid, partialMessage m (some pre) m.eidLength none 0, pre.length,
      post.length⟩ : Parser).aapParseEid chunk =
      (let p : Parser := ⟨.good, 0, .eid, partialMessage m (some (pre ++ chunk.take n))
        m.eidLength none 0, pre.length + n, post.length - n⟩
      some (if post.length - n = 0 then
        if m.type.hasPayload then { p with parse := .payloadLength }
        else { p with status := .done }
      else p, n)) := by
  rw [Parser.aapParseEid, ← hn]
  dsimp only
  by_cases hend : post.length - n = 0
  · rw [if_pos hend, if_pos hend]
    cases h : m.type <;> simp_all [MessageType.hasEid, MessageType.hasPayload]
  · rw [if_neg hend, if_neg hend]
    rfl

theorem At.eid_step (hm : m.Valid) (hhas : m.type.hasEid = true)
    (hsplit : m.eidBytes = pre ++ post) (hpost : post ≠ [])
    (heq : chunk ++ rest = post ++ m.serializePayload ++ tail) :
    Advances mem m ⟨.good, 0, .eid, partialMessage m (some pre) m.eidLength none 0, pre.length,
      post.length⟩ chunk (post ++ m.serializePayload) := by
  rw [List.append_assoc] at heq
  have hle : min chunk.length post.length ≤ post.length := Nat.min_le_right ..
  have hpos := List.length_pos_iff.mpr hpost
  refine ⟨_, _, aapParseEid_eq hhas rfl, Nat.min_le_left .., ?_, ?_, fun hall => ?_⟩
  · rw [List.length_append]
    omega
  rotate_left
  · rw [List.length_append] at hall
    omega
  rw [take_min heq, List.drop_append_of_le_length hle]
  generalize min chunk.length post.length = n at hle ⊢
  have hlength := hm.length_eidBytes hhas
  rw [hsplit, List.length_append] at hlength
  by_cases hend : post.length - n = 0
  · have htakeAll : post.take n = post := List.take_of_length_le (by omega)
    have hdropAll : post.drop n = [] := List.drop_of_length_le (by omega)
    have hconsumed : pre.length + n = m.eidLength := by omega
    rw [if_pos hend, htakeAll, hdropAll, List.nil_append, hend, hconsumed, ← hsplit]
    cases hpayload : m.type.hasPayload with
    | true =>
      rw [if_pos rfl, Message.serializePayload, hpayload, if_pos rfl]
      exact .payloadLength hpayload
    | false =>
      rw [if_neg Bool.false_ne_true, Message.serializePayload, hpayload,
        if_neg Bool.false_ne_true]
      obtain ⟨eid, hstring, -, -⟩ := hm.eid hhas
      refine .done rfl rfl ⟨rfl, ?_, ?_, fun _ => rfl, ?_,
        fun h => absurd (hpayload.symm.trans h) Bool.false_ne_true, fun hid => ?_⟩
      · show true = m.eid.isSome
        rw [hstring]
        rfl
      · show m.eidBytes.take m.eidLength = m.eidBytes
        exact List.take_of_length_le (Nat.le_of_eq (hm.length_eidBytes hhas))
      · exact (hm.payloadBytes_eq_nil hpayload).symm
      · cases h : m.type <;> simp_all [MessageType.hasEid, MessageType.hasBundleId]
  · rw [if_neg hend]
    have hsplit' : m.eidBytes = (pre ++ post.take n) ++ post.drop n := by
      rw [List.append_assoc, List.take_append_drop]
      exact hsplit
    have hne : post.drop n ≠ [] := fun hnil => hend (by rw [← List.length_drop, hnil]; rfl)
    have hat := At.eid hhas hsplit' hne
    rw [List.length_append, List.length_take, List.length_drop, Nat.min_eq_left hle] at hat
    exact hat

theorem At.payload_step (hm : m.Valid) (hsized : m.Sized)
    (hhas : m.type.hasPayload = true) (hsplit : m.payloadBytes = pre ++ post)
    (hpost : post ≠ []) (heq : chunk ++ rest = post ++ tail) :
    Advances mem m ⟨.good, 0, .payload, partialMessage m (some m.eidBytes) m.eidLength
      (some pre) m.payloadLength, pre.length, post.length⟩ chunk post := by
  have hle : min chunk.length post.length ≤ post.length := Nat.min_le_right ..
  have hpos := List.length_pos_iff.mpr hpost
  have hcall : (⟨.good, 0, .payload, partialMessage m (some m.eidBytes) m.eidLength
      (some pre) m.payloadLength, pre.length, post.length⟩ : Parser).call mem chunk = _ := rfl
  refine ⟨_, _, hcall, Nat.min_le_left .., hle, ?_, fun hall => ?_⟩
  rotate_left
  · show 0 < min chunk.length post.length
    omega
  show At m (if post.length - min chunk.length post.length = 0 then
      (⟨.done, 0, .payload, partialMessage m (some m.eidBytes) m.eidLength
        (some (pre ++ chunk.take (min chunk.length post.length))) m.payloadLength,
        pre.length + min chunk.length post.length,
        post.length - min chunk.length post.length⟩ : Parser)
    else ⟨.good, 0, .payload, partialMessage m (some m.eidBytes) m.eidLength
        (some (pre ++ chunk.take (min chunk.length post.length))) m.payloadLength,
        pre.length + min chunk.length post.length,
        post.length - min chunk.length post.length⟩) _
  rw [take_min heq]
  show At m _ (post.drop (min chunk.length post.length))
  generalize min chunk.length post.length = n at hle ⊢
  have hlength := hm.length_payloadBytes hsized hhas
  by_cases hend : post.length - n = 0
  · have htakeAll : post.take n = post := List.take_of_length_le (by omega)
    have hdropAll : post.drop n = [] := List.drop_of_length_le (by omega)
    rw [if_pos hend, htakeAll, hdropAll, ← hsplit]
    refine .done rfl rfl (same_of_eidBytes hm hhas ?_)
    show m.payloadBytes.take m.payloadLength = m.payloadBytes
    exact List.take_of_length_le (Nat.le_of_eq hlength)
  · rw [if_neg hend]
    have hsplit' : m.payloadBytes = (pre ++ post.take n) ++ post.drop n := by
      rw [List.append_assoc, List.take_append_drop]
      exact hsplit
    have hne : post.drop n ≠ [] := fun hnil => hend (by rw [← List.length_drop, hnil]; rfl)
    have hat := At.payload hhas hsplit' hne
    rw [List.length_append, List.length_take, List.length_drop, Nat.min_eq_left hle] at hat
    exact hat

theorem At.bundleId_step (hm : m.Valid) (hsized : m.Sized)
    (hhas : m.type.hasBundleId = true) (consumed remaining : Nat)
    (heq : chunk ++ rest = Message.putUint64 m.bundleId ++ tail) :
    Advances mem m ⟨.good, 0, .bundleId, partialMessage m none 0 none 0, consumed, remaining⟩
      chunk (Message.putUint64 m.bundleId) := by
  by_cases hshort : chunk.length < 8
  · exact advances_waiting (.bundleId hhas consumed remaining)
      (congrArg some (if_pos hshort)) hshort
  · have htake : chunk.take 8 = Message.putUint64 m.bundleId := by
      rw [take_of_isPrefix heq (by omega) (by simp)]
      rfl
    have hid := hsized.bundleId
    have hcall : (⟨.good, 0, .bundleId, partialMessage m none 0 none 0, consumed, remaining⟩ :
        Parser).call mem chunk = some (⟨.done, 0, .bundleId,
          ⟨m.type, none, 0, none, 0, m.bundleId⟩, consumed, remaining⟩, 8) := by
      show some (Parser.aapParseBundleId _ _) = _
      rw [Parser.aapParseBundleId, if_neg hshort, htake, readUint_putUint64 (by omega),
        Nat.mod_eq_of_lt hid]
    refine ⟨_, 8, hcall, by omega, by simp, ?_, fun _ => by omega⟩
    have heid : m.type.hasEid = false := by
      cases h : m.type <;> simp_all [MessageType.hasEid, MessageType.hasBundleId]
    have hpayload : m.type.hasPayload = false := by
      cases h : m.type <;> simp_all [MessageType.hasPayload, MessageType.hasBundleId]
    refine .done rfl rfl ⟨rfl, ?_, ?_, ?_, ?_,
      fun h => absurd (hpayload.symm.trans h) Bool.false_ne_true, fun _ => rfl⟩
    · rw [hm.noEid heid]
    · simp [Message.eidBytes, hm.noEid heid]
    · exact fun h => absurd h Bool.false_ne_true
    · rw [hm.payloadBytes_eq_nil hpayload]
      rfl

theorem At.payloadLength_step (hm : m.Valid) (hsized : m.Sized)
    (hcompletes : Completes mem m) (hhas : m.type.hasPayload = true)
    (heq : chunk ++ rest = Message.putUint64 m.payloadLength ++ m.payloadBytes ++ tail) :
    Advances mem m ⟨.good, 0, .payloadLength, partialMessage m (some m.eidBytes) m.eidLength
      none 0, m.eidLength, 0⟩ chunk (Message.putUint64 m.payloadLength ++ m.payloadBytes) := by
  by_cases hshort : chunk.length < 8
  · refine advances_waiting (.payloadLength hhas) (congrArg some (if_pos hshort)) ?_
    rw [List.length_append, Message.length_putUint64]
    omega
  · have htake : chunk.take 8 = Message.putUint64 m.payloadLength := by
      rw [take_of_isPrefix heq (by omega) (by simp)]
      rfl
    have hcall : (⟨.good, 0, .payloadLength, partialMessage m (some m.eidBytes) m.eidLength
        none 0, m.eidLength, 0⟩ : Parser).call mem chunk =
          some (⟨if m.payloadLength = 0 then .done else .good, 0, .payload,
            partialMessage m (some m.eidBytes) m.eidLength (some []) m.payloadLength, 0,
            m.payloadLength⟩, 8) := by
      show some (Parser.aapParsePayloadLength _ _ _) = _
      rw [Parser.aapParsePayloadLength, if_neg hshort, htake,
        readUint_putUint64 hsized.payloadLength]
      simp only [ne_eq, not_true_eq_false, false_and, if_false,
        if_pos (hcompletes.payload hhas).2]
    refine ⟨_, 8, hcall, by omega, by simp, ?_, fun _ => by omega⟩
    show At m _ m.payloadBytes
    have hlength := hm.length_payloadBytes hsized hhas
    by_cases hzero : m.payloadLength = 0
    · have hnil : m.payloadBytes = [] := List.eq_nil_of_length_eq_zero (by omega)
      rw [if_pos hzero, hnil]
      refine .done rfl rfl (same_of_eidBytes hm hhas ?_)
      rw [hnil]
      simp [Message.payloadBytes]
    · rw [if_neg hzero]
      have hne : m.payloadBytes ≠ [] := fun hnil => hzero (by rw [← hlength, hnil]; rfl)
      have hat := At.payload hhas (show m.payloadBytes = [] ++ m.payloadBytes from rfl) hne
      rw [hlength] at hat
      exact hat

/-! ## Any feeding -/

/-- One call, wherever the parser stands, and whatever stands behind the message. -/
theorem At.step (h : At m p unread) (hgood : p.status = .good) (hm : m.Valid)
    (hsized : m.Sized) (hcompletes : Completes mem m)
    (heq : chunk ++ rest = unread ++ tail) : Advances mem m p chunk unread := by
  cases h with
  | type c r => exact type_step hm c r heq
  | eidLength hhas c r => exact eidLength_step hm hcompletes hhas c r heq
  | eid hhas hsplit hpost => exact eid_step hm hhas hsplit hpost heq
  | payloadLength hhas => exact payloadLength_step hm hsized hcompletes hhas heq
  | payload hhas hsplit hpost => exact payload_step hm hsized hhas hsplit hpost heq
  | bundleId hhas c r => exact bundleId_step hm hsized hhas c r heq
  | done hstatus _ _ =>
    rw [hgood] at hstatus
    cases hstatus

theorem At.run {x : Parser × List UInt8} (hm : m.Valid) (hsized : m.Sized)
    (hcompletes : Completes mem m)
    (h : ReflTransGen (Feeds mem) (.aapParserInit, m.aapSerialize) x) : At m x.1 x.2 := by
  induction h with
  | refl => exact .type 0 0
  | tail _ hstep ih =>
    cases hstep with
    | feed hgood hcall =>
      obtain ⟨q, n, hcall', -, -, hat, -⟩ :=
        ih.step hgood hm hsized hcompletes (List.append_nil _).symm
      obtain ⟨rfl, rfl⟩ := Prod.mk.inj (Option.some.inj (hcall.symm.trans hcall'))
      exact hat

theorem At.status (h : At m p unread) :
    p.status ≠ .error ∧ (p.status = .done ↔ unread = []) := by
  cases h with
  | done hstatus _ _ => simp [hstatus]
  | eid hhas hsplit hpost => simp [hpost]
  | payload hhas hsplit hpost => simpa using hpost
  | type c r => exact ⟨by simp, by simp [Message.aapSerialize]⟩
  | _ => exact ⟨by simp, by simp [Message.putUint16, Message.putUint64]⟩

theorem At.same (h : At m p unread) (hdone : p.status = .done) :
    p.message.Same m ∧ p.maxPayloadLength = 0 := by
  cases h with
  | done _ hmax hmessage => exact ⟨hmessage, hmax⟩
  | _ => exact absurd hdone (by simp)

/-- The loop of `parse_aap` over a piece of the stream: it goes to the end of the message
if that is in the piece, and no further. -/
theorem At.parseLoop (hm : m.Valid) (hsized : m.Sized) (hcompletes : Completes mem m)
    {turns : Nat} (h : At m p unread) (heq : chunk ++ rest = unread ++ tail)
    (hturns : chunk.length < turns) :
    ∃ q n, Parser.parseLoop mem turns p chunk = some (q, chunk.drop n) ∧ n ≤ chunk.length ∧
      n ≤ unread.length ∧ At m q (unread.drop n) ∧
      (unread.length ≤ chunk.length → n = unread.length) := by
  induction turns generalizing p unread chunk with
  | zero => omega
  | succ turns ih =>
    obtain ⟨herror, hdone⟩ := h.status
    rw [Parser.parseLoop]
    by_cases hgo : p.status = .good ∧ chunk ≠ []
    · obtain ⟨hgood, hchunk⟩ := hgo
      obtain ⟨q, n, hcall, hn, hn', hat, hpos⟩ := h.step hgood hm hsized hcompletes heq
      rw [if_pos ⟨hgood, hchunk⟩, hcall]
      dsimp only
      by_cases hzero : n = 0
      · subst hzero
        exact ⟨q, 0, if_pos rfl, Nat.zero_le _, Nat.zero_le _, hat,
          fun hle => absurd (hpos hle) (Nat.lt_irrefl 0)⟩
      · rw [if_neg hzero]
        have heq' : chunk.drop n ++ rest = unread.drop n ++ tail := by
          rw [← List.drop_append_of_le_length hn, heq, List.drop_append_of_le_length hn']
        obtain ⟨r, k, hloop, hk, hk', hat', hend⟩ := ih hat heq' (by
          rw [List.length_drop]
          omega)
        rw [List.length_drop] at hk hk' hend
        rw [List.length_drop] at hend
        rw [List.drop_drop] at hloop hat'
        exact ⟨r, n + k, hloop, by omega, by omega, hat', fun hle => by omega⟩
    · rw [if_neg hgo]
      refine ⟨p, 0, rfl, Nat.zero_le _, Nat.zero_le _, h, fun hle => ?_⟩
      cases hstatus : p.status with
      | error => exact absurd hstatus herror
      | done =>
        rw [hdone.mp hstatus]
        rfl
      | good =>
        have hnil : chunk = [] := Decidable.not_not.mp fun hne => hgo ⟨hstatus, hne⟩
        rw [hnil] at hle
        exact (Nat.le_zero.mp hle).symm

/-! ## Where it goes wrong -/

theorem Feeds.whole {n : Nat} (hgood : p.status = .good) (hcall : p.call mem chunk = some (q, n))
    (hn : n = chunk.length) : Feeds mem (p, chunk ++ rest) (q, rest) := by
  have hstep : Feeds mem (p, chunk ++ rest) _ := Feeds.feed hgood hcall
  rwa [hn, List.drop_left] at hstep

theorem serialize_of_hasEid (hhas : m.type.hasEid = true) : m.aapSerialize =
    [UInt8.ofNat (0x1 * 2 ^ 4 + m.type.toNat % 2 ^ 4)] ++
      (Message.putUint16 m.eidLength ++ (m.eidBytes ++ m.serializePayload)) := by
  have hid : m.type.hasBundleId = false := by
    cases h : m.type <;> simp_all [MessageType.hasEid, MessageType.hasBundleId]
  rw [Message.aapSerialize, Message.serializeEid, hhas, if_pos rfl, Message.serializeBundleId,
    hid, if_neg Bool.false_ne_true, List.append_nil, List.append_assoc]
  rfl

theorem reaches_eidLength (mem : Nat → Bool) (hhas : m.type.hasEid = true) :
    ReflTransGen (Feeds mem) (.aapParserInit, m.aapSerialize)
      (⟨.good, 0, .eidLength, partialMessage m none 0 none 0, 0, 0⟩,
        Message.putUint16 m.eidLength ++ (m.eidBytes ++ m.serializePayload)) := by
  rw [serialize_of_hasEid hhas]
  refine .single (Feeds.whole (n := 1) rfl ?_ rfl)
  show some (Parser.aapParseType _ _) = _
  rw [aapParseType_header, if_pos hhas]
  rfl

theorem reaches_eid (hm : m.Valid) (hhas : m.type.hasEid = true)
    (hmem : mem (m.eidLength + 1) = true) :
    ReflTransGen (Feeds mem) (.aapParserInit, m.aapSerialize)
      (⟨if m.eidLength = 0 then .done else .good, 0, .eid,
        partialMessage m (some []) m.eidLength none 0, 0, m.eidLength⟩,
        m.eidBytes ++ m.serializePayload) := by
  obtain ⟨eid, -, hlt, -⟩ := hm.eid hhas
  refine (reaches_eidLength mem hhas).tail (Feeds.whole (n := 2) rfl ?_ rfl)
  show Parser.aapParseEidLength _ _ _ = _
  have htake : (Message.putUint16 m.eidLength).take 2 = Message.putUint16 m.eidLength := rfl
  rw [Parser.aapParseEidLength, if_neg (by simp), htake, readUint_putUint16 hlt, if_pos hmem]

theorem reaches_payloadLength (hm : m.Valid) (hhas : m.type.hasEid = true)
    (hpayload : m.type.hasPayload = true) (hmem : mem (m.eidLength + 1) = true)
    (hpos : m.eidLength ≠ 0) :
    ReflTransGen (Feeds mem) (.aapParserInit, m.aapSerialize)
      (⟨.good, 0, .payloadLength, partialMessage m (some m.eidBytes) m.eidLength none 0,
        m.eidLength, 0⟩, m.serializePayload) := by
  have hlength := hm.length_eidBytes hhas
  have heid := reaches_eid hm hhas hmem
  rw [if_neg hpos] at heid
  refine heid.tail (Feeds.whole (n := m.eidLength) rfl ?_ hlength.symm)
  have hcall := @aapParseEid_eq m m.eidBytes [] m.eidBytes m.eidLength hhas
    (by rw [hlength, Nat.min_self])
  rw [hlength] at hcall
  show Parser.aapParseEid _ _ = _
  refine hcall.trans ?_
  have htake : m.eidBytes.take m.eidLength = m.eidBytes :=
    List.take_of_length_le (Nat.le_of_eq hlength)
  simp only [Nat.sub_self, if_true, if_pos hpayload, htake, List.length_nil, Nat.zero_add,
    List.nil_append]

theorem RoundTrips.completes (h : RoundTrips mem m) (hm : m.Valid) (hsized : m.Sized) :
    Completes mem m := by
  have hmem : m.type.hasEid = true → mem (m.eidLength + 1) = true := by
    intro hhas
    obtain ⟨hcalls, -⟩ := h.run _ _ (reaches_eidLength mem hhas)
    have hsome := hcalls (Message.putUint16 m.eidLength) _ rfl rfl
    obtain ⟨eid, -, hlt, -⟩ := hm.eid hhas
    have htake : (Message.putUint16 m.eidLength).take 2 = Message.putUint16 m.eidLength := rfl
    change (Parser.aapParseEidLength _ _ _).isSome = true at hsome
    rw [Parser.aapParseEidLength, if_neg (by simp), htake, readUint_putUint16 hlt] at hsome
    cases hmem : mem (m.eidLength + 1) with
    | true => rfl
    | false => simp [hmem] at hsome
  refine ⟨hmem, fun hpayload => ?_⟩
  have hhas : m.type.hasEid = true := by
    cases h : m.type <;> simp_all [MessageType.hasEid, MessageType.hasPayload]
  have hbytes : m.serializePayload = Message.putUint64 m.payloadLength ++ m.payloadBytes := by
    rw [Message.serializePayload, hpayload, if_pos rfl]
  have hpos : m.eidLength ≠ 0 := by
    intro hzero
    obtain ⟨-, -, hdone, -⟩ := h.run _ _ (reaches_eid hm hhas (hmem hhas))
    have hnil := hdone.mp (if_pos hzero)
    rw [hbytes] at hnil
    simp [Message.putUint64] at hnil
  refine ⟨hpos, ?_⟩
  have hreach := reaches_payloadLength hm hhas hpayload (hmem hhas) hpos
  rw [hbytes] at hreach
  cases hsize : mem m.payloadLength with
  | true => rfl
  | false =>
    have hstep := hreach.tail (Feeds.whole (n := 8)
      (q := ⟨.error, 0, .payloadLength, partialMessage m (some m.eidBytes) m.eidLength none
        m.payloadLength, 0, m.payloadLength⟩) rfl (by
        show some (Parser.aapParsePayloadLength _ _ _) = _
        have htake : (Message.putUint64 m.payloadLength).take 8 =
          Message.putUint64 m.payloadLength := rfl
        rw [Parser.aapParsePayloadLength, if_neg (by simp), htake,
          readUint_putUint64 hsized.payloadLength]
        simp [hsize]) rfl)
    obtain ⟨-, herror, -⟩ := h.run _ _ hstep
    exact absurd rfl herror

/-! ## The result -/

/-- A valid message survives every way of feeding it exactly if it does not combine a
payload with an empty EID, and its buffers can be allocated. -/
theorem roundTrips_iff (mem : Nat → Bool) (m : Message)
    (hvalid : m.aapMessageIsValid = true) (hsized : m.Sized) :
    RoundTrips mem m ↔ Completes mem m := by
  have hm := Message.valid_of_isValid hvalid
  constructor
  · exact fun h => h.completes hm hsized
  · intro hcompletes
    refine ⟨hm.length_aapSerialize hsized, fun p unread hrun => ?_⟩
    have hat : At m p unread := At.run hm hsized hcompletes hrun
    obtain ⟨herror, hdone⟩ := hat.status
    refine ⟨fun chunk rest heq hgood => ?_, herror, hdone, fun hnil => ?_, ?_⟩
    · obtain ⟨q, n, hcall, -⟩ := hat.step hgood hm hsized hcompletes
        (show chunk ++ rest = unread ++ [] by rw [← heq, List.append_nil])
      rw [hcall]
      rfl
    · have hstatus := hdone.mpr hnil
      rw [Parser.aapParserExtractMessage, if_neg fun hne => hne hstatus]
      exact (hat.same hstatus).1
    · obtain ⟨q, n, hloop, -, -, hat', hall⟩ :=
        hat.parseLoop hm hsized hcompletes (show unread ++ [] = unread ++ [] from rfl)
          (Nat.lt_succ_self _)
      rw [hall (Nat.le_refl _), List.drop_length] at hloop hat'
      exact ⟨q, hloop, hat'.status.2.mpr rfl⟩

/-- `RECVBUNDLE` from the empty EID, with one byte. -/
def anonymousBundle : Message := ⟨.recvbundle, some [], 0, some [42], 1, 0⟩

theorem anonymousBundle_sized : anonymousBundle.Sized :=
  ⟨fun payload h => by obtain rfl := Option.some.inj h; rfl, by decide, by decide⟩

/-- The parser is done with it at the length of the EID, and leaves the payload to the
next message. -/
theorem anonymousBundle_cut : anonymousBundle.aapMessageIsValid = true ∧
    anonymousBundle.Sized ∧ ¬ RoundTrips (fun _ => true) anonymousBundle := by
  refine ⟨by decide, anonymousBundle_sized, fun h => ?_⟩
  have hcompletes := h.completes (Message.valid_of_isValid (by decide)) anonymousBundle_sized
  exact (hcompletes.payload rfl).1 rfl

/-- `SENDBUNDLE` to `dtn:b`, with two bytes. -/
def twoBytes : Message := ⟨.sendbundle, some [100, 116, 110, 58, 98], 5, some [104, 105], 2, 0⟩

theorem twoBytes_sized : twoBytes.Sized :=
  ⟨fun payload h => by obtain rfl := Option.some.inj h; rfl, by decide, by decide⟩

theorem roundTrips_iff_twoBytes : RoundTrips (fun _ => true) twoBytes :=
  (roundTrips_iff (fun _ => true) twoBytes (by decide) twoBytes_sized).mpr
    ⟨fun _ => rfl, fun _ => ⟨by decide, rfl⟩⟩

end Upcn.Aap
