import Mathlib.Algebra.GroupWithZero.Nat
import Mathlib.Algebra.Ring.Int.Defs
import Mathlib.Data.List.TakeWhile
import Mathlib.Tactic.Common

/-!
# AAP messages

`aap.c` and `aap_serializer.c`.

A `char *` or a buffer is an optional list of bytes: `none` is `NULL`.  The bytes of
an EID are those in front of the terminator that belongs to its buffer; a zero among
them is what `strlen` stops at.
-/

namespace Upcn.Aap

/-- `enum aap_message_type`. -/
inductive MessageType where
  | ack
  | nack
  | register
  | sendbundle
  | recvbundle
  | sendconfirm
  | cancelbundle
  | welcome
  | ping
  | invalid
  deriving DecidableEq

namespace MessageType

/-- The value of the enumerator. -/
def toNat : MessageType → Nat
  | ack => 0x0
  | nack => 0x1
  | register => 0x2
  | sendbundle => 0x3
  | recvbundle => 0x4
  | sendconfirm => 0x5
  | cancelbundle => 0x6
  | welcome => 0x7
  | ping => 0x8
  | invalid => 0xFF

/-- The messages with an EID. -/
def hasEid : MessageType → Bool
  | register | sendbundle | recvbundle | welcome => true
  | _ => false

/-- The messages with a payload. -/
def hasPayload : MessageType → Bool
  | sendbundle | recvbundle => true
  | _ => false

/-- The messages with a bundle identifier. -/
def hasBundleId : MessageType → Bool
  | sendconfirm | cancelbundle => true
  | _ => false

end MessageType

/-- `struct aap_message`. -/
structure Message where
  type : MessageType
  eid : Option (List UInt8)
  eidLength : Nat
  payload : Option (List UInt8)
  payloadLength : Nat
  bundleId : Nat
  deriving DecidableEq

namespace Message

/-- A message filled with zeros, but for its type. -/
def cleared (type : MessageType) : Message := ⟨type, none, 0, none, 0, 0⟩

/-- `aap_message_clear`. -/
def aapMessageClear (_ : Message) : Message := cleared .invalid

/-- `strlen`. -/
def strlen (s : List UInt8) : Nat := (s.takeWhile (· ≠ 0)).length

/-- The EID is `NULL`, too long, or not of its length. -/
def eidIsWrong (m : Message) : Bool :=
  match m.eid with
  | none => true
  | some eid => 2 ^ 16 - 1 < m.eidLength || strlen eid != m.eidLength

/-- `aap_message_is_valid`. -/
def aapMessageIsValid (m : Message) : Bool :=
  if m.type = .invalid then false
  else if m.type.hasEid && m.eidIsWrong then false
  else if !m.type.hasEid && m.eid.isSome then false
  else if m.type.hasPayload && m.payload.isNone && m.payloadLength != 0 then false
  else if !m.type.hasPayload && m.payload.isSome then false
  else if m.type.hasBundleId && m.bundleId == 0 then false
  else true

/-- The message is one of a C program: the buffer of the payload has its length, and
the numbers fit their types. -/
structure Sized (m : Message) : Prop where
  payload : ∀ payload, m.payload = some payload → payload.length = m.payloadLength
  payloadLength : m.payloadLength < 2 ^ 64
  bundleId : m.bundleId < 2 ^ 16

/-! ## Serializing -/

/-- `put_uint64`. -/
def putUint64 (value : Nat) : List UInt8 :=
  [56, 48, 40, 32, 24, 16, 8, 0].map fun shift => UInt8.ofNat (value / 2 ^ shift % 2 ^ 8)

/-- The two bytes of a length. -/
def putUint16 (value : Nat) : List UInt8 :=
  [UInt8.ofNat (value / 2 ^ 8 % 2 ^ 8), UInt8.ofNat (value % 2 ^ 8)]

/-- `aap_get_serialized_size`. -/
def aapGetSerializedSize (m : Message) : Nat :=
  1 + (if m.type.hasEid then 2 + m.eidLength else 0) +
    (if m.type.hasPayload then 8 + m.payloadLength else 0) +
    (if m.type.hasBundleId then 8 else 0)

/-- The bytes of the EID that are sent. -/
def eidBytes (m : Message) : List UInt8 := (m.eid.getD []).take m.eidLength

/-- The bytes of the payload that are sent. -/
def payloadBytes (m : Message) : List UInt8 := (m.payload.getD []).take m.payloadLength

/-- The EID, as `aap_serialize` writes it. -/
def serializeEid (m : Message) : List UInt8 :=
  if m.type.hasEid then putUint16 m.eidLength ++ m.eidBytes else []

/-- The payload. -/
def serializePayload (m : Message) : List UInt8 :=
  if m.type.hasPayload then putUint64 m.payloadLength ++ m.payloadBytes else []

/-- The bundle identifier. -/
def serializeBundleId (m : Message) : List UInt8 :=
  if m.type.hasBundleId then putUint64 m.bundleId else []

/-- `aap_serialize`: the bytes that it writes. -/
def aapSerialize (m : Message) : List UInt8 :=
  UInt8.ofNat (0x1 * 2 ^ 4 + m.type.toNat % 2 ^ 4) ::
    (m.serializeEid ++ m.serializePayload ++ m.serializeBundleId)

/-! ## What a message says -/

/-- The two messages say the same: type and EID, the bytes of the payload and its length,
and the bundle identifier, in the messages that have them. -/
structure Same (m n : Message) : Prop where
  type : m.type = n.type
  eid : m.eid.isSome = n.eid.isSome
  eidBytes : m.eidBytes = n.eidBytes
  eidLength : m.eid.isSome → m.eidLength = n.eidLength
  payloadBytes : m.payloadBytes = n.payloadBytes
  payloadLength : n.type.hasPayload → m.payloadLength = n.payloadLength
  bundleId : n.type.hasBundleId → m.bundleId = n.bundleId

variable {m : Message}

/-- What `aap_message_is_valid` checks. -/
structure Valid (m : Message) : Prop where
  type : m.type ≠ .invalid
  eid : m.type.hasEid = true → ∃ eid, m.eid = some eid ∧ m.eidLength < 2 ^ 16 ∧
    strlen eid = m.eidLength
  noEid : m.type.hasEid = false → m.eid = none
  payload : m.type.hasPayload = true → m.payload = none → m.payloadLength = 0
  noPayload : m.type.hasPayload = false → m.payload = none
  bundleId : m.type.hasBundleId = true → m.bundleId ≠ 0

theorem valid_of_isValid (h : m.aapMessageIsValid = true) : m.Valid := by
  unfold aapMessageIsValid at h
  split at h
  · cases h
  rename_i htype
  split at h
  · cases h
  rename_i heid
  split at h
  · cases h
  rename_i hnoEid
  split at h
  · cases h
  rename_i hpayload
  split at h
  · cases h
  rename_i hnoPayload
  split at h
  · cases h
  rename_i hid
  refine ⟨htype, fun hhas => ?_, fun hhas => ?_, fun hhas hnone => ?_, fun hhas => ?_,
    fun hhas hzero => ?_⟩
  · cases hstring : m.eid with
    | none => simp [hhas, eidIsWrong, hstring] at heid
    | some eid =>
      simp only [hhas, eidIsWrong, hstring, Bool.true_and, Bool.or_eq_true, decide_eq_true_eq,
        bne_iff_ne, not_or, Decidable.not_not] at heid
      exact ⟨eid, rfl, by omega, heid.2⟩
  · simpa [hhas] using hnoEid
  · simpa [hhas, hnone] using hpayload
  · simpa [hhas] using hnoPayload
  · simp [hhas, hzero] at hid

theorem strlen_le (s : List UInt8) : strlen s ≤ s.length :=
  (List.takeWhile_sublist _).length_le

theorem Valid.length_eidBytes (h : m.Valid) (hhas : m.type.hasEid = true) :
    m.eidBytes.length = m.eidLength := by
  obtain ⟨eid, hstring, -, hlength⟩ := h.eid hhas
  have hle := strlen_le eid
  rw [eidBytes, hstring, Option.getD_some, List.length_take]
  omega

theorem Valid.length_payloadBytes (h : m.Valid) (hsized : m.Sized)
    (hhas : m.type.hasPayload = true) : m.payloadBytes.length = m.payloadLength := by
  cases hbuffer : m.payload with
  | none => simp [payloadBytes, hbuffer, h.payload hhas hbuffer]
  | some payload =>
    have hlength := hsized.payload payload hbuffer
    rw [payloadBytes, hbuffer, Option.getD_some, List.length_take]
    omega

theorem Valid.payloadBytes_eq_nil (h : m.Valid) (hhas : m.type.hasPayload = false) :
    m.payloadBytes = [] := by
  simp [payloadBytes, h.noPayload hhas]

@[simp] theorem length_putUint64 (value : Nat) : (putUint64 value).length = 8 := rfl

@[simp] theorem length_putUint16 (value : Nat) : (putUint16 value).length = 2 := rfl

/-- The size is that of the serialized message. -/
theorem Valid.length_aapSerialize (h : m.Valid) (hsized : m.Sized) :
    m.aapSerialize.length = m.aapGetSerializedSize := by
  unfold aapSerialize aapGetSerializedSize serializeEid serializePayload serializeBundleId
  have heid := h.length_eidBytes
  have hpayload := h.length_payloadBytes hsized
  simp only [List.length_cons, List.length_append]
  cases hhasEid : m.type.hasEid <;> cases hhasPayload : m.type.hasPayload <;>
    cases m.type.hasBundleId <;>
    simp_all <;> omega

end Message

end Upcn.Aap
