import Upcn.Aap.Message
import Upcn.Bundle6.Parser

/-!
# The AAP parser

`aap_parser.c`, and `parse_aap` of `application_agent.c`.

The parser is a chain of handlers.  `ParseFn` is the value of the function pointer
`parse`, and a call of a handler takes what it can from the buffer.  `none` is a
write to `NULL`, or the call of `abort`; `mem` says for which sizes `malloc`
succeeds.  A buffer that is being filled holds the bytes copied so far.
-/

namespace Upcn.Aap

open Upcn.Bundle6 (ParserStatus)

/-- The handlers. -/
inductive ParseFn where
  | type
  | eidLength
  | eid
  | payloadLength
  | payload
  | bundleId
  deriving DecidableEq

/-- `struct aap_parser`. -/
structure Parser where
  status : ParserStatus
  maxPayloadLength : Nat
  parse : ParseFn
  message : Message
  consumed : Nat
  remaining : Nat
  deriving DecidableEq

/-- `(enum aap_message_type)(buffer[0] & 0x0F)`.  The values from 9 on are no
messages. -/
def typeOfNibble : Nat → MessageType
  | 0x0 => .ack
  | 0x1 => .nack
  | 0x2 => .register
  | 0x3 => .sendbundle
  | 0x4 => .recvbundle
  | 0x5 => .sendconfirm
  | 0x6 => .cancelbundle
  | 0x7 => .welcome
  | 0x8 => .ping
  | _ => .invalid

/-- `read_uint64`, and the length of an EID, which has two bytes. -/
def readUint (bytes : List UInt8) : Nat :=
  bytes.foldl (fun value byte => value * 2 ^ 8 + byte.toNat) 0

namespace Parser

/-- `aap_parser_reset`. -/
def aapParserReset (p : Parser) : Parser :=
  { p with parse := .type, status := .good, message := p.message.aapMessageClear }

/-- `aap_parser_init`. -/
def aapParserInit : Parser :=
  aapParserReset ⟨.good, 0, .type, .cleared .ack, 0, 0⟩

/-- `aap_parser_extract_message`: the message, and the parser without it. -/
def aapParserExtractMessage (p : Parser) : Message × Parser :=
  (if p.status ≠ .done then { p.message with type := .invalid } else p.message,
    { p with message := Message.aapMessageClear p.message })

/-- `aap_parse_type`. -/
def aapParseType (p : Parser) (buffer : List UInt8) : Parser × Nat :=
  match buffer with
  | [] => (p, 0)
  | byte :: _ =>
    if byte.toNat / 2 ^ 4 ≠ 0x1 then ({ p with status := .error }, 1)
    else
      let type := typeOfNibble (byte.toNat % 2 ^ 4)
      let p := { p with message := { p.message with type := type } }
      match type with
      | .ack | .nack | .ping => ({ p with status := .done }, 1)
      | .register | .sendbundle | .recvbundle | .welcome => ({ p with parse := .eidLength }, 1)
      | .sendconfirm | .cancelbundle => ({ p with parse := .bundleId }, 1)
      | .invalid => ({ p with status := .error }, 1)

/-- `aap_parse_eid_length`.  The terminator is written before the result of `malloc`
is looked at. -/
def aapParseEidLength (mem : Nat → Bool) (p : Parser) (buffer : List UInt8) :
    Option (Parser × Nat) :=
  if buffer.length < 2 then some (p, 0)
  else
    let length := readUint (buffer.take 2)
    if mem (length + 1) then
      some ({ p with
        message := { p.message with eid := some [], eidLength := length }
        consumed := 0
        remaining := length
        status := if length = 0 then .done else p.status
        parse := .eid }, 2)
    else none

/-- `aap_parse_eid`. -/
def aapParseEid (p : Parser) (buffer : List UInt8) : Option (Parser × Nat) :=
  let consumed := min buffer.length p.remaining
  let p := { p with
    message := { p.message with eid := p.message.eid.map (· ++ buffer.take consumed) }
    consumed := p.consumed + consumed
    remaining := p.remaining - consumed }
  if p.remaining = 0 then
    match p.message.type with
    | .register | .welcome => some ({ p with status := .done }, consumed)
    | .sendbundle | .recvbundle => some ({ p with parse := .payloadLength }, consumed)
    | _ => none
  else some (p, consumed)

/-- `aap_parse_payload_length`.  `size_t` has 64 bits. -/
def aapParsePayloadLength (mem : Nat → Bool) (p : Parser) (buffer : List UInt8) :
    Parser × Nat :=
  if buffer.length < 8 then (p, 0)
  else
    let length := readUint (buffer.take 8)
    let p := { p with
      message := { p.message with payloadLength := length }
      consumed := 0
      remaining := length }
    if p.maxPayloadLength ≠ 0 ∧ p.maxPayloadLength < length then
      ({ p with status := .error }, 8)
    else if mem length then
      ({ p with
        message := { p.message with payload := some [] }
        status := if length = 0 then .done else p.status
        parse := .payload }, 8)
    else ({ p with status := .error }, 8)

/-- `aap_parse_payload`. -/
def aapParsePayload (p : Parser) (buffer : List UInt8) : Parser × Nat :=
  let consumed := min buffer.length p.remaining
  let p := { p with
    message := { p.message with
      payload := p.message.payload.map (· ++ buffer.take consumed) }
    consumed := p.consumed + consumed
    remaining := p.remaining - consumed }
  (if p.remaining = 0 then { p with status := .done } else p, consumed)

/-- `aap_parse_bundle_id`. -/
def aapParseBundleId (p : Parser) (buffer : List UInt8) : Parser × Nat :=
  if buffer.length < 8 then (p, 0)
  else
    ({ p with
      message := { p.message with bundleId := readUint (buffer.take 8) % 2 ^ 16 }
      status := .done }, 8)

/-- `parser->parse`: the parser after the call, and the bytes it has consumed. -/
def call (mem : Nat → Bool) (p : Parser) (buffer : List UInt8) : Option (Parser × Nat) :=
  match p.parse with
  | .type => some (p.aapParseType buffer)
  | .eidLength => p.aapParseEidLength mem buffer
  | .eid => p.aapParseEid buffer
  | .payloadLength => some (p.aapParsePayloadLength mem buffer)
  | .payload => some (p.aapParsePayload buffer)
  | .bundleId => some (p.aapParseBundleId buffer)

/-- The loop of `parse_aap`, for so many turns. -/
def parseLoop (mem : Nat → Bool) : Nat → Parser → List UInt8 → Option (Parser × List UInt8)
  | 0, p, input => some (p, input)
  | turns + 1, p, input =>
    if p.status = .good ∧ input ≠ [] then
      match p.call mem input with
      | none => none
      | some (p, delta) =>
        if delta = 0 then some (p, input) else parseLoop mem turns p (input.drop delta)
    else some (p, input)

/-- `parse_aap`: the parser, and the input that it has not consumed.  Every turn but
the last consumes a byte. -/
def parseAap (mem : Nat → Bool) (p : Parser) (input : List UInt8) :
    Option (Parser × List UInt8) :=
  parseLoop mem (input.length + 1) p input

end Parser

end Upcn.Aap
