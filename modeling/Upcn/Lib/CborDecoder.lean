import Upcn.Lib.CborItems

/-!
# A CBOR decoder over a buffer

`Decoder` is a decoder with an iterator over the bytes of a buffer, which may end inside of
an item: every function that moves the iterator can report an error.

`preparser` is such a decoder.  An iterator that is moved looks at the head of the item it
is moved to, and reports the end of the buffer when there is none.
-/

namespace Cbor

/-- `CborError`, without `CborNoError`. -/
inductive CborError where
  | unexpectedEOF | unexpectedBreak | illegalType | unknownLength | outOfMemory | other
  deriving DecidableEq

/-- A decoder with an iterator `Value`.  `init` gets the bytes of a buffer from a position
on, and `nextByte` is the position of an iterator. -/
structure Decoder where
  Value : Type
  init : List UInt8 → Nat → Option CborError × Value
  isArray : Value → Bool
  isLengthKnown : Value → Bool
  getArrayLength : Value → Except CborError Nat
  enterContainer : Value → Except CborError Value
  leaveContainer : Value → Value → Except CborError Value
  atEnd : Value → Bool
  isUnsignedInteger : Value → Bool
  getUint64 : Value → UInt64
  advanceFixed : Value → Option CborError × Value
  isTextString : Value → Bool
  isByteString : Value → Bool
  getStringLength : Value → Except CborError Nat
  copyTextString : Value → Except CborError Value
  /-- The number of bytes that were copied to a buffer of this size. -/
  copyByteString : Value → Nat → Except CborError (Nat × Value)
  /-- The iterator, with the type of an integer. -/
  asInteger : Value → Value
  /-- The number of bytes from the iterator to the end of the buffer. -/
  remaining : Value → Nat
  nextByte : Value → Nat
  byteAt : Value → UInt8
  skipByte : Value → Value

namespace Decoder

variable (cbor : Decoder)

/-- `cbor_value_advance_fixed`, where its error is returned. -/
def advance (it : cbor.Value) : Except CborError cbor.Value :=
  match cbor.advanceFixed it with
  | (some err, _) => .error err
  | (none, it) => .ok it

end Decoder

/-! ## Such a decoder -/

/-- What is known of an item from its head. -/
inductive Preparsed where
  | invalid
  | uint (value : Nat)
  | bytes (length : Nat)
  | text (length : Nat)
  /-- The length of an array may be indefinite. -/
  | array (count : Option Nat)
  | other
  deriving DecidableEq

/-- An iterator: the bytes from it on, its position, how many items are left in the
container, and the item there. -/
structure Cursor where
  rest : List UInt8
  pos : Nat
  left : Option Nat
  item : Preparsed

namespace Cursor

/-- The cursor, behind so many bytes. -/
def skip (v : Cursor) (count : Nat) : Cursor :=
  { v with rest := v.rest.drop count, pos := v.pos + count }

/-- The head of the item is read. -/
def preparse (v : Cursor) : Option CborError × Cursor :=
  match v.rest with
  | [] => (some .unexpectedEOF, { v with item := .invalid })
  | 0xff :: _ => (some .unexpectedBreak, { v with item := .invalid })
  | 0x9f :: _ => (none, { v with item := .array none })
  | _ =>
    match readHead v.rest with
    | none => (some .unexpectedEOF, { v with item := .invalid })
    | some (0, value, _) => (none, { v with item := .uint value })
    | some (2, length, _) => (none, { v with item := .bytes length })
    | some (3, length, _) => (none, { v with item := .text length })
    | some (4, count, _) => (none, { v with item := .array (some count) })
    | some _ => (none, { v with item := .other })

/-- The head of the next item of the container is read, if there is one. -/
def preparseNext (v : Cursor) : Option CborError × Cursor :=
  match v.left, v.rest with
  | some left, _ =>
    if left ≤ 1 then (none, { v with left := some 0, item := .invalid })
    else preparse { v with left := some (left - 1) }
  | none, 0xff :: _ => (none, { v.skip 1 with left := some 0, item := .invalid })
  | none, _ => v.preparse

/-- The length of the head of the item. -/
def headLength (v : Cursor) : Nat :=
  match readHead v.rest with
  | some (_, _, rest) => v.rest.length - rest.length
  | none => 1

/-- What a move of the iterator reports. -/
def moved : Option CborError × Cursor → Except CborError Cursor
  | (some err, _) => .error err
  | (none, v) => .ok v

/-- The string is copied, and the iterator moves behind it. -/
def copied (v : Cursor) (length : Nat) : Except CborError Cursor :=
  if v.rest.length < v.headLength + length then .error .unexpectedEOF
  else moved (v.skip (v.headLength + length)).preparseNext

end Cursor

/-- The decoder with a cursor. -/
def preparser : Decoder where
  Value := Cursor
  init bytes pos := Cursor.preparse ⟨bytes, pos, some 1, .invalid⟩
  isArray v := match v.item with
    | .array _ => true
    | _ => false
  isLengthKnown v := v.item ≠ .array none
  getArrayLength v := match v.item with
    | .array (some count) => .ok count
    | _ => .error .unknownLength
  enterContainer v := match v.item with
    | .array (some count) =>
      Cursor.moved (Cursor.preparseNext { v.skip v.headLength with left := some (count + 1) })
    | _ => Cursor.moved (Cursor.preparseNext { v.skip 1 with left := none })
  leaveContainer v inner :=
    Cursor.moved (Cursor.preparseNext { v with rest := inner.rest, pos := inner.pos })
  atEnd v := v.left = some 0
  isUnsignedInteger v := match v.item with
    | .uint _ => true
    | _ => false
  getUint64 v := match v.item with
    | .uint value => .ofNat value
    | _ => 0
  advanceFixed v := (v.skip v.headLength).preparseNext
  isTextString v := match v.item with
    | .text _ => true
    | _ => false
  isByteString v := match v.item with
    | .bytes _ => true
    | _ => false
  getStringLength v := match v.item with
    | .text length | .bytes length => .ok length
    | _ => .error .unknownLength
  copyTextString v := match v.item with
    | .text length => v.copied length
    | _ => .error .illegalType
  copyByteString v size := match v.item with
    | .bytes length =>
      if size < length then .error .outOfMemory
      else (v.copied length).map fun v => (length, v)
    | _ => .error .illegalType
  asInteger v := v
  remaining v := v.rest.length
  nextByte v := v.pos
  byteAt v := v.rest.headD 0
  skipByte v := v.skip 1

end Cbor
