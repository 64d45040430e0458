import Mathlib.Algebra.GroupWithZero.Nat
import Mathlib.Algebra.Ring.Int.Defs
import Mathlib.Data.List.Basic
import Mathlib.Tactic.Common

/-!
# CBOR data items

What an encoder writes for numbers, strings and the beginning of an array: the
initial byte with the major type, and the argument in the shortest form, in network
byte order.
-/

namespace Cbor

/-- The lowest bytes of a number, the highest first. -/
def bigEndian : Nat → Nat → List UInt8
  | 0, _ => []
  | count + 1, value => UInt8.ofNat (value / 2 ^ (8 * count) % 2 ^ 8) :: bigEndian count value

/-- The beginning of a data item of this major type, with its argument. -/
def head (major value : Nat) : List UInt8 :=
  if value < 24 then [UInt8.ofNat (major * 2 ^ 5 + value)]
  else if value < 2 ^ 8 then UInt8.ofNat (major * 2 ^ 5 + 24) :: bigEndian 1 value
  else if value < 2 ^ 16 then UInt8.ofNat (major * 2 ^ 5 + 25) :: bigEndian 2 value
  else if value < 2 ^ 32 then UInt8.ofNat (major * 2 ^ 5 + 26) :: bigEndian 4 value
  else UInt8.ofNat (major * 2 ^ 5 + 27) :: bigEndian 8 value

/-- The length of it. -/
def headSize (value : Nat) : Nat :=
  if value < 24 then 1
  else if value < 2 ^ 8 then 2
  else if value < 2 ^ 16 then 3
  else if value < 2 ^ 32 then 5
  else 9

/-- An unsigned integer. -/
def uint (value : Nat) : List UInt8 := head 0 value

/-- A byte string. -/
def byteString (bytes : List UInt8) : List UInt8 := head 2 bytes.length ++ bytes

/-- A text string. -/
def textString (bytes : List UInt8) : List UInt8 := head 3 bytes.length ++ bytes

/-- The beginning of an array of so many items. -/
def array (count : Nat) : List UInt8 := head 4 count

@[simp] theorem length_bigEndian (count value : Nat) :
    (bigEndian count value).length = count := by
  induction count with
  | zero => rfl
  | succ count ih => rw [bigEndian, List.length_cons, ih]

@[simp] theorem length_head (major value : Nat) : (head major value).length = headSize value := by
  unfold head headSize
  split_ifs <;> simp

@[simp] theorem length_uint (value : Nat) : (uint value).length = headSize value :=
  length_head 0 value

@[simp] theorem length_byteString (bytes : List UInt8) :
    (byteString bytes).length = headSize bytes.length + bytes.length := by
  rw [byteString, List.length_append, length_head]

@[simp] theorem length_textString (bytes : List UInt8) :
    (textString bytes).length = headSize bytes.length + bytes.length := by
  rw [textString, List.length_append, length_head]

@[simp] theorem length_array (count : Nat) : (array count).length = headSize count :=
  length_head 4 count

theorem headSize_pos (value : Nat) : 0 < headSize value := by
  unfold headSize
  split_ifs <;> omega

end Cbor
