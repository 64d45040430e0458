import Mathlib.Data.List.Induction
import Mathlib.Tactic.Ring
import Upcn.Lib.Cbor

/-!
# Reading CBOR data items

* `EncodesHead` and `Encodes` are the encodings of a data item that a decoder has to
  accept: the argument may be wider than it has to be, and an array may be of indefinite
  length.
* `PullParser` is a decoder with an iterator, and `PullParser.Follows` says that it reads
  what is encoded.
* `itemParser` is such a decoder.
-/

namespace Cbor

/-- The data items that are read here. -/
inductive Item where
  | uint (value : Nat)
  | bool (value : Bool)
  | text (bytes : List UInt8)
  /-- The length of an array may be indefinite. -/
  | array (definite : Bool) (items : List Item)

/-- The beginning of a data item of this major type. -/
inductive EncodesHead (major : Nat) : Nat → List UInt8 → Prop where
  | short {value : Nat} (h : value < 24) : EncodesHead major value [.ofNat (major * 2 ^ 5 + value)]
  | long {value : Nat} (k : Nat) (hk : k < 4) (h : value < 2 ^ (8 * 2 ^ k)) :
    EncodesHead major value (.ofNat (major * 2 ^ 5 + 24 + k) :: bigEndian (2 ^ k) value)

/-- A simple value. -/
def boolByte (value : Bool) : UInt8 := if value then 0xf5 else 0xf4

/-- The bytes are encodings of the items, one after the other. -/
inductive EncodesAll : List Item → List UInt8 → Prop where
  | nil : EncodesAll [] []
  | uint {value : Nat} {rest : List Item} {start bytes : List UInt8}
    (hstart : EncodesHead 0 value start) (hrest : EncodesAll rest bytes) :
    EncodesAll (.uint value :: rest) (start ++ bytes)
  | bool {value : Bool} {rest : List Item} {bytes : List UInt8}
    (hrest : EncodesAll rest bytes) :
    EncodesAll (.bool value :: rest) (boolByte value :: bytes)
  | text {text : List UInt8} {rest : List Item} {start bytes : List UInt8}
    (hstart : EncodesHead 3 text.length start) (hrest : EncodesAll rest bytes) :
    EncodesAll (.text text :: rest) (start ++ (text ++ bytes))
  | array {items rest : List Item} {start body bytes : List UInt8}
    (hstart : EncodesHead 4 items.length start) (hitems : EncodesAll items body)
    (hrest : EncodesAll rest bytes) :
    EncodesAll (.array true items :: rest) (start ++ (body ++ bytes))
  | indefinite {items rest : List Item} {body bytes : List UInt8}
    (hitems : EncodesAll items body) (hrest : EncodesAll rest bytes) :
    EncodesAll (.array false items :: rest) (0x9f :: (body ++ 0xff :: bytes))

/-- The bytes are an encoding of the item. -/
def Encodes (item : Item) (bytes : List UInt8) : Prop := EncodesAll [item] bytes

theorem EncodesHead.length_pos {major value : Nat} {start : List UInt8}
    (h : EncodesHead major value start) : 0 < start.length := by
  cases h <;> simp

theorem EncodesHead.value_lt {major value : Nat} {start : List UInt8}
    (h : EncodesHead major value start) : value < 2 ^ 64 := by
  cases h with
  | short h => omega
  | long k hk h => exact h.trans_le (Nat.pow_le_pow_right (by decide) (by
      have : 2 ^ k ≤ 2 ^ 3 := Nat.pow_le_pow_right (by decide) (by omega)
      omega))

/-! ## What the encoder writes -/

theorem encodesHead_head {major value : Nat} (h : value < 2 ^ 64) :
    EncodesHead major value (head major value) := by
  unfold head
  split_ifs with h1 h2 h3 h4
  · exact .short h1
  · exact .long 0 (by omega) h2
  · exact .long 1 (by omega) h3
  · exact .long 2 (by omega) h4
  · exact .long 3 (by omega) h

theorem EncodesAll.append {items others : List Item} {bytes tail : List UInt8}
    (h : EncodesAll items bytes) (hothers : EncodesAll others tail) :
    EncodesAll (items ++ others) (bytes ++ tail) := by
  induction h with
  | nil => exact hothers
  | uint hstart _ ih =>
    rw [List.append_assoc]
    exact .uint hstart ih
  | bool _ ih => exact .bool ih
  | text hstart _ ih =>
    rw [List.append_assoc, List.append_assoc]
    exact .text hstart ih
  | array hstart hitems _ _ ih =>
    rw [List.append_assoc, List.append_assoc]
    exact .array hstart hitems ih
  | indefinite hitems _ _ ih =>
    simp only [List.cons_append, List.append_assoc]
    exact .indefinite hitems ih

theorem Encodes.cons {item : Item} {items : List Item} {bytes tail : List UInt8}
    (h : Encodes item bytes) (hitems : EncodesAll items tail) :
    EncodesAll (item :: items) (bytes ++ tail) :=
  EncodesAll.append h hitems

theorem encodes_uint {value : Nat} (h : value < 2 ^ 64) : Encodes (.uint value) (uint value) := by
  rw [← List.append_nil (uint value)]
  exact .uint (encodesHead_head h) .nil

theorem encodes_text {text : List UInt8} (h : text.length < 2 ^ 64) :
    Encodes (.text text) (textString text) := by
  have htext := EncodesAll.text (encodesHead_head h) .nil
  rwa [List.append_nil] at htext

theorem encodes_array {items : List Item} {body : List UInt8} (h : EncodesAll items body)
    (hlength : items.length < 2 ^ 64) :
    Encodes (.array true items) (array items.length ++ body) := by
  have harray := EncodesAll.array (encodesHead_head hlength) h .nil
  rwa [List.append_nil] at harray

theorem Encodes.length_pos {item : Item} {bytes : List UInt8} (h : Encodes item bytes) :
    0 < bytes.length := by
  cases h with
  | uint hstart | text hstart | array hstart =>
    have := hstart.length_pos
    simp only [List.length_append]
    omega
  | bool | indefinite => exact Nat.succ_pos _

/-- An array of two items. -/
theorem encodes_pair {first second : Item} {bytes tail : List UInt8} (h : Encodes first bytes)
    (hsecond : Encodes second tail) :
    Encodes (.array true [first, second]) (array 2 ++ (bytes ++ tail)) :=
  encodes_array (h.cons hsecond) (by simp)

/-! ## A decoder with an iterator -/

/-- A decoder with an iterator `Value` over the data items of a container.  Entering one
says whether that succeeds, and gives the iterator over what is inside. -/
structure PullParser where
  Value : Type
  init : List UInt8 → Option Value
  isArray : Value → Bool
  isLengthKnown : Value → Bool
  getArrayLength : Value → Option Nat
  enterContainer : Value → Bool × Value
  leaveContainer : Value → Value → Option Value
  atEnd : Value → Bool
  isUnsignedInteger : Value → Bool
  getUint64 : Value → UInt64
  isBoolean : Value → Bool
  getBoolean : Value → Bool
  isTextString : Value → Bool
  getStringLength : Value → Option Nat
  copyTextString : Value → Option (List UInt8 × Value)
  /-- The number of bytes from the iterator to the end of the buffer. -/
  remaining : Value → Nat
  advanceFixed : Value → Option Value

/-- What the decoder shows of the items: an iterator over a buffer stands before the items
that are left in its container, and those behind each container around it. -/
structure PullParser.Follows (parser : PullParser)
    (Stands : List UInt8 → parser.Value → List (List Item) → Prop) : Prop where
  init : ∀ item buffer, Encodes item buffer →
    ∃ v, parser.init buffer = some v ∧ Stands buffer v [[item]]
  array : ∀ buffer v definite items rest outer,
    Stands buffer v ((.array definite items :: rest) :: outer) → items.length < 2 ^ 32 - 1 →
    parser.isArray v = true ∧ parser.isLengthKnown v = definite ∧
      (definite = true → parser.getArrayLength v = some items.length) ∧
      ∃ inner, parser.enterContainer v = (true, inner) ∧
        Stands buffer inner (items :: rest :: outer)
  leave : ∀ buffer v inner definite items rest outer,
    Stands buffer v ((.array definite items :: rest) :: outer) →
    Stands buffer inner ([] :: rest :: outer) →
    ∃ v', parser.leaveContainer v inner = some v' ∧ Stands buffer v' (rest :: outer)
  atEnd : ∀ buffer v items outer, Stands buffer v (items :: outer) →
    parser.atEnd v = items.isEmpty
  uint : ∀ buffer v value rest outer, Stands buffer v ((.uint value :: rest) :: outer) →
    parser.isUnsignedInteger v = true ∧ (parser.getUint64 v).toNat = value ∧
      ∃ v', parser.advanceFixed v = some v' ∧ Stands buffer v' (rest :: outer)
  bool : ∀ buffer v value rest outer, Stands buffer v ((.bool value :: rest) :: outer) →
    parser.isBoolean v = true ∧ parser.getBoolean v = value ∧
      ∃ v', parser.advanceFixed v = some v' ∧ Stands buffer v' (rest :: outer)
  text : ∀ buffer v text rest outer, Stands buffer v ((.text text :: rest) :: outer) →
    parser.isUnsignedInteger v = false ∧ parser.isTextString v = true ∧
      parser.getStringLength v = some text.length ∧ text.length ≤ parser.remaining v ∧
      ∃ v', parser.copyTextString v = some (text, v') ∧ Stands buffer v' (rest :: outer)

/-- The decoder reads every data item as it is encoded. -/
def PullParser.FollowsEncoding (parser : PullParser) : Prop :=
  ∃ Stands, parser.Follows Stands

/-! ## Such a decoder -/

/-- The number whose bytes these are. -/
def ofBigEndian (bytes : List UInt8) : Nat :=
  bytes.foldl (fun value byte => value * 2 ^ 8 + byte.toNat) 0

/-- The major type and the argument at the beginning of the bytes. -/
def readHead : List UInt8 → Option (Nat × Nat × List UInt8)
  | [] => none
  | byte :: rest =>
    let info := byte.toNat % 2 ^ 5
    if info < 24 then some (byte.toNat / 2 ^ 5, info, rest)
    else if info < 28 then
      let width := 2 ^ (info - 24)
      if rest.length < width then none
      else some (byte.toNat / 2 ^ 5, ofBigEndian (rest.take width), rest.drop width)
    else none

/-- The item at the beginning of the bytes, where `readAll` reads those of an array. -/
def readItem (readAll : Option Nat → List UInt8 → Option (List Item × List UInt8))
    (bytes : List UInt8) : Option (Item × List UInt8) :=
  if bytes.head? = some 0x9f then
    (readAll none bytes.tail).map fun r => (Item.array false r.1, r.2)
  else if bytes.head? = some 0xf4 then some (Item.bool false, bytes.tail)
  else if bytes.head? = some 0xf5 then some (Item.bool true, bytes.tail)
  else
    match readHead bytes with
    | some (0, value, bytes) => some (Item.uint value, bytes)
    | some (3, length, bytes) => some (Item.text (bytes.take length), bytes.drop length)
    | some (4, count, bytes) => (readAll (some count) bytes).map fun r => (Item.array true r.1, r.2)
    | _ => none

/-- The items at the beginning of the bytes: as many as `left` says, or those before the
end mark. -/
def readAll : Nat → Option Nat → List UInt8 → Option (List Item × List UInt8)
  | 0, left, bytes => if left = some 0 then some ([], bytes) else none
  | depth + 1, left, bytes =>
    if left = some 0 then some ([], bytes)
    else if left = none ∧ bytes.head? = some 0xff then some ([], bytes.tail)
    else
      (readItem (readAll depth) bytes).bind fun r =>
        (readAll depth (left.map (· - 1)) r.2).map fun rest => (r.1 :: rest.1, rest.2)

theorem ofBigEndian_append (front back : List UInt8) :
    ofBigEndian (front ++ back) =
      ofBigEndian front * 2 ^ (8 * back.length) + ofBigEndian back := by
  induction back using List.reverseRecOn with
  | nil => simp [ofBigEndian]
  | append_singleton back byte ih =>
    rw [← List.append_assoc]
    have hlast : ∀ l : List UInt8, ofBigEndian (l ++ [byte]) = ofBigEndian l * 2 ^ 8 + byte.toNat :=
      fun l => by simp [ofBigEndian, List.foldl_append]
    rw [hlast, hlast, ih, List.length_append, List.length_singleton, Nat.mul_add, Nat.pow_add]
    ring

theorem ofBigEndian_bigEndian (count value : Nat) :
    ofBigEndian (bigEndian count value) = value % 2 ^ (8 * count) := by
  induction count with
  | zero => simp [bigEndian, ofBigEndian, Nat.mod_one]
  | succ count ih =>
    have hcons := ofBigEndian_append [UInt8.ofNat (value / 2 ^ (8 * count) % 2 ^ 8)]
      (bigEndian count value)
    have hbyte : ofBigEndian [UInt8.ofNat (value / 2 ^ (8 * count) % 2 ^ 8)] =
        value / 2 ^ (8 * count) % 2 ^ 8 := by
      simp [ofBigEndian]
    rw [bigEndian, ← List.singleton_append, hcons, hbyte, ih, length_bigEndian, Nat.mul_succ,
      Nat.pow_add, Nat.mod_mul, Nat.mul_comm, Nat.add_comm]

/-- The head that is encoded is read. -/
theorem readHead_of_encodes {major value : Nat} {start : List UInt8} (hmajor : major < 8)
    (h : EncodesHead major value start) (bytes : List UInt8) :
    readHead (start ++ bytes) = some (major, value, bytes) := by
  cases h with
  | short h =>
    have hbyte : (UInt8.ofNat (major * 2 ^ 5 + value)).toNat = major * 2 ^ 5 + value :=
      UInt8.toNat_ofNat_of_lt' (by simp only [UInt8.size]; omega)
    rw [List.singleton_append, readHead, hbyte]
    have hinfo : (major * 2 ^ 5 + value) % 2 ^ 5 = value := by omega
    have hmajor : (major * 2 ^ 5 + value) / 2 ^ 5 = major := by omega
    simp only [hinfo, hmajor, if_pos h]
  | long k hk h =>
    have hbyte : (UInt8.ofNat (major * 2 ^ 5 + 24 + k)).toNat = major * 2 ^ 5 + 24 + k :=
      UInt8.toNat_ofNat_of_lt' (by simp only [UInt8.size]; omega)
    rw [List.cons_append, readHead, hbyte]
    have hinfo : (major * 2 ^ 5 + 24 + k) % 2 ^ 5 = 24 + k := by omega
    have hmajor : (major * 2 ^ 5 + 24 + k) / 2 ^ 5 = major := by omega
    have htake : (bigEndian (2 ^ k) value ++ bytes).take (2 ^ k) = bigEndian (2 ^ k) value :=
      List.take_left' (length_bigEndian _ _)
    have hdrop : (bigEndian (2 ^ k) value ++ bytes).drop (2 ^ k) = bytes :=
      List.drop_left' (length_bigEndian _ _)
    have hlen : ¬ (bigEndian (2 ^ k) value ++ bytes).length < 2 ^ k := by
      rw [List.length_append, length_bigEndian]
      omega
    simp only [hinfo, hmajor, if_neg (by omega : ¬ 24 + k < 24), if_pos (by omega : 24 + k < 28),
      Nat.add_sub_cancel_left, if_neg hlen, htake, hdrop, ofBigEndian_bigEndian,
      Nat.mod_eq_of_lt h]

/-- More bytes behind the head do not change it. -/
theorem readHead_append {bytes rest more : List UInt8} {major value : Nat}
    (h : readHead bytes = some (major, value, rest)) :
    readHead (bytes ++ more) = some (major, value, rest ++ more) := by
  cases bytes with
  | nil => cases h
  | cons byte bytes =>
    rw [List.cons_append]
    unfold readHead at h ⊢
    dsimp only at h ⊢
    by_cases hshort : byte.toNat % 2 ^ 5 < 24
    · rw [if_pos hshort] at h ⊢
      cases h
      rfl
    rw [if_neg hshort] at h ⊢
    by_cases hlong : byte.toNat % 2 ^ 5 < 28
    · rw [if_pos hlong] at h ⊢
      by_cases hlength : bytes.length < 2 ^ (byte.toNat % 2 ^ 5 - 24)
      · rw [if_pos hlength] at h
        cases h
      rw [if_neg hlength] at h
      cases h
      have hmore : ¬ (bytes ++ more).length < 2 ^ (byte.toNat % 2 ^ 5 - 24) := by
        rw [List.length_append]
        omega
      simp only [if_neg hmore, List.take_append_of_le_length (Nat.le_of_not_lt hlength),
        List.drop_append_of_le_length (Nat.le_of_not_lt hlength)]
    · rw [if_neg hlong] at h
      cases h

/-- The first byte of a head. -/
theorem byte_of_readHead {byte : UInt8} {bytes rest : List UInt8} {major value : Nat}
    (h : readHead (byte :: bytes) = some (major, value, rest)) :
    byte.toNat / 2 ^ 5 = major ∧ byte.toNat % 2 ^ 5 < 28 := by
  unfold readHead at h
  dsimp only at h
  split_ifs at h with hshort hlong
  · cases h
    exact ⟨rfl, Nat.lt_trans hshort (by decide)⟩
  · cases h
    exact ⟨rfl, hlong⟩

/-- No head that is read here is an end mark, a simple value or the beginning of an array
of indefinite length. -/
theorem head?_of_encodes {major value : Nat} {start : List UInt8} (hmajor : major ≤ 4)
    (h : EncodesHead major value start) (bytes : List UInt8) :
    (start ++ bytes).head? ≠ some 0xff ∧ (start ++ bytes).head? ≠ some 0x9f ∧
      (start ++ bytes).head? ≠ some 0xf4 ∧ (start ++ bytes).head? ≠ some 0xf5 := by
  have hlow : ∀ n < 159, ∀ byte : UInt8, 159 ≤ byte.toNat → some (UInt8.ofNat n) ≠ some byte := by
    intro n hn byte hbyte h
    rw [← Option.some.inj h, UInt8.toNat_ofNat_of_lt' (by simp only [UInt8.size]; omega)] at hbyte
    omega
  cases h with
  | short h =>
    have hstart := hlow (major * 2 ^ 5 + value) (by omega)
    exact ⟨hstart 0xff (by decide), hstart 0x9f (by decide), hstart 0xf4 (by decide),
      hstart 0xf5 (by decide)⟩
  | long k hk h =>
    have hstart := hlow (major * 2 ^ 5 + 24 + k) (by omega)
    exact ⟨hstart 0xff (by decide), hstart 0x9f (by decide), hstart 0xf4 (by decide),
      hstart 0xf5 (by decide)⟩

/-- How the items at the beginning of a container end: `left` items are there, or an end
mark follows. -/
inductive EndsAt : Option Nat → Nat → List UInt8 → List UInt8 → Prop where
  | counted (count : Nat) (bytes : List UInt8) : EndsAt (some count) count bytes bytes
  | marked (count : Nat) (bytes : List UInt8) : EndsAt none count (0xff :: bytes) bytes

theorem EndsAt.pred {left : Option Nat} {count : Nat} {marked bytes : List UInt8}
    (h : EndsAt left (count + 1) marked bytes) : EndsAt (left.map (· - 1)) count marked bytes := by
  cases h with
  | counted => exact .counted _ _
  | marked => exact .marked _ _

theorem EndsAt.ne_zero {left : Option Nat} {count : Nat} {marked bytes : List UInt8}
    (h : EndsAt left (count + 1) marked bytes) : left ≠ some 0 := by
  cases h <;> simp

/-- One item and the rest. -/
theorem readAll_cons {depth count : Nat} {left : Option Nat} {bytes marked rest tail : List UInt8}
    {item : Item} {items : List Item} (hend : EndsAt left (count + 1) marked tail)
    (hmark : bytes.head? ≠ some 0xff)
    (hitem : readItem (readAll depth) bytes = some (item, rest))
    (hrest : readAll depth (left.map (· - 1)) rest = some (items, tail)) :
    readAll (depth + 1) left bytes = some (item :: items, tail) := by
  rw [readAll, if_neg hend.ne_zero, if_neg fun h => hmark h.2, hitem, Option.bind_some, hrest,
    Option.map_some]

/-- The items that are encoded are read. -/
theorem readAll_of_encodes {items : List Item} {bytes : List UInt8}
    (h : EncodesAll items bytes) {depth : Nat} (hdepth : bytes.length < depth)
    {left : Option Nat} {marked tail : List UInt8} (hend : EndsAt left items.length marked tail) :
    readAll depth left (bytes ++ marked) = some (items, tail) := by
  -- By induction on the encoding; `depth` is at least the number of bytes.
  induction h generalizing depth left marked tail with
  | nil =>
    obtain ⟨depth, rfl⟩ : ∃ d, depth = d + 1 := ⟨depth - 1, by simp at hdepth; omega⟩
    cases hend with
    | counted => rfl
    | marked => rfl
  | @uint value rest start bytes hstart hrest ih =>
    obtain ⟨depth, rfl⟩ : ∃ d, depth = d + 1 := ⟨depth - 1, by omega⟩
    have hpos := hstart.length_pos
    rw [List.length_append] at hdepth
    obtain ⟨hmark, hdefinite, hfalse, htrue⟩ :=
      head?_of_encodes (by decide) hstart (bytes ++ marked)
    rw [List.append_assoc]
    refine readAll_cons hend hmark ?_ (ih (by omega) hend.pred)
    rw [readItem, if_neg hdefinite, if_neg hfalse, if_neg htrue,
      readHead_of_encodes (by decide) hstart]
    rfl
  | @bool value rest bytes hrest ih =>
    obtain ⟨depth, rfl⟩ : ∃ d, depth = d + 1 := ⟨depth - 1, by omega⟩
    rw [List.length_cons] at hdepth
    rw [List.cons_append]
    refine readAll_cons hend ?_ ?_ (ih (by omega) hend.pred)
    · cases value <;> simp [boolByte]
    · cases value <;> rfl
  | @text text rest start bytes hstart hrest ih =>
    obtain ⟨depth, rfl⟩ : ∃ d, depth = d + 1 := ⟨depth - 1, by omega⟩
    have hpos := hstart.length_pos
    rw [List.length_append, List.length_append] at hdepth
    obtain ⟨hmark, hdefinite, hfalse, htrue⟩ :=
      head?_of_encodes (by decide) hstart (text ++ (bytes ++ marked))
    rw [List.append_assoc, List.append_assoc]
    refine readAll_cons hend hmark ?_ (ih (by omega) hend.pred)
    rw [readItem, if_neg hdefinite, if_neg hfalse, if_neg htrue,
      readHead_of_encodes (by decide) hstart]
    show some (Item.text ((text ++ (bytes ++ marked)).take text.length),
      (text ++ (bytes ++ marked)).drop text.length) = _
    rw [List.take_left, List.drop_left]
  | @array items rest start body bytes hstart hitems hrest ih ihrest =>
    obtain ⟨depth, rfl⟩ : ∃ d, depth = d + 1 := ⟨depth - 1, by omega⟩
    have hpos := hstart.length_pos
    rw [List.length_append, List.length_append] at hdepth
    obtain ⟨hmark, hdefinite, hfalse, htrue⟩ :=
      head?_of_encodes (by decide) hstart (body ++ (bytes ++ marked))
    have hbody := ih (by omega : _ < depth) (.counted _ (bytes ++ marked))
    rw [List.append_assoc, List.append_assoc]
    refine readAll_cons hend hmark ?_ (ihrest (by omega) hend.pred)
    rw [readItem, if_neg hdefinite, if_neg hfalse, if_neg htrue,
      readHead_of_encodes (by decide) hstart]
    exact congrArg (Option.map _) hbody
  | @indefinite items rest body bytes hitems hrest ih ihrest =>
    obtain ⟨depth, rfl⟩ : ∃ d, depth = d + 1 := ⟨depth - 1, by omega⟩
    rw [List.length_cons, List.length_append, List.length_cons] at hdepth
    rw [List.cons_append, List.append_assoc, List.cons_append]
    refine readAll_cons hend (by simp) ?_ (ihrest (by omega) hend.pred)
    have hbody := ih (by omega : _ < depth) (.marked _ (bytes ++ marked))
    exact congrArg (Option.map _) hbody

/-- Bytes are an encoding of at most one item. -/
theorem Encodes.unique {item other : Item} {bytes : List UInt8} (h : Encodes item bytes)
    (h' : Encodes other bytes) : item = other := by
  have hread := readAll_of_encodes h (Nat.lt_succ_self _) (EndsAt.counted 1 [])
  have hread' := readAll_of_encodes h' (Nat.lt_succ_self _) (EndsAt.counted 1 [])
  rw [hread] at hread'
  cases hread'
  rfl

/-- A decoder whose iterator holds the items that are left, those of its container
first. -/
def itemParser : PullParser where
  Value := List (List Item)
  init bytes := (readAll (bytes.length + 1) (some 1) bytes).map fun r => [r.1]
  isArray
    | (.array _ _ :: _) :: _ => true
    | _ => false
  isLengthKnown
    | (.array definite _ :: _) :: _ => definite
    | _ => false
  getArrayLength
    | (.array true items :: _) :: _ => some items.length
    | _ => none
  enterContainer
    | (.array _ items :: rest) :: outer => (true, items :: rest :: outer)
    | v => (false, v)
  leaveContainer
    | _, [] :: rest :: outer => some (rest :: outer)
    | _, _ => none
  atEnd
    | items :: _ => items.isEmpty
    | [] => true
  isUnsignedInteger
    | (.uint _ :: _) :: _ => true
    | _ => false
  getUint64
    | (.uint value :: _) :: _ => .ofNat value
    | _ => 0
  isBoolean
    | (.bool _ :: _) :: _ => true
    | _ => false
  getBoolean
    | (.bool value :: _) :: _ => value
    | _ => false
  isTextString
    | (.text _ :: _) :: _ => true
    | _ => false
  getStringLength
    | (.text text :: _) :: _ => some text.length
    | _ => none
  copyTextString
    | (.text text :: rest) :: outer => some (text, rest :: outer)
    | _ => none
  remaining
    | (.text text :: _) :: _ => text.length
    | _ => 0
  advanceFixed
    | (_ :: rest) :: outer => some (rest :: outer)
    | _ => none

theorem itemParser_follows : itemParser.FollowsEncoding := by
  refine ⟨fun _ v stack => v = stack ∧ ∀ items ∈ stack, ∃ bytes, EncodesAll items bytes, ?_⟩
  have hlater : ∀ {items rest : List Item} {outer : List (List Item)},
      (∀ list ∈ items :: outer, ∃ bytes, EncodesAll list bytes) →
      (∃ bytes, EncodesAll rest bytes) → ∀ list ∈ rest :: outer, ∃ bytes, EncodesAll list bytes :=
    fun h hrest => List.forall_mem_cons.mpr ⟨hrest, (List.forall_mem_cons.mp h).2⟩
  constructor
  · intro item buffer h
    have hread := readAll_of_encodes h (Nat.lt_succ_self _) (EndsAt.counted 1 [])
    rw [List.append_nil] at hread
    have hinit : itemParser.init buffer = some [[item]] :=
      congrArg (Option.map fun r : List Item × List UInt8 => [r.1]) hread
    exact ⟨_, hinit, rfl, List.forall_mem_singleton.mpr ⟨buffer, h⟩⟩
  · rintro buffer _ definite items rest outer ⟨rfl, h⟩ -
    obtain ⟨bytes, hbytes⟩ := h _ List.mem_cons_self
    cases hbytes with
    | array _ hitems hrest =>
      exact ⟨rfl, rfl, fun _ => rfl, _, rfl, rfl,
        List.forall_mem_cons.mpr ⟨⟨_, hitems⟩, hlater h ⟨_, hrest⟩⟩⟩
    | indefinite hitems hrest =>
      exact ⟨rfl, rfl, fun h => Bool.noConfusion h, _, rfl, rfl,
        List.forall_mem_cons.mpr ⟨⟨_, hitems⟩, hlater h ⟨_, hrest⟩⟩⟩
  · rintro buffer _ _ definite items rest outer ⟨rfl, -⟩ ⟨rfl, h⟩
    exact ⟨_, rfl, rfl, (List.forall_mem_cons.mp h).2⟩
  · rintro buffer _ items outer ⟨rfl, -⟩
    rfl
  · rintro buffer _ value rest outer ⟨rfl, h⟩
    obtain ⟨bytes, hbytes⟩ := h _ List.mem_cons_self
    cases hbytes with
    | uint hstart hrest =>
      exact ⟨rfl, UInt64.toNat_ofNat_of_lt' hstart.value_lt, _, rfl, rfl, hlater h ⟨_, hrest⟩⟩
  · rintro buffer _ value rest outer ⟨rfl, h⟩
    obtain ⟨bytes, hbytes⟩ := h _ List.mem_cons_self
    cases hbytes with
    | bool hrest => exact ⟨rfl, rfl, _, rfl, rfl, hlater h ⟨_, hrest⟩⟩
  · rintro buffer _ text rest outer ⟨rfl, h⟩
    obtain ⟨bytes, hbytes⟩ := h _ List.mem_cons_self
    cases hbytes with
    | text _ hrest =>
      exact ⟨rfl, rfl, rfl, Nat.le_refl _, _, rfl, rfl, hlater h ⟨_, hrest⟩⟩

end Cbor
