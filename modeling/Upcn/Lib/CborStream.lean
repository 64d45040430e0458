import Upcn.Lib.CborDecoder

/-!
# A decoder over a part of what is encoded

A buffer may end inside of a data item.  At its position there is a whole head (`WholeHead`), the
beginning of one (`CutHead`), or what no item begins with (`noHead`).

* `DataDecoder` is a decoder that copies strings.
* `DataDecoder.Follows` is what such a decoder shows of the bytes of a buffer.  `At v p` says that
  the iterator stands at this place, where the head was read if an item is to follow.
* `dataParser` is a decoder that does so.
-/

namespace Cbor

/-! ## Heads -/

/-- A head that is read here is there. -/
def WholeHead (bytes : List UInt8) : Prop :=
  (∃ major value rest, readHead bytes = some (major, value, rest) ∧ major ≤ 4) ∨
    bytes.head? = some 0x9f

/-- The bytes end inside of a head. -/
def CutHead : List UInt8 → Prop
  | [] => True
  | byte :: rest => 24 ≤ byte.toNat % 2 ^ 5 ∧ byte.toNat % 2 ^ 5 < 28 ∧
      rest.length < 2 ^ (byte.toNat % 2 ^ 5 - 24)

/-- No item begins so: what the first byte says is reserved, there is no such item of indefinite
length, or a simple value is written with a byte more than it has to be. -/
def noHead : List UInt8 → Bool
  | [] => false
  | byte :: rest =>
    (28 ≤ byte.toNat % 2 ^ 5 && byte.toNat % 2 ^ 5 < 31) || byte == 0x1f || byte == 0x3f ||
      byte == 0xdf || (byte == 0xf8 && rest.head?.any (· < 32))

variable {bytes input later rest start : List UInt8} {major value : Nat} {byte : UInt8}

theorem wholeHead_of_encodes (hmajor : major ≤ 4) (h : EncodesHead major value start)
    (rest : List UInt8) : WholeHead (start ++ rest) :=
  .inl ⟨major, value, rest, readHead_of_encodes (by omega) h rest, hmajor⟩

theorem WholeHead.ne_nil (h : WholeHead bytes) : bytes ≠ [] := by
  rintro rfl
  obtain ⟨_, _, _, hread, -⟩ | hmark := h
  · simp [readHead] at hread
  · simp at hmark

/-- What there is of a head that is whole with the bytes to come. -/
theorem WholeHead.front (h : WholeHead (input ++ later)) : WholeHead input ∨ CutHead input := by
  cases input with
  | nil => exact .inr trivial
  | cons byte rest =>
    rw [List.cons_append] at h
    obtain ⟨major, value, tail, hread, hmajor⟩ | hmark := h
    · obtain ⟨rfl, hinfo⟩ := byte_of_readHead hread
      by_cases hcut : 24 ≤ byte.toNat % 2 ^ 5 ∧ rest.length < 2 ^ (byte.toNat % 2 ^ 5 - 24)
      · exact .inr ⟨hcut.1, hinfo, hcut.2⟩
      refine .inl (.inl ?_)
      unfold readHead
      dsimp only
      by_cases hshort : byte.toNat % 2 ^ 5 < 24
      · rw [if_pos hshort]
        exact ⟨_, _, _, rfl, hmajor⟩
      · have hlong : ¬ rest.length < 2 ^ (byte.toNat % 2 ^ 5 - 24) := fun hlt =>
          hcut ⟨by omega, hlt⟩
        rw [if_neg hshort, if_pos hinfo, if_neg hlong]
        exact ⟨_, _, _, rfl, hmajor⟩
    · exact .inl (.inr hmark)

theorem CutHead.readHead (h : CutHead bytes) : readHead bytes = none := by
  cases bytes with
  | nil => rfl
  | cons byte rest =>
    obtain ⟨hlow, hhigh, hshort⟩ := h
    unfold Cbor.readHead
    dsimp only
    rw [if_neg (Nat.not_lt.mpr hlow), if_pos hhigh, if_pos hshort]

/-- A head that is whole is not one that is cut. -/
theorem WholeHead.not_cut (h : WholeHead bytes) : ¬ CutHead bytes := by
  intro hcut
  obtain ⟨major, value, tail, hread, -⟩ | hmark := h
  · rw [hcut.readHead] at hread
    cases hread
  · cases bytes with
    | nil => simp at hmark
    | cons byte rest =>
      obtain rfl := Option.some.inj hmark
      simp [CutHead] at hcut

/-- A head with an argument begins an item, if it is not that of a simple value. -/
theorem noHead_of_argument (hinfo : byte.toNat % 2 ^ 5 < 28) (h : byte ≠ 0xf8 ∨ rest = []) :
    noHead (byte :: rest) = false := by
  have hne : ∀ other : UInt8, 28 ≤ other.toNat % 2 ^ 5 → (byte == other) = false := by
    intro other hother
    apply beq_eq_false_iff_ne.mpr
    rintro rfl
    omega
  have hlow : decide (28 ≤ byte.toNat % 2 ^ 5) = false := decide_eq_false (Nat.not_le.mpr hinfo)
  have hsimple : (byte == 0xf8 && rest.head?.any (· < 32)) = false := by
    rcases h with hbyte | rfl
    · rw [beq_eq_false_iff_ne.mpr hbyte, Bool.false_and]
    · exact Bool.and_false _
  rw [Cbor.noHead, hlow, hsimple, hne 0x1f (by decide), hne 0x3f (by decide), hne 0xdf (by decide)]
  rfl

theorem WholeHead.noHead (h : WholeHead bytes) : noHead bytes = false := by
  cases bytes with
  | nil => rfl
  | cons byte rest =>
    obtain ⟨major, value, tail, hread, hmajor⟩ | hmark := h
    · obtain ⟨rfl, hinfo⟩ := byte_of_readHead hread
      apply noHead_of_argument hinfo
      left
      rintro rfl
      simp at hmajor
    · obtain rfl := Option.some.inj hmark
      rfl

theorem CutHead.noHead (h : CutHead bytes) : noHead bytes = false := by
  cases bytes with
  | nil => rfl
  | cons byte rest =>
    obtain ⟨hlow, hhigh, hshort⟩ := h
    apply noHead_of_argument hhigh
    by_cases hbyte : byte = 0xf8
    · subst hbyte
      right
      exact List.length_eq_zero_iff.mp (by simpa using hshort)
    · exact .inl hbyte

/-- The bytes before a head, as far as they are there. -/
theorem front_of_encodes (hmajor : major ≤ 4) (h : EncodesHead major value start)
    (heq : input ++ later = start ++ rest) (hwhole : WholeHead input) :
    ∃ more, input = start ++ more ∧ more ++ later = rest := by
  rcases List.append_eq_append_iff.mp heq with ⟨more, hstart, hlater⟩ | ⟨more, hinput, hrest⟩
  · -- the head ends behind the input
    obtain ⟨m, n, tail, hread, -⟩ | hmark := hwhole
    · have hsame : readHead (input ++ more) = some (m, n, tail ++ more) := readHead_append hread
      rw [← hstart] at hsame
      have hread' := readHead_of_encodes (by omega : major < 8) h []
      rw [List.append_nil, hsame] at hread'
      have hnil : tail ++ more = [] := (Prod.mk.inj (Prod.mk.inj (Option.some.inj hread')).2).2
      obtain ⟨-, rfl⟩ := List.append_eq_nil_iff.mp hnil
      refine ⟨[], ?_, ?_⟩
      · simpa using hstart.symm
      · simpa using hlater
    · have hhead := (head?_of_encodes hmajor h []).2.1
      rw [List.append_nil, hstart] at hhead
      cases input with
      | nil => simp at hmark
      | cons byte rest => exact absurd (by simpa using hmark) hhead
  · exact ⟨more, hinput, hrest.symm⟩

/-! ## Places -/

/-- A place in a buffer: the bytes from there on, the position, and how many items are left in the
container, if it says so. -/
structure Place where
  rest : List UInt8
  pos : Nat
  left : Option Nat

/-- Behind an item of so many bytes. -/
def Place.pass (p : Place) (count : Nat) : Place :=
  ⟨p.rest.drop count, p.pos + count, p.left.map (· - 1)⟩

/-- A decoder that copies strings. -/
structure DataDecoder extends Decoder where
  /-- What `copyTextString` copies. -/
  copiedText : Value → List UInt8
  /-- What `copyByteString` copies. -/
  copiedBytes : Value → List UInt8

/-- The iterator is moved to this place, if the buffer goes on so far. -/
structure Moves {V : Type} (At : V → Place → Prop) (p : Place) (r : Except CborError V) : Prop where
  ended : p.left = some 0 → ∃ v, r = .ok v ∧ At v p
  whole : p.left ≠ some 0 → WholeHead p.rest → ∃ v, r = .ok v ∧ At v p
  cut : p.left ≠ some 0 → CutHead p.rest → r = .error .unexpectedEOF

/-- What the decoder shows of a buffer. -/
structure DataDecoder.Follows (cbor : DataDecoder) (At : cbor.Value → Place → Prop) : Prop where
  whole : ∀ v p, At v p → p.left ≠ some 0 → WholeHead p.rest
  nextByte : ∀ v p, At v p → cbor.nextByte v = p.pos
  atEnd : ∀ v p, At v p → (cbor.atEnd v = true ↔ p.left = some 0)
  init : ∀ bytes pos, WholeHead bytes →
    ∃ v, cbor.init bytes pos = (none, v) ∧ At v ⟨bytes, pos, some 1⟩
  init_cut : ∀ bytes pos, CutHead bytes → (cbor.init bytes pos).1 = some .unexpectedEOF
  init_break : ∀ bytes pos, ∃ v, cbor.init (0xff :: bytes) pos = (some .unexpectedBreak, v) ∧
    cbor.byteAt v = 0xff ∧ cbor.nextByte (cbor.skipByte v) = pos + 1
  init_readable : ∀ bytes pos, noHead bytes = false →
    (cbor.init bytes pos).1 = none ∨ (cbor.init bytes pos).1 = some .unexpectedEOF ∨
      (cbor.init bytes pos).1 = some .unexpectedBreak
  init_noHead : ∀ bytes pos, noHead bytes = true →
    ∃ err, (cbor.init bytes pos).1 = some err ∧ err ≠ .unexpectedEOF ∧ err ≠ .unexpectedBreak
  array : ∀ v p count start rest, At v p → p.left ≠ some 0 → p.rest = start ++ rest →
    EncodesHead 4 count start → 0 < count → count < 2 ^ 32 - 1 →
    cbor.isArray v = true ∧ cbor.isLengthKnown v = true ∧ cbor.getArrayLength v = .ok count ∧
      Moves At ⟨rest, p.pos + start.length, some count⟩ (cbor.enterContainer v)
  indefinite : ∀ v p rest, At v p → p.left ≠ some 0 → p.rest = 0x9f :: rest →
    cbor.isArray v = true ∧ cbor.isLengthKnown v = false ∧
      Moves At ⟨rest, p.pos + 1, none⟩ (cbor.enterContainer v)
  leave : ∀ v inner p rest pos, At v p → p.left ≠ some 0 → cbor.isArray v = true →
    At inner ⟨rest, pos, some 0⟩ →
    Moves At ⟨rest, pos, p.left.map (· - 1)⟩ (cbor.leaveContainer v inner)
  uint : ∀ v p value start rest, At v p → p.left ≠ some 0 → p.rest = start ++ rest →
    EncodesHead 0 value start →
    cbor.isUnsignedInteger v = true ∧ (cbor.getUint64 v).toNat = value ∧
      Moves At (p.pass start.length) (cbor.advance v)
  text : ∀ v p length start rest, At v p → p.left ≠ some 0 → p.rest = start ++ rest →
    EncodesHead 3 length start →
    cbor.isUnsignedInteger v = false ∧ cbor.isTextString v = true ∧
      cbor.getStringLength v = .ok length ∧ cbor.remaining v = p.rest.length ∧
      (rest.length < length → cbor.copyTextString v = .error .unexpectedEOF) ∧
      (length ≤ rest.length → cbor.copiedText v = rest.take length ∧
        Moves At (p.pass (start.length + length)) (cbor.copyTextString v))
  /-- A byte string is copied, or the iterator is moved to its bytes. -/
  bytes : ∀ v p length start rest, At v p → p.left ≠ some 0 → p.rest = start ++ rest →
    EncodesHead 2 length start →
    cbor.isByteString v = true ∧ cbor.getStringLength v = .ok length ∧
      (p.left ≠ none → cbor.nextByte (cbor.advanceFixed (cbor.asInteger v)).2 =
        p.pos + start.length) ∧
      (p.left = some 1 → cbor.atEnd (cbor.advanceFixed (cbor.asInteger v)).2 = true) ∧
      ∀ size, length ≤ size →
        (rest.length < length → cbor.copyByteString v size = .error .unexpectedEOF) ∧
        (length ≤ rest.length → cbor.copiedBytes v = rest.take length ∧
          Moves At (p.pass (start.length + length)) ((cbor.copyByteString v size).map (·.2)) ∧
          ∀ r, cbor.copyByteString v size = .ok r → r.1 = length)

/-! ## Such a decoder -/

/-- The cursor of `preparser`, which looks for what no item begins with. -/
def dataParser : DataDecoder where
  toDecoder := { preparser with
    init := fun bytes pos =>
      if noHead bytes then (some .other, (⟨bytes, pos, some 1, .invalid⟩ : Cursor))
      else preparser.init bytes pos }
  copiedText (v : Cursor) := match v.item with
    | .text length => (v.rest.drop v.headLength).take length
    | _ => []
  copiedBytes (v : Cursor) := match v.item with
    | .bytes length => (v.rest.drop v.headLength).take length
    | _ => []

namespace Cursor

/-- What a head says of its item. -/
def itemOf : Nat → Nat → Preparsed
  | 0, value => .uint value
  | 2, length => .bytes length
  | 3, length => .text length
  | 4, count => .array (some count)
  | _, _ => .other

/-- The cursor stands here, and the head was read. -/
def Stands (v : Cursor) (p : Place) : Prop :=
  v.rest = p.rest ∧ v.pos = p.pos ∧ v.left = p.left ∧
    (p.left ≠ some 0 → WholeHead p.rest ∧ v.preparse = (none, v))

variable {v : Cursor} {p : Place}

theorem preparse_of_readHead (h : readHead v.rest = some (major, value, rest)) :
    v.preparse = (none, { v with item := itemOf major value }) := by
  unfold preparse
  split
  · rename_i hnil
    simp [hnil, readHead] at h
  · rename_i hbreak
    simp [hbreak, readHead] at h
  · rename_i hmark
    simp [hmark, readHead] at h
  · rw [h]
    rcases major with _ | _ | _ | _ | _ | _
    all_goals rfl

theorem preparse_mark (h : v.rest.head? = some 0x9f) :
    v.preparse = (none, { v with item := .array none }) := by
  obtain ⟨bytes, pos, left, item⟩ := v
  cases bytes with
  | nil => simp at h
  | cons byte tail =>
    obtain rfl := Option.some.inj h
    rfl

theorem preparse_of_whole (h : WholeHead v.rest) : ∃ item, v.preparse = (none, { v with item }) ∧
    preparse { v with item } = (none, { v with item }) := by
  obtain ⟨major, value, rest, hread, -⟩ | hmark := h
  · exact ⟨_, preparse_of_readHead hread, preparse_of_readHead (v := { v with item := _ }) hread⟩
  · exact ⟨_, preparse_mark hmark, preparse_mark (v := { v with item := _ }) hmark⟩

theorem preparse_of_cut (h : CutHead v.rest) : v.preparse.1 = some .unexpectedEOF := by
  unfold preparse
  split
  · rfl
  · rename_i hbreak
    rw [hbreak] at h
    exact absurd h (by simp [CutHead])
  · rename_i hmark
    rw [hmark] at h
    exact absurd h (by simp [CutHead])
  · rw [h.readHead]

theorem pos_preparse (v : Cursor) : v.preparse.2.pos = v.pos := by
  unfold preparse
  split
  · rfl
  · rfl
  · rfl
  · split <;> rfl

/-- Looking at the next head, the cursor stays where it is. -/
theorem pos_preparseNext (h : v.left ≠ none) : v.preparseNext.2.pos = v.pos := by
  unfold preparseNext
  split
  · split
    · rfl
    · exact pos_preparse _
  · rename_i hnone _
    exact absurd hnone h
  · exact pos_preparse v

/-- The cursor that is moved. -/
theorem moves_preparseNext (v : Cursor) :
    Moves Stands ⟨v.rest, v.pos, v.left.map (· - 1)⟩ (moved v.preparseNext) := by
  have hmoves : ∀ u : Cursor, u.left ≠ some 0 →
      Moves Stands ⟨u.rest, u.pos, u.left⟩ (moved u.preparse) := by
    intro u hleft
    refine ⟨fun h => absurd h hleft, fun _ hwhole => ?_, fun _ hcut => ?_⟩
    · obtain ⟨item, hread, hsame⟩ := preparse_of_whole hwhole
      rw [hread]
      exact ⟨_, rfl, rfl, rfl, rfl, fun _ => ⟨hwhole, hsame⟩⟩
    · have hend := preparse_of_cut hcut
      generalize u.preparse = r at hend
      obtain ⟨err, w⟩ := r
      obtain rfl : err = some .unexpectedEOF := hend
      rfl
  unfold preparseNext
  split
  · rename_i left hleft
    rw [hleft, Option.map_some]
    by_cases hlast : left ≤ 1
    · rw [if_pos hlast]
      have hzero : left - 1 = 0 := by omega
      rw [hzero]
      refine ⟨fun _ => ⟨_, rfl, rfl, rfl, rfl, fun h => absurd rfl h⟩, fun h => absurd rfl h,
        fun h => absurd rfl h⟩
    · rw [if_neg hlast]
      refine hmoves { v with left := some (left - 1) } fun h => ?_
      have hzero := Option.some.inj h
      omega
  · rename_i rest hleft hrest
    rw [hrest]
    refine ⟨fun h => ?_, fun _ hwhole => ?_, fun _ hcut => ?_⟩
    · simp [hleft] at h
    · obtain ⟨_, _, _, hread, -⟩ | hmark := hwhole
      · simp [readHead] at hread
      · simp at hmark
    · simp [CutHead] at hcut
  · rename_i hleft hrest
    have hsame := hmoves v (by simp [hleft])
    rw [hleft] at hsame ⊢
    exact hsame

theorem headLength_of_encodes (hmajor : major ≤ 4) (h : EncodesHead major value start)
    (hrest : v.rest = start ++ rest) : v.headLength = start.length := by
  unfold headLength
  rw [hrest, readHead_of_encodes (by omega) h rest]
  simp

/-- The item that a cursor stands before. -/
theorem Stands.item (h : v.Stands p) (hleft : p.left ≠ some 0) (hmajor : major ≤ 4)
    (hstart : EncodesHead major value start) (hrest : p.rest = start ++ rest) :
    v.item = itemOf major value ∧ v.headLength = start.length ∧ v.rest = start ++ rest := by
  obtain ⟨hsame, -, -, hread⟩ := h
  rw [hrest] at hsame
  have hhead : readHead v.rest = some (major, value, rest) := by
    rw [hsame]
    exact readHead_of_encodes (by omega) hstart rest
  have hitem := (hread hleft).2
  rw [preparse_of_readHead hhead] at hitem
  refine ⟨?_, headLength_of_encodes hmajor hstart hsame, hsame⟩
  exact (congrArg Cursor.item (Prod.mk.inj hitem).2).symm

/-- Behind the item at a place. -/
theorem Stands.pass (h : v.Stands p) (count : Nat) :
    Moves Stands (p.pass count) (moved (v.skip count).preparseNext) := by
  obtain ⟨hrest, hpos, hleft, -⟩ := h
  have hmoves := moves_preparseNext (v.skip count)
  rw [skip] at hmoves ⊢
  rw [Place.pass, ← hrest, ← hpos, ← hleft]
  exact hmoves

/-- The string at a place is copied. -/
theorem Stands.copied (h : v.Stands p) (length : Nat) (hrest : p.rest = start ++ rest)
    (hhead : v.headLength = start.length) :
    (rest.length < length → v.copied length = .error .unexpectedEOF) ∧
      (length ≤ rest.length →
        Moves Stands (p.pass (start.length + length)) (v.copied length)) := by
  have hlength : v.rest.length = start.length + rest.length := by
    rw [h.1, hrest, List.length_append]
  unfold Cursor.copied
  rw [hhead]
  constructor
  · intro hshort
    rw [if_pos (by omega)]
  · intro hlong
    rw [if_neg (by omega)]
    exact h.pass _

end Cursor

open Cursor in
theorem dataParser_follows : dataParser.Follows Cursor.Stands where
  whole v p h hleft := (h.2.2.2 hleft).1
  nextByte v p h := h.2.1
  atEnd v p h := by
    show decide (v.left = some 0) = true ↔ _
    rw [decide_eq_true_iff, h.2.2.1]
  init bytes pos h := by
    obtain ⟨item, hread, hsame⟩ :=
      preparse_of_whole (v := ⟨bytes, pos, some 1, .invalid⟩) h
    refine ⟨_, ?_, rfl, rfl, rfl, fun _ => ⟨h, hsame⟩⟩
    show (if noHead bytes then _ else preparse _) = _
    rw [h.noHead]
    exact hread
  init_cut bytes pos h := by
    show (if noHead bytes then _ else preparse _).1 = _
    rw [h.noHead]
    exact preparse_of_cut (v := ⟨bytes, pos, some 1, .invalid⟩) h
  init_break bytes pos := ⟨_, rfl, rfl, rfl⟩
  init_readable bytes pos h := by
    have hinit : dataParser.init bytes pos = preparse ⟨bytes, pos, some 1, .invalid⟩ := by
      show (if noHead bytes then _ else preparse _) = _
      rw [h]
      rfl
    rw [hinit]
    unfold preparse
    split
    · exact .inr (.inl rfl)
    · exact .inr (.inr rfl)
    · exact .inl rfl
    · split
      · exact .inr (.inl rfl)
      all_goals exact .inl rfl
  init_noHead bytes pos h := by
    refine ⟨.other, ?_, by decide, by decide⟩
    show (if noHead bytes then _ else preparse _).1 = _
    rw [h]
    rfl
  array v p count start rest h hleft hrest hstart hpos hlt := by
    obtain ⟨hitem, hhead, hsame⟩ := h.item hleft (by decide) hstart hrest
    have hmoves := moves_preparseNext { v.skip v.headLength with left := some (count + 1) }
    obtain ⟨bytes, pos, left, item⟩ := v
    obtain rfl : item = .array (some count) := hitem
    refine ⟨rfl, rfl, rfl, ?_⟩
    have hplace : (⟨rest, p.pos + start.length, some count⟩ : Place) =
        ⟨bytes.drop start.length, pos + start.length, some count⟩ := by
      obtain rfl : bytes = start ++ rest := hsame
      rw [List.drop_left, ← h.2.1]
    rw [hplace]
    rw [hhead] at hmoves
    show Moves _ _ (moved (preparseNext { (Cursor.skip _ (Cursor.headLength _)) with left := _ }))
    rw [hhead]
    exact hmoves
  indefinite v p rest h hleft hrest := by
    obtain ⟨hsame, hpos, -, hread⟩ := h
    have hmark := preparse_mark (v := v) (by rw [hsame, hrest]; rfl)
    have hitem := congrArg Cursor.item (Prod.mk.inj (hmark.symm.trans (hread hleft).2)).2
    obtain ⟨bytes, pos, left, item⟩ := v
    obtain rfl : Preparsed.array none = item := hitem
    obtain rfl : bytes = 0x9f :: rest := hsame.trans hrest
    obtain rfl : pos = p.pos := hpos
    exact ⟨rfl, rfl, moves_preparseNext ⟨rest, p.pos + 1, none, _⟩⟩
  leave v inner p rest pos h hleft harray hinner := by
    obtain ⟨hrest, hpos, -, -⟩ := hinner
    have hmoves := moves_preparseNext { v with rest := inner.rest, pos := inner.pos }
    rw [hrest, hpos] at hmoves
    rw [← h.2.2.1]
    show Moves _ _ (moved (preparseNext { v with rest := inner.rest, pos := inner.pos }))
    rw [hrest, hpos]
    exact hmoves
  uint v p value start rest h hleft hrest hstart := by
    obtain ⟨hitem, hhead, -⟩ := h.item hleft (by decide) hstart hrest
    have hadvance : dataParser.advance v = moved (v.skip v.headLength).preparseNext := by
      unfold Decoder.advance
      rcases hmoved : (Cursor.skip v (Cursor.headLength v)).preparseNext with ⟨_ | err, next⟩
      · rw [show dataParser.advanceFixed v = (none, next) from hmoved]
        rfl
      · rw [show dataParser.advanceFixed v = (some err, next) from hmoved]
        rfl
    refine ⟨?_, ?_, ?_⟩
    · show dataParser.isUnsignedInteger v = true
      unfold dataParser preparser
      dsimp only
      rw [hitem]
      rfl
    · show (dataParser.getUint64 v).toNat = value
      unfold dataParser preparser
      dsimp only
      rw [hitem]
      exact UInt64.toNat_ofNat_of_lt' hstart.value_lt
    · rw [hadvance, hhead]
      exact h.pass _
  text v p length start rest h hleft hrest hstart := by
    obtain ⟨hitem, hhead, hsame⟩ := h.item hleft (by decide) hstart hrest
    obtain ⟨hcut, hwhole⟩ := h.copied length hrest hhead
    obtain ⟨bytes, pos, left, item⟩ := v
    obtain rfl : item = .text length := hitem
    refine ⟨rfl, rfl, rfl, congrArg List.length h.1, hcut, fun hle => ⟨?_, hwhole hle⟩⟩
    show (List.drop (Cursor.headLength _) bytes).take length = _
    rw [hhead, show bytes = start ++ rest from hsame, List.drop_left]
  bytes v p length start rest h hleft hrest hstart := by
    obtain ⟨hitem, hhead, hsame⟩ := h.item hleft (by decide) hstart hrest
    obtain ⟨hcut, hwhole⟩ := h.copied length hrest hhead
    obtain ⟨bytes, pos, left, item⟩ := v
    obtain rfl : item = .bytes length := hitem
    refine ⟨rfl, rfl, fun hknown => ?_, fun hlast => ?_, fun size hsize => ?_⟩
    · have hpos := pos_preparseNext
        (v := Cursor.skip ⟨bytes, pos, left, .bytes length⟩ start.length)
        (by rw [← h.2.2.1] at hknown; exact hknown)
      rw [← hhead] at hpos ⊢
      exact hpos.trans (congrArg (· + _) h.2.1)
    · obtain rfl : left = some 1 := h.2.2.1.trans hlast
      rfl
    · have hcopy : dataParser.copyByteString (⟨bytes, pos, left, .bytes length⟩ : Cursor) size =
          (Cursor.copied ⟨bytes, pos, left, .bytes length⟩ length).map fun v => (length, v) :=
        if_neg (Nat.not_lt.mpr hsize)
      rw [hcopy]
      refine ⟨fun hshort => ?_, fun hle => ⟨?_, ?_, fun r hr => ?_⟩⟩
      · rw [hcut hshort]
        rfl
      · show (List.drop (Cursor.headLength _) bytes).take length = _
        rw [hhead, show bytes = start ++ rest from hsame, List.drop_left]
      · have hsame : (((Cursor.copied ⟨bytes, pos, left, .bytes length⟩ length).map
            fun v => (length, v)).map (·.2)) =
              Cursor.copied ⟨bytes, pos, left, .bytes length⟩ length := by
          cases Cursor.copied ⟨bytes, pos, left, .bytes length⟩ length <;> rfl
        have hmoves := hwhole hle
        rw [← hsame] at hmoves
        exact hmoves
      · cases hcopied : Cursor.copied ⟨bytes, pos, left, .bytes length⟩ length with
        | error err =>
          rw [hcopied] at hr
          cases hr
        | ok v =>
          rw [hcopied] at hr
          cases hr
          rfl

end Cbor
