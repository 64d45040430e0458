import Upcn.Lib.CborStream

/-!
# Reading items of a buffer that may end

`Reads At ok p bytes left r` says that `r` comes of reading these bytes at the place `p`: when they
are all there, the iterator is moved behind them, where `left` items are left, and `ok` is what is
given back with it.  Else the end of the buffer is reported.

Reading one item after the other is `Reads.bind`, and reading an array is `Reads.array`.
-/

namespace Cbor

/-- The bytes begin with a whole head. -/
def Begins (bytes : List UInt8) : Prop := ∀ more, WholeHead (bytes ++ more)

/-- These bytes of a buffer are read. -/
structure Reads {V β : Type} (At : V → Place → Prop) (ok : V → β) (p : Place) (bytes : List UInt8)
    (left : Option Nat) (r : Except CborError β) : Prop where
  short : ¬ bytes <+: p.rest → r = .error .unexpectedEOF
  moves : bytes <+: p.rest → ∃ moved,
    Moves At ⟨p.rest.drop bytes.length, p.pos + bytes.length, left⟩ moved ∧ r = moved.map ok

variable {V β γ : Type} {At : V → Place → Prop} {ok : V → β} {ok' : V → γ} {p : Place}
  {bytes more later start rest : List UInt8} {left left' : Option Nat} {r : Except CborError β}
  {f : β → Except CborError γ}

/-! ## Beginnings -/

theorem begins_of_encodes {major value : Nat} (hmajor : major ≤ 4)
    (h : EncodesHead major value start) : Begins start :=
  wholeHead_of_encodes hmajor h

theorem Begins.append (h : Begins bytes) (more : List UInt8) : Begins (bytes ++ more) := by
  intro tail
  rw [List.append_assoc]
  exact h _

theorem Begins.ne_nil (h : Begins bytes) : bytes ≠ [] := by
  have hwhole := (h []).ne_nil
  rwa [List.append_nil] at hwhole

theorem Begins.length_pos (h : Begins bytes) : 0 < bytes.length :=
  List.length_pos_iff.mpr h.ne_nil

/-- Where the head of the bytes is cut, they are not there. -/
theorem Begins.not_isPrefix (h : Begins bytes) (hcut : CutHead rest) : ¬ bytes <+: rest := by
  rintro ⟨tail, rfl⟩
  exact (h tail).not_cut hcut

theorem begins_uint {value : Nat} (h : value < 2 ^ 64) : Begins (uint value) :=
  begins_of_encodes (by decide) (encodesHead_head h)

theorem begins_array {count : Nat} (h : count < 2 ^ 64) : Begins (array count) :=
  begins_of_encodes (by decide) (encodesHead_head h)

theorem begins_textString {text : List UInt8} (h : text.length < 2 ^ 64) :
    Begins (textString text) :=
  (begins_of_encodes (by decide) (encodesHead_head h)).append text

theorem begins_byteString {data : List UInt8} (h : data.length < 2 ^ 64) :
    Begins (byteString data) :=
  (begins_of_encodes (by decide) (encodesHead_head h)).append data

/-- The bytes begin with a head of this length at most. -/
def Headed (count : Nat) (bytes : List UInt8) : Prop :=
  ∃ major value start tail, major ≤ 4 ∧ EncodesHead major value start ∧ start.length ≤ count ∧
    bytes = start ++ tail

theorem Headed.begins {count : Nat} (h : Headed count bytes) : Begins bytes := by
  obtain ⟨major, value, start, tail, hmajor, hstart, -, rfl⟩ := h
  exact (begins_of_encodes hmajor hstart).append tail

/-- So many bytes are enough for the head. -/
theorem Headed.whole {count : Nat} {input : List UInt8} (h : Headed count bytes)
    (heq : input ++ later = bytes ++ more) (hcount : count ≤ input.length) :
    WholeHead input := by
  obtain ⟨major, value, start, tail, hmajor, hstart, hlength, rfl⟩ := h
  have hfront : start <+: input := by
    apply List.prefix_of_prefix_length_le ⟨tail ++ more, _⟩ (List.prefix_append input later)
    · omega
    · rw [heq, List.append_assoc]
  obtain ⟨rest, rfl⟩ := hfront
  exact wholeHead_of_encodes hmajor hstart rest

theorem headed_head {major value count : Nat} (hmajor : major ≤ 4) (hvalue : value < 2 ^ 64)
    (hcount : headSize value ≤ count) (tail : List UInt8) :
    Headed count (head major value ++ tail) :=
  ⟨major, value, _, tail, hmajor, encodesHead_head hvalue, by rwa [length_head], rfl⟩

theorem headSize_le (value : Nat) : headSize value ≤ 9 := by
  unfold headSize
  split_ifs <;> omega

theorem headSize_of_lt {value : Nat} (h : value < 24) : headSize value = 1 := if_pos h

/-! ## One after the other -/

/-- What follows a prefix of the buffer. -/
theorem drop_append (hfront : start <+: p.rest) (heq : p.rest ++ later = start ++ more) :
    p.rest.drop start.length ++ later = more := by
  obtain ⟨tail, htail⟩ := hfront
  rw [← htail] at heq ⊢
  rw [List.append_assoc] at heq
  rw [List.drop_left]
  exact List.append_cancel_left heq

theorem append_prefix_iff (hfront : start <+: rest) :
    start ++ bytes <+: rest ↔ bytes <+: rest.drop start.length := by
  obtain ⟨tail, rfl⟩ := hfront
  rw [List.drop_left]
  exact List.prefix_append_right_inj start

/-- Bytes are read, and then others in the same container. -/
theorem Reads.bind (h : Reads At ok p start left r) (hleft : left ≠ some 0)
    (hbegins : Begins bytes) (heq : p.rest ++ later = start ++ (bytes ++ more))
    (hnext : ∀ v, At v ⟨p.rest.drop start.length, p.pos + start.length, left⟩ →
      p.rest.drop start.length ++ later = bytes ++ more →
      Reads At ok' ⟨p.rest.drop start.length, p.pos + start.length, left⟩ bytes left' (f (ok v))) :
    Reads At ok' p (start ++ bytes) left' (r >>= f) := by
  by_cases hstart : start <+: p.rest
  · obtain ⟨moved, hmoves, rfl⟩ := h.moves hstart
    have hrest := drop_append hstart heq
    have hwhole := hbegins more
    rw [← hrest] at hwhole
    rcases hwhole.front with hhead | hcut
    · obtain ⟨v, rfl, hat⟩ := hmoves.whole hleft hhead
      obtain ⟨hshort, hmoves'⟩ := hnext v hat hrest
      refine ⟨fun hnot => hshort ?_, fun hfront => ?_⟩
      · rwa [append_prefix_iff hstart] at hnot
      · obtain ⟨moved', hlast, heq'⟩ := hmoves' ((append_prefix_iff hstart).mp hfront)
        refine ⟨moved', ?_, heq'⟩
        rw [List.length_append, ← List.drop_drop, ← Nat.add_assoc]
        exact hlast
    · -- the head that follows is not there
      rw [hmoves.cut hleft hcut]
      exact ⟨fun _ => rfl, fun hfront =>
        absurd ((append_prefix_iff hstart).mp hfront) (hbegins.not_isPrefix hcut)⟩
  · rw [h.short hstart]
    refine ⟨fun _ => rfl, fun hfront => ?_⟩
    exact absurd ((List.prefix_append start bytes).trans hfront) hstart

/-- The last bytes of a container are read, and it is left. -/
theorem Reads.leave (h : Reads At ok p bytes (some 0) r)
    (hnext : ∀ v, At v ⟨p.rest.drop bytes.length, p.pos + bytes.length, some 0⟩ →
      ∃ moved, Moves At ⟨p.rest.drop bytes.length, p.pos + bytes.length, left⟩ moved ∧
        f (ok v) = moved.map ok') :
    Reads At ok' p bytes left (r >>= f) := by
  refine ⟨fun hnot => ?_, fun hfront => ?_⟩
  · rw [h.short hnot]
    rfl
  · obtain ⟨moved, hmoves, rfl⟩ := h.moves hfront
    obtain ⟨v, rfl, hat⟩ := hmoves.ended rfl
    exact hnext v hat

/-! ## Items -/

variable {cbor : DataDecoder} {At : cbor.Value → Place → Prop} {ok : cbor.Value → β}
  {v : cbor.Value}

/-- The head at a place is whole. -/
theorem DataDecoder.Follows.head (hfollows : cbor.Follows At) (hat : At v p)
    (hleft : p.left ≠ some 0) {major value : Nat} (hmajor : major ≤ 4)
    (hstart : EncodesHead major value start) (heq : p.rest ++ later = start ++ more) :
    ∃ tail, p.rest = start ++ tail ∧ tail ++ later = more :=
  front_of_encodes hmajor hstart heq (hfollows.whole v p hat hleft)

/-- A number is read. -/
theorem reads_uint (hfollows : cbor.Follows At) (hat : At v p) (hleft : p.left ≠ some 0)
    {value : Nat} (hvalue : value < 2 ^ 64) (heq : p.rest ++ later = uint value ++ more) :
    cbor.isUnsignedInteger v = true ∧ (cbor.getUint64 v).toNat = value ∧ uint value <+: p.rest ∧
      Reads At id p (uint value) (p.left.map (· - 1)) (cbor.advance v) := by
  have hstart : EncodesHead 0 value (uint value) := encodesHead_head hvalue
  obtain ⟨tail, hrest, -⟩ := hfollows.head hat hleft (by decide) hstart heq
  obtain ⟨hunsigned, hget, hmoves⟩ := hfollows.uint v p value _ tail hat hleft hrest hstart
  have hfront : uint value <+: p.rest := ⟨tail, hrest.symm⟩
  refine ⟨hunsigned, hget, hfront, fun hnot => absurd hfront hnot, fun _ => ⟨_, hmoves, ?_⟩⟩
  cases cbor.advance v <;> rfl

/-- A string is there when so many bytes are. -/
theorem string_prefix_iff {data tail : List UInt8} (hrest : p.rest = start ++ tail)
    (htail : tail ++ later = data ++ more) :
    start ++ data <+: p.rest ↔ data.length ≤ tail.length := by
  rw [hrest, List.prefix_append_right_inj]
  exact ⟨List.IsPrefix.length_le, List.prefix_of_prefix_length_le ⟨more, htail.symm⟩
    (List.prefix_append tail later)⟩

/-- A text string is read. -/
theorem reads_text (hfollows : cbor.Follows At) (hat : At v p) (hleft : p.left ≠ some 0)
    {text : List UInt8} (htext : text.length < 2 ^ 64)
    (heq : p.rest ++ later = textString text ++ more) :
    cbor.isUnsignedInteger v = false ∧ cbor.isTextString v = true ∧
      cbor.getStringLength v = .ok text.length ∧
      (cbor.remaining v < text.length → ¬ textString text <+: p.rest) ∧
      (textString text <+: p.rest → cbor.copiedText v = text) ∧
      Reads At id p (textString text) (p.left.map (· - 1)) (cbor.copyTextString v) := by
  have hstart : EncodesHead 3 text.length (head 3 text.length) := encodesHead_head htext
  have heq' : p.rest ++ later = head 3 text.length ++ (text ++ more) := by
    rw [heq, textString, List.append_assoc]
  obtain ⟨tail, hrest, htail⟩ := hfollows.head hat hleft (by decide) hstart heq'
  obtain ⟨hunsigned, hisText, hlength, hremaining, hcut, hwhole⟩ :=
    hfollows.text v p text.length _ tail hat hleft hrest hstart
  have hfront : textString text <+: p.rest ↔ text.length ≤ tail.length :=
    string_prefix_iff hrest htail
  refine ⟨hunsigned, hisText, hlength, fun hshort hthere => ?_, fun hthere => ?_,
    fun hnot => hcut ?_, fun hthere => ?_⟩
  · have hle := hfront.mp hthere
    rw [hremaining, hrest, List.length_append] at hshort
    omega
  · obtain ⟨hcopied, -⟩ := hwhole (hfront.mp hthere)
    obtain ⟨a, ha⟩ := hthere
    rw [hrest, textString, List.append_assoc] at ha
    rw [hcopied, ← List.append_cancel_left ha, List.take_left]
  · rw [hfront] at hnot
    omega
  · obtain ⟨-, hmoves⟩ := hwhole (hfront.mp hthere)
    refine ⟨_, ?_, (by cases cbor.copyTextString v <;> rfl :
      cbor.copyTextString v = (cbor.copyTextString v).map id)⟩
    rw [textString, List.length_append]
    exact hmoves

/-- A byte string is read, into a buffer of this size. -/
theorem reads_bytes (hfollows : cbor.Follows At) (hat : At v p) (hleft : p.left ≠ some 0)
    {data : List UInt8} (hdata : data.length < 2 ^ 64) {size : Nat} (hsize : data.length ≤ size)
    (heq : p.rest ++ later = byteString data ++ more) :
    cbor.isByteString v = true ∧ (byteString data <+: p.rest → cbor.copiedBytes v = data) ∧
      Reads At (fun v => (data.length, v)) p (byteString data) (p.left.map (· - 1))
        (cbor.copyByteString v size) := by
  have hstart : EncodesHead 2 data.length (head 2 data.length) := encodesHead_head hdata
  have heq' : p.rest ++ later = head 2 data.length ++ (data ++ more) := by
    rw [heq, byteString, List.append_assoc]
  obtain ⟨tail, hrest, htail⟩ := hfollows.head hat hleft (by decide) hstart heq'
  obtain ⟨hisBytes, -, -, -, hcopy⟩ :=
    hfollows.bytes v p data.length _ tail hat hleft hrest hstart
  obtain ⟨hcut, hwhole⟩ := hcopy size hsize
  have hfront : byteString data <+: p.rest ↔ data.length ≤ tail.length :=
    string_prefix_iff hrest htail
  refine ⟨hisBytes, fun hthere => ?_, fun hnot => hcut ?_, fun hthere => ?_⟩
  · obtain ⟨hcopied, -⟩ := hwhole (hfront.mp hthere)
    obtain ⟨a, ha⟩ := hthere
    rw [hrest, byteString, List.append_assoc] at ha
    rw [hcopied, ← List.append_cancel_left ha, List.take_left]
  · rw [hfront] at hnot
    omega
  · obtain ⟨-, hmoves, hcount⟩ := hwhole (hfront.mp hthere)
    refine ⟨(cbor.copyByteString v size).map (·.2), ?_, ?_⟩
    · rw [byteString, List.length_append]
      exact hmoves
    · cases hresult : cbor.copyByteString v size with
      | error err => rfl
      | ok r =>
        obtain ⟨count, next⟩ := r
        obtain rfl : count = data.length := hcount _ hresult
        rfl

/-- An array is entered. -/
theorem reads_enter (hfollows : cbor.Follows At) (hat : At v p) (hleft : p.left ≠ some 0)
    {count : Nat} (hpos : 0 < count) (hcount : count < 2 ^ 32 - 1)
    (heq : p.rest ++ later = array count ++ more) :
    cbor.isArray v = true ∧ cbor.isLengthKnown v = true ∧ cbor.getArrayLength v = .ok count ∧
      Reads At id p (array count) (some count) (cbor.enterContainer v) := by
  have hstart : EncodesHead 4 count (array count) := encodesHead_head (by omega)
  obtain ⟨tail, hrest, -⟩ := hfollows.head hat hleft (by decide) hstart heq
  obtain ⟨harray, hknown, hlength, hmoves⟩ :=
    hfollows.array v p count _ tail hat hleft hrest hstart hpos hcount
  have hfront : array count <+: p.rest := ⟨tail, hrest.symm⟩
  refine ⟨harray, hknown, hlength, fun hnot => absurd hfront hnot, fun _ =>
    ⟨_, ?_, (by cases cbor.enterContainer v <;> rfl :
      cbor.enterContainer v = (cbor.enterContainer v).map id)⟩⟩
  rw [hrest, List.drop_left]
  exact hmoves

/-! ## Moving on -/

/-- Where another item follows, the iterator stands before it, or the buffer ends. -/
theorem Moves.next {moved : Except CborError V} {At : V → Place → Prop} {pos : Nat}
    (h : Moves At ⟨rest, pos, left⟩ moved) (hwhole : WholeHead (rest ++ later)) :
    (∃ v, moved = .ok v ∧ At v ⟨rest, pos, left⟩) ∨
      (moved = .error .unexpectedEOF ∧ CutHead rest) := by
  by_cases hleft : left = some 0
  · exact .inl (h.ended hleft)
  · rcases hwhole.front with hhead | hcut
    · exact .inl (h.whole hleft hhead)
    · exact .inr ⟨h.cut hleft hcut, hcut⟩

/-- What comes of reading bytes before the head of another item. -/
theorem Reads.next (h : Reads At ok p bytes left r) (heq : p.rest ++ later = bytes ++ more)
    (hwhole : WholeHead more) :
    (bytes <+: p.rest ∧ ∃ v, r = .ok (ok v) ∧
        At v ⟨p.rest.drop bytes.length, p.pos + bytes.length, left⟩) ∨
      (r = .error .unexpectedEOF ∧
        ¬ (bytes <+: p.rest ∧ WholeHead (p.rest.drop bytes.length))) := by
  by_cases hbytes : bytes <+: p.rest
  · obtain ⟨moved, hmoves, rfl⟩ := h.moves hbytes
    rw [← drop_append hbytes heq] at hwhole
    rcases hmoves.next hwhole with ⟨v, rfl, hat⟩ | ⟨rfl, hcut⟩
    · exact .inl ⟨hbytes, v, rfl, hat⟩
    · exact .inr ⟨rfl, fun hboth => hboth.2.not_cut hcut⟩
  · exact .inr ⟨h.short hbytes, fun hboth => hbytes hboth.1⟩

end Cbor
