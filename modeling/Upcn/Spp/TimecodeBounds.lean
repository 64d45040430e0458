import Upcn.Spp.Timecode

/-!
# The bounds of the timecode parser

What the octet counts of a preamble do to `spp_tc_parser_feed`.

* `preamble` is the part of a stream that is the preamble, and `baseUnitSum` and `fractionalSum`
  are the counts that it stands for.
* `Bounded` says that the parser stays within its buffer and its fields, and ends.
* `Reading` is the invariant of the parser behind the preamble.
* `bounded_iff` says for which preambles it is bounded.
-/

namespace Upcn.Spp

/-- The octets up to the first one without the extension flag. -/
def preamble : List UInt8 → List UInt8
  | [] => []
  | byte :: rest => if (byte &&& 0x80) != 0 then byte :: preamble rest else [byte]

/-- The octets of the base unit that a preamble announces. -/
def baseUnitSum : List UInt8 → Nat
  | [] => 0
  | byte :: rest => ((byte &&& 0x0c) >>> 2).toNat + 1 +
      (rest.map fun (byte : UInt8) => ((byte &&& 0x60) >>> 5).toNat).sum

/-- The fractional octets that a preamble announces. -/
def fractionalSum : List UInt8 → Nat
  | [] => 0
  | byte :: rest => (byte &&& 0x03).toNat +
      (rest.map fun (byte : UInt8) => ((byte &&& 0x1c) >>> 2).toNat).sum

namespace TcParser

/-- The parser behind the bytes, while it asks for more. -/
def feedAll (parser : TcParser) : List UInt8 → Option TcParser
  | [] => some parser
  | byte :: rest =>
    match parser.feed byte with
    | .ok (.good, parser) => parser.feedAll rest
    | _ => none

/-- The counter that the next byte decreases is not 0. -/
def CountsDown (parser : TcParser) : Prop :=
  parser.format.type = .unsegmentedCcsdsEpoch →
    if parser.readBaseUnit then parser.fractionalRemaining ≠ 0 else parser.baseUnitRemaining ≠ 0

/-- The parser stays within its bounds on the stream. -/
structure Bounded (start : TcParser) (bytes : List UInt8) : Prop where
  inBuffer : ∀ front byte parser, front ++ [byte] <+: bytes → start.feedAll front = some parser →
    parser.feed byte ≠ .error .outOfBounds
  noWrap : ∀ front byte parser, front ++ [byte] <+: bytes → start.feedAll front = some parser →
    parser.CountsDown
  counts : ∀ front parser, front <+: preamble bytes → front ≠ [] →
    start.feedAll front = some parser →
    parser.format.baseUnitOctets.toNat = baseUnitSum front ∧
      parser.format.fractionalOctets.toNat = fractionalSum front ∧
      parser.format.fractionalOctets.toNat ≤ fractionalMaxOctets
  ends : ∀ rest, bytes = preamble bytes ++ rest →
    baseUnitSum (preamble bytes) + fractionalSum (preamble bytes) ≤ rest.length → rest ≠ [] →
    start.feedAll bytes = none

end TcParser

/-- The counts of the preamble fit: those of the base unit into eight bits, and the fractional
octets into the buffer.  A first octet of an unknown type is an error at once. -/
def CountsFit (bytes : List UInt8) : Prop :=
  match bytes with
  | [] => True
  | byte :: _ => (TcType.detect byte).isUnsegmented = true →
    baseUnitSum (preamble bytes) ≤ 255 ∧ fractionalSum (preamble bytes) ≤ fractionalMaxOctets

namespace TcParser

variable {parser parser' start : TcParser} {byte : UInt8} {b f : Nat}

theorem feedAll_append (parser : TcParser) (front rest : List UInt8) :
    parser.feedAll (front ++ rest) = (parser.feedAll front).bind fun next => next.feedAll rest := by
  induction front generalizing parser with
  | nil => rfl
  | cons byte front ih =>
    rw [List.cons_append, feedAll, feedAll]
    split
    · exact ih _
    · rfl

/-! ## Behind the preamble -/

/-- The parser waits for `b` octets of the base unit and `f` fractional octets. -/
structure Reading (parser : TcParser) (b f : Nat) : Prop where
  type : parser.format.type = .unsegmentedCcsdsEpoch
  fractional : parser.fractionalRemaining.toNat = f
  octets : parser.readBaseUnit = false ∧ 0 < b ∧ parser.baseUnitRemaining.toNat = b ∧
      parser.fractionalPtr.toNat = 0 ∧ f ≤ 6 ∨
    parser.readBaseUnit = true ∧ b = 0 ∧ 0 < f ∧ parser.fractionalPtr.toNat + f ≤ 6

theorem Reading.countsDown (h : parser.Reading b f) : parser.CountsDown := by
  intro _
  rcases h.octets with ⟨hread, hpos, hremaining, -⟩ | ⟨hread, -, hpos, -⟩
  · rw [hread]
    rintro (hzero : parser.baseUnitRemaining = 0)
    rw [hzero] at hremaining
    exact absurd hremaining (Nat.ne_of_lt hpos)
  · rw [hread]
    rintro (hzero : parser.fractionalRemaining = 0)
    have hfractional := h.fractional
    rw [hzero] at hfractional
    exact absurd hfractional (Nat.ne_of_lt hpos)

theorem advance_base (hread : parser.readBaseUnit = false)
    (hremaining : parser.baseUnitRemaining ≠ 0) :
    parser.unsegmentedAdvance = (.good, parser) := by
  have hne : (parser.baseUnitRemaining == 0) = false := beq_eq_false_iff_ne.mpr hremaining
  unfold unsegmentedAdvance
  simp only [hread, hne, Bool.not_false, Bool.and_false, Bool.false_and,
    if_neg Bool.false_ne_true]

theorem advance_fractional (hread : parser.readBaseUnit = true ∨ parser.baseUnitRemaining = 0) :
    parser.unsegmentedAdvance =
      (if parser.fractionalRemaining = 0 then .done else .good,
        { parser with readBaseUnit := true }) := by
  obtain ⟨status, format, second, detected, read, base, fractional, count, ptr, buf⟩ := parser
  unfold unsegmentedAdvance
  dsimp only at hread ⊢
  cases read with
  | true =>
    by_cases hzero : fractional = 0 <;> simp [hzero]
  | false =>
    obtain rfl : base = 0 := hread.resolve_left Bool.false_ne_true
    by_cases hzero : fractional = 0 <;> simp [hzero]

theorem toNat_sub_one {n : UInt8} {k : Nat} (h : n.toNat = k) (hpos : 0 < k) :
    (n - 1).toNat = k - 1 := by
  have hle : (1 : UInt8) ≤ n := UInt8.le_iff_toNat_le.mpr (by rw [h]; exact hpos)
  rw [UInt8.toNat_sub_of_le _ _ hle, h]
  rfl

theorem eq_zero_iff {n : UInt8} {k : Nat} (h : n.toNat = k) : n = 0 ↔ k = 0 := by
  rw [← h]
  exact UInt8.toNat_inj.symm

/-- The parser behind an octet of the base unit. -/
def takeBase (parser : TcParser) (byte : UInt8) : TcParser :=
  { parser with
    baseUnitRemaining := parser.baseUnitRemaining - 1
    baseUnitCount := (parser.baseUnitCount <<< 8) ||| byte.toUInt64 }

/-- The parser behind a fractional octet. -/
def takeFractional (parser : TcParser) (byte : UInt8) : TcParser :=
  { parser with
    fractionalPtr := parser.fractionalPtr + 1
    fractionalBuf := parser.fractionalBuf.set parser.fractionalPtr.toNat byte
    fractionalRemaining := parser.fractionalRemaining - 1 }

theorem feed_base (htype : parser.format.type = .unsegmentedCcsdsEpoch)
    (hread : parser.readBaseUnit = false) (byte : UInt8) :
    parser.feed byte = .ok ((parser.takeBase byte).unsegmentedAdvance.1,
      { (parser.takeBase byte).unsegmentedAdvance.2 with
        status := (parser.takeBase byte).unsegmentedAdvance.1 }) := by
  have hnot : (!parser.readBaseUnit) = true := by rw [hread]; rfl
  unfold feed feedType
  rw [htype]
  dsimp only
  rw [if_pos hnot]
  rfl

theorem feed_fractional (htype : parser.format.type = .unsegmentedCcsdsEpoch)
    (hread : parser.readBaseUnit = true) (hptr : parser.fractionalPtr.toNat < fractionalMaxOctets)
    (byte : UInt8) :
    parser.feed byte = .ok ((parser.takeFractional byte).unsegmentedAdvance.1,
      { (parser.takeFractional byte).unsegmentedAdvance.2 with
        status := (parser.takeFractional byte).unsegmentedAdvance.1 }) := by
  have hnot : ¬(!parser.readBaseUnit) = true := by rw [hread]; decide
  unfold feed feedType
  rw [htype]
  dsimp only
  rw [if_neg hnot, if_pos hptr]
  rfl

/-- The next octet is read, and it is the last one or one less is missing. -/
theorem Reading.feed (h : parser.Reading b f) (byte : UInt8) :
    (b + f = 1 ∧ ∃ parser', parser.feed byte = .ok (.done, parser')) ∨
      ∃ parser' b' f', parser.feed byte = .ok (.good, parser') ∧ parser'.Reading b' f' ∧
        b' + f' + 1 = b + f := by
  have hfractional := h.fractional
  rcases h.octets with ⟨hread, hpos, hremaining, hptr, hf⟩ | ⟨hread, rfl, hpos, hptr⟩
  · have hless : (parser.takeBase byte).baseUnitRemaining.toNat = b - 1 :=
      toNat_sub_one hremaining hpos
    rw [feed_base h.type hread]
    by_cases hmore : b = 1
    · have hzero : (parser.takeBase byte).baseUnitRemaining = 0 :=
        (eq_zero_iff hless).mpr (by omega)
      have hsame : (parser.takeBase byte).fractionalRemaining.toNat = f := hfractional
      rw [advance_fractional (.inr hzero)]
      by_cases hdone : f = 0
      · rw [if_pos ((eq_zero_iff hsame).mpr hdone)]
        exact .inl ⟨by omega, _, rfl⟩
      · rw [if_neg fun hzero => hdone ((eq_zero_iff hsame).mp hzero)]
        exact .inr ⟨_, 0, f, rfl, ⟨h.type, hfractional, .inr ⟨rfl, rfl, Nat.pos_of_ne_zero hdone,
          show parser.fractionalPtr.toNat + f ≤ 6 by omega⟩⟩, by omega⟩
    · have hne : (parser.takeBase byte).baseUnitRemaining ≠ 0 := fun hzero =>
        absurd ((eq_zero_iff hless).mp hzero) (by omega)
      have hsame : (parser.takeBase byte).readBaseUnit = false := hread
      rw [advance_base hsame hne]
      exact .inr ⟨_, b - 1, f, rfl, ⟨h.type, hfractional, .inl ⟨hread, by omega, hless, hptr, hf⟩⟩,
        by omega⟩
  · have hless : (parser.takeFractional byte).fractionalRemaining.toNat = f - 1 :=
      toNat_sub_one hfractional hpos
    have hsame : (parser.takeFractional byte).readBaseUnit = true := hread
    rw [feed_fractional h.type hread (show _ < 6 by omega), advance_fractional (.inl hsame)]
    by_cases hdone : f = 1
    · rw [if_pos ((eq_zero_iff hless).mpr (by omega))]
      exact .inl ⟨by omega, _, rfl⟩
    · rw [if_neg fun hzero => absurd ((eq_zero_iff hless).mp hzero) (by omega)]
      have hnext : (parser.fractionalPtr + 1).toNat = parser.fractionalPtr.toNat + 1 := by
        rw [UInt8.toNat_add]
        exact Nat.mod_eq_of_lt (show parser.fractionalPtr.toNat + 1 < 256 by omega)
      exact .inr ⟨_, 0, f - 1, rfl, ⟨h.type, hless, .inr ⟨rfl, rfl, by omega,
        show (parser.fractionalPtr + 1).toNat + (f - 1) ≤ 6 by omega⟩⟩, by omega⟩

/-- While it asks for more, the parser waits for the octets that are missing. -/
theorem Reading.feedAll (h : parser.Reading b f) (front : List UInt8) :
    match parser.feedAll front with
    | some parser' => ∃ b' f', parser'.Reading b' f' ∧ b' + f' + front.length = b + f
    | none => b + f ≤ front.length := by
  induction front generalizing parser b f with
  | nil => exact ⟨b, f, h, rfl⟩
  | cons byte front ih =>
    rw [TcParser.feedAll]
    rcases h.feed byte with ⟨hlast, parser', hfeed⟩ | ⟨parser', b', f', hfeed, hnext, hless⟩
    · rw [hfeed]
      simp only [List.length_cons]
      omega
    · rw [hfeed]
      have hrest := ih hnext
      dsimp only
      cases hall : parser'.feedAll front with
      | none =>
        rw [hall] at hrest
        simp only [List.length_cons]
        dsimp only at hrest
        omega
      | some parser'' =>
        rw [hall] at hrest
        obtain ⟨b'', f'', hreading, hlength⟩ := hrest
        exact ⟨b'', f'', hreading, by rw [List.length_cons]; omega⟩

/-- Something is missing. -/
theorem Reading.pos (h : parser.Reading b f) : 0 < b + f := by
  rcases h.octets with ⟨-, hpos, -⟩ | ⟨-, -, hpos, -⟩ <;> omega

theorem Reading.feed_ne (h : parser.Reading b f) (byte : UInt8) :
    parser.feed byte ≠ .error .outOfBounds := by
  rcases h.feed byte with ⟨-, parser', hfeed⟩ | ⟨parser', b', f', hfeed, -⟩ <;>
    · rw [hfeed]
      exact fun h => nomatch h

/-! ## The preamble -/

/-- The parser has read the octets `front` of a preamble, which goes on. -/
structure InPreamble (parser : TcParser) (front : List UInt8) : Prop where
  type : parser.format.type = .unknown
  started : parser.hasSecondOctet = !front.isEmpty
  unsegmented : front ≠ [] → parser.detectedType.isUnsegmented = true
  base : front ≠ [] → parser.format.baseUnitOctets = UInt8.ofNat (baseUnitSum front)
  fractional : front ≠ [] → parser.format.fractionalOctets = UInt8.ofNat (fractionalSum front)

theorem baseUnitSum_append {front : List UInt8} (hne : front ≠ []) (byte : UInt8) :
    baseUnitSum (front ++ [byte]) = baseUnitSum front + ((byte &&& 0x60) >>> 5).toNat := by
  cases front with
  | nil => exact absurd rfl hne
  | cons first rest =>
    simp only [List.cons_append, baseUnitSum, List.map_append, List.map_cons, List.map_nil,
      List.sum_append, List.sum_cons, List.sum_nil]
    omega

theorem fractionalSum_append {front : List UInt8} (hne : front ≠ []) (byte : UInt8) :
    fractionalSum (front ++ [byte]) = fractionalSum front + ((byte &&& 0x1c) >>> 2).toNat := by
  cases front with
  | nil => exact absurd rfl hne
  | cons first rest =>
    simp only [List.cons_append, fractionalSum, List.map_append, List.map_cons, List.map_nil,
      List.sum_append, List.sum_cons, List.sum_nil]
    omega

/-- The parser behind the last octet of a preamble. -/
structure BehindPreamble (parser : TcParser) (front : List UInt8) : Prop where
  unsegmented : parser.format.type.isUnsegmented = true
  base : parser.format.baseUnitOctets = UInt8.ofNat (baseUnitSum front)
  fractional : parser.format.fractionalOctets = UInt8.ofNat (fractionalSum front)
  read : parser.readBaseUnit = false
  baseRemaining : parser.baseUnitRemaining = parser.format.baseUnitOctets
  fractionalRemaining : parser.fractionalRemaining = parser.format.fractionalOctets
  ptr : parser.fractionalPtr = 0
  count : parser.baseUnitCount = 0

theorem ofNat_add_toNat (n : Nat) (x : UInt8) : UInt8.ofNat n + x = UInt8.ofNat (n + x.toNat) := by
  rw [UInt8.ofNat_add, UInt8.ofNat_toNat]

/-- The first octet of a preamble, or a later one. -/
theorem InPreamble.parse {front : List UInt8} (h : parser.InPreamble front) (byte : UInt8)
    (hfirst : front = [] → (TcType.detect byte).isUnsegmented = true) :
    ∃ parser', (if !parser.hasSecondOctet then parser.pfieldParseFirst byte
        else parser.pfieldParseSecond byte) = (.good, parser') ∧
      parser'.format.type = .unknown ∧ parser'.hasSecondOctet = ((byte &&& 0x80) != 0) ∧
      parser'.detectedType.isUnsegmented = true ∧
      parser'.format.baseUnitOctets = UInt8.ofNat (baseUnitSum (front ++ [byte])) ∧
      parser'.format.fractionalOctets = UInt8.ofNat (fractionalSum (front ++ [byte])) := by
  have hstarted := h.started
  cases front with
  | nil =>
    have hdetect := hfirst rfl
    rw [List.isEmpty_nil] at hstarted
    rw [hstarted, if_pos (by decide)]
    unfold pfieldParseFirst
    dsimp only
    rw [if_pos hdetect]
    refine ⟨_, rfl, h.type, rfl, hdetect, ?_, ?_⟩
    · show _ = UInt8.ofNat (((byte &&& 0x0c) >>> 2).toNat + 1)
      rw [UInt8.ofNat_add, UInt8.ofNat_toNat]
      rfl
    · exact (UInt8.ofNat_toNat).symm
  | cons first rest =>
    have hne : first :: rest ≠ [] := List.cons_ne_nil _ _
    have hdetect := h.unsegmented hne
    rw [List.isEmpty_cons] at hstarted
    rw [hstarted, if_neg (by decide)]
    unfold pfieldParseSecond
    dsimp only
    rw [if_pos hdetect]
    refine ⟨_, rfl, h.type, rfl, hdetect, ?_, ?_⟩
    · rw [baseUnitSum_append hne, ← ofNat_add_toNat, ← h.base hne]
    · rw [fractionalSum_append hne, ← ofNat_add_toNat, ← h.fractional hne]

/-- An octet of a preamble. -/
theorem InPreamble.feed {front : List UInt8} (h : parser.InPreamble front) (byte : UInt8)
    (hfirst : front = [] → (TcType.detect byte).isUnsegmented = true) :
    ∃ parser', parser.feed byte = .ok (.good, parser') ∧
      if (byte &&& 0x80) != 0 then parser'.InPreamble (front ++ [byte])
      else parser'.BehindPreamble (front ++ [byte]) := by
  obtain ⟨next, hparse, htype, hsecond, hdetect, hbase, hfractional⟩ := h.parse byte hfirst
  have hfeed : parser.feed byte = .ok ((parser.pfieldFeed byte).1,
      { (parser.pfieldFeed byte).2 with status := (parser.pfieldFeed byte).1 }) := by
    unfold TcParser.feed feedType
    rw [h.type]
    rfl
  have hpfield : parser.pfieldFeed byte = if !next.hasSecondOctet then
      (.good, { next with format :=
        { next.format with type := next.detectedType } }.startFromConfig)
      else (.good, next) := by
    unfold pfieldFeed
    rw [hparse]
    rfl
  have hnonempty : (front ++ [byte]).isEmpty = false := by simp
  rw [hfeed, hpfield, hsecond]
  cases hmore : ((byte &&& 0x80) != 0) with
  | true =>
    exact ⟨_, rfl, htype, by rw [hnonempty]; exact hsecond.trans hmore, fun _ => hdetect,
      fun _ => hbase, fun _ => hfractional⟩
  | false => exact ⟨_, rfl, hdetect, hbase, hfractional, rfl, rfl, rfl, rfl, rfl⟩

theorem inPreamble_init (parser : TcParser) {ctx : TcContext} (hctx : ctx.withPField = true) :
    (parser.init ctx).InPreamble [] := by
  rw [init, if_pos hctx]
  exact ⟨rfl, rfl, fun h => absurd rfl h, fun h => absurd rfl h, fun h => absurd rfl h⟩

/-- A first octet of an unknown type. -/
theorem InPreamble.feed_error (h : parser.InPreamble []) (byte : UInt8)
    (htype : (TcType.detect byte).isUnsegmented = false) :
    ∃ parser', parser.feed byte = .ok (.error, parser') := by
  have hstarted : parser.hasSecondOctet = false := h.started
  have hfirst : (parser.pfieldParseFirst byte).1 = .error := by
    unfold pfieldParseFirst
    dsimp only
    rw [if_neg (by rw [htype]; exact Bool.false_ne_true)]
  have hpfield : parser.pfieldFeed byte = parser.pfieldParseFirst byte := by
    unfold pfieldFeed
    rw [hstarted, Bool.not_false, if_pos rfl]
    dsimp only
    rw [if_pos (by rw [hfirst]; decide)]
  refine ⟨{ (parser.pfieldParseFirst byte).2 with status := .error }, ?_⟩
  unfold TcParser.feed feedType
  rw [h.type]
  show Except.ok ((parser.pfieldFeed byte).1, { (parser.pfieldFeed byte).2 with
    status := (parser.pfieldFeed byte).1 }) = _
  rw [hpfield, hfirst]

/-- The first octet, if it is still to come, is one of a type with a preamble. -/
def Known (front bytes : List UInt8) : Prop :=
  front = [] → ∀ byte rest, bytes = byte :: rest → (TcType.detect byte).isUnsegmented = true

theorem Known.behind {front : List UInt8} (byte : UInt8) (rest : List UInt8) :
    Known (front ++ [byte]) rest :=
  fun hnil => absurd hnil (by simp)

/-- The counts are those of the octets so far. -/
theorem InPreamble.counts {front bytes : List UInt8} (h : parser.InPreamble front)
    (hknown : Known front bytes) {part : List UInt8} (hpart : part <+: preamble bytes)
    (hne : front ++ part ≠ []) :
    ∃ parser', parser.feedAll part = some parser' ∧
      parser'.format.baseUnitOctets = UInt8.ofNat (baseUnitSum (front ++ part)) ∧
      parser'.format.fractionalOctets = UInt8.ofNat (fractionalSum (front ++ part)) := by
  induction bytes generalizing parser front part with
  | nil =>
    obtain rfl := List.prefix_nil.mp hpart
    rw [List.append_nil] at hne ⊢
    exact ⟨parser, rfl, h.base hne, h.fractional hne⟩
  | cons byte rest ih =>
    cases part with
    | nil =>
      rw [List.append_nil] at hne ⊢
      exact ⟨parser, rfl, h.base hne, h.fractional hne⟩
    | cons first part =>
      obtain ⟨parser', hfeed, hnext⟩ := h.feed byte fun hnil => hknown hnil byte rest rfl
      rw [preamble] at hpart
      cases hmore : ((byte &&& 0x80) != 0) with
      | true =>
        rw [hmore, if_pos rfl] at hpart hnext
        obtain ⟨rfl, hpart'⟩ := List.cons_prefix_cons.mp hpart
        rw [feedAll, hfeed]
        have hlater := ih hnext (.behind first rest) hpart' (by simp)
        rwa [List.append_assoc] at hlater
      | false =>
        rw [hmore, if_neg Bool.false_ne_true] at hpart hnext
        obtain ⟨rfl, hpart'⟩ := List.cons_prefix_cons.mp hpart
        obtain rfl := List.prefix_nil.mp hpart'
        rw [feedAll, hfeed]
        exact ⟨parser', rfl, hnext.base, hnext.fractional⟩

/-- The end of the preamble is reached. -/
theorem InPreamble.behind {front bytes rest : List UInt8} (h : parser.InPreamble front)
    (hknown : Known front bytes) (hbytes : bytes = preamble bytes ++ rest) (hrest : rest ≠ []) :
    ∃ parser', parser.feedAll (preamble bytes) = some parser' ∧
      parser'.BehindPreamble (front ++ preamble bytes) := by
  induction bytes generalizing parser front with
  | nil => exact absurd (List.nil_eq_append_iff.mp hbytes).2 hrest
  | cons byte later ih =>
    obtain ⟨parser', hfeed, hnext⟩ := h.feed byte fun hnil => hknown hnil byte later rfl
    rw [preamble] at hbytes ⊢
    cases hmore : ((byte &&& 0x80) != 0) with
    | true =>
      rw [hmore, if_pos rfl] at hbytes hnext
      rw [if_pos rfl, feedAll, hfeed]
      have hlater := ih hnext (.behind byte later) (List.cons.inj hbytes).2
      rwa [List.append_assoc] at hlater
    | false =>
      rw [hmore, if_neg Bool.false_ne_true] at hnext
      rw [if_neg Bool.false_ne_true, feedAll, hfeed]
      exact ⟨parser', rfl, hnext⟩

/-- The octets that the preamble has announced are waited for. -/
theorem BehindPreamble.reading {front : List UInt8} (h : parser.BehindPreamble front)
    (hne : front ≠ []) (hbase : baseUnitSum front ≤ 255)
    (hfractional : fractionalSum front ≤ fractionalMaxOctets) :
    parser.format.type = .unsegmentedCustomEpoch ∨
      parser.Reading (baseUnitSum front) (fractionalSum front) := by
  have hlt : fractionalSum front ≤ 6 := hfractional
  have hpos : 0 < baseUnitSum front := by
    cases front with
    | nil => exact absurd rfl hne
    | cons first rest =>
      rw [baseUnitSum]
      omega
  have hbaseNat : (UInt8.ofNat (baseUnitSum front)).toNat = baseUnitSum front :=
    UInt8.toNat_ofNat_of_lt' (show baseUnitSum front < 256 by omega)
  have hfractionalNat : (UInt8.ofNat (fractionalSum front)).toNat = fractionalSum front :=
    UInt8.toNat_ofNat_of_lt' (show fractionalSum front < 256 by omega)
  have hunsegmented := h.unsegmented
  cases htype : parser.format.type with
  | unsegmentedCustomEpoch => exact .inl rfl
  | unsegmentedCcsdsEpoch =>
    refine .inr ⟨htype, ?_, .inl ⟨h.read, hpos, ?_, ?_, hlt⟩⟩
    · rw [h.fractionalRemaining, h.fractional, hfractionalNat]
    · rw [h.baseRemaining, h.base, hbaseNat]
    · rw [h.ptr]
      rfl
  | _ =>
    rw [htype] at hunsegmented
    exact absurd hunsegmented Bool.false_ne_true

/-! ## A stream -/

/-- A parser that stays within its bounds with the next octet. -/
def Safe (parser : TcParser) : Prop :=
  parser.format.type = .unknown ∨ parser.format.type = .unsegmentedCustomEpoch ∨
    ∃ b f, parser.Reading b f

theorem Safe.feed_ne (h : parser.Safe) (byte : UInt8) :
    parser.feed byte ≠ .error .outOfBounds := by
  rcases h with htype | htype | ⟨b, f, hreading⟩
  · unfold feed feedType
    rw [htype]
    exact fun h => nomatch h
  · unfold feed feedType
    rw [htype]
    exact fun h => nomatch h
  · exact hreading.feed_ne byte

theorem Safe.countsDown (h : parser.Safe) : parser.CountsDown := by
  rcases h with htype | htype | ⟨b, f, hreading⟩
  · exact fun h => absurd (htype.symm.trans h) (by decide)
  · exact fun h => absurd (htype.symm.trans h) (by decide)
  · exact hreading.countsDown

theorem feed_custom (htype : parser.format.type = .unsegmentedCustomEpoch) (byte : UInt8) :
    ∃ parser', parser.feed byte = .ok (.error, parser') := by
  unfold feed feedType
  rw [htype]
  exact ⟨_, rfl⟩

theorem feedAll_eq_none {byte : UInt8} (h : ∃ parser', parser.feed byte = .ok (.error, parser'))
    (rest : List UInt8) : parser.feedAll (byte :: rest) = none := by
  obtain ⟨parser', hfeed⟩ := h
  rw [feedAll, hfeed]

/-- A parser that is safe stays so behind the preamble. -/
theorem safe_feedAll {part : List UInt8}
    (h : parser.format.type = .unsegmentedCustomEpoch ∨ ∃ b f, parser.Reading b f)
    (hpart : parser.feedAll part = some parser') : parser'.Safe := by
  rcases h with htype | ⟨b, f, hreading⟩
  · cases part with
    | nil =>
      obtain rfl := Option.some.inj hpart
      exact .inr (.inl htype)
    | cons byte part =>
      rw [feedAll_eq_none (feed_custom htype byte)] at hpart
      exact nomatch hpart
  · have hall := hreading.feedAll part
    rw [hpart] at hall
    obtain ⟨b', f', hreading', -⟩ := hall
    exact .inr (.inr ⟨b', f', hreading'⟩)

theorem InPreamble.safe {front bytes : List UInt8} (h : parser.InPreamble front)
    (hknown : Known front bytes)
    (hbase : baseUnitSum (front ++ preamble bytes) ≤ 255)
    (hfractional : fractionalSum (front ++ preamble bytes) ≤ fractionalMaxOctets)
    {part : List UInt8} (hpart : part <+: bytes) (hall : parser.feedAll part = some parser') :
    parser'.Safe := by
  induction bytes generalizing parser front part with
  | nil =>
    obtain rfl := List.prefix_nil.mp hpart
    obtain rfl := Option.some.inj hall
    exact .inl h.type
  | cons byte rest ih =>
    cases part with
    | nil =>
      obtain rfl := Option.some.inj hall
      exact .inl h.type
    | cons first part =>
      obtain ⟨next, hfeed, hnext⟩ := h.feed byte fun hnil => hknown hnil byte rest rfl
      obtain ⟨rfl, hpart'⟩ := List.cons_prefix_cons.mp hpart
      rw [feedAll, hfeed] at hall
      rw [preamble] at hbase hfractional
      cases hmore : ((first &&& 0x80) != 0) with
      | true =>
        rw [hmore, if_pos rfl] at hbase hfractional hnext
        rw [← List.singleton_append, ← List.append_assoc] at hbase hfractional
        exact ih hnext (.behind first rest) hbase hfractional hpart' hall
      | false =>
        rw [hmore, if_neg Bool.false_ne_true] at hbase hfractional hnext
        refine safe_feedAll ?_ hall
        exact (hnext.reading (by simp) hbase hfractional).imp id fun hreading =>
          ⟨_, _, hreading⟩

theorem baseUnitSum_prefix {part bytes : List UInt8} (h : part <+: bytes) :
    baseUnitSum part ≤ baseUnitSum bytes := by
  obtain ⟨rest, rfl⟩ := h
  cases part with
  | nil => exact Nat.zero_le _
  | cons first part =>
    rw [List.cons_append, baseUnitSum, baseUnitSum, List.map_append, List.sum_append]
    omega

theorem fractionalSum_prefix {part bytes : List UInt8} (h : part <+: bytes) :
    fractionalSum part ≤ fractionalSum bytes := by
  obtain ⟨rest, rfl⟩ := h
  cases part with
  | nil => exact Nat.zero_le _
  | cons first part =>
    rw [List.cons_append, fractionalSum, fractionalSum, List.map_append, List.sum_append]
    omega

theorem preamble_ne_nil (byte : UInt8) (rest : List UInt8) : preamble (byte :: rest) ≠ [] := by
  rw [preamble]
  split <;> exact List.cons_ne_nil _ _

/-- With a first octet of an unknown type the parser ends at once. -/
theorem InPreamble.bounded_unknown (h : start.InPreamble []) {byte : UInt8} {rest : List UInt8}
    (htype : (TcType.detect byte).isUnsegmented = false) : start.Bounded (byte :: rest) := by
  have hnone : ∀ part : List UInt8, part <+: byte :: rest → part ≠ [] →
      start.feedAll part = none := by
    intro part hpart hne
    cases part with
    | nil => exact absurd rfl hne
    | cons first part =>
      obtain ⟨rfl, -⟩ := List.cons_prefix_cons.mp hpart
      exact feedAll_eq_none (h.feed_error first htype) part
  have hsafe : ∀ part next parser, part ++ [next] <+: byte :: rest →
      start.feedAll part = some parser → parser.Safe := by
    intro part next parser hpart hall
    cases part with
    | nil =>
      obtain rfl := Option.some.inj hall
      exact .inl h.type
    | cons first part =>
      rw [hnone _ ((List.prefix_append _ _).trans hpart) (List.cons_ne_nil _ _)] at hall
      exact nomatch hall
  refine ⟨fun part next parser hpart hall => (hsafe part next parser hpart hall).feed_ne next,
    fun part next parser hpart hall => (hsafe part next parser hpart hall).countsDown,
    fun part parser hpart hne hall => ?_,
    fun _ _ _ _ => hnone _ (List.prefix_refl _) (List.cons_ne_nil _ _)⟩
  cases part with
  | nil => exact absurd rfl hne
  | cons first part =>
    obtain ⟨tail, htail⟩ := hpart
    have hsame : first = byte := by
      rw [preamble] at htail
      split at htail <;> exact (List.cons.inj htail).1
    rw [hsame, feedAll_eq_none (h.feed_error byte htype)] at hall
    exact nomatch hall

/-- With counts that fit the parser stays within its bounds. -/
theorem InPreamble.bounded (h : start.InPreamble []) {byte : UInt8} {rest : List UInt8}
    (htype : (TcType.detect byte).isUnsegmented = true)
    (hbase : baseUnitSum (preamble (byte :: rest)) ≤ 255)
    (hfractional : fractionalSum (preamble (byte :: rest)) ≤ fractionalMaxOctets) :
    start.Bounded (byte :: rest) := by
  have hknown : Known [] (byte :: rest) := by
    rintro - first later heq
    rwa [← (List.cons.inj heq).1]
  have hsafe : ∀ part next parser, part ++ [next] <+: byte :: rest →
      start.feedAll part = some parser → parser.Safe := fun part next parser hpart hall =>
    h.safe hknown hbase hfractional ((List.prefix_append _ _).trans hpart) hall
  refine ⟨fun part next parser hpart hall => (hsafe part next parser hpart hall).feed_ne next,
    fun part next parser hpart hall => (hsafe part next parser hpart hall).countsDown,
    fun part parser hpart hne hall => ?_, fun later hbytes hlength hlater => ?_⟩
  · obtain ⟨parser', hall', hbase', hfractional'⟩ := h.counts hknown hpart hne
    obtain rfl := Option.some.inj (hall.symm.trans hall')
    have hless := baseUnitSum_prefix hpart
    have hless' := fractionalSum_prefix hpart
    have hmax : fractionalSum part ≤ fractionalMaxOctets := Nat.le_trans hless' hfractional
    rw [hbase', hfractional', List.nil_append,
      UInt8.toNat_ofNat_of_lt' (show baseUnitSum part < 256 by omega),
      UInt8.toNat_ofNat_of_lt' (show fractionalSum part < 256 by
        rw [fractionalMaxOctets] at hmax
        omega)]
    exact ⟨rfl, rfl, hmax⟩
  · obtain ⟨parser', hall, hbehind⟩ := h.behind hknown hbytes hlater
    rw [hbytes, feedAll_append, hall, Option.bind_some]
    rcases hbehind.reading (preamble_ne_nil byte rest) hbase hfractional with hcustom | hreading
    · cases later with
      | nil => exact absurd rfl hlater
      | cons next later => exact feedAll_eq_none (feed_custom hcustom next) later
    · have hdone := hreading.feedAll later
      rw [List.nil_append] at hdone
      cases hend : parser'.feedAll later with
      | none => rfl
      | some parser'' =>
        rw [hend] at hdone
        obtain ⟨b', f', hreading', hsum⟩ := hdone
        have hpos := hreading'.pos
        omega

/-- For every stream the parser with a P-field stays within its bounds just when the counts of
the preamble fit. -/
theorem bounded_iff (parser : TcParser) {ctx : TcContext} (hctx : ctx.withPField = true)
    (bytes : List UInt8) : (parser.init ctx).Bounded bytes ↔ CountsFit bytes := by
  have h := inPreamble_init parser hctx
  cases bytes with
  | nil =>
    refine iff_of_true ⟨fun part byte parser hpart => ?_, fun part byte parser hpart => ?_,
      fun part parser hpart hne => absurd (List.prefix_nil.mp hpart) hne,
      fun rest hrest _ hne => absurd (List.nil_eq_append_iff.mp hrest).2 hne⟩ trivial
    all_goals exact absurd (List.prefix_nil.mp hpart) (by simp)
  | cons byte rest =>
    constructor
    · intro hbounded htype
      have hknown : Known [] (byte :: rest) := by
        rintro - first later heq
        rwa [← (List.cons.inj heq).1]
      have hne := preamble_ne_nil byte rest
      obtain ⟨parser', hall, -⟩ := h.counts hknown (List.prefix_refl _) hne
      obtain ⟨hbase, hfractional, hmax⟩ :=
        hbounded.counts _ parser' (List.prefix_refl _) hne hall
      rw [← hbase, ← hfractional]
      exact ⟨Nat.le_of_lt_succ parser'.format.baseUnitOctets.toNat_lt, hmax⟩
    · intro hfit
      cases htype : (TcType.detect byte).isUnsegmented with
      | false => exact h.bounded_unknown htype
      | true => exact h.bounded htype (hfit htype).1 (hfit htype).2

/-- A parser that was never used. -/
def blank : TcParser where
  status := .good
  format := ⟨.unknown, 0, 0⟩
  hasSecondOctet := false
  detectedType := .reserved
  readBaseUnit := false
  baseUnitRemaining := 0
  fractionalRemaining := 0
  baseUnitCount := 0
  fractionalPtr := 0
  fractionalBuf := List.replicate 6 0

/-- A timecode of four octets and a fractional one. -/
theorem bounded_iff_short :
    (blank.init ⟨true, ⟨.unsegmentedCcsdsEpoch, 4, 1⟩⟩).Bounded [0x1d, 1, 2, 3, 4, 5] ↔
      CountsFit [0x1d, 1, 2, 3, 4, 5] :=
  bounded_iff blank rfl [0x1d, 1, 2, 3, 4, 5]

/-- A preamble of two octets that announces ten fractional ones. -/
theorem not_bounded_fractional :
    ¬(blank.init ⟨true, ⟨.unsegmentedCcsdsEpoch, 4, 0⟩⟩).Bounded
      ([0x9f, 0x1c] ++ List.replicate 11 0) := by
  intro h
  exact h.inBuffer ([0x9f, 0x1c] ++ List.replicate 10 0) 0 _ ⟨[], rfl⟩ rfl rfl

end TcParser

end Upcn.Spp
