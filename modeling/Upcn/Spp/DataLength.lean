import Mathlib.Data.List.Infix
import Mathlib.Data.Nat.Bitwise
import Upcn.Spp.Packet
import Upcn.Spp.TimecodeBounds

/-!
# The data length of a space packet

What is left of the length in the primary header when `spp_parse_byte` reaches the data.

* `LengthRight` says that the length and the octets of the secondary header add up, and that no
  subtraction wraps.
* `LengthSuffices` is the condition on the stream under which they do.
* `step_timecode` is what a byte does in the timecode, and `run_timecode` what all of them do.
-/

namespace Upcn.Spp

/-- The bytes of the stream that the timecode parser is fed. -/
def TcParser.taken (parser : TcParser) : List UInt8 → Nat
  | [] => 0
  | byte :: rest =>
    match parser.feed byte with
    | .ok (.good, parser) => parser.taken rest + 1
    | .ok (.error, parser) => parser.taken rest + 1
    | _ => 1

/-- The packet data length that the primary header states. -/
def statedLength : List UInt8 → Nat
  | _ :: _ :: _ :: _ :: msb :: lsb :: _ => msb.toNat * 256 + lsb.toNat + 1
  | _ => 0

/-- The secondary header flag of the primary header. -/
def secondaryFlag : List UInt8 → Bool
  | byte :: _ => (byte &&& 0x08) != 0
  | [] => false

namespace SppParser

/-- The parser behind the bytes.  There is none behind a fault. -/
def run (ctx : SppContext) (parser : SppParser) : List UInt8 → Option SppParser
  | [] => some parser
  | byte :: rest =>
    match parser.parseByte ctx byte with
    | .ok (_, parser) => parser.run ctx rest
    | .error _ => none

/-- What the parser subtracts with this byte does not exceed the length. -/
def SubtractsWithin (ctx : SppContext) (parser : SppParser) (byte : UInt8) : Prop :=
  match parser.state with
  | .phLenLsb => ctx.ancillaryDataLen ≤ (parser.bufw ||| byte.toUInt16).toUInt64 + 1
  | .shTimecodeSubparser => 1 ≤ parser.dataLength
  | _ => True

/-- The length in the data state is the stated one less the octets of the secondary header, no
subtraction wraps, and a packet that is too short for them is an error. -/
structure LengthRight (ctx : SppContext) (start : SppParser) (bytes : List UInt8) : Prop where
  noWrap : ∀ front byte parser, front ++ [byte] <+: bytes → start.run ctx front = some parser →
    parser.SubtractsWithin ctx byte
  data : ∀ front parser, front <+: bytes → start.run ctx front = some parser →
    parser.state = .dataSubparser →
    parser.dataLength.toNat + (front.length - 6) = statedLength bytes
  short : ∀ front parser, front <+: bytes → start.run ctx front = some parser →
    6 ≤ front.length → secondaryFlag bytes = true →
    statedLength bytes < ctx.ancillaryDataLen.toNat + (front.length - 6) →
    parser.status = .error ∧ parser.state ≠ .dataSubparser

/-- The stated length is enough for what is taken off it, and without a secondary header there
are no ancillary data in the context. -/
structure LengthSuffices (ctx : SppContext) (start : SppParser) (bytes : List UInt8) : Prop where
  ancillary : ctx.ancillaryDataLen.toNat ≤ statedLength bytes
  noHeader : secondaryFlag bytes = false → ctx.ancillaryDataLen = 0
  timecode : secondaryFlag bytes = true → ∀ timecode, ctx.timecode = some timecode →
    ctx.ancillaryDataLen.toNat + (start.tcParser.init timecode).taken (bytes.drop 6) ≤
      statedLength bytes

variable {ctx : SppContext} {parser parser' start : SppParser} {byte : UInt8}

theorem run_append (parser : SppParser) (front rest : List UInt8) :
    parser.run ctx (front ++ rest) =
      (parser.run ctx front).bind fun next => next.run ctx rest := by
  induction front generalizing parser with
  | nil => rfl
  | cons byte front ih =>
    rw [List.cons_append, run, run]
    split
    · exact ih _
    · rfl

/-! ## The primary header -/

/-- The parser behind five bytes. -/
def behindFive (start : SppParser) (b₀ b₁ b₂ b₃ b₄ : UInt8) : SppParser :=
  let parser := start.parsePhP1 ((b₀.toUInt16 <<< 8) ||| b₁.toUInt16)
  let parser := parser.parsePhP2 ((b₂.toUInt16 <<< 8) ||| b₃.toUInt16)
  { parser with bufw := b₄.toUInt16 <<< 8, state := .phLenLsb }

section Header

variable {b₀ b₁ b₂ b₃ b₄ : UInt8}

theorem run_five (hstate : start.state = .phP1Msb) (hfirst : checkFirstByte b₀ = true) :
    start.run ctx [b₀, b₁, b₂, b₃, b₄] = some (start.behindFive b₀ b₁ b₂ b₃ b₄) := by
  simp only [run, parseByte, hstate, hfirst, Bool.not_true, if_neg Bool.false_ne_true]
  rfl

/-- Up to the last byte of the primary header nothing is subtracted. -/
theorem run_early (hstate : start.state = .phP1Msb) (hfirst : checkFirstByte b₀ = true)
    {front rest : List UInt8} (hfront : front <+: b₀ :: rest) (hlength : front.length ≤ 5)
    (hrun : start.run ctx front = some parser) :
    (front.length ≠ 5 → parser.state ≠ .phLenLsb) ∧ parser.state ≠ .shTimecodeSubparser ∧
      parser.state ≠ .dataSubparser := by
  rcases front with _ | ⟨c₀, front⟩
  · obtain rfl := Option.some.inj hrun
    simp [hstate]
  obtain ⟨rfl, -⟩ := List.cons_prefix_cons.mp hfront
  rcases front with _ | ⟨c₁, _ | ⟨c₂, _ | ⟨c₃, _ | ⟨c₄, _ | ⟨c₅, front⟩⟩⟩⟩⟩
  case cons.cons.cons.cons.cons => exact absurd hlength (by simp)
  all_goals
    simp only [run, parseByte, hstate, hfirst, Bool.not_true, if_neg Bool.false_ne_true,
      parsePhP1, parsePhP2] at hrun
    obtain rfl := Option.some.inj hrun
    exact ⟨by simp, nofun, nofun⟩

/-- The parser behind the primary header. -/
def behindSix (ctx : SppContext) (start : SppParser) (b₀ b₁ b₂ b₃ b₄ b₅ : UInt8) : SppParser :=
  ((start.behindFive b₀ b₁ b₂ b₃ b₄).parseLenLsb ctx b₅).2

theorem run_six {b₅ : UInt8} (hstate : start.state = .phP1Msb)
    (hfirst : checkFirstByte b₀ = true) (rest : List UInt8) :
    start.run ctx (b₀ :: b₁ :: b₂ :: b₃ :: b₄ :: b₅ :: rest) =
      (start.behindSix ctx b₀ b₁ b₂ b₃ b₄ b₅).run ctx rest := by
  show start.run ctx ([b₀, b₁, b₂, b₃, b₄] ++ (b₅ :: rest)) = _
  rw [run_append, run_five hstate hfirst]
  rfl

theorem toNat_word_or (msb lsb : UInt8) :
    ((msb.toUInt16 <<< 8) ||| lsb.toUInt16).toNat = msb.toNat <<< 8 ||| lsb.toNat := by
  have hmsb := msb.toNat_lt
  rw [UInt16.toNat_or, UInt16.toNat_shiftLeft, UInt8.toNat_toUInt16, UInt8.toNat_toUInt16,
    show (8 : UInt16).toNat % 16 = 8 from rfl, Nat.mod_eq_of_lt (by omega)]

/-- A word of two bytes has their value. -/
theorem toNat_word (msb lsb : UInt8) :
    ((msb.toUInt16 <<< 8) ||| lsb.toUInt16).toNat = msb.toNat * 256 + lsb.toNat := by
  rw [toNat_word_or, ← Nat.shiftLeft_add_eq_or_of_lt lsb.toNat_lt, Nat.shiftLeft_eq]

/-- The flag in the word is the one in the first byte. -/
theorem flag_word (msb lsb : UInt8) :
    ((((msb.toUInt16 <<< 8) ||| lsb.toUInt16) &&& 0x0800) != 0) = ((msb &&& 0x08) != 0) := by
  have hlsb : lsb.toNat.testBit 11 = false :=
    Nat.testBit_lt_two_pow (Nat.lt_of_lt_of_le lsb.toNat_lt (by decide))
  have hbit : (msb.toNat <<< 8 ||| lsb.toNat).testBit 11 = msb.toNat.testBit 3 := by
    rw [Nat.testBit_or, hlsb, Bool.or_false, Nat.testBit_shiftLeft]
    rfl
  rw [Bool.eq_iff_iff, bne_iff_ne, bne_iff_ne, ne_eq, ne_eq, ← UInt16.toNat_inj,
    ← UInt8.toNat_inj, UInt16.toNat_and, UInt8.toNat_and, toNat_word_or,
    show (0x0800 : UInt16).toNat = 2 ^ 11 from rfl, show (0x08 : UInt8).toNat = 2 ^ 3 from rfl,
    Nat.and_two_pow, Nat.and_two_pow, hbit]
  cases msb.toNat.testBit 3 <;> decide

theorem toNat_length (word : UInt16) : (word.toUInt64 + 1).toNat = word.toNat + 1 := by
  have hlt := word.toNat_lt
  rw [UInt64.toNat_add, UInt16.toNat_toUInt64, show (1 : UInt64).toNat = 1 from rfl,
    Nat.mod_eq_of_lt (by omega)]

theorem toNat_stated (b₄ b₅ : UInt8) :
    (((b₄.toUInt16 <<< 8) ||| b₅.toUInt16).toUInt64 + 1).toNat =
      b₄.toNat * 256 + b₅.toNat + 1 := by
  rw [toNat_length, toNat_word]

/-- The length behind the primary header. -/
theorem behindSix_dataLength (start : SppParser) (b₀ b₁ b₂ b₃ b₄ b₅ : UInt8)
    (hle : ctx.ancillaryDataLen.toNat ≤ b₄.toNat * 256 + b₅.toNat + 1) :
    (start.behindSix ctx b₀ b₁ b₂ b₃ b₄ b₅).dataLength.toNat + ctx.ancillaryDataLen.toNat =
      b₄.toNat * 256 + b₅.toNat + 1 := by
  have hlength : (start.behindSix ctx b₀ b₁ b₂ b₃ b₄ b₅).dataLength =
      ((b₄.toUInt16 <<< 8) ||| b₅.toUInt16).toUInt64 + 1 - ctx.ancillaryDataLen := by
    unfold behindSix parseLenLsb
    dsimp only
    split
    · rfl
    · split
      · rfl
      · split <;> rfl
  rw [hlength, UInt64.toNat_sub_of_le _ _ (UInt64.le_iff_toNat_le.mpr (by rwa [toNat_stated])),
    toNat_stated]
  omega

/-- The state behind the primary header. -/
theorem behindSix_state (ctx : SppContext) (start : SppParser) (b₀ b₁ b₂ b₃ b₄ b₅ : UInt8) :
    ((b₀ &&& 0x08) != 0) = false ∧
        (start.behindSix ctx b₀ b₁ b₂ b₃ b₄ b₅).state = .dataSubparser ∨
      ((b₀ &&& 0x08) != 0) = true ∧ ctx.timecode = none ∧ 0 < ctx.ancillaryDataLen ∧
        (start.behindSix ctx b₀ b₁ b₂ b₃ b₄ b₅).state = .shAncillarySubparser ∨
      ((b₀ &&& 0x08) != 0) = true ∧ ctx.timecode = none ∧ ctx.ancillaryDataLen = 0 ∧
        (start.behindSix ctx b₀ b₁ b₂ b₃ b₄ b₅).state = .dataSubparser ∨
      ((b₀ &&& 0x08) != 0) = true ∧ ∃ timecode, ctx.timecode = some timecode ∧
        (start.behindSix ctx b₀ b₁ b₂ b₃ b₄ b₅).state = .shTimecodeSubparser ∧
        (start.behindSix ctx b₀ b₁ b₂ b₃ b₄ b₅).tcParser = start.tcParser.init timecode := by
  rw [← flag_word b₀ b₁]
  unfold behindSix parseLenLsb behindFive parsePhP1 parsePhP2 parsePhLen
  dsimp only
  cases hflag : (((b₀.toUInt16 <<< 8) ||| b₁.toUInt16) &&& 0x0800) != 0 with
  | false => exact .inl ⟨rfl, rfl⟩
  | true =>
    cases htimecode : ctx.timecode with
    | some timecode => exact .inr (.inr (.inr ⟨rfl, timecode, rfl, rfl, rfl⟩))
    | none =>
      by_cases hancillary : ctx.ancillaryDataLen > 0
      · exact .inr (.inl ⟨rfl, rfl, hancillary, by
          rw [Bool.not_true, if_neg Bool.false_ne_true, if_pos hancillary]⟩)
      · have hzero : ctx.ancillaryDataLen = 0 :=
          UInt64.toNat_inj.mp (Nat.eq_zero_of_not_pos fun hpos =>
            hancillary (UInt64.lt_iff_toNat_lt.mpr hpos))
        exact .inr (.inr (.inl ⟨rfl, rfl, hzero, by
          rw [Bool.not_true, if_neg Bool.false_ne_true, if_neg hancillary]⟩))

end Header

/-! ## The timecode -/

/-- The parser in the timecode takes one off the length, and leaves it when the timecode is
done. -/
theorem step_timecode {more : Bool} (hstate : parser.state = .shTimecodeSubparser)
    (hstep : parser.parseByte ctx byte = .ok (more, parser')) :
    parser'.dataLength = parser.dataLength - 1 ∧
      ∃ result, parser.tcParser.feed byte = .ok (result, parser'.tcParser) ∧
        (result ≠ .done ∧ parser'.state = .shTimecodeSubparser ∨
          result = .done ∧ (parser'.state = .shAncillarySubparser ∨
            parser'.state = .dataSubparser ∧ ctx.ancillaryDataLen = 0)) := by
  unfold parseByte at hstep
  rw [hstate] at hstep
  dsimp only at hstep
  unfold parseTimecode at hstep
  dsimp only at hstep
  cases hfeed : parser.tcParser.feed byte with
  | error fault =>
    rw [hfeed] at hstep
    exact nomatch hstep
  | ok read =>
    obtain ⟨result, tcParser⟩ := read
    rw [hfeed] at hstep
    cases result with
    | good =>
      obtain ⟨-, rfl⟩ := Prod.mk.inj (Except.ok.inj hstep)
      exact ⟨rfl, .good, rfl, .inl ⟨nofun, hstate⟩⟩
    | error =>
      obtain ⟨-, rfl⟩ := Prod.mk.inj (Except.ok.inj hstep)
      exact ⟨rfl, .error, rfl, .inl ⟨nofun, hstate⟩⟩
    | done =>
      dsimp only at hstep
      by_cases hancillary : ctx.ancillaryDataLen > 0
      · rw [if_pos hancillary] at hstep
        obtain ⟨-, rfl⟩ := Prod.mk.inj (Except.ok.inj hstep)
        exact ⟨rfl, .done, rfl, .inr ⟨rfl, .inl rfl⟩⟩
      · rw [if_neg hancillary] at hstep
        obtain ⟨-, rfl⟩ := Prod.mk.inj (Except.ok.inj hstep)
        exact ⟨rfl, .done, rfl, .inr ⟨rfl, .inr ⟨rfl, UInt64.toNat_inj.mp
          (Nat.eq_zero_of_not_pos fun hpos => hancillary (UInt64.lt_iff_toNat_lt.mpr hpos))⟩⟩⟩

/-- Behind the secondary header there is no further byte. -/
theorem run_behind (hstate : parser.state = .shAncillarySubparser ∨ parser.state = .dataSubparser)
    {front : List UInt8} (hrun : parser.run ctx front = some parser') :
    front = [] ∧ parser' = parser := by
  cases front with
  | nil => exact ⟨rfl, (Option.some.inj hrun).symm⟩
  | cons byte front =>
    rw [run, parseByte] at hrun
    rcases hstate with hstate | hstate <;> rw [hstate] at hrun <;> exact nomatch hrun

theorem taken_done {tcParser tcParser' : TcParser} (rest : List UInt8)
    (hfeed : tcParser.feed byte = .ok (.done, tcParser')) :
    tcParser.taken (byte :: rest) = 1 := by
  rw [TcParser.taken, hfeed]

theorem taken_more {tcParser tcParser' : TcParser} {result : TcStatus} (rest : List UInt8)
    (hfeed : tcParser.feed byte = .ok (result, tcParser')) (hmore : result ≠ .done) :
    tcParser.taken (byte :: rest) = tcParser'.taken rest + 1 := by
  rw [TcParser.taken, hfeed]
  cases result with
  | done => exact absurd rfl hmore
  | good => rfl
  | error => rfl

theorem taken_pos (tcParser : TcParser) (byte : UInt8) (rest : List UInt8) :
    1 ≤ tcParser.taken (byte :: rest) := by
  rw [TcParser.taken]
  split <;> omega

theorem length_sub_one {n : UInt64} (hpos : 1 ≤ n.toNat) : (n - 1).toNat + 1 = n.toNat := by
  have hle : (1 : UInt64) ≤ n := UInt64.le_iff_toNat_le.mpr hpos
  rw [UInt64.toNat_sub_of_le _ _ hle]
  exact Nat.sub_add_cancel hpos

/-- With a length that is enough for the timecode every byte of it takes one off. -/
theorem run_timecode {bytes front : List UInt8} (hstate : parser.state = .shTimecodeSubparser)
    (hsuffices : parser.tcParser.taken bytes ≤ parser.dataLength.toNat)
    (hfront : front <+: bytes) (hrun : parser.run ctx front = some parser') :
    parser'.dataLength.toNat + front.length = parser.dataLength.toNat ∧
      (parser'.state = .shTimecodeSubparser ∧
          (∀ byte, front ++ [byte] <+: bytes → 1 ≤ parser'.dataLength.toNat) ∨
        parser'.state = .shAncillarySubparser ∨
        parser'.state = .dataSubparser ∧ ctx.ancillaryDataLen = 0) := by
  induction bytes generalizing parser front with
  | nil =>
    obtain rfl := List.prefix_nil.mp hfront
    obtain rfl := Option.some.inj hrun
    exact ⟨rfl, .inl ⟨hstate, fun byte hbyte => absurd (List.prefix_nil.mp hbyte) (by simp)⟩⟩
  | cons first rest ih =>
    have hpos := Nat.le_trans (taken_pos parser.tcParser first rest) hsuffices
    cases front with
    | nil =>
      obtain rfl := Option.some.inj hrun
      exact ⟨rfl, .inl ⟨hstate, fun _ _ => hpos⟩⟩
    | cons byte front =>
      obtain ⟨rfl, hfront'⟩ := List.cons_prefix_cons.mp hfront
      rw [run] at hrun
      cases hstep : parser.parseByte ctx byte with
      | error fault =>
        rw [hstep] at hrun
        exact nomatch hrun
      | ok next =>
        obtain ⟨more, next⟩ := next
        rw [hstep] at hrun
        dsimp only at hrun
        obtain ⟨hlength, result, hfeed, hnext⟩ := step_timecode hstate hstep
        have hless : next.dataLength.toNat + 1 = parser.dataLength.toNat := by
          rw [hlength]
          exact length_sub_one hpos
        rw [List.length_cons]
        rcases hnext with ⟨hmore, hsame⟩ | ⟨-, hbehind⟩
        · rw [taken_more rest hfeed hmore] at hsuffices
          obtain ⟨hsum, hcases⟩ := ih hsame (by omega) hfront' hrun
          refine ⟨by omega, hcases.imp_left fun ⟨hin, hleft⟩ => ⟨hin, fun later hlater => ?_⟩⟩
          exact hleft later (List.cons_prefix_cons.mp hlater).2
        · obtain ⟨rfl, rfl⟩ := run_behind (hbehind.imp_right And.left) hrun
          exact ⟨by simpa using hless, .inr hbehind⟩

/-- With a length that is not enough for the timecode there is a byte that is taken off 0. -/
theorem exists_wrap (bytes : List UInt8) (hstate : parser.state = .shTimecodeSubparser)
    (hshort : parser.dataLength.toNat < parser.tcParser.taken bytes) :
    ∃ front byte parser', front ++ [byte] <+: bytes ∧ parser.run ctx front = some parser' ∧
      parser'.state = .shTimecodeSubparser ∧ parser'.dataLength.toNat = 0 := by
  induction bytes generalizing parser with
  | nil => exact absurd hshort (Nat.not_lt_zero _)
  | cons byte rest ih =>
    by_cases hzero : parser.dataLength.toNat = 0
    · exact ⟨[], byte, parser, ⟨rest, rfl⟩, rfl, hstate, hzero⟩
    · cases hstep : parser.parseByte ctx byte with
      | error fault =>
        have htaken : parser.tcParser.taken (byte :: rest) = 1 := by
          unfold parseByte at hstep
          rw [hstate] at hstep
          dsimp only at hstep
          unfold parseTimecode at hstep
          dsimp only at hstep
          rw [TcParser.taken]
          cases hfeed : parser.tcParser.feed byte with
          | error fault => rfl
          | ok read =>
            obtain ⟨result, tcParser⟩ := read
            rw [hfeed] at hstep
            cases result with
            | done => rfl
            | good => exact nomatch hstep
            | error => exact nomatch hstep
        omega
      | ok next =>
        obtain ⟨more, next⟩ := next
        obtain ⟨hlength, result, hfeed, hnext⟩ := step_timecode hstate hstep
        have hless : next.dataLength.toNat + 1 = parser.dataLength.toNat := by
          rw [hlength]
          exact length_sub_one (Nat.pos_of_ne_zero hzero)
        rcases hnext with ⟨hmore, hsame⟩ | ⟨rfl, -⟩
        · rw [taken_more rest hfeed hmore] at hshort
          obtain ⟨front, last, parser', hfront, hrun, hin, hempty⟩ := ih hsame (by omega)
          refine ⟨byte :: front, last, parser', ?_, ?_, hin, hempty⟩
          · rw [List.cons_append]
            exact List.cons_prefix_cons.mpr ⟨rfl, hfront⟩
          · rw [run, hstep]
            exact hrun
        · rw [taken_done rest hfeed] at hshort
          omega

/-! ## A stream -/

theorem subtractsWithin_of_ne {byte : UInt8} (hlen : parser.state ≠ .phLenLsb)
    (htimecode : parser.state ≠ .shTimecodeSubparser) : parser.SubtractsWithin ctx byte := by
  unfold SubtractsWithin
  split
  · exact absurd ‹_› hlen
  · exact absurd ‹_› htimecode
  · trivial

/-- Before the end of the primary header nothing goes wrong. -/
theorem lengthRight_early (hstate : start.state = .phP1Msb) {b₀ : UInt8}
    (hfirst : checkFirstByte b₀ = true) {rest : List UInt8} (hlength : (b₀ :: rest).length < 6) :
    LengthRight ctx start (b₀ :: rest) := by
  have hle : ∀ front, front <+: b₀ :: rest → front.length ≤ 5 := fun front hfront =>
    Nat.le_trans hfront.length_le (Nat.le_of_lt_succ hlength)
  refine ⟨fun front byte parser hfront hrun => ?_, fun front parser hfront hrun hdata => ?_,
    fun front parser hfront hrun hsix => absurd (hle front hfront) (by omega)⟩
  · have hlt := hle _ hfront
    rw [List.length_append, List.length_singleton] at hlt
    obtain ⟨hlen, htimecode, -⟩ := run_early hstate hfirst
      ((List.prefix_append _ _).trans hfront) (by omega) hrun
    exact subtractsWithin_of_ne (hlen (by omega)) htimecode
  · obtain ⟨-, -, hne⟩ := run_early hstate hfirst hfront (hle front hfront) hrun
    exact absurd hdata hne

section Stream

variable {b₀ b₁ b₂ b₃ b₄ b₅ : UInt8} {rest : List UInt8}

/-- A front of the stream that holds the primary header. -/
theorem exists_behind {front : List UInt8}
    (hfront : front <+: b₀ :: b₁ :: b₂ :: b₃ :: b₄ :: b₅ :: rest) (hsix : 6 ≤ front.length) :
    ∃ later, front = b₀ :: b₁ :: b₂ :: b₃ :: b₄ :: b₅ :: later ∧ later <+: rest := by
  have hheader : [b₀, b₁, b₂, b₃, b₄, b₅] <+: front :=
    List.prefix_of_prefix_length_le (List.prefix_append [b₀, b₁, b₂, b₃, b₄, b₅] rest) hfront hsix
  obtain ⟨later, rfl⟩ := hheader
  exact ⟨later, rfl, (List.prefix_append_right_inj [b₀, b₁, b₂, b₃, b₄, b₅]).mp hfront⟩

/-- What is subtracted up to the end of the primary header. -/
theorem noWrap_early (hstate : start.state = .phP1Msb) (hfirst : checkFirstByte b₀ = true)
    (hle : ctx.ancillaryDataLen.toNat ≤ b₄.toNat * 256 + b₅.toNat + 1) {front : List UInt8}
    {byte : UInt8} (hfront : front ++ [byte] <+: b₀ :: b₁ :: b₂ :: b₃ :: b₄ :: b₅ :: rest)
    (hlength : front.length ≤ 5) (hrun : start.run ctx front = some parser) :
    parser.SubtractsWithin ctx byte := by
  have hpart := (List.prefix_append front [byte]).trans hfront
  by_cases hfive : front.length = 5
  · obtain ⟨later, hsame, -⟩ := exists_behind hfront (by simp [hfive])
    have hinit : front = [b₀, b₁, b₂, b₃, b₄] ∧ byte = b₅ := by
      have hlater : later = [] := by
        have := congrArg List.length hsame
        simp only [List.length_append, List.length_cons, List.length_nil, hfive] at this
        exact List.eq_nil_of_length_eq_zero (by omega)
      rw [hlater] at hsame
      have hsplit : front ++ [byte] = [b₀, b₁, b₂, b₃, b₄] ++ [b₅] := hsame
      exact (List.append_inj' hsplit rfl).imp id (by simp)
    obtain ⟨rfl, rfl⟩ := hinit
    rw [run_five hstate hfirst] at hrun
    obtain rfl := Option.some.inj hrun
    show ctx.ancillaryDataLen ≤ ((b₄.toUInt16 <<< 8) ||| byte.toUInt16).toUInt64 + 1
    rwa [UInt64.le_iff_toNat_le, toNat_stated]
  · obtain ⟨hlen, htimecode, -⟩ := run_early hstate hfirst hpart hlength hrun
    exact subtractsWithin_of_ne (hlen hfive) htimecode

/-- The length behind the primary header, when it is enough. -/
theorem LengthSuffices.behind
    (h : LengthSuffices ctx start (b₀ :: b₁ :: b₂ :: b₃ :: b₄ :: b₅ :: rest))
    {later : List UInt8} (hlater : later <+: rest)
    (hrun : (start.behindSix ctx b₀ b₁ b₂ b₃ b₄ b₅).run ctx later = some parser) :
    parser.dataLength.toNat + ctx.ancillaryDataLen.toNat + later.length =
        b₄.toNat * 256 + b₅.toNat + 1 ∧
      (parser.state = .shTimecodeSubparser ∧
          (∀ byte, later ++ [byte] <+: rest → 1 ≤ parser.dataLength.toNat) ∨
        parser.state = .shAncillarySubparser ∨
        parser.state = .dataSubparser ∧ ctx.ancillaryDataLen = 0) := by
  have hsum := behindSix_dataLength start b₀ b₁ b₂ b₃ b₄ b₅ h.ancillary
  rcases behindSix_state ctx start b₀ b₁ b₂ b₃ b₄ b₅ with ⟨hflag, hstate⟩ |
    ⟨-, -, -, hstate⟩ | ⟨-, -, hzero, hstate⟩ | ⟨hflag, timecode, htimecode, hstate, htc⟩
  · obtain ⟨rfl, rfl⟩ := run_behind (.inr hstate) hrun
    exact ⟨hsum, .inr (.inr ⟨hstate, h.noHeader hflag⟩)⟩
  · obtain ⟨rfl, rfl⟩ := run_behind (.inl hstate) hrun
    exact ⟨hsum, .inr (.inl hstate)⟩
  · obtain ⟨rfl, rfl⟩ := run_behind (.inr hstate) hrun
    exact ⟨hsum, .inr (.inr ⟨hstate, hzero⟩)⟩
  · have hless : ctx.ancillaryDataLen.toNat + (start.tcParser.init timecode).taken rest ≤
        b₄.toNat * 256 + b₅.toNat + 1 := h.timecode hflag timecode htimecode
    obtain ⟨hlength, hcases⟩ := run_timecode hstate (by rw [htc]; omega) hlater hrun
    exact ⟨by omega, hcases⟩

theorem LengthSuffices.right (hstate : start.state = .phP1Msb) (hfirst : checkFirstByte b₀ = true)
    (h : LengthSuffices ctx start (b₀ :: b₁ :: b₂ :: b₃ :: b₄ :: b₅ :: rest)) :
    LengthRight ctx start (b₀ :: b₁ :: b₂ :: b₃ :: b₄ :: b₅ :: rest) := by
  refine ⟨fun front byte parser hfront hrun => ?_, fun front parser hfront hrun hdata => ?_,
    fun front parser hfront hrun hsix _ hshort => ?_⟩
  · by_cases hsix : 6 ≤ front.length
    · obtain ⟨later, rfl, -⟩ := exists_behind ((List.prefix_append _ _).trans hfront) hsix
      have hlater : later ++ [byte] <+: rest :=
        (List.prefix_append_right_inj [b₀, b₁, b₂, b₃, b₄, b₅]).mp hfront
      rw [run_six hstate hfirst] at hrun
      obtain ⟨-, hcases⟩ := h.behind ((List.prefix_append _ _).trans hlater) hrun
      unfold SubtractsWithin
      rcases hcases with ⟨hin, hleft⟩ | hin | ⟨hin, -⟩
      · rw [hin]
        exact UInt64.le_iff_toNat_le.mpr (hleft byte hlater)
      · rw [hin]
        trivial
      · rw [hin]
        trivial
    · exact noWrap_early hstate hfirst h.ancillary hfront (by omega) hrun
  · by_cases hsix : 6 ≤ front.length
    · obtain ⟨later, rfl, hlater⟩ := exists_behind hfront hsix
      rw [run_six hstate hfirst] at hrun
      obtain ⟨hsum, ⟨hin, -⟩ | hin | ⟨-, hzero⟩⟩ := h.behind hlater hrun
      · exact absurd (hin.symm.trans hdata) (by decide)
      · exact absurd (hin.symm.trans hdata) (by decide)
      · rw [hzero] at hsum
        exact hsum
    · obtain ⟨-, -, hne⟩ := run_early hstate hfirst hfront (by omega) hrun
      exact absurd hdata hne
  · obtain ⟨later, rfl, hlater⟩ := exists_behind hfront hsix
    rw [run_six hstate hfirst] at hrun
    obtain ⟨hsum, -⟩ := h.behind hlater hrun
    have hless : b₄.toNat * 256 + b₅.toNat + 1 < ctx.ancillaryDataLen.toNat + later.length :=
      hshort
    omega

theorem LengthRight.suffices (hstate : start.state = .phP1Msb) (hfirst : checkFirstByte b₀ = true)
    (h : LengthRight ctx start (b₀ :: b₁ :: b₂ :: b₃ :: b₄ :: b₅ :: rest)) :
    LengthSuffices ctx start (b₀ :: b₁ :: b₂ :: b₃ :: b₄ :: b₅ :: rest) := by
  have hancillary : ctx.ancillaryDataLen.toNat ≤ b₄.toNat * 256 + b₅.toNat + 1 := by
    have hwithin := h.noWrap [b₀, b₁, b₂, b₃, b₄] b₅ _ ⟨rest, rfl⟩ (run_five hstate hfirst)
    have hle : ctx.ancillaryDataLen ≤ ((b₄.toUInt16 <<< 8) ||| b₅.toUInt16).toUInt64 + 1 := hwithin
    rwa [UInt64.le_iff_toNat_le, toNat_stated] at hle
  have hsum := behindSix_dataLength start b₀ b₁ b₂ b₃ b₄ b₅ hancillary
  refine ⟨hancillary, fun hflag => ?_, fun hflag timecode htimecode => ?_⟩
  · rcases behindSix_state ctx start b₀ b₁ b₂ b₃ b₄ b₅ with ⟨-, hin⟩ | ⟨hset, -⟩ | ⟨hset, -⟩ |
      ⟨hset, -⟩
    · have hdata := h.data [b₀, b₁, b₂, b₃, b₄, b₅] _ ⟨rest, rfl⟩ (run_six hstate hfirst []) hin
      have hall : (start.behindSix ctx b₀ b₁ b₂ b₃ b₄ b₅).dataLength.toNat =
          b₄.toNat * 256 + b₅.toNat + 1 := hdata
      exact UInt64.toNat_inj.mp (show ctx.ancillaryDataLen.toNat = 0 by omega)
    all_goals exact absurd (hflag.symm.trans hset) Bool.false_ne_true
  · show ctx.ancillaryDataLen.toNat + (start.tcParser.init timecode).taken rest ≤
      b₄.toNat * 256 + b₅.toNat + 1
    rcases behindSix_state ctx start b₀ b₁ b₂ b₃ b₄ b₅ with ⟨hclear, -⟩ | ⟨-, hnone, -⟩ |
      ⟨-, hnone, -⟩ | ⟨-, other, hother, hin, htc⟩
    · exact absurd (hclear.symm.trans hflag) Bool.false_ne_true
    · exact nomatch htimecode.symm.trans hnone
    · exact nomatch htimecode.symm.trans hnone
    · obtain rfl := Option.some.inj (htimecode.symm.trans hother)
      rw [← htc]
      by_contra hmore
      obtain ⟨front, byte, parser, hfront, hrun, hstate', hempty⟩ :=
        exists_wrap rest hin (by omega)
      have hwithin := h.noWrap (b₀ :: b₁ :: b₂ :: b₃ :: b₄ :: b₅ :: front) byte parser
        ((List.prefix_append_right_inj [b₀, b₁, b₂, b₃, b₄, b₅]).mpr hfront)
        (by rw [run_six hstate hfirst, hrun])
      unfold SubtractsWithin at hwithin
      rw [hstate'] at hwithin
      have hle : 1 ≤ parser.dataLength.toNat := UInt64.le_iff_toNat_le.mp hwithin
      omega

end Stream

/-- A parser that was never used. -/
def blank : SppParser where
  status := .good
  bufw := 0
  header := ⟨false, false, 0, .continuation, 0, 0⟩
  state := .phP1Msb
  tcParser := .blank
  dataLength := 0
  dtnTimestamp := 0

end SppParser

end Upcn.Spp
