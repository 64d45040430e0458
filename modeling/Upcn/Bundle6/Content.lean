import Upcn.Bundle6.RoundTrip
import Upcn.Cla.Content
import Upcn.Lib.ReaderEnd

/-!
# The bytes of a bundle as the content of a frame

The parser goes through the bytes that `bundle6_serialize` writes, in any pieces, and delivers
the bundle with the last of them (`parses_inBundle`, `carries_bundle6`).  Until then it delivers
nothing (`delivered_of_good`).
-/

namespace Upcn.Bundle6

open Machine
open Upcn.Tcpclv3 (Version BundleParser)

namespace Parser

variable {env : ParserEnv} {s t : Parser} {byte : UInt8}

/-! ## What is delivered -/

@[simp] theorem delivered_alloc : (s.alloc env).2.delivered = s.delivered := rfl

@[simp] theorem delivered_fail : s.fail.delivered = s.delivered := rfl

@[simp] theorem delivered_waitForSdnv (nextStage : Stage) :
    (s.waitForSdnv nextStage).2.delivered = s.delivered := by
  unfold waitForSdnv
  split <;> rfl

@[simp] theorem delivered_readSdnv (s : Parser) (byte : UInt8)
    (read : SdnvState → Nat → UInt8 → SdnvState × Nat) (get : Parser → Nat)
    (set : Parser → Nat → Parser) (nextStage : Stage)
    (hset : ∀ value, (set s value).delivered = s.delivered) :
    (s.readSdnv read get set byte nextStage).2.delivered = s.delivered := by
  rw [readSdnv, delivered_waitForSdnv]
  exact hset _

@[simp] theorem delivered_readEid (ref : EidReference) :
    (s.readEid env ref).2.delivered = s.delivered := by
  unfold readEid
  split
  · rfl
  · dsimp only
    split
    · rfl
    · split <;> rfl

theorem delivered_readEids : (s.readEids env).delivered = s.delivered := by
  unfold readEids
  dsimp only
  split <;> simp

theorem delivered_beginBlock (type : UInt8) :
    (s.beginBlock env type).delivered = s.delivered := by
  unfold beginBlock
  dsimp only
  split
  · rfl
  · split <;> split <;> rfl

theorem delivered_readBlockFlags : (s.readBlockFlags byte).delivered = s.delivered := by
  unfold readBlockFlags
  have h := delivered_readSdnv s byte sdnvReadU8 (·.block.flags)
    (fun s value => { s with block := { s.block with flags := value } })
    .blockDataLength fun _ => rfl
  dsimp only
  split
  · split <;> exact h
  · exact h

theorem delivered_readEidRefCnt : (s.readEidRefCnt byte).delivered = s.delivered := by
  unfold readEidRefCnt
  have h := delivered_readSdnv s byte sdnvReadU32 (·.currentSize)
    (fun s value => { s with currentSize := value }) .blockEidRefSch fun _ => rfl
  dsimp only
  split
  · split <;> exact h
  · exact h

theorem delivered_readEidRefSsp : (s.readEidRefSsp env byte).delivered = s.delivered := by
  unfold readEidRefSsp
  have h := delivered_readSdnv s byte sdnvReadU16 (·.curEidref.sspOffset)
    (fun s value => { s with curEidref := { s.curEidref with sspOffset := value } })
    .blockEidRefSch fun _ => rfl
  dsimp only
  split
  · split
    · exact h
    · split
      · simp
      · split <;> simp
  · exact h

theorem delivered_readStage : (s.readStage env byte).delivered = s.delivered := by
  unfold readStage
  split
  case h_16 =>
    unfold readDictionary
    dsimp only
    split
    · exact delivered_readEids
    · rfl
  case h_19 => exact delivered_beginBlock byte
  case h_20 => exact delivered_readBlockFlags
  case h_21 => exact delivered_readEidRefCnt
  case h_23 => exact delivered_readEidRefSsp
  case h_25 =>
    unfold endBlockData
    split <;> rfl
  all_goals first
    | rfl
    | exact delivered_readSdnv _ _ _ _ _ _ fun _ => rfl

theorem delivered_enterStage : (s.enterStage env).delivered = s.delivered := by
  unfold enterStage
  split
  case h_5 =>
    unfold enterDictionary
    dsimp only
    repeat' split
    all_goals rfl
  case h_7 =>
    unfold enterBlockData
    dsimp only
    repeat' split
    all_goals rfl
  all_goals rfl

/-- The next stage delivers nothing, or it is the end of the bundle. -/
theorem delivered_next : (s.bundle6ParserNext env).delivered = s.delivered ∨
    (s.bundle6ParserNext env).status = .done := by
  unfold bundle6ParserNext
  dsimp only
  split
  · right
    unfold sendBundle
    split <;> rfl
  · exact .inl delivered_enterStage

/-- As long as the parser goes on, it has delivered nothing. -/
theorem delivered_of_good (hgood : (s.bundle6ParserReadByte env byte).status = .good) :
    (s.bundle6ParserReadByte env byte).delivered = s.delivered := by
  have hread : ∀ r : Parser, r.delivered = s.delivered →
      (if (r.readStage env byte).currentStage ≠ (r.readStage env byte).nextStage ∧
          (r.readStage env byte).status ≠ .error then (r.readStage env byte).bundle6ParserNext env
        else r.readStage env byte).status = .good →
      (if (r.readStage env byte).currentStage ≠ (r.readStage env byte).nextStage ∧
          (r.readStage env byte).status ≠ .error then (r.readStage env byte).bundle6ParserNext env
        else r.readStage env byte).delivered = s.delivered := by
    intro r hr hstatus
    split at hstatus
    · rename_i hnext
      rw [if_pos hnext]
      have hdelivers : ((r.readStage env byte).bundle6ParserNext env).delivered =
          (r.readStage env byte).delivered ∨
          ((r.readStage env byte).bundle6ParserNext env).status = .done := delivered_next
      rcases hdelivers with hsame | hdone
      · rw [hsame, delivered_readStage, hr]
      · rw [hdone] at hstatus
        cases hstatus
    · rename_i hstay
      rw [if_neg hstay, delivered_readStage, hr]
  unfold bundle6ParserReadByte at hgood ⊢
  split at hgood
  · cases hgood
  · rename_i hknown
    rw [if_neg hknown]
    refine hread _ ?_ hgood
    split <;> rfl

theorem delivered_step {x y : Parser × List UInt8} (h : (reader env).step x = some y)
    (hgood : y.1.status = .good) : y.1.delivered = x.1.delivered := by
  obtain ⟨s, input⟩ := x
  obtain ⟨s', input'⟩ := y
  obtain ⟨-, ⟨n, -, -, rfl, -⟩ | ⟨b, -, -, rfl⟩⟩ := Reader.step_cases h
  · exact delivered_of_good hgood
  · exact delivered_of_good hgood

/-- A parser that goes on behind some steps has gone on all the time. -/
theorem delivered_steps {x y : Parser × List UInt8} (h : Steps (reader env).step x y)
    (hgood : y.1.status = .good) : y.1.delivered = x.1.delivered := by
  -- By induction on the steps: where there is another one, the parser goes on.
  induction h with
  | refl => rfl
  | @tail y z _ hstep ih =>
    have hbefore : y.1.status = .good := by
      have hgoes := (Reader.step_cases (show (reader env).step (y.1, y.2) = some (z.1, z.2) from
        hstep)).1
      simpa [reader] using hgoes
    rw [delivered_step hstep hgood, ih hbefore]

/-! ## The parser in a bundle -/

/-- `struct bundle6_parser` as it is seen from a link.  `usage` is what the store uses when the
parser is reset, which may depend on its state. -/
def bundleParser (env : ParserEnv) (usage : Parser → Nat) : BundleParser Parser Bundle where
  status s := s.status
  bulkRead s := if s.bulkRead then some s.nextBytes else none
  reset s := .init (usage s)
  read s buffer :=
    let result := s.bundle6ParserRead env buffer
    ⟨result.1, buffer.length - result.2.length, result.1.delivered.drop s.delivered.length⟩
  readBulk s data :=
    let result := s.completeBulk env data
    ⟨result, 0, result.delivered.drop s.delivered.length⟩

/-- The parser stands in a bundle, before these bytes of it. -/
def InBundle (env : ParserEnv) (s : Parser) (unread : List UInt8) (b : Bundle) : Prop :=
  ∃ t, (reader env).Through Valid s unread t ∧ t.status = .done ∧
    t.delivered = s.delivered ++ [b]

variable {usage : Parser → Nat} {unread : List UInt8} {b : Bundle}

theorem InBundle.status (h : InBundle env s unread b) : s.status = .good := by
  obtain ⟨t, hthrough, -⟩ := h
  simpa [reader] using hthrough.good

/-- What is delivered of the bundle, when the parser is at its end. -/
theorem drop_delivered (h : t.delivered = s.delivered ++ [b]) :
    t.delivered.drop s.delivered.length = [b] := by
  rw [h, List.drop_left]

/-- A later state of the parser in the bundle. -/
theorem InBundle.later {s' : Parser} {input rest : List UInt8}
    (hsteps : Steps (reader env).step (s, input) (s', rest))
    (hthrough : (reader env).Through Valid s' unread t) (hstatus : t.status = .done)
    (hdelivered : t.delivered = s.delivered ++ [b]) :
    InBundle env s' unread b ∧ s'.delivered.drop s.delivered.length = [] := by
  have hgood : s'.status = .good := by simpa [reader] using hthrough.good
  have hsame : s'.delivered = s.delivered := delivered_steps hsteps hgood
  exact ⟨⟨t, hthrough, hstatus, by rw [hdelivered, hsame]⟩, by rw [hsame, List.drop_length]⟩

theorem parses_inBundle : Parses (bundleParser env usage) (InBundle env) where
  good h := h.status
  unique := by
    rintro s unread b b' ⟨t, hthrough, -, hdelivered⟩ ⟨t', hthrough', -, hdelivered'⟩
    have hsame := hthrough'.steps.unique (Reader.step_end hthrough'.ends []) hthrough.steps
      (Reader.step_end hthrough.ends [])
    rw [(Prod.mk.inj hsame).1, hdelivered'] at hdelivered
    exact (List.singleton_inj.mp (List.append_cancel_left hdelivered)).symm
  ne_nil h hbulk := by
    obtain ⟨t, hthrough, -⟩ := h
    exact hthrough.ne_nil hbulk
  call := by
    intro s unread b h hbulk piece rest after hpiece heq
    obtain ⟨t, hthrough, hstatus, hdelivered⟩ := h
    obtain ⟨k, hpos, hle, hle', hleft, hresult⟩ :=
      hthrough.read (reader_lawful env) hbulk hpiece heq
    have hsteps : Steps (reader env).step (s, piece) ((reader env).read s piece) :=
      Reader.steps_read s piece
    have hconsumed : ((bundleParser env usage).read s piece).consumed = k := by
      show piece.length - ((reader env).read s piece).2.length = k
      rw [hleft, List.length_drop]
      omega
    rw [hconsumed]
    refine ⟨hpos, hle, hle', ?_, fun n hn hgood => ?_⟩
    · rcases hresult with ⟨hend, hall⟩ | ⟨hlater, -, -⟩
      · refine .done ?_ hall ?_
        · show ((reader env).read s piece).1.status = .done
          rw [hend, hstatus]
        · show ((reader env).read s piece).1.delivered.drop s.delivered.length = [b]
          rw [hend]
          exact drop_delivered hdelivered
      · obtain ⟨hstands, hnothing⟩ := InBundle.later hsteps hlater hstatus hdelivered
        exact .on hstands hnothing
    · rcases hresult with ⟨hend, -⟩ | ⟨-, hpending, -⟩
      · change ((reader env).read s piece).1.status = .good at hgood
        rw [hend, hstatus] at hgood
        cases hgood
      · exact hpending n hn
  bulk := by
    intro s unread b n h hbulk
    obtain ⟨t, hthrough, hstatus, hdelivered⟩ := h
    obtain ⟨hle, hresult⟩ := hthrough.fill (reader_lawful env) hbulk
    have hstep : Steps (reader env).step (s, unread)
        ((reader env).fill s (unread.take n), unread.drop n) :=
      .single (Reader.step_of_pending hthrough.good hbulk hle)
    refine ⟨hle, ?_, fun hgood => ?_⟩
    · rcases hresult with ⟨hend, hall⟩ | ⟨hlater, -⟩
      · refine .done ?_ hall ?_
        · show ((reader env).fill s (unread.take n)).status = .done
          rw [hend, hstatus]
        · show ((reader env).fill s (unread.take n)).delivered.drop s.delivered.length = [b]
          rw [hend]
          exact drop_delivered hdelivered
      · obtain ⟨hstands, hnothing⟩ := InBundle.later hstep hlater hstatus hdelivered
        exact .on hstands hnothing
    · rcases hresult with ⟨hend, -⟩ | ⟨-, hnone⟩
      · change ((reader env).fill s (unread.take n)).status = .good at hgood
        rw [hend, hstatus] at hgood
        cases hgood
      · exact hnone

/-! ## The last bytes of a bundle -/

/-- The last block of the bundle has data. -/
def EndsInData (b : Bundle) : Prop := ∃ front last, b.blocks = front ++ [last] ∧ last.data ≠ []

/-- The end of the data of a block is the end of the bundle, if that is delivered. -/
theorem blocks_of_completeBulk {data : List UInt8} (hvalid : s.currentStage = .blockData)
    (hgood : s.status = .good) (hdone : (s.completeBulk env data).status = .done)
    (hdelivered : (s.completeBulk env data).delivered = s.delivered ++ [b]) :
    ∃ front, b.blocks = front ++ [{ s.block with data := data }] := by
  unfold completeBulk bundle6ParserReadByte at hdone hdelivered
  split at hdone
  · cases hdone
  rename_i hknown
  rw [if_neg hknown] at hdelivered
  -- the count of the primary block does not matter
  generalize hcounted : (if ({ s with
      bulkRead := false, block := { s.block with data := data } } : Parser).currentBlock =
        .primary then _ else _) = r at hdone hdelivered
  have hr : r.currentStage = .blockData ∧ r.block = { s.block with data := data } ∧
      r.delivered = s.delivered ∧ r.status = s.status := by
    rw [← hcounted]
    split <;> exact ⟨hvalid, rfl, rfl, rfl⟩
  obtain ⟨hstage, hblock, hbefore, hstatus⟩ := hr
  have hread : r.readStage env 0 = r.endBlockData := by rw [readStage, hstage]
  dsimp only at hdone hdelivered
  rw [hread] at hdone hdelivered
  unfold endBlockData at hdone hdelivered
  by_cases hleft : r.curBytesRemaining ≠ 0
  · rw [if_pos hleft, if_neg fun h => h.2 rfl] at hdone
    cases hdone
  rw [if_neg hleft] at hdone hdelivered
  cases hlast : r.lastBlock with
  | false =>
    -- another block follows
    simp [hlast, hstage, hstatus, hgood, bundle6ParserNext, enterStage] at hdone
  | true =>
    simp only [hlast, hstage, hstatus, hgood, bundle6ParserNext, enterStage, sendBundle, if_true,
      ne_eq, reduceCtorEq, not_false_eq_true, and_self] at hdelivered
    split at hdelivered
    · rw [hbefore, hblock] at hdelivered
      have hbundle := List.singleton_inj.mp (List.append_cancel_left hdelivered)
      exact ⟨r.bundle.blocks, by rw [← hbundle]⟩
    · have hlength := congrArg List.length hdelivered
      rw [hbefore, List.length_append] at hlength
      simp at hlength

/-- Before a bundle whose last block has data, there is a byte of it to come. -/
theorem InBundle.ne_nil (h : InBundle env s unread b) (hdata : EndsInData b) : unread ≠ [] := by
  rintro rfl
  obtain ⟨t, hthrough, hstatus, hdelivered⟩ := h
  cases hpending : (reader env).pending s with
  | none => exact hthrough.ne_nil hpending rfl
  | some n =>
    obtain ⟨-, ⟨hfill, -⟩ | ⟨hlater, hnone⟩⟩ := hthrough.fill (reader_lawful env) hpending
    · have hbulk : s.bulkRead = true := by
        cases hflag : s.bulkRead with
        | true => rfl
        | false => simp [reader, hflag] at hpending
      have hgood : s.status = .good := by simpa [reader] using hthrough.good
      have hend : s.completeBulk env [] = t := by
        rw [List.take_nil] at hfill
        exact hfill
      rw [← hend] at hstatus hdelivered
      obtain ⟨front, hblocks⟩ :=
        blocks_of_completeBulk (hthrough.valid hbulk) hgood hstatus hdelivered
      obtain ⟨front', last, hblocks', hne⟩ := hdata
      rw [hblocks] at hblocks'
      obtain ⟨-, hlast⟩ := List.append_inj' hblocks' rfl
      exact hne (by rw [← List.singleton_inj.mp hlast])
    · exact hlater.ne_nil hnone List.drop_nil

/-! ## A bundle that is sent -/

/-- The bundle can be sent, and received by a parser with this environment: it is well-formed, its
header is below 65536 bytes, `bundle6_get_serialized_size` gives the size of it, and the parser
has the memory and the quota for it. -/
structure Sendable (env : ParserEnv) (usage : Parser → Nat) (b : Bundle) : Prop where
  wellFormed : b.WellFormed
  header : b.headerLength < 2 ^ 16
  size : b.sizeDefect = 0
  size_lt : b.bundle6GetSerializedSize.1 < 2 ^ 32
  room : ∀ s, Suffices env b (usage s)

end Parser

namespace Bundle

open Upcn.Bundle6.Parser (Sendable bundleParser InBundle Suffices EndsInData)

variable {env : ParserEnv} {usage : Parser → Nat} {b : Bundle}

/-- The bytes of the bundle, which `cla_contact_tx_task` serializes behind a call of
`bundle6_get_serialized_size`. -/
def packet (b : Bundle) : List UInt8 := bundle6Serialize b.bundle6GetSerializedSize.2

/-- The bundle that is received from them. -/
def transferred (b : Bundle) : Bundle := b.bundle6GetSerializedSize.2.received

theorem WellFormed.held (h : b.WellFormed) (hheader : b.headerLength < 2 ^ 16) : b.Held where
  procFlags := by
    rw [← h.procFlags]
    exact Nat.lt_of_le_of_lt Nat.and_le_right (by decide)
  primaryBlockLength := h.primaryBlockLength
  dictionary := Nat.lt_trans (headerLength_lt b).2 hheader
  unflagged block hblock := (h.blocks block hblock).unflagged
  data block hblock := (h.blocks block hblock).length

/-- The size of the frame is the number of bytes that follow. -/
theorem length_packet (h : Sendable env usage b) :
    b.packet.length = b.bundle6GetSerializedSize.1 := by
  have hsize := size_eq_add_sizeDefect (h.wellFormed.held h.header)
  rw [h.size] at hsize
  unfold packet
  omega

theorem head_packet (b : Bundle) (h : b.protocolVersion = 6) : b.packet.head? = some 6 := by
  show some b.protocolVersion = some 6
  rw [h]

/-- The bytes of the bundle are a bundle for the parser. -/
theorem carries_bundle6 {P : Version → BundleParser Parser Bundle}
    (hP : P .bundle6 = bundleParser env usage) (h : Sendable env usage b) :
    Carries P .bundle6 (InBundle env) b.packet b.transferred where
  version := by
    rw [head_packet b h.wellFormed.version]
    rfl
  start s := by
    rw [hP]
    refine ⟨?_, rfl⟩
    obtain ⟨hle, hge⟩ := headerLength_lt b
    have hheader := h.header
    have hmod : b.bundle6RecalculateHeaderLength.primaryBlockLength = b.headerLength :=
      Nat.mod_eq_of_lt hheader
    have hrest : b.bundle6RecalculateHeaderLength.restSize +
        (1 + sdnvGetSizeU32 b.procFlags + sdnvGetSizeU32 b.primaryBlockLength) =
        b.headerLength := restSize_recalculate (by omega)
    have hroom := h.room s
    have henv : Suffices env b.bundle6RecalculateHeaderLength (usage s) :=
      ⟨hroom.mem, hroom.quota, hroom.bundleQuota⟩
    obtain ⟨t, hreaches, hstatus, hdelivered⟩ := Parser.reaches_bundle henv h.wellFormed.recalculate
      (show b.bundle6CalculateDict.dictLengthBytes < 2 ^ 16 by omega) (by omega)
    have hsteps := hreaches []
    rw [List.append_nil] at hsteps
    refine ⟨t, ⟨Parser.valid_init _, rfl, hsteps, ?_⟩, hstatus, hdelivered⟩
    simp [Parser.reader, hstatus]

/-- What is received ends as what is sent. -/
theorem endsInData_transferred {b : Bundle} (h : EndsInData b) :
    EndsInData b.transferred := by
  obtain ⟨front, last, hblocks, hdata⟩ := h
  refine ⟨front.map (.received b.bundle6GetSerializedSize.2.eidRefs),
    last.received b.bundle6GetSerializedSize.2.eidRefs, ?_, hdata⟩
  show b.blocks.map _ = _
  rw [hblocks, List.map_append]
  rfl

end Bundle

end Upcn.Bundle6
