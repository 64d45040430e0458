import Upcn.Bundle6.Header

/-!
# The round trip

What the parser makes of the blocks that `bundle6_serialize` writes, and of the whole
bundle.
-/

namespace Upcn.Bundle6

open Upcn.Bundle6.Parser

/-! ## The fields of a block -/

namespace Field

theorem sdnvFits_u8 : SdnvFits 8 1 0x1 := ⟨by omega, by decide, by omega⟩

/-- `PARSER_STAGE_BLOCK_FLAGS`. -/
def blockFlags : Field where
  stage := .blockFlags
  width := 8
  maxBytes := 1
  maxValue := 0x1
  get s := s.block.flags
  set s value := { s with block := { s.block with flags := value } }
  finish _ s := { s with
    lastBlock := s.block.flags.testBit 3
    nextStage := if s.block.flags.testBit 6 then .blockEidRefCnt else .blockDataLength }

/-- `PARSER_STAGE_BLOCK_EID_REF_CNT`. -/
def eidRefCnt : Field where
  stage := .blockEidRefCnt
  width := 32
  maxBytes := 4
  maxValue := 0x1FFFFFF
  get s := s.currentSize
  set s value := { s with currentSize := value }
  finish _ s := { s with
    currentIndex := 0
    nextStage := if s.currentSize = 0 then .blockDataLength else .blockEidRefSch }

def eidRefSch : Field := plain .blockEidRefSch 16 2 0x1FF (·.curEidref.schemeOffset)
  (fun s value => { s with curEidref := { s.curEidref with schemeOffset := value } })
  .blockEidRefSsp

/-- The reference is read from the dictionary, and put in front of the others. -/
def pushEidRef (env : ParserEnv) (s : Parser) : Parser :=
  let (allocated, s) := s.alloc env
  if !allocated then s.fail
  else
    let (eid, s) := s.readEid env s.curEidref
    let s := { s with currentIndex := (s.currentIndex + 1) % 2 ^ 32 }
    match eid with
    | none => s.fail
    | some eid =>
      let s := { s with block := { s.block with eidRefs := eid :: s.block.eidRefs } }
      if s.currentIndex = s.currentSize then { s with nextStage := .blockDataLength } else s

/-- `PARSER_STAGE_BLOCK_EID_REF_SSP`. -/
def eidRefSsp : Field where
  stage := .blockEidRefSsp
  width := 16
  maxBytes := 2
  maxValue := 0x1FF
  get s := s.curEidref.sspOffset
  set s value := { s with curEidref := { s.curEidref with sspOffset := value } }
  finish env s := pushEidRef env { s with nextStage := .blockEidRefSch }

def blockDataLength : Field := plain .blockDataLength 32 4 0x1FFFFFF (·.block.length)
  (fun s value => { s with block := { s.block with length := value } }) .blockData

theorem blockFlags_lawful : blockFlags.Lawful :=
  Accessor.lawful (by constructor <;> intros <;> rfl) sdnvFits_u8 fun env s byte hs => by
    rw [readStage, show s.currentStage = .blockFlags from hs]
    dsimp only
    unfold readBlockFlags readSdnv afterSdnv
    rw [show sdnvReadU8 s.sdnvState s.block.flags byte = sdnvReadGeneric blockFlags.width
      blockFlags.maxBytes blockFlags.maxValue s.sdnvState (blockFlags.get s) byte from rfl]
    generalize sdnvReadGeneric blockFlags.width blockFlags.maxBytes blockFlags.maxValue
      s.sdnvState (blockFlags.get s) byte = read
    obtain ⟨⟨status, k⟩, value⟩ := read
    cases status with
    | inProgress => rfl
    | done =>
      show (if value.testBit 6 = true then _ else _) = _
      dsimp only [blockFlags, reading]
      split <;> rfl
    | error => rfl

theorem eidRefCnt_lawful : eidRefCnt.Lawful :=
  Accessor.lawful (by constructor <;> intros <;> rfl) sdnvFits_u32 fun env s byte hs => by
    rw [readStage, show s.currentStage = .blockEidRefCnt from hs]
    dsimp only
    unfold readEidRefCnt readSdnv afterSdnv
    rw [show sdnvReadU32 s.sdnvState s.currentSize byte = sdnvReadGeneric eidRefCnt.width
      eidRefCnt.maxBytes eidRefCnt.maxValue s.sdnvState (eidRefCnt.get s) byte from rfl]
    generalize sdnvReadGeneric eidRefCnt.width eidRefCnt.maxBytes eidRefCnt.maxValue
      s.sdnvState (eidRefCnt.get s) byte = read
    obtain ⟨⟨status, k⟩, value⟩ := read
    cases status with
    | inProgress => rfl
    | done =>
      show (if value = 0 then _ else _) = _
      dsimp only [eidRefCnt, reading]
      split <;> rfl
    | error => rfl

theorem eidRefSch_lawful : eidRefSch.Lawful :=
  plain_lawful sdnvFits_u16 (by constructor <;> intros <;> rfl) fun env s byte hs => by
    rw [readStage, hs]
    rfl

theorem eidRefSsp_lawful : eidRefSsp.Lawful :=
  Accessor.lawful (by constructor <;> intros <;> rfl) sdnvFits_u16 fun env s byte hs => by
    rw [readStage, show s.currentStage = .blockEidRefSsp from hs]
    dsimp only
    unfold readEidRefSsp readSdnv afterSdnv
    rw [show sdnvReadU16 s.sdnvState s.curEidref.sspOffset byte = sdnvReadGeneric
      eidRefSsp.width eidRefSsp.maxBytes eidRefSsp.maxValue s.sdnvState (eidRefSsp.get s) byte
      from rfl]
    generalize sdnvReadGeneric eidRefSsp.width eidRefSsp.maxBytes eidRefSsp.maxValue
      s.sdnvState (eidRefSsp.get s) byte = read
    obtain ⟨⟨status, k⟩, value⟩ := read
    cases status <;> rfl

theorem blockDataLength_lawful : blockDataLength.Lawful :=
  plain_lawful sdnvFits_u32 (by constructor <;> intros <;> rfl) fun env s byte hs => by
    rw [readStage, hs]
    rfl

end Field

/-! ## Reading a block -/

namespace Parser

variable {env : ParserEnv} {b received : Bundle} {block : Block} {size usage : Nat}
  {s : Parser} {stage : Stage}

/-- The parser reads a block, of which it has `cur`. -/
structure InBlock (b received : Bundle) (size : Nat) (cur : Block) (stage : Stage)
    (s : Parser) : Prop extends s.Waits stage where
  sdnvState : s.sdnvState = .reset
  currentBlock : s.currentBlock ≠ .primary
  bundle : s.bundle = received
  block : s.block = cur
  lastBlock : stage ≠ .blockFlags → s.lastBlock = cur.isLast
  dict : s.dict = b.dictionaryBytes
  dictLength : s.dictLength = b.dictionaryBytes.length
  currentSize : s.currentSize ≤ size
  primaryBytesRemaining : s.primaryBytesRemaining < 2 ^ 16
  delivered : s.delivered = []

/-- What the type of a block says about the bundle. -/
def withType (received : Bundle) (type : UInt8) : Bundle :=
  if type = 1 then { received with payloadBlock := some received.blocks.length } else received

theorem AtBlock.reaches_type (hmem : ∀ n, env.mem n = true) (type : UInt8)
    (hs : AtBlock b received size s) :
    ∃ t, Reaches env s [type] t ∧
      InBlock b (withType received type) size (.create type) .blockFlags t := by
  have hgeneric : s.currentBlock ≠ .primary := by
    rw [hs.currentBlock]
    exact ParserBlock.noConfusion
  have hsame : s.withRemaining (s.remainingAfter 1) = s := by
    rw [remainingAfter, if_neg hgeneric]
    rfl
  have hread : s.bundle6ParserReadByte env type =
      { s with
        bundle := withType received type
        currentBlock := if type = 1 then .payload else .extension
        block := .create type
        allocations := s.allocations + 2
        nextStage := .blockFlags
        currentStage := .blockFlags
        sdnvState := .reset } := by
    have hbundle := hs.bundle
    have hstatus := hs.status
    rw [readByte_eq ⟨hs.primaryBytesRemaining, fun hprimary => absurd hprimary hgeneric⟩, hsame,
      readStage, hs.currentStage]
    dsimp only
    unfold beginBlock alloc withType
    by_cases hpayload : type = 1
    · simp [hpayload, hmem, settle, hstatus, bundle6ParserNext, enterStage, hbundle]
    · simp [hpayload, hmem, settle, hstatus, bundle6ParserNext, enterStage, hbundle]
  have hreaches : Reaches env s [type] (s.bundle6ParserReadByte env type) :=
    hs.toOpen.reaches_byte
  rw [hread] at hreaches
  refine ⟨_, hreaches, ⟨⟨⟨hs.status, hs.bulkRead⟩, rfl, rfl⟩, rfl, ?_, rfl,
    rfl, fun hne => absurd rfl hne, hs.dict, hs.dictLength, hs.currentSize,
    hs.primaryBytesRemaining, hs.delivered⟩⟩
  dsimp only
  split <;> exact ParserBlock.noConfusion

theorem InBlock.hasLeft (hs : InBlock b received size block stage s) (n : Nat) :
    s.HasLeft n :=
  ⟨hs.primaryBytesRemaining, fun hprimary => absurd hprimary hs.currentBlock⟩

theorem InBlock.remainingAfter_eq (hs : InBlock b received size block stage s) (n : Nat) :
    s.remainingAfter n = s.primaryBytesRemaining := if_neg hs.currentBlock

/-- The flags. -/
theorem InBlock.reaches_flags (env : ParserEnv) {flags : Nat} (hflags : flags < 2 ^ 7)
    (hs : InBlock b received size block .blockFlags s) :
    ∃ t, Reaches env s (sdnvWriteU32 flags) t ∧
      InBlock b received size { block with flags := flags }
        (if flags.testBit 6 then .blockEidRefCnt else .blockDataLength) t := by
  have hone : sdnvGetSizeU32 flags = 1 := by
    rw [sdnvGetSizeU32, if_pos]
    exact (and_eq_zero_iff (show flags < 2 ^ 32 by omega) (by decide) (by decide)).mpr hflags
  have hreaches : Reaches env s (sdnvWriteGeneric 1 flags)
      (Field.blockFlags.accept env s flags 1) :=
    Field.blockFlags.feed env Field.blockFlags_lawful
      ⟨hs.toOpen, hs.currentStage, hs.nextStage, hs.sdnvState⟩ (hs.hasLeft 1) (by decide)
      (by decide) (by show flags < 2 ^ 8; omega) (by omega)
  have haccept : Field.blockFlags.accept env s flags 1 =
      { s with
        block := { s.block with flags := flags }
        lastBlock := flags.testBit 3
        sdnvState := .reset
        nextStage := if flags.testBit 6 then .blockEidRefCnt else .blockDataLength
        currentStage := if flags.testBit 6 then .blockEidRefCnt else .blockDataLength } := by
    have hstatus := hs.status
    rw [Field.accept, hs.remainingAfter_eq]
    by_cases hbit : flags.testBit 6 = true
    · simp [Field.blockFlags, Field.reading, settle, hs.currentStage, hstatus, hbit,
        bundle6ParserNext, enterStage]
    · simp [Field.blockFlags, Field.reading, settle, hs.currentStage, hstatus, hbit,
        bundle6ParserNext, enterStage]
  have hbytes : sdnvWriteU32 flags = sdnvWriteGeneric 1 flags := by rw [sdnvWriteU32, hone]
  rw [haccept, ← hbytes] at hreaches
  refine ⟨_, hreaches, ⟨⟨⟨hs.status, hs.bulkRead⟩, rfl, rfl⟩, rfl, hs.currentBlock, hs.bundle, ?_,
    fun _ => rfl, hs.dict, hs.dictLength, hs.currentSize, hs.primaryBytesRemaining,
    hs.delivered⟩⟩
  dsimp only
  rw [hs.block]

/-- The number of the references takes the place of the size that was counted so far. -/
theorem InBlock.reaches_count (env : ParserEnv) {count : Nat} (hcount : count < 2 ^ 16)
    (hs : InBlock b received size block .blockEidRefCnt s) :
    ∃ t, Reaches env s (sdnvWriteU16 count) t ∧
      InBlock b received count block
        (if count = 0 then .blockDataLength else .blockEidRefSch) t ∧
      t.currentSize = count ∧ t.currentIndex = 0 := by
  obtain ⟨hgroups, hpos, hsize⟩ := sdnvGetSizeU16_spec hcount
  have hreaches := Field.eidRefCnt.feed env Field.eidRefCnt_lawful
    ⟨hs.toOpen, hs.currentStage, hs.nextStage, hs.sdnvState⟩
    (hs.hasLeft (sdnvGetSizeU16 count)) hpos (by show _ ≤ 4 + 1; omega)
    (by show count < 2 ^ 32; omega) hgroups
  have haccept : Field.eidRefCnt.accept env s count (sdnvGetSizeU16 count) =
      { s with
        currentSize := count
        currentIndex := 0
        sdnvState := .reset
        nextStage := if count = 0 then .blockDataLength else .blockEidRefSch
        currentStage := if count = 0 then .blockDataLength else .blockEidRefSch } := by
    have hstatus := hs.status
    rw [Field.accept, hs.remainingAfter_eq]
    by_cases hzero : count = 0
    · simp [Field.eidRefCnt, Field.reading, settle, hs.currentStage, hstatus, hzero,
        bundle6ParserNext, enterStage]
    · simp [Field.eidRefCnt, Field.reading, settle, hs.currentStage, hstatus, hzero,
        bundle6ParserNext, enterStage]
  rw [haccept] at hreaches
  have hlast := hs.lastBlock Stage.noConfusion
  exact ⟨_, hreaches, ⟨⟨⟨hs.status, hs.bulkRead⟩, rfl, rfl⟩, rfl, hs.currentBlock, hs.bundle,
    hs.block, fun _ => hlast, hs.dict, hs.dictLength, Nat.le_refl _, hs.primaryBytesRemaining,
    hs.delivered⟩, rfl, rfl⟩

theorem pushEidRef_eq (hmem : ∀ n, env.mem n = true) {info : EidInfo}
    (hinfo : Readable b.dictionaryBytes info) (hdict : s.dict = b.dictionaryBytes)
    (hlength : s.dictLength = b.dictionaryBytes.length)
    (href : s.curEidref = ⟨info.dictSchemeOffset, info.dictSspOffset⟩)
    (hindex : s.currentIndex + 1 < 2 ^ 32) :
    Field.pushEidRef env s =
      { s with
        currentIndex := s.currentIndex + 1
        block := { s.block with eidRefs := info.str :: s.block.eidRefs }
        nextStage := if s.currentIndex + 1 = s.currentSize then .blockDataLength else s.nextStage
        allocations := s.allocations + 2 } := by
  have hread : ({ s with allocations := s.allocations + 1 } : Parser).readEid env s.curEidref =
      (some info.str, { s with allocations := s.allocations + 2 }) := by
    rw [show s.curEidref = ({ s with allocations := s.allocations + 1 } : Parser).curEidref from
      rfl, show ({ s with allocations := s.allocations + 1 } : Parser).curEidref =
        ⟨info.dictSchemeOffset, info.dictSspOffset⟩ from href]
    exact readEid_of_readable hmem hdict hlength hinfo
  have hmod : (s.currentIndex + 1) % 2 ^ 32 = s.currentIndex + 1 := Nat.mod_eq_of_lt hindex
  unfold Field.pushEidRef alloc
  simp only [hmem, Bool.not_true, Bool.false_eq_true, if_false, hread, hmod]
  split <;> rfl

/-- One reference. -/
theorem InBlock.reaches_ref (hmem : ∀ n, env.mem n = true) {info : EidInfo}
    (hinfo : Readable b.dictionaryBytes info)
    (hoffsets : info.dictSchemeOffset < 2 ^ 16 ∧ info.dictSspOffset < 2 ^ 16)
    (hs : InBlock b received size block .blockEidRefSch s)
    (hindex : s.currentIndex < s.currentSize) (hlt : s.currentSize < 2 ^ 16) :
    ∃ t, Reaches env s (serializeOffsets info) t ∧
      InBlock b received size { block with eidRefs := info.str :: block.eidRefs }
        (if s.currentIndex + 1 = s.currentSize then .blockDataLength else .blockEidRefSch) t ∧
      t.currentSize = s.currentSize ∧ t.currentIndex = s.currentIndex + 1 := by
  obtain ⟨hscheme, hssp⟩ := hoffsets
  obtain ⟨hgroups, hpos, hsize⟩ := sdnvGetSizeU16_spec hssp
  have hfirst := (Entry.fits_u16 Field.eidRefSch_lawful ⟨rfl, rfl⟩ ⟨by decide, fun _ _ => rfl⟩
    hscheme).feed env ⟨hs.toOpen, hs.currentStage, hs.nextStage, hs.sdnvState⟩ (hs.hasLeft _)
  generalize hstate : ({ s with
    curEidref := { s.curEidref with schemeOffset := info.dictSchemeOffset }
    nextStage := .blockEidRefSsp
    currentStage := .blockEidRefSsp
    sdnvState := .reset } : Parser) = t
  have hfirst' : Reaches env s (sdnvWriteU16 info.dictSchemeOffset) t := by
    rw [← hstate]
    rw [show (Entry.u16 Field.eidRefSch .blockEidRefSsp info.dictSchemeOffset).size =
      sdnvGetSizeU16 info.dictSchemeOffset from rfl, hs.remainingAfter_eq] at hfirst
    exact hfirst
  have ht : InBlock b received size block .blockEidRefSsp t := by
    have hlast := hs.lastBlock Stage.noConfusion
    rw [← hstate]
    exact ⟨⟨⟨hs.status, hs.bulkRead⟩, rfl, rfl⟩, rfl, hs.currentBlock, hs.bundle, hs.block,
      fun _ => hlast, hs.dict, hs.dictLength, hs.currentSize, hs.primaryBytesRemaining,
      hs.delivered⟩
  have hsecond := Field.eidRefSsp.feed env Field.eidRefSsp_lawful
    ⟨ht.toOpen, ht.currentStage, ht.nextStage, ht.sdnvState⟩ (ht.hasLeft _) hpos
    (by show _ ≤ 2 + 1; omega) hssp hgroups
  have hindex' : t.currentIndex = s.currentIndex ∧ t.currentSize = s.currentSize ∧
      t.curEidref.schemeOffset = info.dictSchemeOffset := by
    rw [← hstate]
    exact ⟨rfl, rfl, rfl⟩
  obtain ⟨hindex', hsize', hscheme'⟩ := hindex'
  have haccept : Field.eidRefSsp.accept env t info.dictSspOffset
      (sdnvGetSizeU16 info.dictSspOffset) =
      { t with
        curEidref := ⟨info.dictSchemeOffset, info.dictSspOffset⟩
        currentIndex := t.currentIndex + 1
        block := { t.block with eidRefs := info.str :: t.block.eidRefs }
        sdnvState := .reset
        nextStage := if t.currentIndex + 1 = t.currentSize then .blockDataLength
          else .blockEidRefSch
        currentStage := if t.currentIndex + 1 = t.currentSize then .blockDataLength
          else .blockEidRefSch
        allocations := t.allocations + 2 } := by
    have hstatus := ht.status
    rw [Field.accept, ht.remainingAfter_eq]
    show (Field.pushEidRef env { t with
      curEidref := { t.curEidref with sspOffset := info.dictSspOffset }
      sdnvState := ⟨.done, sdnvGetSizeU16 info.dictSspOffset⟩
      nextStage := .blockEidRefSch }).settle env = _
    rw [pushEidRef_eq hmem hinfo (by exact ht.dict) (by exact ht.dictLength)
      (by
        dsimp only
        rw [hscheme']) (by show t.currentIndex + 1 < _; omega)]
    by_cases hend : t.currentIndex + 1 = t.currentSize
    · simp [settle, ht.currentStage, hstatus, hend, bundle6ParserNext, enterStage, hscheme']
    · simp [settle, ht.currentStage, hstatus, hend, bundle6ParserNext, enterStage, hscheme']
  rw [haccept] at hsecond
  have hlast := ht.lastBlock Stage.noConfusion
  rw [← hindex', ← hsize']
  refine ⟨_, hfirst'.append hsecond, ⟨⟨⟨ht.status, ht.bulkRead⟩, rfl, rfl⟩, rfl, ht.currentBlock,
    ht.bundle, ?_, fun _ => hlast, ht.dict, ht.dictLength, ht.currentSize,
    ht.primaryBytesRemaining, ht.delivered⟩, rfl, rfl⟩
  dsimp only
  rw [ht.block]

/-- The references that are left. -/
theorem InBlock.reaches_refs (hmem : ∀ n, env.mem n = true) {infos : List EidInfo}
    (hinfos : ∀ info ∈ infos, Readable b.dictionaryBytes info)
    (hoffsets : ∀ info ∈ infos, info.dictSchemeOffset < 2 ^ 16 ∧ info.dictSspOffset < 2 ^ 16)
    (hs : InBlock b received size block
      (if infos = [] then .blockDataLength else .blockEidRefSch) s)
    (hsize : s.currentSize = s.currentIndex + infos.length) (hlt : s.currentSize < 2 ^ 16) :
    ∃ t, Reaches env s (infos.flatMap serializeOffsets) t ∧
      InBlock b received size
        { block with eidRefs := (infos.map (·.str)).reverse ++ block.eidRefs } .blockDataLength
        t := by
  induction infos generalizing s block with
  | nil => exact ⟨s, .refl s, hs⟩
  | cons info infos ih =>
    rw [if_neg (List.cons_ne_nil info infos)] at hs
    rw [List.length_cons] at hsize
    obtain ⟨t, hreaches, ht, hsize', hindex'⟩ := hs.reaches_ref hmem (hinfos info List.mem_cons_self)
      (hoffsets info List.mem_cons_self) (by omega) hlt
    have hstage : (if s.currentIndex + 1 = s.currentSize then Stage.blockDataLength
        else .blockEidRefSch) = if infos = [] then .blockDataLength else .blockEidRefSch := by
      by_cases hnil : infos = []
      · rw [if_pos hnil, if_pos (by rw [hsize, hnil]; rfl)]
      · have hpos := List.length_pos_iff.mpr hnil
        rw [if_neg hnil, if_neg (by omega)]
    rw [hstage] at ht
    obtain ⟨u, hrest, hu⟩ := ih (fun i hi => hinfos i (List.mem_cons_of_mem _ hi))
      (fun i hi => hoffsets i (List.mem_cons_of_mem _ hi)) ht (by omega) (by omega)
    refine ⟨u, hreaches.append hrest, ?_⟩
    rw [List.map_cons, List.reverse_cons, List.append_assoc]
    exact hu

/-- The parser has requested the data of a block. -/
def awaitData (s : Parser) (length : Nat) : Parser :=
  { s with
    block := { s.block with length := length }
    currentIndex := 0
    curBytesRemaining := 0
    nextBytes := length
    currentSize := s.currentSize + length
    allocations := s.allocations + 1
    bulkRead := true
    nextStage := .blockData
    currentStage := .blockData
    sdnvState := ⟨.done, sdnvGetSizeU32 length⟩ }

theorem InBlock.reaches_length (hmem : ∀ n, env.mem n = true) {length : Nat}
    (hlength : length < 2 ^ 32) (hquota : size + length ≤ env.bundleQuota)
    (hbundleQuota : env.bundleQuota < 2 ^ 32)
    (hs : InBlock b received size block .blockDataLength s) :
    Reaches env s (sdnvWriteU32 length) (s.awaitData length) := by
  have hreaches := (Entry.fits_u32 Field.blockDataLength_lawful ⟨rfl, rfl⟩
    ⟨by decide, fun _ _ => rfl⟩ hlength).feed env
    ⟨hs.toOpen, hs.currentStage, hs.nextStage, hs.sdnvState⟩ (hs.hasLeft _)
  have hsize := hs.currentSize
  have hmod : (s.currentSize + length) % 4294967296 = s.currentSize + length :=
    Nat.mod_eq_of_lt (by omega)
  rw [show (Entry.u32 Field.blockDataLength .blockData length).size = sdnvGetSizeU32 length
    from rfl, hs.remainingAfter_eq] at hreaches
  have hnext : ({ s with
      block := { s.block with length := length }
      sdnvState := ⟨.done, sdnvGetSizeU32 length⟩
      nextStage := .blockData } : Parser).bundle6ParserNext env = s.awaitData length := by
    have hquota' : ¬ env.bundleQuota < s.currentSize + length := by omega
    simp [bundle6ParserNext, enterStage, enterBlockData, hmod, hquota', alloc, hmem, awaitData]
  rw [← hnext]
  exact hreaches

/-- The end of a block: the data, and the zero byte that says that they are there. -/
theorem InBlock.reaches_data (env : ParserEnv) (data : List UInt8)
    (hs : InBlock b received size block .blockDataLength s) :
    ∃ t, Reaches env (s.awaitData data.length) data t ∧
      (block.isLast = false →
        AtBlock b
          { received with
            blocks := received.blocks ++ [{ block with length := data.length, data := data }] }
          (size + data.length) t) ∧
      (block.isLast = true → received.payloadBlock.isSome = true →
        t.status = .done ∧ t.delivered =
          [{ received with
            blocks := received.blocks ++ [{ block with length := data.length, data := data }] }]) := by
  have hreaches : Reaches env (s.awaitData data.length) data
      ((s.awaitData data.length).completeBulk env data) := reaches_bulk hs.status rfl rfl
  have hlast := hs.lastBlock Stage.noConfusion
  have hgeneric := hs.currentBlock
  have hstatus := hs.status
  have hblock := hs.block
  have hbundle := hs.bundle
  have hdelivered := hs.delivered
  have hread : (s.awaitData data.length).completeBulk env data =
      ({ s.awaitData data.length with
        bulkRead := false
        block := { block with length := data.length, data := data }
        bundle := { received with
          blocks := received.blocks ++ [{ block with length := data.length, data := data }] }
        nextStage := if block.isLast then .done else .blockType } : Parser).bundle6ParserNext
          env := by
    unfold completeBulk bundle6ParserReadByte
    cases hend : block.isLast with
    | true =>
      simp [awaitData, hgeneric, readStage, endBlockData, hlast, hend, hblock, hbundle, hstatus]
    | false =>
      simp [awaitData, hgeneric, readStage, endBlockData, hlast, hend, hblock, hbundle, hstatus]
  rw [hread] at hreaches
  refine ⟨_, hreaches, fun hend => ?_, fun hend hpayload => ?_⟩
  · have hsize := hs.currentSize
    rw [hend]
    have hnext : ({ s.awaitData data.length with
        bulkRead := false
        block := { block with length := data.length, data := data }
        bundle := { received with
          blocks := received.blocks ++ [{ block with length := data.length, data := data }] }
        nextStage := .blockType } : Parser).bundle6ParserNext env =
        { s.awaitData data.length with
          bulkRead := false
          block := { block with length := data.length, data := data }
          bundle := { received with
            blocks := received.blocks ++ [{ block with length := data.length, data := data }] }
          nextStage := .blockType
          currentStage := .blockType
          currentBlock := .generic } := rfl
    rw [if_neg Bool.false_ne_true, hnext]
    refine ⟨⟨⟨hstatus, rfl⟩, rfl, rfl⟩, rfl, rfl, hs.dict, hs.dictLength, ?_,
      hs.primaryBytesRemaining, hdelivered⟩
    show s.currentSize + data.length ≤ size + data.length
    omega
  · rw [hend]
    simp [bundle6ParserNext, enterStage, sendBundle, hpayload, awaitData, hdelivered]

theorem InBlock.mono {larger : Nat} (hle : size ≤ larger)
    (hs : InBlock b received size block stage s) : InBlock b received larger block stage s :=
  { hs with currentSize := Nat.le_trans hs.currentSize hle }

end Parser

/-- The block as it is received: the references are the first ones of the bundle, the last one
first. -/
def Block.received (refs : List (List UInt8)) (block : Block) : Block :=
  { block with eidRefs := (refs.take block.eidRefs.length).reverse }

/-- The block is added to what is received. -/
def Bundle.addBlock (refs : List (List UInt8)) (received : Bundle) (block : Block) : Bundle :=
  { withType received block.type with blocks := received.blocks ++ [block.received refs] }

namespace Parser

variable {env : ParserEnv} {b received : Bundle} {block : Block} {size usage : Nat}
  {s : Parser} {stage : Stage}

theorem blocks_withType (received : Bundle) (type : UInt8) :
    (withType received type).blocks = received.blocks := by
  unfold withType
  split <;> rfl

/-- The offsets have 16 bits. -/
theorem offsets_lt {names : List (List UInt8)} {offset : Nat} {info : EidInfo}
    (hinfo : info ∈ (calculateEidInfos names offset).1) :
    info.dictSchemeOffset < 2 ^ 16 ∧ info.dictSspOffset < 2 ^ 16 := by
  induction names generalizing offset with
  | nil => cases hinfo
  | cons eid names ih =>
    rcases List.mem_cons.mp hinfo with rfl | hinfo
    · exact ⟨Nat.mod_lt _ (by decide), Nat.mod_lt _ (by decide)⟩
    · exact ih hinfo

/-- What a block takes of the quota. -/
def blockSize (block : Block) : Nat := block.eidRefs.length + block.length

theorem length_le_eidRefs (hblock : block ∈ b.blocks) :
    block.eidRefs.length ≤ b.eidRefs.length := by
  obtain ⟨front, back, hsplit⟩ := List.append_of_mem hblock
  rw [Bundle.eidRefs, hsplit, List.flatMap_append, List.flatMap_cons, List.length_append,
    List.length_append]
  omega

/-- The references of the block, from the flags to the length of the data. -/
theorem AtBlock.reaches_refs (henv : Suffices env b usage) (h : b.WellFormed)
    (hlength : b.bundle6CalculateDict.dictLengthBytes < 2 ^ 16)
    (hblock : block ∈ b.blocks) (hs : AtBlock b received size s) :
    ∃ t, Reaches env s ([block.type] ++ sdnvWriteU32 block.flags ++
        (if block.hasEidRefField then
          sdnvWriteU16 (block.eidRefs.length % 2 ^ 16) ++
            (b.bundle6CalculateDict.eidReferences.take block.eidRefs.length).flatMap
              serializeOffsets
        else [])) t ∧
      InBlock b (withType received block.type) (size + block.eidRefs.length)
        ⟨block.type, block.flags, (b.eidRefs.take block.eidRefs.length).reverse, 0, []⟩
        .blockDataLength t := by
  have hformed := h.blocks block hblock
  obtain ⟨t, hreaches, ht⟩ := hs.reaches_type henv.mem block.type
  obtain ⟨u, hreaches', hu⟩ := ht.reaches_flags env hformed.flags
  have hbit : block.flags.testBit 6 = block.hasEidRefField := rfl
  rw [hbit] at hu
  cases hflag : block.hasEidRefField with
  | false =>
    have hnone := hformed.unflagged hflag
    rw [hflag, if_neg Bool.false_ne_true] at hu
    rw [if_neg Bool.false_ne_true, List.append_nil, hnone]
    exact ⟨u, hreaches.append hreaches', hu⟩
  | true =>
    rw [hflag, if_pos rfl] at hu
    rw [if_pos rfl]
    have hle := le_dictLengthBytes b
    have hmem := length_le_eidRefs hblock
    have hmod : block.eidRefs.length % 2 ^ 16 = block.eidRefs.length :=
      Nat.mod_eq_of_lt (by omega)
    obtain ⟨v, hcount, hv, hsize, hindex⟩ := hu.reaches_count env
      (show block.eidRefs.length < 2 ^ 16 by omega)
    have htake : (b.bundle6CalculateDict.eidReferences.take block.eidRefs.length).length =
        block.eidRefs.length := by
      have hcount : b.bundle6CalculateDict.eidReferences.length = b.eidRefs.length := by
        rw [← Bundle.map_str_eidReferences, List.length_map]
      rw [List.length_take, hcount]
      omega
    have hnames : (b.bundle6CalculateDict.eidReferences.take block.eidRefs.length).map (·.str) =
        b.eidRefs.take block.eidRefs.length := by
      rw [List.map_take, Bundle.map_str_eidReferences]
    generalize hinfos : b.bundle6CalculateDict.eidReferences.take block.eidRefs.length = infos
      at htake hnames ⊢
    have hall : ∀ info ∈ infos, info ∈ (calculateEidInfos b.dictEids 0).1 := by
      intro info hinfo
      rw [← hinfos] at hinfo
      rw [Bundle.calculateEidInfos_dictEids]
      simp [List.mem_of_mem_take hinfo]
    have hstage : (if block.eidRefs.length = 0 then Stage.blockDataLength else .blockEidRefSch) =
        if infos = [] then .blockDataLength else .blockEidRefSch := by
      rw [← htake]
      simp only [List.length_eq_zero_iff]
    rw [hstage] at hv
    obtain ⟨w, hrefs, hw⟩ := hv.reaches_refs henv.mem
      (fun info hinfo => h.readable info (hall info hinfo))
      (fun info hinfo => offsets_lt (hall info hinfo)) (by omega) (by omega)
    rw [hnames, show (({ (Block.create block.type) with flags := block.flags } : Block).eidRefs) =
      [] from rfl, List.append_nil] at hw
    refine ⟨w, ?_, hw.mono (by omega)⟩
    rw [hmod]
    exact (hreaches.append hreaches').append (hcount.append hrefs)

/-- A whole block. -/
theorem AtBlock.reaches_block (henv : Suffices env b usage) (h : b.WellFormed)
    (hlength : b.bundle6CalculateDict.dictLengthBytes < 2 ^ 16) (hblock : block ∈ b.blocks)
    (hquota : size + blockSize block ≤ env.bundleQuota) (hs : AtBlock b received size s) :
    ∃ t, Reaches env s (serializeBlock b.bundle6CalculateDict block) t ∧
      (block.isLast = false →
        AtBlock b (received.addBlock b.eidRefs block) (size + blockSize block) t) ∧
      (block.isLast = true → (received.addBlock b.eidRefs block).payloadBlock.isSome = true →
        t.status = .done ∧ t.delivered = [received.addBlock b.eidRefs block]) := by
  have hformed := h.blocks block hblock
  unfold blockSize at hquota ⊢
  obtain ⟨t, hhead, ht⟩ := hs.reaches_refs henv h hlength hblock
  have hmid := ht.reaches_length henv.mem hformed.length_lt (by omega) henv.bundleQuota
  obtain ⟨u, hdata, hnext, hend⟩ := ht.reaches_data env block.data
  rw [hformed.length] at hdata hnext hend
  have hadd : received.addBlock b.eidRefs block = { withType received block.type with
      blocks := (withType received block.type).blocks ++
        [⟨block.type, block.flags, (b.eidRefs.take block.eidRefs.length).reverse, block.length,
          block.data⟩] } := by
    rw [blocks_withType]
    rfl
  refine ⟨u, ?_, fun hlast => ?_, fun hlast hpayload => ?_⟩
  · have hall := (hhead.append hmid).append hdata
    exact hall
  · rw [hadd, ← Nat.add_assoc]
    exact hnext hlast
  · have hsome : (withType received block.type).payloadBlock.isSome = true := by
      rw [hadd] at hpayload
      exact hpayload
    rw [hadd]
    exact hend hlast hsome

/-- The blocks before the last one. -/
theorem AtBlock.reaches_blocks (henv : Suffices env b usage) (h : b.WellFormed)
    (hlength : b.bundle6CalculateDict.dictLengthBytes < 2 ^ 16) {blocks : List Block}
    (hblocks : ∀ block ∈ blocks, block ∈ b.blocks ∧ block.isLast = false)
    (hquota : size + (blocks.map blockSize).sum ≤ env.bundleQuota)
    (hs : AtBlock b received size s) :
    ∃ t, Reaches env s (blocks.flatMap (serializeBlock b.bundle6CalculateDict)) t ∧
      AtBlock b (blocks.foldl (Bundle.addBlock b.eidRefs) received)
        (size + (blocks.map blockSize).sum) t := by
  induction blocks generalizing s received size with
  | nil => exact ⟨s, .refl s, hs⟩
  | cons block blocks ih =>
    rw [List.map_cons, List.sum_cons] at hquota ⊢
    obtain ⟨hblock, hlast⟩ := hblocks block List.mem_cons_self
    obtain ⟨t, hreaches, hnext, -⟩ := hs.reaches_block henv h hlength hblock (by omega)
    obtain ⟨u, hrest, hu⟩ := ih (fun x hx => hblocks x (List.mem_cons_of_mem _ hx)) (by omega)
      (hnext hlast)
    rw [← Nat.add_assoc]
    exact ⟨u, hreaches.append hrest, hu⟩

end Parser

namespace Bundle

open Upcn.Bundle6.Parser (withType)

variable {b : Bundle}

/-- What the blocks add to a bundle, when the block at `i` is the payload block. -/
theorem foldl_addBlock (refs : List (List UInt8)) (blocks : List Block) (received : Bundle)
    (i : Nat) (hpayload : ∀ j block, blocks[j]? = some block →
      (block.type = 1 ↔ received.blocks.length + j = i)) :
    blocks.foldl (addBlock refs) received =
      { received with
        blocks := received.blocks ++ blocks.map (Block.received refs)
        payloadBlock := if received.blocks.length ≤ i ∧
            i < received.blocks.length + blocks.length then some i
          else received.payloadBlock } := by
  induction blocks generalizing received with
  | nil =>
    have hnone : ¬ (received.blocks.length ≤ i ∧
        i < received.blocks.length + ([] : List Block).length) := by
      simp only [List.length_nil]
      omega
    rw [if_neg hnone, List.map_nil, List.append_nil]
    rfl
  | cons block blocks ih =>
    have hfirst := hpayload 0 block rfl
    have hlength : (received.addBlock refs block).blocks.length = received.blocks.length + 1 := by
      rw [addBlock, List.length_append]
      rfl
    have hrest := ih (received.addBlock refs block) fun j x hx => by
      rw [hlength, hpayload (j + 1) x hx]
      omega
    rw [List.foldl_cons, hrest, hlength, List.length_cons]
    by_cases htype : block.type = 1
    · have hi := hfirst.mp htype
      have hadd : received.addBlock refs block =
          { received with
            payloadBlock := some received.blocks.length
            blocks := received.blocks ++ [block.received refs] } := by
        rw [addBlock, withType, if_pos htype]
      rw [if_neg (by omega), if_pos (by omega), hadd, List.map_cons, List.append_assoc, ← hi]
      rfl
    · have hi : received.blocks.length ≠ i := fun heq => htype (hfirst.mpr heq)
      have hadd : received.addBlock refs block =
          { received with blocks := received.blocks ++ [block.received refs] } := by
        rw [addBlock, withType, if_neg htype]
      have hiff : (received.blocks.length + 1 ≤ i ∧
            i < received.blocks.length + 1 + blocks.length) ↔
          (received.blocks.length ≤ i ∧ i < received.blocks.length + (blocks.length + 1)) := by
        omega
      simp only [hiff, hadd, List.map_cons, List.append_assoc, List.singleton_append]

/-- The bundle as it is received. -/
def received (b : Bundle) : Bundle := { b with blocks := b.blocks.map (.received b.eidRefs) }

theorem WellFormed.foldl_blocks (h : b.WellFormed) :
    b.blocks.foldl (addBlock b.eidRefs) { b with blocks := [], payloadBlock := none } =
      b.received := by
  obtain ⟨i, hi, hlt, hpayload⟩ := h.payload
  have hfold := foldl_addBlock b.eidRefs b.blocks
    { b with blocks := [], payloadBlock := none } i fun j block hblock => by
      rw [hpayload j block hblock]
      show j = i ↔ 0 + j = i
      omega
  have hrange : 0 ≤ i ∧ i < 0 + b.blocks.length := by omega
  rw [hfold]
  dsimp only [List.length_nil]
  rw [if_pos hrange, ← hi]
  rfl

end Bundle

/-! ## The whole bundle -/

namespace Parser

variable {env : ParserEnv} {b : Bundle} {usage : Nat}

theorem sum_blockSize (blocks : List Block) :
    (blocks.map blockSize).sum =
      (blocks.map (·.length)).sum + (blocks.flatMap (·.eidRefs)).length := by
  induction blocks with
  | nil => rfl
  | cons block blocks ih =>
    simp only [List.map_cons, List.sum_cons, List.flatMap_cons, List.length_append, ih, blockSize]
    omega

theorem flatMap_offsetEntries (b : Bundle) : b.offsetEntries.flatMap Entry.bytes =
    serializeOffsets b.bundle6CalculateDict.destinationEidInfo ++
      serializeOffsets b.bundle6CalculateDict.sourceEidInfo ++
      serializeOffsets b.bundle6CalculateDict.reportToEidInfo ++
      serializeOffsets b.bundle6CalculateDict.custodianEidInfo ++
      sdnvWriteU64 b.creationTimestamp ++ sdnvWriteU64 b.sequenceNumber := by
  simp only [Bundle.offsetEntries, List.flatMap_cons, List.flatMap_nil, List.append_nil,
    List.append_assoc, serializeOffsets]
  rfl

theorem bundle6Serialize_eq (h : b.WellFormed)
    (hlength : b.bundle6CalculateDict.dictLengthBytes < 2 ^ 16) :
    bundle6Serialize b = b.headBytes ++ (b.dictionaryBytes ++ b.fragmentBytes) ++
      b.blocks.flatMap (serializeBlock b.bundle6CalculateDict) := by
  have hmod : b.bundle6CalculateDict.dictLengthBytes % 2 ^ 16 =
      b.bundle6CalculateDict.dictLengthBytes := Nat.mod_eq_of_lt hlength
  unfold bundle6Serialize Bundle.headBytes
  dsimp only
  rw [h.procFlags, hmod, flatMap_offsetEntries]
  simp only [List.append_assoc]
  rfl

/-- When the header fits, the parser comes to the end of the bundle. -/
theorem reaches_bundle (henv : Suffices env b usage) (h : b.WellFormed)
    (hlength : b.bundle6CalculateDict.dictLengthBytes < 2 ^ 16)
    (hroom : b.restSize ≤ b.primaryBlockLength) :
    ∃ t, Reaches env (.init usage) (bundle6Serialize b) t ∧ t.status = .done ∧
      t.delivered = [b.received] := by
  obtain ⟨s, hhead, hs⟩ := reaches_dictionary henv h hlength (by
    unfold Bundle.restSize at hroom
    omega)
  obtain ⟨d, hdict, hd⟩ := reaches_dictionaryBytes henv h hroom hs
  obtain ⟨t, hfragment, ht⟩ := hd.reaches_firstBlock env h
  obtain ⟨front, last, hblocks, hlast, hfront⟩ := h.lastBlock
  have hquota := henv.quota
  have hsum := sum_blockSize b.blocks
  rw [← Bundle.eidRefs] at hsum
  have hsplit : (b.blocks.map blockSize).sum = (front.map blockSize).sum + blockSize last := by
    rw [hblocks, List.map_append, List.sum_append]
    rfl
  have hmem : ∀ block ∈ front, block ∈ b.blocks ∧ block.isLast = false := fun x hx =>
    ⟨by rw [hblocks]; simp [hx], hfront x hx⟩
  have hmem' : last ∈ b.blocks := by
    rw [hblocks]
    simp
  obtain ⟨u, hreaches, hu⟩ := ht.reaches_blocks henv h hlength hmem (by omega)
  obtain ⟨v, hend, -, hv⟩ := hu.reaches_block henv h hlength hmem' (by omega)
  have hreceived : (front.foldl (Bundle.addBlock b.eidRefs)
      { b with blocks := [], payloadBlock := none }).addBlock b.eidRefs last = b.received := by
    rw [← h.foldl_blocks, hblocks, List.foldl_append]
    rfl
  rw [hreceived] at hv
  obtain ⟨i, hi, -⟩ := h.payload
  obtain ⟨hstatus, hdelivered⟩ := hv hlast (by
    show b.payloadBlock.isSome = true
    rw [hi]
    rfl)
  refine ⟨v, ?_, hstatus, hdelivered⟩
  rw [bundle6Serialize_eq h hlength, hblocks, List.flatMap_append, List.flatMap_cons,
    List.flatMap_nil, List.append_nil]
  exact (hhead.append (hdict.append hfragment)).append (hreaches.append hend)

/-! ## A header that does not fit -/

theorem rejects_dictionary (h : b.WellFormed) {s : Parser} (hs : AtDictionary b usage s)
    (hshort : s.primaryBytesRemaining < b.bundle6CalculateDict.dictLengthBytes) :
    Rejects env s b.dictionaryBytes := by
  have hdict := Bundle.length_dictionaryBytes fun block hblock => (h.blocks block hblock).unflagged
  have hlt : s.primaryBytesRemaining < 2 ^ 16 := by
    have := hs.primaryBytesRemaining
    have := h.primaryBlockLength
    omega
  generalize hk : s.primaryBytesRemaining = k at hshort hlt
  have htake : (b.dictionaryBytes.take k).length = k := by
    rw [List.length_take]
    omega
  have hcur := hs.curBytesRemaining
  have hreaches : Reaches env s (b.dictionaryBytes.take k)
      (s.dictRead (b.dictionaryBytes.take k)) :=
    reaches_dictRead hs.toWaits hs.currentBlock (by omega) (by omega) (by omega)
  have hdrop : b.dictionaryBytes.drop k ≠ [] := by
    intro hnil
    have hle := List.drop_eq_nil_iff.mp hnil
    omega
  have hknown : (s.dictRead (b.dictionaryBytes.take k)).lengthKnown = true := by
    unfold lengthKnown
    rw [show (s.dictRead (b.dictionaryBytes.take k)).currentStage = .dictionary from
      hs.currentStage]
  have hzero : (s.dictRead (b.dictionaryBytes.take k)).primaryBytesRemaining = 0 := by
    rw [dictRead]
    dsimp only
    omega
  have hrejects : Rejects env (s.dictRead (b.dictionaryBytes.take k)) (b.dictionaryBytes.drop k) :=
    Field.rejects_exhausted ⟨hs.status, hs.bulkRead⟩ hs.currentBlock hknown hzero hdrop
  have hall := hreaches.rejects hrejects
  rwa [List.take_append_drop] at hall

/-- The row of the offsets does not fit. -/
theorem rejects_offsets (env : ParserEnv) (usage : Nat) (h : b.WellFormed)
    (hshort : b.primaryBlockLength < Entry.totalSize b.offsetEntries) :
    Rejects env (behindLength b usage) (b.offsetEntries.flatMap Entry.bytes) := by
  have hchain : Entry.Chained .destinationEidScheme b.offsetEntries .lifetime :=
    ⟨rfl, rfl, rfl, rfl, rfl, rfl, rfl, rfl, rfl, rfl, rfl⟩
  have hknown : ∀ (s : Parser) (e : Entry), e ∈ b.offsetEntries →
      s.currentStage = e.field.stage → s.lengthKnown = true := by
    intro s e he hstage
    unfold lengthKnown
    rw [hstage]
    simp only [Bundle.offsetEntries, List.mem_cons, List.not_mem_nil, or_false] at he
    rcases he with rfl | rfl | rfl | rfl | rfl | rfl | rfl | rfl | rfl | rfl <;> rfl
  exact Entry.reject_entries env h.offsetEntries_fit hknown hchain (s := behindLength b usage)
    ⟨rfl, rfl⟩ rfl rfl rfl rfl h.primaryBlockLength hshort

theorem rejects_lifetime (env : ParserEnv) (usage : Nat) {remaining : Nat} (h : b.WellFormed)
    (hlt : remaining < 2 ^ 16)
    (hshort : remaining < sdnvGetSizeU64 (b.lifetime / 1000000)) :
    Rejects env (behindSequenceNum b usage remaining)
      (sdnvWriteU64 (b.lifetime / 1000000)) := by
  have hvalue : b.lifetime / 1000000 < 2 ^ 64 :=
    Nat.lt_of_le_of_lt (Nat.div_le_self b.lifetime 1000000) h.lifetime
  obtain ⟨hgroups, -, hsize⟩ := sdnvGetSizeU64_spec hvalue
  exact Field.lifetime.rejects env Field.lifetime_lawful
    (s := behindSequenceNum b usage remaining) ⟨⟨rfl, rfl⟩, rfl, rfl, rfl⟩ rfl rfl hlt hshort
    hsize hvalue hgroups

theorem rejects_dictLength (env : ParserEnv) (usage : Nat) {remaining length : Nat}
    (hlength : length < 2 ^ 16) (hlt : remaining < 2 ^ 16)
    (hshort : remaining < sdnvGetSizeU16 length) :
    Rejects env (behindLifetime b usage remaining) (sdnvWriteU16 length) := by
  obtain ⟨hgroups, -, hsize⟩ := sdnvGetSizeU16_spec hlength
  exact Field.dictLength.rejects env Field.dictLength_lawful
    (s := behindLifetime b usage remaining) ⟨⟨rfl, rfl⟩, rfl, rfl, rfl⟩ rfl rfl hlt hshort
    hsize hlength hgroups

/-- A dictionary without a byte. -/
theorem rejects_noDictionary (env : ParserEnv) (usage : Nat) {remaining : Nat}
    (hlt : remaining < 2 ^ 16) (hroom : sdnvGetSizeU16 0 ≤ remaining) :
    Rejects env (behindLifetime b usage remaining) (sdnvWriteU16 0) := by
  have hreaches := (Entry.fits_u16 Field.dictLength_lawful ⟨rfl, rfl⟩ ⟨by decide, fun _ _ => rfl⟩
    (show 0 < 2 ^ 16 by omega)).feed env (s := behindLifetime b usage remaining)
    ⟨⟨rfl, rfl⟩, rfl, rfl, rfl⟩ ⟨hlt, fun _ _ => hroom⟩
  exact fun rest => ⟨_, rest, hreaches rest, rfl⟩

/-- The header does not fit, when its length is less than that of the dictionary. -/
theorem rejects_bundle (henv : Suffices env b usage) (h : b.WellFormed)
    (hshort : b.primaryBlockLength < b.bundle6CalculateDict.dictLengthBytes) :
    Rejects env (.init usage) (bundle6Serialize b) := by
  have hlt := h.primaryBlockLength
  have hdictionary := h.dictionary
  by_cases hfits : b.bundle6CalculateDict.dictLengthBytes < 2 ^ 16 ∧
      b.fieldsSize ≤ b.primaryBlockLength
  · -- the header ends in the dictionary
    obtain ⟨s, hhead, hs⟩ := reaches_dictionary henv h hfits.1 hfits.2
    have hremaining := hs.primaryBytesRemaining
    have hdict : Rejects env s b.dictionaryBytes := rejects_dictionary h hs (by omega)
    rw [bundle6Serialize_eq h hfits.1, List.append_assoc, List.append_assoc]
    exact hhead.rejects (hdict.append _)
  obtain ⟨more, hbytes⟩ : ∃ more, bundle6Serialize b =
      ([b.protocolVersion] ++ sdnvWriteU32 b.procFlags ++ sdnvWriteU32 b.primaryBlockLength) ++
        (b.offsetEntries.flatMap Entry.bytes ++ (sdnvWriteU64 (b.lifetime / 1000000) ++
          (sdnvWriteU16 (b.bundle6CalculateDict.dictLengthBytes % 2 ^ 16) ++
            (b.dictionaryBytes ++ more)))) := by
    refine ⟨b.fragmentBytes ++ b.blocks.flatMap (serializeBlock b.bundle6CalculateDict), ?_⟩
    unfold bundle6Serialize
    dsimp only
    rw [h.procFlags, flatMap_offsetEntries]
    simp only [List.append_assoc]
    rfl
  rw [hbytes]
  refine (reaches_behindLength env usage h).rejects ?_
  rcases Nat.lt_or_ge b.primaryBlockLength (Entry.totalSize b.offsetEntries) with hless | hoffsets
  · exact (rejects_offsets env usage h hless).append _
  refine (reaches_behindSequenceNum env usage h hoffsets).rejects ?_
  generalize hremaining : b.primaryBlockLength - Entry.totalSize b.offsetEntries = remaining
  rcases Nat.lt_or_ge remaining (sdnvGetSizeU64 (b.lifetime / 1000000)) with hless | hlifetime
  · exact (rejects_lifetime env usage h (by omega) hless).append _
  refine (reaches_behindLifetime env usage h (by omega) hlifetime).rejects ?_
  rcases Nat.lt_or_ge (remaining - sdnvGetSizeU64 (b.lifetime / 1000000))
    (sdnvGetSizeU16 (b.bundle6CalculateDict.dictLengthBytes % 2 ^ 16)) with hless | hdictLength
  · exact (rejects_dictLength env usage (Nat.mod_lt _ (by decide)) (by omega) hless).append _
  rcases Nat.lt_or_ge b.bundle6CalculateDict.dictLengthBytes (2 ^ 16) with hlength | hlength
  · have hmod : b.bundle6CalculateDict.dictLengthBytes % 2 ^ 16 =
        b.bundle6CalculateDict.dictLengthBytes := Nat.mod_eq_of_lt hlength
    rw [hmod] at hdictLength
    refine absurd ⟨hlength, ?_⟩ hfits
    unfold Bundle.fieldsSize
    omega
  · have hfull : b.bundle6CalculateDict.dictLengthBytes % 2 ^ 16 = 0 := by omega
    rw [hfull] at hdictLength ⊢
    exact (rejects_noDictionary env usage (by omega) hdictLength).append _

end Parser

/-! ## The result -/

/-- What is written for the bundle is received as this bundle, and to the last byte. -/
def RoundTrips (env : ParserEnv) (usage : Nat) (b : Bundle) : Prop :=
  ((Parser.init usage).bundle6ParserRead env (bundle6Serialize b)).2 = [] ∧
    (((Parser.init usage).bundle6ParserRead env (bundle6Serialize b)).1.completeEmptyBulk
      env).status = .done ∧
    (((Parser.init usage).bundle6ParserRead env (bundle6Serialize b)).1.completeEmptyBulk
      env).delivered = [b]

variable {env : ParserEnv} {b : Bundle} {usage : Nat}

theorem Bundle.WellFormed.recalculate (h : b.WellFormed) : b.bundle6RecalculateHeaderLength.WellFormed :=
  { h with primaryBlockLength := Nat.mod_lt _ (by decide) }

/-- The length of the header counts what is before its length, too. -/
theorem restSize_recalculate (hlength : b.bundle6CalculateDict.dictLengthBytes < 2 ^ 16) :
    b.bundle6RecalculateHeaderLength.restSize +
      (1 + sdnvGetSizeU32 b.procFlags + sdnvGetSizeU32 b.primaryBlockLength) =
      b.headerLength := by
  have hmod : b.bundle6CalculateDict.dictLengthBytes % 2 ^ 32 =
    b.bundle6CalculateDict.dictLengthBytes := Nat.mod_eq_of_lt (by omega)
  have hoffsets : ∀ eid length,
      sdnvGetSizeU32 (calculateEidInfo eid length).1.dictSchemeOffset =
        sdnvGetSizeU16 (calculateEidInfo eid length).1.dictSchemeOffset ∧
      sdnvGetSizeU32 (calculateEidInfo eid length).1.dictSspOffset =
        sdnvGetSizeU16 (calculateEidInfo eid length).1.dictSspOffset := fun eid length =>
    ⟨sdnvGetSizeU32_eq_U16 (Nat.mod_lt _ (by decide)),
      sdnvGetSizeU32_eq_U16 (Nat.mod_lt _ (by decide))⟩
  obtain ⟨hdestination, hdestination'⟩ :
      sdnvGetSizeU32 b.bundle6CalculateDict.destinationEidInfo.dictSchemeOffset =
        sdnvGetSizeU16 b.bundle6CalculateDict.destinationEidInfo.dictSchemeOffset ∧
      sdnvGetSizeU32 b.bundle6CalculateDict.destinationEidInfo.dictSspOffset =
        sdnvGetSizeU16 b.bundle6CalculateDict.destinationEidInfo.dictSspOffset := hoffsets _ _
  obtain ⟨hsource, hsource'⟩ :
      sdnvGetSizeU32 b.bundle6CalculateDict.sourceEidInfo.dictSchemeOffset =
        sdnvGetSizeU16 b.bundle6CalculateDict.sourceEidInfo.dictSchemeOffset ∧
      sdnvGetSizeU32 b.bundle6CalculateDict.sourceEidInfo.dictSspOffset =
        sdnvGetSizeU16 b.bundle6CalculateDict.sourceEidInfo.dictSspOffset := hoffsets _ _
  obtain ⟨hreportTo, hreportTo'⟩ :
      sdnvGetSizeU32 b.bundle6CalculateDict.reportToEidInfo.dictSchemeOffset =
        sdnvGetSizeU16 b.bundle6CalculateDict.reportToEidInfo.dictSchemeOffset ∧
      sdnvGetSizeU32 b.bundle6CalculateDict.reportToEidInfo.dictSspOffset =
        sdnvGetSizeU16 b.bundle6CalculateDict.reportToEidInfo.dictSspOffset := hoffsets _ _
  obtain ⟨hcustodian, hcustodian'⟩ :
      sdnvGetSizeU32 b.bundle6CalculateDict.custodianEidInfo.dictSchemeOffset =
        sdnvGetSizeU16 b.bundle6CalculateDict.custodianEidInfo.dictSchemeOffset ∧
      sdnvGetSizeU32 b.bundle6CalculateDict.custodianEidInfo.dictSspOffset =
        sdnvGetSizeU16 b.bundle6CalculateDict.custodianEidInfo.dictSspOffset := hoffsets _ _
  have hfragment : b.fragmentBytes.length = if b.isFragmented then
      sdnvGetSizeU32 b.fragmentOffset + sdnvGetSizeU32 b.totalAduLength else 0 := by
    unfold Bundle.fragmentBytes
    split <;> simp
  have htotal : Entry.totalSize b.offsetEntries =
      sdnvGetSizeU16 b.bundle6CalculateDict.destinationEidInfo.dictSchemeOffset +
      sdnvGetSizeU16 b.bundle6CalculateDict.destinationEidInfo.dictSspOffset +
      sdnvGetSizeU16 b.bundle6CalculateDict.sourceEidInfo.dictSchemeOffset +
      sdnvGetSizeU16 b.bundle6CalculateDict.sourceEidInfo.dictSspOffset +
      sdnvGetSizeU16 b.bundle6CalculateDict.reportToEidInfo.dictSchemeOffset +
      sdnvGetSizeU16 b.bundle6CalculateDict.reportToEidInfo.dictSspOffset +
      sdnvGetSizeU16 b.bundle6CalculateDict.custodianEidInfo.dictSchemeOffset +
      sdnvGetSizeU16 b.bundle6CalculateDict.custodianEidInfo.dictSspOffset +
      sdnvGetSizeU64 b.creationTimestamp + sdnvGetSizeU64 b.sequenceNumber := by
    simp only [Entry.totalSize, Bundle.offsetEntries, List.map_cons, List.map_nil, List.sum_cons,
      List.sum_nil, Entry.u16, Entry.u64]
    omega
  have hrest : b.bundle6RecalculateHeaderLength.restSize = b.restSize := rfl
  rw [hrest, Bundle.restSize, Bundle.fieldsSize, htotal, hfragment, Bundle.headerLength, hmod,
    sdnvGetSizeU32_eq_U16 hlength]
  generalize (if b.isFragmented then
    sdnvGetSizeU32 b.fragmentOffset + sdnvGetSizeU32 b.totalAduLength else 0) = fragment
  omega

/-- Besides the dictionary, the header has less than a hundred bytes. -/
theorem headerLength_lt (b : Bundle) :
    b.headerLength < b.bundle6CalculateDict.dictLengthBytes + 100 ∧
      b.bundle6CalculateDict.dictLengthBytes < b.headerLength := by
  have hfour : ∀ value, sdnvGetSizeU32 value ≤ 5 := fun value => by
    unfold sdnvGetSizeU32
    repeat' split
    all_goals omega
  have height : ∀ value, sdnvGetSizeU64 value ≤ 10 := fun value => by
    unfold sdnvGetSizeU64
    repeat' split
    all_goals omega
  have hfragment : (if b.isFragmented then
      sdnvGetSizeU32 b.fragmentOffset + sdnvGetSizeU32 b.totalAduLength else 0) ≤ 10 := by
    have hoffset := hfour b.fragmentOffset
    have hlength := hfour b.totalAduLength
    split_ifs <;> omega
  have hprocFlags := hfour b.procFlags
  have hblockLength := hfour b.primaryBlockLength
  have hdestination := hfour b.bundle6CalculateDict.destinationEidInfo.dictSchemeOffset
  have hdestination' := hfour b.bundle6CalculateDict.destinationEidInfo.dictSspOffset
  have hsource := hfour b.bundle6CalculateDict.sourceEidInfo.dictSchemeOffset
  have hsource' := hfour b.bundle6CalculateDict.sourceEidInfo.dictSspOffset
  have hreportTo := hfour b.bundle6CalculateDict.reportToEidInfo.dictSchemeOffset
  have hreportTo' := hfour b.bundle6CalculateDict.reportToEidInfo.dictSspOffset
  have hcustodian := hfour b.bundle6CalculateDict.custodianEidInfo.dictSchemeOffset
  have hcustodian' := hfour b.bundle6CalculateDict.custodianEidInfo.dictSspOffset
  have htimestamp := height b.creationTimestamp
  have hsequenceNumber := height b.sequenceNumber
  have hlifetime := height (b.lifetime / 1000000)
  have hdictLength := hfour (b.bundle6CalculateDict.dictLengthBytes % 2 ^ 32)
  unfold Bundle.headerLength
  dsimp only
  omega

theorem received_eq_iff (b : Bundle) : b.received = b ↔
    ∀ block ∈ b.blocks, block.eidRefs = (b.eidRefs.take block.eidRefs.length).reverse := by
  have hblock : ∀ block : Block, block.received b.eidRefs = block ↔
      block.eidRefs = (b.eidRefs.take block.eidRefs.length).reverse := by
    intro block
    constructor
    · exact fun h => (congrArg Block.eidRefs h).symm
    · intro h
      unfold Block.received
      rw [← h]
  have hmap : b.received = b ↔ b.blocks.map (Block.received b.eidRefs) = b.blocks.map id := by
    rw [List.map_id]
    constructor
    · exact fun h => congrArg Bundle.blocks h
    · intro h
      unfold Bundle.received
      rw [h]
  rw [hmap, List.map_inj_left]
  exact forall₂_congr fun block _ => hblock block

/-- The bundle comes back if and only if its header has less than 65536 bytes, and the
references of every block are the first ones of the bundle in the reverse order. -/
theorem bundle6RoundTrips_iff (env : ParserEnv) (usage : Nat) (b : Bundle) (h : b.WellFormed)
    (henv : Suffices env b usage) :
    RoundTrips env usage b.bundle6RecalculateHeaderLength ↔
      b.headerLength < 2 ^ 16 ∧ ∀ block ∈ b.blocks,
        block.eidRefs = (b.eidRefs.take block.eidRefs.length).reverse := by
  obtain ⟨hle, hge⟩ := headerLength_lt b
  have hdict := h.dictionary
  have henv' : Suffices env b.bundle6RecalculateHeaderLength usage := ⟨henv.mem, henv.quota,
    henv.bundleQuota⟩
  rcases Nat.lt_or_ge b.headerLength (2 ^ 16) with hheader | hheader
  · have hmod : b.bundle6RecalculateHeaderLength.primaryBlockLength = b.headerLength :=
      Nat.mod_eq_of_lt hheader
    have hrest := restSize_recalculate (b := b) (by omega)
    obtain ⟨t, hreaches, hstatus, hdelivered⟩ := reaches_bundle henv' h.recalculate
      (show b.bundle6CalculateDict.dictLengthBytes < 2 ^ 16 by omega) (by omega)
    obtain ⟨hcall, hleft⟩ := hreaches.read (valid_init usage) (by rw [hstatus]; exact
      ParserStatus.noConfusion)
    have hreceived := received_eq_iff b.bundle6RecalculateHeaderLength
    rw [RoundTrips, hcall, hleft, hstatus, hdelivered]
    constructor
    · rintro ⟨-, -, hsame⟩
      exact ⟨hheader, hreceived.mp (List.singleton_inj.mp hsame)⟩
    · rintro ⟨-, hrefs⟩
      exact ⟨rfl, rfl, by rw [hreceived.mpr hrefs]⟩
  · have hmod : b.bundle6RecalculateHeaderLength.primaryBlockLength = b.headerLength - 2 ^ 16 := by
      show b.headerLength % 2 ^ 16 = _
      omega
    have hrejects := rejects_bundle henv' h.recalculate (by
      rw [hmod]
      show b.headerLength - 2 ^ 16 < b.bundle6CalculateDict.dictLengthBytes
      omega)
    have herror := hrejects.read (valid_init usage)
    constructor
    · rintro ⟨-, hdone, -⟩
      rw [herror] at hdone
      cases hdone
    · rintro ⟨hlt, -⟩
      omega

/-- A bundle from `a:b` to `a:b`, whose payload block has these references. -/
def referringBundle (eidRefs : List (List UInt8)) : Bundle where
  protocolVersion := 6
  procFlags := 0
  primaryBlockLength := 0
  destination := [97, 58, 98]
  source := [97, 58, 98]
  reportTo := [97, 58, 98]
  currentCustodian := [97, 58, 98]
  creationTimestamp := 0
  sequenceNumber := 1
  lifetime := 1000000
  fragmentOffset := 0
  totalAduLength := 0
  blocks := [⟨1, 72, eidRefs, 1, [42]⟩]
  payloadBlock := some 0

theorem wellFormed_referringBundle (eidRefs : List (List UInt8))
    (heids : ∀ eid ∈ eidRefs, IsEid eid)
    (hdictionary : (referringBundle eidRefs).bundle6CalculateDict.dictLengthBytes ≤ 2 ^ 16) :
    (referringBundle eidRefs).WellFormed where
  version := rfl
  procFlags := (by decide : 0 &&& rfc5050Flags = 0)
  primaryBlockLength := (by decide : 0 < 2 ^ 16)
  eids := by
    intro eid heid
    simp only [referringBundle, List.mem_cons, List.not_mem_nil, or_false, or_self] at heid
    rw [heid]
    exact ⟨by decide, by decide⟩
  creationTimestamp := (by decide : 0 < 2 ^ 64)
  sequenceNumber := (by decide : 1 < 2 ^ 64)
  lifetime := (by decide : 1000000 < 2 ^ 64)
  wholeSeconds := (by decide : 1000000 ∣ 1000000)
  fragmentOffset := (by decide : 0 < 2 ^ 32)
  totalAduLength := (by decide : 0 < 2 ^ 32)
  unfragmented _ := ⟨rfl, rfl⟩
  dictionary := hdictionary
  blocks := by
    intro block hblock
    rw [List.mem_singleton.mp hblock]
    have hflagged : Nat.testBit 72 6 = true := by decide
    exact ⟨(by decide : 72 < 2 ^ 7), heids, fun h => absurd (hflagged.symm.trans h) (by decide),
      rfl, (by decide : 1 < 2 ^ 32)⟩
  lastBlock := ⟨[], _, rfl, (by decide : Nat.testBit 72 3 = true), fun _ h => by cases h⟩
  payload := by
    refine ⟨0, rfl, Nat.one_pos, fun j block hblock => ?_⟩
    cases j with
    | zero =>
      rw [← Option.some.inj hblock]
      exact iff_of_true rfl rfl
    | succ j => cases hblock

/-- Two references come back in the reverse order. -/
theorem roundTrips_twoRefs :
    (referringBundle [[97, 58, 98], [97, 58, 99]]).WellFormed ∧
      Suffices plainParserEnv (referringBundle [[97, 58, 98], [97, 58, 99]]) 0 ∧
      ¬ RoundTrips plainParserEnv 0
        (referringBundle [[97, 58, 98], [97, 58, 99]]).bundle6RecalculateHeaderLength := by
  refine ⟨wellFormed_referringBundle _ ?_ (by decide), ⟨fun _ => rfl, by decide, by decide⟩, ?_⟩
  · simp only [List.mem_cons, List.not_mem_nil, or_false, forall_eq_or_imp, forall_eq]
    exact ⟨⟨by decide, by decide⟩, ⟨by decide, by decide⟩⟩
  · rintro ⟨-, -, hdelivered⟩
    exact absurd hdelivered (by decide +kernel)

theorem bundle6RoundTrips_iff_oneRef : RoundTrips plainParserEnv 0
    (referringBundle [[97, 58, 98]]).bundle6RecalculateHeaderLength :=
  (bundle6RoundTrips_iff plainParserEnv 0 (referringBundle [[97, 58, 98]])
    (wellFormed_referringBundle _ (by
      simp only [List.mem_singleton, forall_eq]
      exact ⟨by decide, by decide⟩) (by decide))
    ⟨fun _ => rfl, by decide, by decide⟩).mpr ⟨by decide, by decide⟩

end Upcn.Bundle6
