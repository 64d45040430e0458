import Upcn.Bundle6.Parser

/-!
# The parser and the cut of the stream

`bundle6_parser_read` and the receive task complete a bulk read in their own
ways.  The library on readers says that this makes no difference, once the
parser is shown to keep the request and the stage together: `BULK_READ` is set in
`BLOCK_DATA` only, and the byte that completes it leaves that stage.
-/

namespace Upcn.Bundle6

namespace Parser

variable {env : ParserEnv} {s : Parser} {byte : UInt8}

/-- A bulk is requested in `PARSER_STAGE_BLOCK_DATA` only. -/
def Valid (s : Parser) : Prop := s.bulkRead = true → s.currentStage = .blockData

/-! ## What does not touch the request -/

@[simp] theorem bulkRead_alloc : (s.alloc env).2.bulkRead = s.bulkRead := rfl

@[simp] theorem bulkRead_fail : s.fail.bulkRead = s.bulkRead := rfl

@[simp] theorem bulkRead_waitForSdnv (nextStage : Stage) :
    (s.waitForSdnv nextStage).2.bulkRead = s.bulkRead := by
  unfold waitForSdnv
  split <;> rfl

@[simp] theorem bulkRead_readSdnv (s : Parser) (byte : UInt8)
    (read : SdnvState → Nat → UInt8 → SdnvState × Nat) (get : Parser → Nat)
    (set : Parser → Nat → Parser) (nextStage : Stage)
    (hset : ∀ value, (set s value).bulkRead = s.bulkRead) :
    (s.readSdnv read get set byte nextStage).2.bulkRead = s.bulkRead := by
  rw [readSdnv, bulkRead_waitForSdnv]
  exact hset _

@[simp] theorem bulkRead_readEid (ref : EidReference) :
    (s.readEid env ref).2.bulkRead = s.bulkRead := by
  unfold readEid
  split
  · rfl
  · dsimp only
    split
    · rfl
    · split <;> rfl

theorem bulkRead_readEids : (s.readEids env).bulkRead = s.bulkRead := by
  unfold readEids
  dsimp only
  split <;> simp

theorem bulkRead_beginBlock (type : UInt8) :
    (s.beginBlock env type).bulkRead = s.bulkRead := by
  unfold beginBlock
  dsimp only
  split
  · rfl
  · split <;> split <;> rfl

theorem bulkRead_readBlockFlags : (s.readBlockFlags byte).bulkRead = s.bulkRead := by
  unfold readBlockFlags
  have h := bulkRead_readSdnv s byte sdnvReadU8 (·.block.flags)
    (fun s value => { s with block := { s.block with flags := value } })
    .blockDataLength fun _ => rfl
  dsimp only
  split
  · split <;> exact h
  · exact h

theorem bulkRead_readEidRefCnt : (s.readEidRefCnt byte).bulkRead = s.bulkRead := by
  unfold readEidRefCnt
  have h := bulkRead_readSdnv s byte sdnvReadU32 (·.currentSize)
    (fun s value => { s with currentSize := value }) .blockEidRefSch fun _ => rfl
  dsimp only
  split
  · split <;> exact h
  · exact h

theorem bulkRead_readEidRefSsp : (s.readEidRefSsp env byte).bulkRead = s.bulkRead := by
  unfold readEidRefSsp
  have h := bulkRead_readSdnv s byte sdnvReadU16 (·.curEidref.sspOffset)
    (fun s value => { s with curEidref := { s.curEidref with sspOffset := value } })
    .blockEidRefSch fun _ => rfl
  dsimp only
  split
  · split
    · exact h
    · split
      · simp
      · split <;> simp
  · exact h

theorem bulkRead_readStage : (s.readStage env byte).bulkRead = s.bulkRead := by
  unfold readStage
  split
  case h_16 =>
    unfold readDictionary
    dsimp only
    split
    · exact bulkRead_readEids
    · rfl
  case h_19 => exact bulkRead_beginBlock byte
  case h_20 => exact bulkRead_readBlockFlags
  case h_21 => exact bulkRead_readEidRefCnt
  case h_23 => exact bulkRead_readEidRefSsp
  case h_25 =>
    unfold endBlockData
    split <;> rfl
  all_goals first
    | rfl
    | exact bulkRead_readSdnv _ _ _ _ _ _ fun _ => rfl

/-! ## Entering a stage -/

theorem enterDictionary_same : (s.enterDictionary env).bulkRead = s.bulkRead ∧
    (s.enterDictionary env).nextStage = s.nextStage := by
  unfold enterDictionary
  dsimp only
  split
  · exact ⟨rfl, rfl⟩
  · split
    · exact ⟨rfl, rfl⟩
    · split <;> exact ⟨rfl, rfl⟩

theorem nextStage_enterBlockData : (s.enterBlockData env).nextStage = s.nextStage := by
  unfold enterBlockData
  dsimp only
  split
  · rfl
  · split <;> rfl

theorem bulkRead_enterStage (h : s.nextStage ≠ .blockData) :
    (s.enterStage env).bulkRead = s.bulkRead := by
  unfold enterStage
  split
  case h_5 => exact enterDictionary_same.1
  case h_7 hstage => exact absurd hstage h
  all_goals rfl

theorem nextStage_enterStage : (s.enterStage env).nextStage = s.nextStage := by
  unfold enterStage
  split
  case h_5 => exact enterDictionary_same.2
  case h_7 => exact nextStage_enterBlockData
  all_goals rfl

theorem bulkRead_sendBundle : s.sendBundle.bulkRead = s.bulkRead := by
  unfold sendBundle
  split <;> rfl

theorem currentStage_sendBundle : s.sendBundle.currentStage = s.currentStage := by
  unfold sendBundle
  split <;> rfl

/-- The parser is in the stage that was next, and requests a bulk only in
`BLOCK_DATA`. -/
theorem bundle6ParserNext_spec (env : ParserEnv) (s : Parser) :
    (s.bundle6ParserNext env).currentStage = s.nextStage ∧
      (s.nextStage ≠ .blockData → (s.bundle6ParserNext env).bulkRead = s.bulkRead) := by
  unfold bundle6ParserNext
  dsimp only
  split
  · rw [currentStage_sendBundle, bulkRead_sendBundle]
    exact ⟨nextStage_enterStage, bulkRead_enterStage⟩
  · exact ⟨nextStage_enterStage, bulkRead_enterStage⟩

/-! ## One byte -/

theorem goOn_cases (r : Parser) :
    (if r.currentStage ≠ r.nextStage ∧ r.status ≠ .error then r.bundle6ParserNext env
      else r) = r ∨
      r.status ≠ .error ∧
        (if r.currentStage ≠ r.nextStage ∧ r.status ≠ .error then r.bundle6ParserNext env
          else r) = r.bundle6ParserNext env := by
  split
  · rename_i hnext
    exact .inr ⟨hnext.2, rfl⟩
  · exact .inl rfl

/-- What a byte does, without the count of the primary block: an error, or the
stage and perhaps the next one. -/
theorem readByte_cases (env : ParserEnv) (s : Parser) (byte : UInt8) :
    ((s.bundle6ParserReadByte env byte).status = .error ∧
        (s.bundle6ParserReadByte env byte).bulkRead = s.bulkRead) ∨
      ∃ r : Parser, r.currentStage = s.currentStage ∧ r.bulkRead = s.bulkRead ∧
        (s.bundle6ParserReadByte env byte = r.readStage env byte ∨
          (r.readStage env byte).status ≠ .error ∧
            s.bundle6ParserReadByte env byte
              = (r.readStage env byte).bundle6ParserNext env) := by
  unfold bundle6ParserReadByte
  split
  · exact .inl ⟨rfl, rfl⟩
  · refine .inr ⟨if s.currentBlock = .primary then
        { s with
          primaryBytesRemaining := (s.primaryBytesRemaining + (2 ^ 16 - 1)) % 2 ^ 16 }
      else s, ?_, ?_, ?_⟩
    · split <;> rfl
    · split <;> rfl
    · exact goOn_cases _

theorem readByte_valid (h : s.bulkRead = false) :
    (s.bundle6ParserReadByte env byte).Valid := by
  intro hbulk
  rcases readByte_cases env s byte with ⟨-, hsame⟩ | ⟨r, -, hr, hread | ⟨-, hnext⟩⟩
  · rw [hsame, h] at hbulk
    cases hbulk
  · rw [hread, bulkRead_readStage, hr, h] at hbulk
    cases hbulk
  · obtain ⟨hstage, hkeep⟩ := bundle6ParserNext_spec env
      (r.readStage env byte)
    rw [hnext] at hbulk ⊢
    rw [hstage]
    refine Classical.byContradiction fun hne => ?_
    rw [hkeep hne, bulkRead_readStage, hr, h] at hbulk
    cases hbulk

/-- The zero byte that completes a bulk does not request another one. -/
theorem bulkRead_readByte_blockData (h : s.bulkRead = false)
    (hstage : s.currentStage = .blockData) :
    (s.bundle6ParserReadByte env byte).bulkRead = false := by
  rcases readByte_cases env s byte with
    ⟨-, hsame⟩ | ⟨r, hrs, hr, hread | ⟨hgood, hnext⟩⟩
  · rw [hsame, h]
  · rw [hread, bulkRead_readStage, hr, h]
  · have hread : r.readStage env byte = r.endBlockData := by
      rw [readStage, hrs, hstage]
    have hne : (r.readStage env byte).nextStage ≠ .blockData := by
      rw [hread] at hgood ⊢
      unfold endBlockData at hgood ⊢
      split at hgood
      · exact absurd rfl hgood
      · rename_i hzero
        rw [if_neg hzero]
        dsimp only
        split <;> simp
    rw [hnext, (bundle6ParserNext_spec env _).2 hne, bulkRead_readStage, hr, h]

/-- The parser fits the library on readers. -/
theorem reader_lawful (env : ParserEnv) : (reader env).Lawful Valid where
  item := by
    intro s b hs hgood hpending
    refine readByte_valid ?_
    simpa [reader] using hpending
  fill := by
    intro s d n hs hgood hpending
    have hbulk : s.bulkRead = true := by
      cases h : s.bulkRead with
      | true => rfl
      | false => simp [reader, h] at hpending
    have hclear : ((s.completeBulk env d).bulkRead) = false :=
      bulkRead_readByte_blockData rfl (hs hbulk)
    refine ⟨fun h => ?_, ?_⟩
    · rw [show ((reader env).fill s d).bulkRead = false from hclear] at h
      cases h
    · simp [reader, hclear]

/-! ## The receive protocol -/

/-- `chunk_read` and `bulk_read` of the receive task around the parser, up to the
point where the parser is done or fails: chunks arrive in the buffer, and what the
parser leaves of it is presented again with the next one; a requested bulk is
filled from the buffer and the stream. -/
abbrev Receives (env : ParserEnv) :
    Reader.Receiver Parser UInt8 → Reader.Receiver Parser UInt8 → Prop :=
  (reader env).Receives

/-- The completion of a bulk of no bytes, which `bundle6_parser_read` leaves to its
caller when the buffer ends where it is requested. -/
def completeEmptyBulk (env : ParserEnv) (s : Parser) : Parser :=
  if s.status = .good ∧ s.bulkRead = true ∧ s.nextBytes = 0 then s.completeBulk env []
  else s

theorem complete_eq (s : Parser) :
    (reader env).complete s = s.completeEmptyBulk env := by
  unfold Reader.complete completeEmptyBulk
  cases hbulk : s.bulkRead <;> simp [reader, hbulk]

/-- However the stream is cut, the parser that has received it has delivered the
same bundles, is in the same state and has left the same bytes as after one call
with the whole stream and the completion of a bulk of no bytes. -/
theorem receives_eq_bundle6ParserRead (env : ParserEnv) {s : Parser} (hs : s.Valid)
    {stream : List UInt8} {y : Reader.Receiver Parser UInt8}
    (h : Relation.ReflTransGen (Receives env) ⟨s, [], stream⟩ y)
    (hend : ∀ z, ¬ Receives env y z) :
    y.state = (s.bundle6ParserRead env stream).1.completeEmptyBulk env ∧
      y.buffer ++ y.stream = (s.bundle6ParserRead env stream).2 := by
  rw [← complete_eq]
  exact Reader.receives_eq_read (reader_lawful env) hs h hend

/-- Every run of the protocol comes to an end. -/
theorem exists_end (env : ParserEnv) {s : Parser} (hs : s.Valid) (stream : List UInt8) :
    ∃ y, Relation.ReflTransGen (Receives env) ⟨s, [], stream⟩ y ∧
      ∀ z, ¬ Receives env y z :=
  Reader.exists_end (reader_lawful env) (x := ⟨s, [], stream⟩) hs rfl

/-! ## A bundle without payload data -/

/-- All allocations succeed. -/
def plainParserEnv : ParserEnv := ⟨fun _ => true, 2 ^ 30⟩

/-- A bundle from `a:b` to `a:b`, whose only block is a payload block with no
data. -/
def emptyPayload : List UInt8 :=
  [6, 0, 16, 0, 2, 0, 2, 0, 2, 0, 2, 1, 1, 1, 4, 97, 0, 98, 0, 1, 8, 0]

theorem valid_init (usage : Nat) : (Parser.init usage).Valid :=
  fun h => absurd h Bool.false_ne_true

/-- The parser after one call with the whole string. -/
def emptyPayloadCall : Parser :=
  ((Parser.init 0).bundle6ParserRead plainParserEnv emptyPayload).1

/-- The call leaves the bundle undelivered: the buffer ends where the bulk of no
bytes is requested. -/
theorem emptyPayloadCall_pending :
    (Parser.init 0).bundle6ParserRead plainParserEnv emptyPayload
        = (emptyPayloadCall, []) ∧
      emptyPayloadCall.status = .good ∧ emptyPayloadCall.delivered = [] ∧
      emptyPayloadCall.bulkRead = true ∧ emptyPayloadCall.nextBytes = 0 := by
  decide +kernel

/-- The receive protocol delivers it: the whole string arrives in one chunk, and
the bulk is completed from the empty buffer.  So the cut of the string matters to
what a call delivers. -/
theorem emptyPayload_differs :
    ¬ ∀ y, Relation.ReflTransGen (Receives plainParserEnv)
        ⟨.init 0, [], emptyPayload⟩ y →
      (∀ z, ¬ Receives plainParserEnv y z) →
        y.state.delivered = ((Parser.init 0).bundle6ParserRead plainParserEnv
            emptyPayload).1.delivered ∧
          y.state.status = ((Parser.init 0).bundle6ParserRead plainParserEnv
            emptyPayload).1.status := by
  intro hall
  obtain ⟨y, hy, hend⟩ := exists_end plainParserEnv (valid_init 0) emptyPayload
  obtain ⟨hstate, -⟩ :=
    Reader.receives_eq_read (reader_lawful plainParserEnv) (valid_init 0) hy hend
  obtain ⟨hcall, hgood, -⟩ := emptyPayloadCall_pending
  have hstatus := (hall y hy hend).2
  rw [complete_eq, ← bundle6ParserRead] at hstate
  rw [hstate, hcall] at hstatus
  have hdone : (emptyPayloadCall.completeEmptyBulk plainParserEnv).status = .done := by
    decide +kernel
  rw [hdone, hgood] at hstatus
  cases hstatus

/-- Every way of receiving the string ends with one bundle delivered. -/
theorem receives_emptyPayload : ∃ y,
    Relation.ReflTransGen (Receives plainParserEnv) ⟨.init 0, [], emptyPayload⟩ y ∧
      y.state.status = .done ∧ y.state.delivered.length = 1 ∧
      y.buffer ++ y.stream = [] := by
  obtain ⟨y, hy, hend⟩ := exists_end plainParserEnv (valid_init 0) emptyPayload
  obtain ⟨hstate, hleft⟩ :=
    receives_eq_bundle6ParserRead plainParserEnv (valid_init 0) hy hend
  obtain ⟨hcall, -⟩ := emptyPayloadCall_pending
  rw [hcall] at hstate hleft
  have hdone : (emptyPayloadCall.completeEmptyBulk plainParserEnv).status = .done ∧
      (emptyPayloadCall.completeEmptyBulk plainParserEnv).delivered.length = 1 := by
    decide +kernel
  refine ⟨y, hy, ?_, ?_, hleft⟩
  · rw [hstate]
    exact hdone.1
  · rw [hstate]
    exact hdone.2

end Parser

end Upcn.Bundle6
