import Upcn.Bundle6.Parser

/-!
# The memory quota of the BPv6 parser

`current_size` is to be the memory that the store and the bundle in the parser take up.
The buffers of a bundle, for its dictionary and for the data of its blocks, are counted
here as they are obtained.

The count of the EID references of a block is read into `current_size`, and a block length
is added to it in 32 bits.
-/

namespace Upcn.Bundle6

namespace Parser

variable (env : ParserEnv)

/-- `bundle6_parser_reset`, with `bundle_storage_get_usage() + sizeof(struct bundle)`.
What is read from the stream before it is used keeps its value. -/
def bundle6ParserReset (s : Parser) (usage : Nat) : Parser :=
  if s.status = .good ∧ s.currentStage = .version then s
  else
    { s with
      status := .good
      bulkRead := false
      error := .none
      currentStage := .version
      nextStage := .version
      currentBlock := .primary
      sdnvState := .reset
      primaryBytesRemaining := 0
      curBytesRemaining := 0
      currentIndex := 0
      currentSize := usage % 2 ^ 32
      lastBlock := false
      bundle := .init
      dict := [] }

/-- `state->primary_bytes_remaining--`, in the primary block. -/
def counted (s : Parser) : Parser :=
  if s.currentBlock = .primary then
    { s with primaryBytesRemaining := (s.primaryBytesRemaining + (2 ^ 16 - 1)) % 2 ^ 16 }
  else s

/-- The state in which a byte makes `bundle6_parser_read_byte` call
`bundle6_parser_next`. -/
def entering (s : Parser) (byte : UInt8) : Option Parser :=
  if s.currentBlock = .primary ∧ s.lengthKnown = true ∧ s.primaryBytesRemaining = 0 then none
  else
    let t := s.counted.readStage env byte
    if t.currentStage ≠ t.nextStage ∧ t.status ≠ .error then some t else none

/-- The size of the buffer that is obtained for the next stage. -/
def obtained (s : Parser) : Nat :=
  match s.nextStage with
  | .dictionary => if (s.enterDictionary env).status = .error then 0 else s.dictLength + 1
  | .blockData => if (s.enterBlockData env).status = .error then 0 else s.block.length
  | _ => 0

/-- The size that is asked for. -/
def requested (s : Parser) : Nat :=
  match s.nextStage with
  | .dictionary => s.dictLength + 1
  | .blockData => s.block.length
  | _ => 0

end Parser

/-! ## Runs -/

/-- The parser, with the usage of the store at its last reset and the total size of the
buffers that it has obtained since. -/
structure Metered where
  parser : Parser
  usage : Nat
  total : Nat
  deriving DecidableEq

/-- What happens to the parser. -/
inductive Input where
  /-- A byte is read. -/
  | byte (byte : UInt8)
  /-- The bulk that was requested is read. -/
  | bulk (data : List UInt8)
  /-- The parser is reset, with this usage of the store. -/
  | reset (usage : Nat)

namespace Metered

variable (env : ParserEnv) (sizeofBundle : Nat)

/-- After `bundle6_parser_init`. -/
def init (usage : Nat) : Metered where
  parser := .init ((usage + sizeofBundle) % 2 ^ 32)
  usage := usage
  total := 0

/-- A byte, with what is obtained. -/
def readByte (m : Metered) (s : Parser) (byte : UInt8) : Metered where
  parser := s.bundle6ParserReadByte env byte
  usage := m.usage
  total := m.total + ((s.entering env byte).map (Parser.obtained env)).getD 0

/-- The parser reads as long as it is good, and the bulk that it has requested. -/
def step (m : Metered) : Input → Metered
  | .byte byte =>
    if m.parser.status = .good ∧ m.parser.bulkRead = false then m.readByte env m.parser byte
    else m
  | .bulk data =>
    if m.parser.status = .good ∧ m.parser.bulkRead = true ∧ data.length = m.parser.nextBytes then
      m.readByte env
        { m.parser with bulkRead := false, block := { m.parser.block with data := data } } 0
    else m
  | .reset usage =>
    if m.parser.status = .good ∧ m.parser.currentStage = .version then m
    else ⟨m.parser.bundle6ParserReset (usage + sizeofBundle), usage, 0⟩

/-- What the parser obtained and what the store took up at the last reset are within the
quota. -/
def WithinQuota (m : Metered) : Prop := m.usage + m.total ≤ env.bundleQuota

/-- No count of EID references is read, and what is asked for does not make
`current_size` wrap around. -/
def TameByte (s : Parser) (byte : UInt8) : Prop :=
  s.currentStage ≠ .blockEidRefCnt ∧
    ∀ t ∈ s.entering env byte, t.currentSize + t.requested < 2 ^ 32

/-- The condition on an input, in the state before it. -/
def Tame (m : Metered) : Input → Prop
  | .byte byte => TameByte env m.parser byte
  | .bulk data => TameByte env
      { m.parser with bulkRead := false, block := { m.parser.block with data := data } } 0
  | .reset usage => usage ≤ env.bundleQuota ∧ usage + sizeofBundle < 2 ^ 32

def run (m : Metered) (inputs : List Input) : Metered := inputs.foldl (step env sizeofBundle) m

/-- Every input of a run meets the condition. -/
def TameRun : Metered → List Input → Prop
  | _, [] => True
  | m, input :: inputs => m.Tame env sizeofBundle input ∧
      TameRun (m.step env sizeofBundle input) inputs

end Metered

/-! ## Stages that leave `current_size` as it is -/

namespace Parser

variable {env : ParserEnv} {s : Parser}

@[simp] theorem currentSize_alloc (s : Parser) : (s.alloc env).2.currentSize = s.currentSize := rfl

@[simp] theorem currentSize_fail (s : Parser) : s.fail.currentSize = s.currentSize := rfl

@[simp] theorem currentSize_waitForSdnv (s : Parser) (nextStage : Stage) :
    (s.waitForSdnv nextStage).2.currentSize = s.currentSize := by
  unfold waitForSdnv
  split <;> rfl

theorem currentSize_readSdnv {read : SdnvState → Nat → UInt8 → SdnvState × Nat}
    {get : Parser → Nat} {set : Parser → Nat → Parser} (byte : UInt8) (nextStage : Stage)
    (hset : ∀ value, (set s value).currentSize = s.currentSize) :
    (s.readSdnv read get set byte nextStage).2.currentSize = s.currentSize := by
  unfold readSdnv
  dsimp only
  rw [currentSize_waitForSdnv]
  exact hset _

@[simp] theorem currentSize_readEid (s : Parser) (ref : EidReference) :
    (s.readEid env ref).2.currentSize = s.currentSize := by
  unfold readEid
  dsimp only
  split
  · rfl
  · split
    · rfl
    · split <;> rfl

theorem currentSize_readEids (s : Parser) : (s.readEids env).currentSize = s.currentSize := by
  unfold readEids
  dsimp only
  split <;> simp

theorem currentSize_readDictionary (s : Parser) (byte : UInt8) :
    (s.readDictionary env byte).currentSize = s.currentSize := by
  unfold readDictionary
  dsimp only
  split
  · exact currentSize_readEids _
  · rfl

theorem currentSize_beginBlock (s : Parser) (type : UInt8) :
    (s.beginBlock env type).currentSize = s.currentSize := by
  unfold beginBlock
  dsimp only
  split
  · rfl
  · split
    · split <;> rfl
    · split <;> rfl

theorem currentSize_readBlockFlags (s : Parser) (byte : UInt8) :
    (s.readBlockFlags byte).currentSize = s.currentSize := by
  have hread : (s.readSdnv sdnvReadU8 (·.block.flags)
      (fun s value => { s with block := { s.block with flags := value } }) byte
      .blockDataLength).2.currentSize = s.currentSize := currentSize_readSdnv byte _ fun _ => rfl
  unfold readBlockFlags
  dsimp only
  split
  · split
    · exact hread
    · exact hread
  · exact hread

theorem currentSize_readEidRefSsp (s : Parser) (byte : UInt8) :
    (s.readEidRefSsp env byte).currentSize = s.currentSize := by
  have hread : (s.readSdnv sdnvReadU16 (·.curEidref.sspOffset)
      (fun s value => { s with curEidref := { s.curEidref with sspOffset := value } }) byte
      .blockEidRefSch).2.currentSize = s.currentSize := currentSize_readSdnv byte _ fun _ => rfl
  unfold readEidRefSsp
  dsimp only
  split
  · split
    · exact hread
    · split
      · simpa using hread
      · split <;> simpa using hread
  · exact hread

theorem currentSize_endBlockData (s : Parser) : s.endBlockData.currentSize = s.currentSize := by
  unfold endBlockData
  split <;> rfl

/-- Only the count of the EID references is read into `current_size`. -/
theorem currentSize_readStage (byte : UInt8) (h : s.currentStage ≠ .blockEidRefCnt) :
    (s.readStage env byte).currentSize = s.currentSize := by
  unfold readStage
  split
  · rfl
  all_goals first
    | exact currentSize_readSdnv byte _ fun _ => rfl
    | exact currentSize_readDictionary _ byte
    | exact currentSize_beginBlock _ byte
    | exact currentSize_readBlockFlags _ byte
    | exact currentSize_readEidRefSsp _ byte
    | exact currentSize_endBlockData _
    | rfl
    | exact absurd (by assumption) h

/-! ## Entering a stage -/

theorem readByte_counted (s : Parser) (byte : UInt8) :
    s.bundle6ParserReadByte env byte =
      if s.currentBlock = .primary ∧ s.lengthKnown = true ∧ s.primaryBytesRemaining = 0 then
        { s with status := .error, error := .blockLengthExhausted }
      else
        let t := s.counted.readStage env byte
        if t.currentStage ≠ t.nextStage ∧ t.status ≠ .error then t.bundle6ParserNext env else t :=
  rfl

theorem currentSize_counted (byte : UInt8) (hstage : s.currentStage ≠ .blockEidRefCnt) :
    (s.counted.readStage env byte).currentSize = s.currentSize := by
  have hcounted : s.counted.currentStage = s.currentStage ∧
      s.counted.currentSize = s.currentSize := by
    unfold counted
    split <;> exact ⟨rfl, rfl⟩
  rw [currentSize_readStage byte (hcounted.1 ▸ hstage), hcounted.2]

/-- A byte on which the next stage is entered. -/
theorem readByte_of_entering {t : Parser} {byte : UInt8} (h : s.entering env byte = some t) :
    s.bundle6ParserReadByte env byte = t.bundle6ParserNext env ∧ t.status ≠ .error ∧
      (s.currentStage ≠ .blockEidRefCnt → t.currentSize = s.currentSize) := by
  unfold entering at h
  rw [readByte_counted]
  split at h
  · cases h
  · next hexhausted =>
    rw [if_neg hexhausted]
    dsimp only at h ⊢
    split at h
    · next hnext =>
      obtain rfl := Option.some.inj h
      rw [if_pos hnext]
      exact ⟨rfl, hnext.2, currentSize_counted byte⟩
    · cases h

/-- Any other byte. -/
theorem readByte_of_not_entering {byte : UInt8} (hstage : s.currentStage ≠ .blockEidRefCnt)
    (h : s.entering env byte = none) :
    (s.bundle6ParserReadByte env byte).currentSize = s.currentSize := by
  unfold entering at h
  rw [readByte_counted]
  split at h
  · next hexhausted => rw [if_pos hexhausted]
  · next hexhausted =>
    rw [if_neg hexhausted]
    dsimp only at h ⊢
    split at h
    · cases h
    · next hnext =>
      rw [if_neg hnext]
      exact currentSize_counted byte hstage

theorem next_enterStage (env : ParserEnv) (t : Parser) :
    (t.bundle6ParserNext env).currentSize = (t.enterStage env).currentSize ∧
      ((t.bundle6ParserNext env).status = .good → (t.enterStage env).status = .good) := by
  unfold bundle6ParserNext
  dsimp only
  split
  · unfold sendBundle
    split
    · exact ⟨rfl, fun h => nomatch h⟩
    · exact ⟨rfl, fun h => nomatch h⟩
  · exact ⟨rfl, id⟩

theorem enterDictionary_cases (env : ParserEnv) (t : Parser)
    (hlt : t.currentSize + (t.dictLength + 1) < 2 ^ 32) :
    (t.enterDictionary env).status = .error ∨
      t.currentSize + (t.dictLength + 1) ≤ env.bundleQuota ∧
        (t.enterDictionary env).currentSize = t.currentSize + (t.dictLength + 1) := by
  unfold enterDictionary
  dsimp only
  rw [Nat.mod_eq_of_lt hlt]
  split
  · exact .inl rfl
  · split
    · exact .inl rfl
    · next hquota =>
      split
      · exact .inr ⟨Nat.not_lt.mp hquota, rfl⟩
      · exact .inl rfl

theorem enterBlockData_cases (env : ParserEnv) (t : Parser)
    (hlt : t.currentSize + t.block.length < 2 ^ 32) :
    (t.enterBlockData env).status = .error ∨
      t.currentSize + t.block.length ≤ env.bundleQuota ∧
        (t.enterBlockData env).currentSize = t.currentSize + t.block.length := by
  unfold enterBlockData
  dsimp only
  rw [Nat.mod_eq_of_lt hlt]
  split
  · exact .inl rfl
  · next hquota =>
    split
    · exact .inr ⟨Nat.not_lt.mp hquota, rfl⟩
    · exact .inl rfl

/-- What is obtained fits the quota, and is counted. -/
theorem obtained_cases (env : ParserEnv) (t : Parser) (hlt : t.currentSize + t.requested < 2 ^ 32) :
    (t.obtained env = 0 ∨ t.currentSize + t.obtained env ≤ env.bundleQuota) ∧
      ((t.enterStage env).status ≠ .error →
        (t.enterStage env).currentSize = t.currentSize + t.obtained env) := by
  cases hstage : t.nextStage with
  | dictionary =>
    rw [requested, hstage] at hlt
    rw [obtained, enterStage, hstage]
    dsimp only at hlt ⊢
    rcases enterDictionary_cases env t hlt with herror | ⟨hquota, hsize⟩
    · rw [if_pos herror]
      exact ⟨.inl rfl, fun hnot => absurd herror hnot⟩
    · split
      · next herror => exact ⟨.inl rfl, fun hnot => absurd herror hnot⟩
      · exact ⟨.inr hquota, fun _ => hsize⟩
  | blockData =>
    rw [requested, hstage] at hlt
    rw [obtained, enterStage, hstage]
    dsimp only at hlt ⊢
    rcases enterBlockData_cases env t hlt with herror | ⟨hquota, hsize⟩
    · rw [if_pos herror]
      exact ⟨.inl rfl, fun hnot => absurd herror hnot⟩
    · split
      · next herror => exact ⟨.inl rfl, fun hnot => absurd herror hnot⟩
      · exact ⟨.inr hquota, fun _ => hsize⟩
  | _ =>
    rw [obtained, enterStage, hstage]
    exact ⟨.inl rfl, fun _ => rfl⟩

end Parser

/-! ## The quota -/

namespace Metered

variable {env : ParserEnv} {sizeofBundle : Nat} {m : Metered}

/-- What is counted is not less than what was obtained, while the parser goes on. -/
structure Counts (env : ParserEnv) (m : Metered) : Prop where
  within : m.WithinQuota env
  counted : m.parser.status = .good → m.usage + m.total ≤ m.parser.currentSize

theorem Counts.readByte {s : Parser} {byte : UInt8} (hwithin : m.WithinQuota env)
    (hcounted : m.usage + m.total ≤ s.currentSize) (htame : TameByte env s byte) :
    (m.readByte env s byte).Counts env := by
  cases hentering : s.entering env byte with
  | none =>
    rw [Metered.readByte, hentering]
    refine ⟨hwithin, fun _ => ?_⟩
    show m.usage + (m.total + 0) ≤ (s.bundle6ParserReadByte env byte).currentSize
    rw [Parser.readByte_of_not_entering htame.1 hentering]
    exact hcounted
  | some t =>
    obtain ⟨hread, -, hsize⟩ := Parser.readByte_of_entering hentering
    have hsize := hsize htame.1
    obtain ⟨hobtained, hentered⟩ := Parser.obtained_cases env t (htame.2 t hentering)
    obtain ⟨hnext, hgood⟩ := Parser.next_enterStage env t
    rw [Metered.readByte, hentering, hread]
    constructor
    · show m.usage + (m.total + t.obtained env) ≤ env.bundleQuota
      rcases hobtained with hzero | hquota
      · rw [hzero]
        exact hwithin
      · omega
    · intro hstatus
      show m.usage + (m.total + t.obtained env) ≤ (t.bundle6ParserNext env).currentSize
      have hnoError : (t.enterStage env).status ≠ .error := by
        rw [hgood hstatus]
        exact fun h => nomatch h
      rw [hnext, hentered hnoError]
      omega

/-- One input. -/
theorem Counts.step (h : m.Counts env) {input : Input}
    (htame : m.Tame env sizeofBundle input) : (m.step env sizeofBundle input).Counts env := by
  cases input with
  | byte byte =>
    rw [Metered.step]
    split
    · next hgood => exact .readByte h.within (h.counted hgood.1) htame
    · exact h
  | bulk data =>
    rw [Metered.step]
    split
    · next hgood => exact .readByte h.within (h.counted hgood.1) htame
    · exact h
  | reset usage =>
    rw [Metered.step]
    split
    · exact h
    · next hreset =>
      refine ⟨htame.1, fun _ => ?_⟩
      show usage + 0 ≤ (m.parser.bundle6ParserReset (usage + sizeofBundle)).currentSize
      rw [Parser.bundle6ParserReset, if_neg hreset]
      show usage ≤ (usage + sizeofBundle) % 2 ^ 32
      rw [Nat.mod_eq_of_lt htame.2]
      exact Nat.le_add_right usage sizeofBundle

theorem Counts.run (h : m.Counts env) {inputs : List Input}
    (htame : m.TameRun env sizeofBundle inputs) : (m.run env sizeofBundle inputs).Counts env := by
  induction inputs generalizing m with
  | nil => exact h
  | cons input inputs ih => exact ih (h.step htame.1) htame.2

theorem counts_init {usage : Nat} (husage : usage ≤ env.bundleQuota)
    (hsize : usage + sizeofBundle < 2 ^ 32) : (init sizeofBundle usage).Counts env := by
  refine ⟨husage, fun _ => ?_⟩
  show usage + 0 ≤ (usage + sizeofBundle) % 2 ^ 32
  rw [Nat.mod_eq_of_lt hsize]
  exact Nat.le_add_right usage sizeofBundle

/-- Without counts of EID references and lengths that wrap around, the parser keeps within
the quota. -/
theorem withinQuota_of_tameRun (env : ParserEnv) (sizeofBundle usage : Nat) (inputs : List Input)
    (husage : usage ≤ env.bundleQuota) (hsize : usage + sizeofBundle < 2 ^ 32)
    (htame : (init sizeofBundle usage).TameRun env sizeofBundle inputs) :
    ((init sizeofBundle usage).run env sizeofBundle inputs).WithinQuota env :=
  ((counts_init husage hsize).run htame).within

instance (env : ParserEnv) (m : Metered) : Decidable (m.WithinQuota env) :=
  inferInstanceAs (Decidable (_ ≤ _))

instance (env : ParserEnv) (s : Parser) (byte : UInt8) : Decidable (TameByte env s byte) :=
  inferInstanceAs (Decidable (_ ∧ _))

instance (env : ParserEnv) (sizeofBundle : Nat) (m : Metered) :
    (input : Input) → Decidable (m.Tame env sizeofBundle input)
  | .byte _ => inferInstanceAs (Decidable (TameByte _ _ _))
  | .bulk _ => inferInstanceAs (Decidable (TameByte _ _ _))
  | .reset _ => inferInstanceAs (Decidable (_ ∧ _))

instance decidableTameRun (env : ParserEnv) (sizeofBundle : Nat) :
    (m : Metered) → (inputs : List Input) → Decidable (m.TameRun env sizeofBundle inputs)
  | _, [] => isTrue trivial
  | m, input :: inputs =>
    have := decidableTameRun env sizeofBundle (m.step env sizeofBundle input) inputs
    inferInstanceAs (Decidable (_ ∧ _))

/-- A header with `dtn:none` for all EIDs, and the beginning of a payload block. -/
def headerInputs : List Input :=
  ([6, 0x10, 21, 0, 4, 0, 4, 0, 4, 0, 4, 0, 0, 0, 9, 100, 116, 110, 0, 110, 111, 110, 101, 0, 1,
    8] : List UInt8).map Input.byte

/-- A block length of `2 ^ 32 - 1`. -/
def longBlockInputs : List Input :=
  headerInputs ++ ([0x8f, 0xff, 0xff, 0xff, 0x7f] : List UInt8).map Input.byte

/-- A block with one byte. -/
def smallBlockInputs : List Input := headerInputs ++ [Input.byte 1, Input.bulk [42]]

/-- There is memory, up to a quota of 1 GiB. -/
def quotaEnv : ParserEnv := ⟨fun _ => true, 1073741824⟩

/-- `current_size` is one byte less after this block length. -/
theorem not_withinQuota_wrap :
    ¬ ((init 160 0).run quotaEnv 160 longBlockInputs).WithinQuota quotaEnv := by
  decide +kernel

theorem withinQuota_of_tameRun_small :
    ((init 160 0).run quotaEnv 160 (smallBlockInputs)).WithinQuota quotaEnv :=
  withinQuota_of_tameRun quotaEnv 160 0 (smallBlockInputs) (by decide)
    (by decide) (by decide +kernel)

end Metered

end Upcn.Bundle6
