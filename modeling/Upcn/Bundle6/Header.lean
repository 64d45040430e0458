import Upcn.Bundle6.Feed
import Upcn.Bundle6.Size

/-!
# The primary block

What the parser makes of the primary block that `bundle6_serialize` writes.
-/

namespace Upcn.Bundle6

open Upcn.Bundle6.Parser

/-! ## The fields of the primary block -/

namespace Field

def procFlags : Field := plain .procFlags 32 4 0x1FFFFFF (·.bundle.procFlags)
  (fun s value => { s with bundle := { s.bundle with procFlags := value } }) .blockLength

def blockLength : Field := plain .blockLength 16 2 0x1FF (·.bundle.primaryBlockLength)
  (fun s value => { s with bundle := { s.bundle with primaryBlockLength := value } })
  .destinationEidScheme

def destinationScheme : Field :=
  plain .destinationEidScheme 16 2 0x1FF (·.destinationEidref.schemeOffset)
  (fun s value => { s with
    destinationEidref := { s.destinationEidref with schemeOffset := value } })
  .destinationEidSsp

def destinationSsp : Field := plain .destinationEidSsp 16 2 0x1FF (·.destinationEidref.sspOffset)
  (fun s value => { s with
    destinationEidref := { s.destinationEidref with sspOffset := value } })
  .sourceEidScheme

def sourceScheme : Field := plain .sourceEidScheme 16 2 0x1FF (·.sourceEidref.schemeOffset)
  (fun s value => { s with
    sourceEidref := { s.sourceEidref with schemeOffset := value } })
  .sourceEidSsp

def sourceSsp : Field := plain .sourceEidSsp 16 2 0x1FF (·.sourceEidref.sspOffset)
  (fun s value => { s with
    sourceEidref := { s.sourceEidref with sspOffset := value } })
  .reportEidScheme

def reportScheme : Field := plain .reportEidScheme 16 2 0x1FF (·.reportToEidref.schemeOffset)
  (fun s value => { s with
    reportToEidref := { s.reportToEidref with schemeOffset := value } })
  .reportEidSsp

def reportSsp : Field := plain .reportEidSsp 16 2 0x1FF (·.reportToEidref.sspOffset)
  (fun s value => { s with
    reportToEidref := { s.reportToEidref with sspOffset := value } })
  .custodianEidScheme

def custodianScheme : Field :=
  plain .custodianEidScheme 16 2 0x1FF (·.custodianEidref.schemeOffset)
  (fun s value => { s with
    custodianEidref := { s.custodianEidref with schemeOffset := value } })
  .custodianEidSsp

def custodianSsp : Field := plain .custodianEidSsp 16 2 0x1FF (·.custodianEidref.sspOffset)
  (fun s value => { s with
    custodianEidref := { s.custodianEidref with sspOffset := value } })
  .timestamp

def timestamp : Field := plain .timestamp 64 9 0x1FFFFFFFFFFFFFF (·.bundle.creationTimestamp)
  (fun s value => { s with bundle := { s.bundle with creationTimestamp := value } }) .sequenceNum

def sequenceNum : Field := plain .sequenceNum 64 9 0x1FFFFFFFFFFFFFF (·.bundle.sequenceNumber)
  (fun s value => { s with bundle := { s.bundle with sequenceNumber := value } }) .lifetime

def lifetime : Field := plain .lifetime 64 9 0x1FFFFFFFFFFFFFF (·.bundle.lifetime)
  (fun s value => { s with bundle := { s.bundle with lifetime := value } }) .dictLength

def dictLength : Field := plain .dictLength 16 2 0x1FF (·.dictLength)
  (fun s value => { s with dictLength := value }) .dictionary

def fragmentOffset : Field := plain .fragmentOffset 32 4 0x1FFFFFF (·.bundle.fragmentOffset)
  (fun s value => { s with bundle := { s.bundle with fragmentOffset := value } }) .aduLength

def aduLength : Field := plain .aduLength 32 4 0x1FFFFFF (·.bundle.totalAduLength)
  (fun s value => { s with bundle := { s.bundle with totalAduLength := value } }) .blockType

theorem procFlags_lawful : procFlags.Lawful :=
  plain_lawful sdnvFits_u32 (by constructor <;> intros <;> rfl) fun env s byte hs => by
    rw [readStage, hs]
    rfl

theorem blockLength_lawful : blockLength.Lawful :=
  plain_lawful sdnvFits_u16 (by constructor <;> intros <;> rfl) fun env s byte hs => by
    rw [readStage, hs]
    rfl

theorem destinationScheme_lawful : destinationScheme.Lawful :=
  plain_lawful sdnvFits_u16 (by constructor <;> intros <;> rfl) fun env s byte hs => by
    rw [readStage, hs]
    rfl

theorem destinationSsp_lawful : destinationSsp.Lawful :=
  plain_lawful sdnvFits_u16 (by constructor <;> intros <;> rfl) fun env s byte hs => by
    rw [readStage, hs]
    rfl

theorem sourceScheme_lawful : sourceScheme.Lawful :=
  plain_lawful sdnvFits_u16 (by constructor <;> intros <;> rfl) fun env s byte hs => by
    rw [readStage, hs]
    rfl

theorem sourceSsp_lawful : sourceSsp.Lawful :=
  plain_lawful sdnvFits_u16 (by constructor <;> intros <;> rfl) fun env s byte hs => by
    rw [readStage, hs]
    rfl

theorem reportScheme_lawful : reportScheme.Lawful :=
  plain_lawful sdnvFits_u16 (by constructor <;> intros <;> rfl) fun env s byte hs => by
    rw [readStage, hs]
    rfl

theorem reportSsp_lawful : reportSsp.Lawful :=
  plain_lawful sdnvFits_u16 (by constructor <;> intros <;> rfl) fun env s byte hs => by
    rw [readStage, hs]
    rfl

theorem custodianScheme_lawful : custodianScheme.Lawful :=
  plain_lawful sdnvFits_u16 (by constructor <;> intros <;> rfl) fun env s byte hs => by
    rw [readStage, hs]
    rfl

theorem custodianSsp_lawful : custodianSsp.Lawful :=
  plain_lawful sdnvFits_u16 (by constructor <;> intros <;> rfl) fun env s byte hs => by
    rw [readStage, hs]
    rfl

theorem timestamp_lawful : timestamp.Lawful :=
  plain_lawful sdnvFits_u64 (by constructor <;> intros <;> rfl) fun env s byte hs => by
    rw [readStage, hs]
    rfl

theorem sequenceNum_lawful : sequenceNum.Lawful :=
  plain_lawful sdnvFits_u64 (by constructor <;> intros <;> rfl) fun env s byte hs => by
    rw [readStage, hs]
    rfl

theorem lifetime_lawful : lifetime.Lawful :=
  plain_lawful sdnvFits_u64 (by constructor <;> intros <;> rfl) fun env s byte hs => by
    rw [readStage, hs]
    rfl

theorem dictLength_lawful : dictLength.Lawful :=
  plain_lawful sdnvFits_u16 (by constructor <;> intros <;> rfl) fun env s byte hs => by
    rw [readStage, hs]
    rfl

theorem fragmentOffset_lawful : fragmentOffset.Lawful :=
  plain_lawful sdnvFits_u32 (by constructor <;> intros <;> rfl) fun env s byte hs => by
    rw [readStage, hs]
    rfl

theorem aduLength_lawful : aduLength.Lawful :=
  plain_lawful sdnvFits_u32 (by constructor <;> intros <;> rfl) fun env s byte hs => by
    rw [readStage, hs]
    rfl

end Field

/-! ## Entries -/

namespace Entry

variable {f : Field} {next : Stage} {value : Nat}

/-- An entry for a number of 16 bits. -/
def u16 (f : Field) (next : Stage) (value : Nat) : Entry :=
  ⟨f, next, value, sdnvGetSizeU16 value⟩

/-- An entry for a number of 32 bits. -/
def u32 (f : Field) (next : Stage) (value : Nat) : Entry :=
  ⟨f, next, value, sdnvGetSizeU32 value⟩

/-- An entry for a number of 64 bits. -/
def u64 (f : Field) (next : Stage) (value : Nat) : Entry :=
  ⟨f, next, value, sdnvGetSizeU64 value⟩

theorem fits_u16 (hf : f.Lawful) (hwidth : f.width = 16 ∧ f.maxBytes = 2)
    (hgoes : f.GoesTo next) (hvalue : value < 2 ^ 16) :
    (u16 f next value).Fits := by
  obtain ⟨hgroups, hpos, hsize⟩ := sdnvGetSizeU16_spec hvalue
  refine ⟨hf, hgoes, hpos, ?_, ?_, hgroups⟩
  · show sdnvGetSizeU16 value ≤ f.maxBytes + 1
    omega
  · show value < 2 ^ f.width
    rw [hwidth.1]
    exact hvalue

theorem fits_u32 (hf : f.Lawful) (hwidth : f.width = 32 ∧ f.maxBytes = 4)
    (hgoes : f.GoesTo next) (hvalue : value < 2 ^ 32) :
    (u32 f next value).Fits := by
  obtain ⟨hgroups, hpos, hsize⟩ := sdnvGetSizeU32_spec hvalue
  refine ⟨hf, hgoes, hpos, ?_, ?_, hgroups⟩
  · show sdnvGetSizeU32 value ≤ f.maxBytes + 1
    omega
  · show value < 2 ^ f.width
    rw [hwidth.1]
    exact hvalue

theorem fits_u64 (hf : f.Lawful) (hwidth : f.width = 64 ∧ f.maxBytes = 9)
    (hgoes : f.GoesTo next) (hvalue : value < 2 ^ 64) :
    (u64 f next value).Fits := by
  obtain ⟨hgroups, hpos, hsize⟩ := sdnvGetSizeU64_spec hvalue
  refine ⟨hf, hgoes, hpos, ?_, ?_, hgroups⟩
  · show sdnvGetSizeU64 value ≤ f.maxBytes + 1
    omega
  · show value < 2 ^ f.width
    rw [hwidth.1]
    exact hvalue

end Entry

/-! ## The row of the offsets -/

namespace Bundle

variable (b : Bundle)

/-- The fields from the offsets to the sequence number. -/
def offsetEntries : List Entry :=
  [.u16 .destinationScheme .destinationEidSsp
      b.bundle6CalculateDict.destinationEidInfo.dictSchemeOffset,
    .u16 .destinationSsp .sourceEidScheme
      b.bundle6CalculateDict.destinationEidInfo.dictSspOffset,
    .u16 .sourceScheme .sourceEidSsp b.bundle6CalculateDict.sourceEidInfo.dictSchemeOffset,
    .u16 .sourceSsp .reportEidScheme b.bundle6CalculateDict.sourceEidInfo.dictSspOffset,
    .u16 .reportScheme .reportEidSsp b.bundle6CalculateDict.reportToEidInfo.dictSchemeOffset,
    .u16 .reportSsp .custodianEidScheme b.bundle6CalculateDict.reportToEidInfo.dictSspOffset,
    .u16 .custodianScheme .custodianEidSsp
      b.bundle6CalculateDict.custodianEidInfo.dictSchemeOffset,
    .u16 .custodianSsp .timestamp b.bundle6CalculateDict.custodianEidInfo.dictSspOffset,
    .u64 .timestamp .sequenceNum b.creationTimestamp,
    .u64 .sequenceNum .lifetime b.sequenceNumber]

variable {b}

theorem WellFormed.offsetEntries_fit (h : b.WellFormed) :
    ∀ e ∈ b.offsetEntries, e.Fits ∧ Field.Simple e.next := by
  have hoffset : ∀ eid length, (calculateEidInfo eid length).1.dictSchemeOffset < 2 ^ 16 ∧
      (calculateEidInfo eid length).1.dictSspOffset < 2 ^ 16 := fun eid length =>
    ⟨Nat.mod_lt _ (by decide), Nat.mod_lt _ (by decide)⟩
  have hsimple : ∀ next ∈ [Stage.destinationEidSsp, .sourceEidScheme, .sourceEidSsp,
      .reportEidScheme, .reportEidSsp, .custodianEidScheme, .custodianEidSsp, .timestamp,
      .sequenceNum, .lifetime], Field.Simple next := by
    simp only [List.mem_cons, List.not_mem_nil, or_false, forall_eq_or_imp, forall_eq]
    refine ⟨?_, ?_, ?_, ?_, ?_, ?_, ?_, ?_, ?_, ?_⟩
    all_goals exact ⟨by decide, fun env s hs => by rw [Parser.enterStage, hs]⟩
  simp only [offsetEntries, List.mem_cons, List.not_mem_nil, or_false, forall_eq_or_imp,
    forall_eq]
  refine ⟨⟨Entry.fits_u16 Field.destinationScheme_lawful ⟨rfl, rfl⟩ ⟨by decide, fun _ _ => rfl⟩
      (hoffset _ _).1, hsimple _ (by simp [Entry.u16])⟩,
    ⟨Entry.fits_u16 Field.destinationSsp_lawful ⟨rfl, rfl⟩ ⟨by decide, fun _ _ => rfl⟩
      (hoffset _ _).2, hsimple _ (by simp [Entry.u16])⟩,
    ⟨Entry.fits_u16 Field.sourceScheme_lawful ⟨rfl, rfl⟩ ⟨by decide, fun _ _ => rfl⟩
      (hoffset _ _).1, hsimple _ (by simp [Entry.u16])⟩,
    ⟨Entry.fits_u16 Field.sourceSsp_lawful ⟨rfl, rfl⟩ ⟨by decide, fun _ _ => rfl⟩
      (hoffset _ _).2, hsimple _ (by simp [Entry.u16])⟩,
    ⟨Entry.fits_u16 Field.reportScheme_lawful ⟨rfl, rfl⟩ ⟨by decide, fun _ _ => rfl⟩
      (hoffset _ _).1, hsimple _ (by simp [Entry.u16])⟩,
    ⟨Entry.fits_u16 Field.reportSsp_lawful ⟨rfl, rfl⟩ ⟨by decide, fun _ _ => rfl⟩
      (hoffset _ _).2, hsimple _ (by simp [Entry.u16])⟩,
    ⟨Entry.fits_u16 Field.custodianScheme_lawful ⟨rfl, rfl⟩ ⟨by decide, fun _ _ => rfl⟩
      (hoffset _ _).1, hsimple _ (by simp [Entry.u16])⟩,
    ⟨Entry.fits_u16 Field.custodianSsp_lawful ⟨rfl, rfl⟩ ⟨by decide, fun _ _ => rfl⟩
      (hoffset _ _).2, hsimple _ (by simp [Entry.u16])⟩,
    ⟨Entry.fits_u64 Field.timestamp_lawful ⟨rfl, rfl⟩ ⟨by decide, fun _ _ => rfl⟩
      h.creationTimestamp, hsimple _ (by simp [Entry.u64])⟩,
    ⟨Entry.fits_u64 Field.sequenceNum_lawful ⟨rfl, rfl⟩ ⟨by decide, fun _ _ => rfl⟩
      h.sequenceNumber, hsimple _ (by simp [Entry.u64])⟩⟩

end Bundle

/-! ## Up to the dictionary -/

namespace Parser

/-- The parser waits for the first byte of a stage. -/
structure Waits (s : Parser) (stage : Stage) : Prop extends s.Open where
  currentStage : s.currentStage = stage
  nextStage : s.nextStage = stage

/-- The allocations succeed, and the bundle is not too large. -/
structure Suffices (env : ParserEnv) (b : Bundle) (usage : Nat) : Prop where
  mem : ∀ n, env.mem n = true
  quota : usage + (b.bundle6CalculateDict.dictLengthBytes + 1) +
    (b.blocks.map (·.length)).sum + b.eidRefs.length ≤ env.bundleQuota
  bundleQuota : env.bundleQuota < 2 ^ 32

end Parser

namespace Bundle

variable (b : Bundle)

/-- What the parser has of the bundle before the dictionary. -/
def numbers : Bundle :=
  { Bundle.init with
    procFlags := b.procFlags
    primaryBlockLength := b.primaryBlockLength
    creationTimestamp := b.creationTimestamp
    sequenceNumber := b.sequenceNumber
    lifetime := b.lifetime }

/-- What the parser has of the bundle behind the dictionary. -/
def named : Bundle :=
  { b.numbers with
    destination := b.destination
    source := b.source
    reportTo := b.reportTo
    currentCustodian := b.currentCustodian }

/-- The bytes before the dictionary. -/
def headBytes : List UInt8 :=
  [b.protocolVersion] ++ sdnvWriteU32 b.procFlags ++ sdnvWriteU32 b.primaryBlockLength ++
    b.offsetEntries.flatMap Entry.bytes ++ sdnvWriteU64 (b.lifetime / 1000000) ++
    sdnvWriteU16 b.bundle6CalculateDict.dictLengthBytes

/-- The fields of a fragment. -/
def fragmentBytes : List UInt8 :=
  if b.isFragmented then sdnvWriteU32 b.fragmentOffset ++ sdnvWriteU32 b.totalAduLength
  else []

/-- What the primary block has between its length and the dictionary. -/
def fieldsSize : Nat :=
  Entry.totalSize b.offsetEntries + sdnvGetSizeU64 (b.lifetime / 1000000) +
    sdnvGetSizeU16 b.bundle6CalculateDict.dictLengthBytes

/-- What the primary block has behind its length. -/
def restSize : Nat :=
  b.fieldsSize + b.bundle6CalculateDict.dictLengthBytes + b.fragmentBytes.length

end Bundle

namespace Parser

/-- The offsets of the EIDs are read. -/
structure HasRefs (s : Parser) (b : Bundle) : Prop where
  destinationEidref : s.destinationEidref =
    ⟨b.bundle6CalculateDict.destinationEidInfo.dictSchemeOffset,
      b.bundle6CalculateDict.destinationEidInfo.dictSspOffset⟩
  sourceEidref : s.sourceEidref =
    ⟨b.bundle6CalculateDict.sourceEidInfo.dictSchemeOffset,
      b.bundle6CalculateDict.sourceEidInfo.dictSspOffset⟩
  reportToEidref : s.reportToEidref =
    ⟨b.bundle6CalculateDict.reportToEidInfo.dictSchemeOffset,
      b.bundle6CalculateDict.reportToEidInfo.dictSspOffset⟩
  custodianEidref : s.custodianEidref =
    ⟨b.bundle6CalculateDict.custodianEidInfo.dictSchemeOffset,
      b.bundle6CalculateDict.custodianEidInfo.dictSspOffset⟩

/-- What holds when the parser comes to the dictionary. -/
structure AtDictionary (b : Bundle) (usage : Nat) (s : Parser) : Prop
    extends s.Waits .dictionary where
  currentBlock : s.currentBlock = .primary
  bundle : s.bundle = b.numbers
  refs : s.HasRefs b
  dictLength : s.dictLength = b.bundle6CalculateDict.dictLengthBytes
  dict : s.dict = []
  curBytesRemaining : s.curBytesRemaining = b.bundle6CalculateDict.dictLengthBytes
  currentSize : s.currentSize ≤ usage + (b.bundle6CalculateDict.dictLengthBytes + 1)
  primaryBytesRemaining : s.primaryBytesRemaining = b.primaryBlockLength - b.fieldsSize
  delivered : s.delivered = []

variable {env : ParserEnv} {b : Bundle} {usage : Nat} {s : Parser}

/-- The parser behind the first byte. -/
def behindVersion (usage : Nat) : Parser :=
  { Parser.init usage with
    currentStage := .procFlags
    nextStage := .procFlags
    primaryBytesRemaining := 65535 }

/-- The parser behind the length of the primary block. -/
def behindLength (b : Bundle) (usage : Nat) : Parser :=
  { Parser.init usage with
    bundle := { Bundle.init with
      procFlags := b.procFlags
      primaryBlockLength := b.primaryBlockLength }
    currentStage := .destinationEidScheme
    nextStage := .destinationEidScheme
    primaryBytesRemaining := b.primaryBlockLength }

theorem remainingAfter_lt (n : Nat) (hlt : s.primaryBytesRemaining < 2 ^ 16) :
    s.remainingAfter n < 2 ^ 16 := by
  unfold remainingAfter
  split
  · exact Nat.mod_lt _ (by decide)
  · exact hlt

theorem reaches_behindLength (env : ParserEnv) (usage : Nat) (h : b.WellFormed) :
    Reaches env (.init usage)
      ([b.protocolVersion] ++ sdnvWriteU32 b.procFlags ++ sdnvWriteU32 b.primaryBlockLength)
      (behindLength b usage) := by
  have hread : (Parser.init usage).bundle6ParserReadByte env 6 = behindVersion usage := by
    simp [bundle6ParserReadByte, Parser.init, lengthKnown, readStage, bundle6ParserNext,
      enterStage, behindVersion, Bundle.init]
  have hversion : Reaches env (.init usage) [b.protocolVersion] (behindVersion usage) := by
    rw [h.version, ← hread]
    exact Open.reaches_byte ⟨rfl, rfl⟩
  have hflags : b.procFlags < 2 ^ 32 := by
    rw [← h.procFlags]
    exact Nat.lt_of_le_of_lt Nat.and_le_right (by decide)
  have hfull : (behindVersion usage).primaryBytesRemaining < 2 ^ 16 := by
    show 65535 < 2 ^ 16
    omega
  have hfits := Entry.fits_u32 Field.procFlags_lawful ⟨rfl, rfl⟩
    ⟨by decide, fun _ _ => rfl⟩ hflags
  have hprocFlags := hfits.feed env (s := behindVersion usage) ⟨⟨rfl, rfl⟩, rfl, rfl, rfl⟩
    ⟨hfull, fun _ _ => by
      have := (sdnvGetSizeU32_spec hflags).2.2
      show sdnvGetSizeU32 b.procFlags ≤ 65535
      omega⟩
  have hlt : (behindVersion usage).remainingAfter (sdnvGetSizeU32 b.procFlags) < 2 ^ 16 :=
    remainingAfter_lt _ hfull
  have hlengthFits : Entry.Fits ⟨.blockLength, .destinationEidScheme, b.primaryBlockLength,
      sdnvGetSizeU32 b.primaryBlockLength⟩ := by
    rw [sdnvGetSizeU32_eq_U16 h.primaryBlockLength]
    exact Entry.fits_u16 Field.blockLength_lawful ⟨rfl, rfl⟩ ⟨by decide, fun _ _ => rfl⟩
      h.primaryBlockLength
  exact (hversion.append hprocFlags).append (hlengthFits.feed env ⟨⟨rfl, rfl⟩, rfl, rfl, rfl⟩
    ⟨hlt, fun _ hknown => absurd hknown Bool.false_ne_true⟩)

/-- The parser behind the sequence number. -/
def behindSequenceNum (b : Bundle) (usage remaining : Nat) : Parser :=
  { behindLength b usage with
    bundle := { b.numbers with lifetime := 0 }
    destinationEidref := ⟨b.bundle6CalculateDict.destinationEidInfo.dictSchemeOffset,
      b.bundle6CalculateDict.destinationEidInfo.dictSspOffset⟩
    sourceEidref := ⟨b.bundle6CalculateDict.sourceEidInfo.dictSchemeOffset,
      b.bundle6CalculateDict.sourceEidInfo.dictSspOffset⟩
    reportToEidref := ⟨b.bundle6CalculateDict.reportToEidInfo.dictSchemeOffset,
      b.bundle6CalculateDict.reportToEidInfo.dictSspOffset⟩
    custodianEidref := ⟨b.bundle6CalculateDict.custodianEidInfo.dictSchemeOffset,
      b.bundle6CalculateDict.custodianEidInfo.dictSspOffset⟩
    currentStage := .lifetime
    nextStage := .lifetime
    primaryBytesRemaining := remaining }

/-- The parser behind the lifetime, which is whole seconds. -/
def behindLifetime (b : Bundle) (usage remaining : Nat) : Parser :=
  { behindSequenceNum b usage remaining with
    bundle := b.numbers
    currentStage := .dictLength
    nextStage := .dictLength }

theorem remainingAfter_of_le {n : Nat} (hprimary : s.currentBlock = .primary)
    (hlt : s.primaryBytesRemaining < 2 ^ 16) (hle : n ≤ s.primaryBytesRemaining) :
    s.remainingAfter n = s.primaryBytesRemaining - n := by
  rw [remainingAfter, if_pos hprimary]
  omega

theorem reaches_behindSequenceNum (env : ParserEnv) (usage : Nat) (h : b.WellFormed)
    (hroom : Entry.totalSize b.offsetEntries ≤ b.primaryBlockLength) :
    Reaches env (behindLength b usage) (b.offsetEntries.flatMap Entry.bytes)
      (behindSequenceNum b usage
        (b.primaryBlockLength - Entry.totalSize b.offsetEntries)) := by
  have hchain : Entry.Chained .destinationEidScheme b.offsetEntries .lifetime :=
    ⟨rfl, rfl, rfl, rfl, rfl, rfl, rfl, rfl, rfl, rfl, rfl⟩
  obtain ⟨hoffsets, hremaining⟩ := Entry.feed_entries env h.offsetEntries_fit hchain
    (s := behindLength b usage) ⟨rfl, rfl⟩ rfl rfl rfl rfl h.primaryBlockLength hroom
  have hstate : b.offsetEntries.foldl Entry.run (behindLength b usage) =
      behindSequenceNum b usage
        (b.offsetEntries.foldl Entry.run (behindLength b usage)).primaryBytesRemaining := rfl
  rw [hstate, hremaining] at hoffsets
  exact hoffsets

theorem reaches_behindLifetime (env : ParserEnv) (usage : Nat) {remaining : Nat}
    (h : b.WellFormed) (hlt : remaining < 2 ^ 16)
    (hroom : sdnvGetSizeU64 (b.lifetime / 1000000) ≤ remaining) :
    Reaches env (behindSequenceNum b usage remaining) (sdnvWriteU64 (b.lifetime / 1000000))
      (behindLifetime b usage (remaining - sdnvGetSizeU64 (b.lifetime / 1000000))) := by
  have hlifetime := h.lifetime
  have hfits := Entry.fits_u64 Field.lifetime_lawful ⟨rfl, rfl⟩ ⟨by decide, fun _ _ => rfl⟩
    (Nat.lt_of_le_of_lt (Nat.div_le_self b.lifetime 1000000) hlifetime)
  have hreaches := hfits.feed env (s := behindSequenceNum b usage remaining)
    ⟨⟨rfl, rfl⟩, rfl, rfl, rfl⟩ ⟨hlt, fun _ _ => hroom⟩
  have hseconds : b.lifetime / 1000000 * 1000000 % 2 ^ 64 = b.lifetime := by
    rw [Nat.div_mul_cancel h.wholeSeconds, Nat.mod_eq_of_lt hlifetime]
  have hremaining : (behindSequenceNum b usage remaining).remainingAfter
      (sdnvGetSizeU64 (b.lifetime / 1000000)) =
      remaining - sdnvGetSizeU64 (b.lifetime / 1000000) :=
    remainingAfter_of_le rfl hlt hroom
  have hstate : behindLifetime b usage (remaining - sdnvGetSizeU64 (b.lifetime / 1000000)) =
      { behindLifetime b usage ((behindSequenceNum b usage remaining).remainingAfter
          (sdnvGetSizeU64 (b.lifetime / 1000000))) with
        bundle := { b.numbers with
          lifetime := b.lifetime / 1000000 * 1000000 % 2 ^ 64 } } := by
    rw [hseconds, hremaining]
    rfl
  rw [hstate]
  exact hreaches

/-- Every EID takes two bytes of the dictionary at least. -/
theorem le_calculateEidInfos (names : List (List UInt8)) (offset : Nat) :
    offset + 2 * names.length ≤ (calculateEidInfos names offset).2 := by
  induction names generalizing offset with
  | nil => exact Nat.le_refl _
  | cons eid names ih =>
    have hrest := ih (calculateEidInfo eid offset).2
    have hfirst : offset + 2 ≤ (calculateEidInfo eid offset).2 := by
      unfold calculateEidInfo
      dsimp only
      omega
    show offset + 2 * (names.length + 1) ≤
      (calculateEidInfos names (calculateEidInfo eid offset).2).2
    omega

theorem le_dictLengthBytes (b : Bundle) :
    8 + 2 * b.eidRefs.length ≤ b.bundle6CalculateDict.dictLengthBytes := by
  have hle := le_calculateEidInfos b.dictEids 0
  have hlength : b.dictEids.length = 4 + b.eidRefs.length := by
    simp only [Bundle.dictEids, List.length_cons]
    omega
  rw [hlength] at hle
  show _ ≤ (calculateEidInfos b.dictEids 0).2
  omega

/-- The dictionary is entered. -/
theorem next_dictionary (hnext : s.nextStage = .dictionary) (hmem : ∀ n, env.mem n = true)
    (hlength : s.dictLength ≠ 0)
    (hquota : s.currentSize + (s.dictLength + 1) ≤ env.bundleQuota)
    (hbundleQuota : env.bundleQuota < 2 ^ 32) :
    s.bundle6ParserNext env =
      { s with
        currentIndex := 0
        curBytesRemaining := s.dictLength
        currentSize := s.currentSize + (s.dictLength + 1)
        allocations := s.allocations + 1
        dict := []
        currentStage := .dictionary } := by
  have hmod : (s.currentSize + (s.dictLength + 1)) % 2 ^ 32 =
      s.currentSize + (s.dictLength + 1) := Nat.mod_eq_of_lt (by omega)
  have henter : s.enterStage env =
      { s with
        currentIndex := 0
        curBytesRemaining := s.dictLength
        currentSize := s.currentSize + (s.dictLength + 1)
        allocations := s.allocations + 1
        dict := [] } := by
    have hdictionary : s.enterStage env = s.enterDictionary env := by
      unfold enterStage
      rw [hnext]
    rw [hdictionary]
    unfold enterDictionary alloc
    dsimp only
    rw [if_neg hlength, hmod, if_neg (by omega), hmem]
    exact if_pos rfl
  rw [bundle6ParserNext, henter]
  simp [hnext]

theorem reaches_dictionary (henv : Suffices env b usage) (h : b.WellFormed)
    (hlength : b.bundle6CalculateDict.dictLengthBytes < 2 ^ 16)
    (hroom : b.fieldsSize ≤ b.primaryBlockLength) :
    ∃ s, Reaches env (.init usage) b.headBytes s ∧ AtDictionary b usage s := by
  have hlt := h.primaryBlockLength
  unfold Bundle.fieldsSize at hroom
  have hhead := ((reaches_behindLength env usage h).append
    (reaches_behindSequenceNum env usage h (by omega))).append
    (reaches_behindLifetime env usage h (by omega) (by omega))
  generalize hremaining : b.primaryBlockLength - Entry.totalSize b.offsetEntries -
    sdnvGetSizeU64 (b.lifetime / 1000000) = remaining at hhead
  have hfits := Entry.fits_u16 Field.dictLength_lawful ⟨rfl, rfl⟩ ⟨by decide, fun _ _ => rfl⟩
    hlength
  have hreaches := hfits.feed env (s := behindLifetime b usage remaining)
    ⟨⟨rfl, rfl⟩, rfl, rfl, rfl⟩
    ⟨by show remaining < _; omega, fun _ _ => by show sdnvGetSizeU16 _ ≤ remaining; omega⟩
  have hdict := le_dictLengthBytes b
  have hquota := henv.quota
  have hremaining' : (behindLifetime b usage remaining).remainingAfter
      (sdnvGetSizeU16 b.bundle6CalculateDict.dictLengthBytes) =
      remaining - sdnvGetSizeU16 b.bundle6CalculateDict.dictLengthBytes :=
    remainingAfter_of_le rfl (by show remaining < _; omega)
      (by show sdnvGetSizeU16 _ ≤ remaining; omega)
  rw [next_dictionary rfl henv.mem
    (show b.bundle6CalculateDict.dictLengthBytes ≠ 0 by omega)
    (show usage + (b.bundle6CalculateDict.dictLengthBytes + 1) ≤ env.bundleQuota by omega)
    henv.bundleQuota] at hreaches
  have hbytes := hhead.append hreaches
  refine ⟨_, hbytes, ⟨⟨⟨rfl, rfl⟩, rfl, rfl⟩, rfl, rfl, ⟨rfl, rfl, rfl, rfl⟩, rfl, rfl, rfl,
    Nat.le_refl _, ?_, rfl⟩⟩
  · show (behindLifetime b usage remaining).remainingAfter _ = _
    rw [show (Entry.u16 Field.dictLength .dictionary
      b.bundle6CalculateDict.dictLengthBytes).size =
        sdnvGetSizeU16 b.bundle6CalculateDict.dictLengthBytes from rfl, hremaining', Bundle.fieldsSize]
    omega

/-! ## The dictionary and the end of the block -/

/-- The parser after some bytes of the dictionary. -/
def dictRead (s : Parser) (bytes : List UInt8) : Parser :=
  { s with
    curBytesRemaining := s.curBytesRemaining - bytes.length
    dict := s.dict ++ bytes
    currentIndex := s.currentIndex + bytes.length
    primaryBytesRemaining := s.primaryBytesRemaining - bytes.length }

theorem readDictionary_byte {byte : UInt8} (hprimary : s.currentBlock = .primary)
    (hstage : s.currentStage = .dictionary) (hlt : s.primaryBytesRemaining < 2 ^ 16)
    (hpos : 0 < s.primaryBytesRemaining) :
    s.bundle6ParserReadByte env byte =
      ((s.withRemaining (s.primaryBytesRemaining - 1)).readDictionary env byte).settle env := by
  rw [readByte_eq ⟨hlt, fun _ _ => hpos⟩, remainingAfter_of_le hprimary hlt hpos]
  congr 1
  rw [readStage, show (s.withRemaining (s.primaryBytesRemaining - 1)).currentStage =
    .dictionary from hstage]

theorem readDictionary_last {byte : UInt8} (h : s.curBytesRemaining = 1) :
    s.readDictionary env byte = { s with
      curBytesRemaining := s.curBytesRemaining - 1
      dict := s.dict ++ [byte]
      currentIndex := s.currentIndex + 1 + 1 }.readEids env := by
  have hzero : s.curBytesRemaining - 1 = 0 := by omega
  exact if_pos hzero

/-- Bytes of the dictionary that are not the last ones. -/
theorem reaches_dictRead {bytes : List UInt8} (hs : s.Waits .dictionary)
    (hprimary : s.currentBlock = .primary) (hlt : s.primaryBytesRemaining < 2 ^ 16)
    (hremaining : bytes.length ≤ s.primaryBytesRemaining)
    (hmore : bytes.length < s.curBytesRemaining) : Reaches env s bytes (s.dictRead bytes) := by
  induction bytes generalizing s with
  | nil =>
    have hsame : s.dictRead [] = s := by simp [dictRead]
    rw [hsame]
    exact .refl s
  | cons byte bytes ih =>
    rw [List.length_cons] at hremaining hmore
    have hcur : s.curBytesRemaining - 1 ≠ 0 := by omega
    have hread : (s.withRemaining (s.primaryBytesRemaining - 1)).readDictionary env byte =
        s.dictRead [byte] := by
      unfold readDictionary
      exact if_neg hcur
    have hbyte : s.bundle6ParserReadByte env byte = s.dictRead [byte] := by
      rw [readDictionary_byte hprimary hs.currentStage hlt (by omega), hread]
      exact if_neg fun hne => hne.1 (hs.currentStage.trans hs.nextStage.symm)
    have hrest := @ih (s.dictRead [byte]) ⟨⟨hs.status, hs.bulkRead⟩, hs.currentStage,
      hs.nextStage⟩ hprimary
      (by show s.primaryBytesRemaining - 1 < _; omega)
      (by show _ ≤ s.primaryBytesRemaining - 1; omega)
      (by show _ < s.curBytesRemaining - 1; omega)
    have hsame : (s.dictRead [byte]).dictRead bytes = s.dictRead (byte :: bytes) := by
      simp only [dictRead, List.length_cons, List.length_nil, List.append_assoc,
        List.singleton_append, Nat.sub_sub, Nat.add_assoc, Nat.zero_add,
        Nat.add_comm 1 bytes.length]
    rw [hsame] at hrest
    have hfirst : Reaches env s [byte] (s.bundle6ParserReadByte env byte) :=
      hs.toOpen.reaches_byte
    rw [hbyte] at hfirst
    exact hfirst.append hrest

/-- The EIDs of the primary block are read from the dictionary. -/
theorem readEids_eq (hmem : ∀ n, env.mem n = true) (h : b.WellFormed) (hrefs : s.HasRefs b)
    (hbundle : s.bundle = b.numbers) (hdict : s.dict = b.dictionaryBytes)
    (hlength : s.dictLength = b.dictionaryBytes.length) :
    s.readEids env = { s with
      bundle := b.named
      nextStage := if b.isFragmented then .fragmentOffset else .blockType
      allocations := s.allocations + 4 } := by
  have hreadable := h.readable
  rw [Bundle.calculateEidInfos_dictEids] at hreadable
  simp only [List.mem_cons, forall_eq_or_imp] at hreadable
  obtain ⟨hdestination, hsource, hreportTo, hcustodian, -⟩ := hreadable
  have hread : ∀ (n : Nat) (ref : EidReference) (info : EidInfo),
      ref = ⟨info.dictSchemeOffset, info.dictSspOffset⟩ → Readable b.dictionaryBytes info →
      ({ s with allocations := n } : Parser).readEid env ref =
        (some info.str, { s with allocations := n + 1 }) := by
    rintro n ref info rfl hinfo
    exact readEid_of_readable hmem hdict hlength hinfo
  have hsource' : s.readEid env s.sourceEidref =
      (some b.source, { s with allocations := s.allocations + 1 }) :=
    hread s.allocations _ _ hrefs.sourceEidref hsource
  have hdestination' : ({ s with allocations := s.allocations + 1 } : Parser).readEid env
      s.destinationEidref = (some b.destination, { s with allocations := s.allocations + 2 }) :=
    hread (s.allocations + 1) _ _ hrefs.destinationEidref hdestination
  have hreportTo' : ({ s with allocations := s.allocations + 2 } : Parser).readEid env
      s.reportToEidref = (some b.reportTo, { s with allocations := s.allocations + 3 }) :=
    hread (s.allocations + 2) _ _ hrefs.reportToEidref hreportTo
  have hcustodian' : ({ s with allocations := s.allocations + 3 } : Parser).readEid env
      s.custodianEidref =
        (some b.currentCustodian, { s with allocations := s.allocations + 4 }) :=
    hread (s.allocations + 3) _ _ hrefs.custodianEidref hcustodian
  unfold readEids
  simp only [hsource', hdestination', hreportTo', hcustodian']
  rw [hbundle]
  rfl

/-- What holds when the parser comes to a block. -/
structure AtBlock (b received : Bundle) (size : Nat) (s : Parser) : Prop
    extends s.Waits .blockType where
  currentBlock : s.currentBlock = .generic
  bundle : s.bundle = received
  dict : s.dict = b.dictionaryBytes
  dictLength : s.dictLength = b.dictionaryBytes.length
  currentSize : s.currentSize ≤ size
  primaryBytesRemaining : s.primaryBytesRemaining < 2 ^ 16
  delivered : s.delivered = []

/-- The state behind the dictionary, before the EIDs are read from it. -/
def dictionaryTaken (b : Bundle) (s : Parser) : Parser :=
  { s.dictRead b.dictionaryBytes with
    currentIndex := s.currentIndex + b.dictionaryBytes.length + 1 }

/-- The state behind the dictionary, before the next stage is entered. -/
def dictionaryDone (b : Bundle) (s : Parser) : Parser :=
  { s.dictRead b.dictionaryBytes with
    currentIndex := s.currentIndex + b.dictionaryBytes.length + 1
    bundle := b.named
    nextStage := if b.isFragmented then .fragmentOffset else .blockType
    allocations := s.allocations + 4 }

/-- What holds behind the dictionary, before the next stage is entered. -/
structure DictionaryRead (b : Bundle) (usage : Nat) (s : Parser) : Prop extends s.Open where
  nextStage : s.nextStage = if b.isFragmented then .fragmentOffset else .blockType
  currentBlock : s.currentBlock = .primary
  bundle : s.bundle = b.named
  dict : s.dict = b.dictionaryBytes
  dictLength : s.dictLength = b.dictionaryBytes.length
  currentSize : s.currentSize ≤ usage + (b.bundle6CalculateDict.dictLengthBytes + 1)
  primaryBytesRemaining : s.primaryBytesRemaining < 2 ^ 16 ∧
    b.fragmentBytes.length ≤ s.primaryBytesRemaining
  delivered : s.delivered = []

theorem dictionaryRead_dictionaryDone (h : b.WellFormed)
    (hroom : b.restSize ≤ b.primaryBlockLength) (hs : AtDictionary b usage s) :
    DictionaryRead b usage (dictionaryDone b s) := by
  have hdict := Bundle.length_dictionaryBytes fun block hblock => (h.blocks block hblock).unflagged
  have hfull : s.dict ++ b.dictionaryBytes = b.dictionaryBytes := by
    rw [hs.dict, List.nil_append]
  have hlt := h.primaryBlockLength
  have hprimary := hs.primaryBytesRemaining
  unfold Bundle.restSize at hroom
  have hlength := hs.dictLength.trans hdict.symm
  have hremaining : s.primaryBytesRemaining - b.dictionaryBytes.length < 2 ^ 16 ∧
      b.fragmentBytes.length ≤ s.primaryBytesRemaining - b.dictionaryBytes.length := by
    rw [hdict]
    omega
  -- the fields are compared after the state is unfolded
  refine ⟨⟨?_, ?_⟩, ?_, ?_, ?_, ?_, ?_, ?_, ?_, ?_⟩
  all_goals dsimp only [dictionaryDone, dictRead]
  · exact hs.status
  · exact hs.bulkRead
  · exact hs.currentBlock
  · exact hfull
  · exact hlength
  · exact hs.currentSize
  · exact hremaining
  · exact hs.delivered

theorem dictionaryDone_ne (h : s.currentStage = .dictionary) :
    (dictionaryDone b s).currentStage ≠ (dictionaryDone b s).nextStage := by
  dsimp only [dictionaryDone, dictRead]
  rw [h]
  split <;> exact Stage.noConfusion

theorem readEids_dictionaryTaken (henv : Suffices env b usage) (h : b.WellFormed)
    (hs : AtDictionary b usage s) :
    (dictionaryTaken b s).readEids env = dictionaryDone b s := by
  have hdict := Bundle.length_dictionaryBytes fun block hblock => (h.blocks block hblock).unflagged
  have hfull : (dictionaryTaken b s).dict = b.dictionaryBytes := by
    dsimp only [dictionaryTaken, dictRead]
    rw [hs.dict, List.nil_append]
  have hrefs : (dictionaryTaken b s).HasRefs b := by
    constructor
    all_goals dsimp only [dictionaryTaken, dictRead]
    · exact hs.refs.destinationEidref
    · exact hs.refs.sourceEidref
    · exact hs.refs.reportToEidref
    · exact hs.refs.custodianEidref
  have hbundle : (dictionaryTaken b s).bundle = b.numbers := by
    dsimp only [dictionaryTaken, dictRead]
    exact hs.bundle
  have hlength : (dictionaryTaken b s).dictLength = b.dictionaryBytes.length := by
    dsimp only [dictionaryTaken, dictRead]
    exact hs.dictLength.trans hdict.symm
  rw [readEids_eq henv.mem h hrefs hbundle hfull hlength]
  dsimp only [dictionaryDone, dictionaryTaken, dictRead]

theorem reaches_dictionaryBytes (henv : Suffices env b usage) (h : b.WellFormed)
    (hroom : b.restSize ≤ b.primaryBlockLength) (hs : AtDictionary b usage s) :
    ∃ t, Reaches env s b.dictionaryBytes (t.bundle6ParserNext env) ∧ DictionaryRead b usage t := by
  have hdict := Bundle.length_dictionaryBytes fun block hblock => (h.blocks block hblock).unflagged
  have hpos := le_dictLengthBytes b
  have hdone := dictionaryRead_dictionaryDone h hroom hs
  have hlt := h.primaryBlockLength
  have hprimary := hs.primaryBytesRemaining
  unfold Bundle.restSize at hroom
  obtain ⟨bytes, last, hsplit⟩ : ∃ bytes last, b.dictionaryBytes = bytes ++ [last] := by
    rcases List.eq_nil_or_concat' b.dictionaryBytes with hnil | ⟨bytes, last, hsplit⟩
    · rw [hnil] at hdict
      simp only [List.length_nil] at hdict
      omega
    · exact ⟨bytes, last, hsplit⟩
  have hlength : bytes.length + 1 = b.bundle6CalculateDict.dictLengthBytes := by
    rw [← hdict, hsplit, List.length_append]
    rfl
  have hcur := hs.curBytesRemaining
  have hfront : Reaches env s bytes (s.dictRead bytes) :=
    reaches_dictRead hs.toWaits hs.currentBlock (by omega) (by omega) (by omega)
  -- the last byte
  have hremaining : (s.dictRead bytes).primaryBytesRemaining =
      s.primaryBytesRemaining - bytes.length := rfl
  have hone : ((s.dictRead bytes).withRemaining
      ((s.dictRead bytes).primaryBytesRemaining - 1)).curBytesRemaining = 1 := by
    dsimp only [withRemaining, dictRead]
    omega
  have hlast : ((s.dictRead bytes).withRemaining
      ((s.dictRead bytes).primaryBytesRemaining - 1)).readDictionary env last =
      (dictionaryTaken b s).readEids env := by
    rw [readDictionary_last hone]
    simp only [dictionaryTaken, dictRead, withRemaining, hsplit, List.length_append,
      List.length_cons, List.length_nil, List.append_assoc, Nat.sub_sub, Nat.add_assoc,
      Nat.zero_add]
  have hread : (s.dictRead bytes).bundle6ParserReadByte env last =
      (dictionaryDone b s).bundle6ParserNext env := by
    rw [readDictionary_byte (s := s.dictRead bytes) hs.currentBlock hs.currentStage (by omega)
      (by omega), hlast, readEids_dictionaryTaken henv h hs]
    exact settle_of_ne (dictionaryDone_ne hs.currentStage)
      fun herror => absurd (hdone.status.symm.trans herror) ParserStatus.noConfusion
  have hreaches : Reaches env s b.dictionaryBytes ((dictionaryDone b s).bundle6ParserNext env) := by
    rw [hsplit, ← hread]
    exact hfront.append (Open.reaches_byte ⟨hs.status, hs.bulkRead⟩)
  exact ⟨dictionaryDone b s, hreaches, hdone⟩

theorem named_eq (h : b.WellFormed) :
    { b.named with fragmentOffset := b.fragmentOffset, totalAduLength := b.totalAduLength } =
      { b with blocks := [], payloadBlock := none } := by
  have hversion := h.version
  obtain ⟨version, procFlags, primaryBlockLength, destination, source, reportTo, custodian,
    creationTimestamp, sequenceNumber, lifetime, fragmentOffset, totalAduLength, blocks,
    payloadBlock⟩ := b
  obtain rfl : version = 6 := hversion
  rfl

/-- The fields of a fragment. -/
theorem reaches_fragment (env : ParserEnv) {offset length : Nat} (hs : Field.fragmentOffset.At s)
    (hprimary : s.currentBlock = .primary) (hlt : s.primaryBytesRemaining < 2 ^ 16)
    (hroom : sdnvGetSizeU32 offset + sdnvGetSizeU32 length ≤ s.primaryBytesRemaining)
    (hoffset : offset < 2 ^ 32) (hlength : length < 2 ^ 32) :
    ∃ remaining < 2 ^ 16, Reaches env s (sdnvWriteU32 offset ++ sdnvWriteU32 length)
      { s with
        bundle := { s.bundle with fragmentOffset := offset, totalAduLength := length }
        nextStage := .blockType
        currentStage := .blockType
        currentBlock := .generic
        sdnvState := ⟨.done, sdnvGetSizeU32 length⟩
        primaryBytesRemaining := remaining } := by
  have hfirst := (Entry.fits_u32 Field.fragmentOffset_lawful ⟨rfl, rfl⟩
    ⟨by decide, fun _ _ => rfl⟩ hoffset).feed env hs
    ⟨hlt, fun _ _ => by show sdnvGetSizeU32 offset ≤ _; omega⟩
  have hafter : s.remainingAfter (sdnvGetSizeU32 offset) =
      s.primaryBytesRemaining - sdnvGetSizeU32 offset :=
    remainingAfter_of_le hprimary (by omega) (by omega)
  generalize hstate : ({ s with
    bundle := { s.bundle with fragmentOffset := offset }
    nextStage := .aduLength
    currentStage := .aduLength
    sdnvState := .reset
    primaryBytesRemaining := s.remainingAfter (sdnvGetSizeU32 offset) } : Parser) = t
  have hfirst' : Reaches env s (sdnvWriteU32 offset) t := by
    rw [← hstate]
    exact hfirst
  have hremaining : t.primaryBytesRemaining = s.remainingAfter (sdnvGetSizeU32 offset) := by
    rw [← hstate]
  have hat : Field.aduLength.At t := by
    rw [← hstate]
    exact ⟨⟨hs.status, hs.bulkRead⟩, rfl, rfl, rfl⟩
  have hsecond := (Entry.fits_u32 Field.aduLength_lawful ⟨rfl, rfl⟩
    ⟨by decide, fun _ _ => rfl⟩ hlength).feed env hat
    ⟨by omega, fun _ _ => by show sdnvGetSizeU32 length ≤ _; omega⟩
  refine ⟨t.remainingAfter (sdnvGetSizeU32 length), remainingAfter_lt _ (by omega), ?_⟩
  have hend := hfirst'.append hsecond
  rw [← hstate] at hend ⊢
  exact hend

/-- The parser comes to the first block. -/
theorem DictionaryRead.reaches_firstBlock (env : ParserEnv) (h : b.WellFormed)
    (hs : DictionaryRead b usage s) :
    ∃ t, Reaches env (s.bundle6ParserNext env) b.fragmentBytes t ∧
      AtBlock b { b with blocks := [], payloadBlock := none }
        (usage + (b.bundle6CalculateDict.dictLengthBytes + 1)) t := by
  obtain ⟨hlt, hroom⟩ := hs.primaryBytesRemaining
  have hnamed := named_eq h
  rw [← hs.bundle] at hnamed
  have hstage := hs.nextStage
  cases hfragment : b.isFragmented with
  | false =>
    rw [hfragment] at hstage
    obtain ⟨hoffset, hlength⟩ := h.unfragmented hfragment
    have hbytes : b.fragmentBytes = [] := by
      rw [Bundle.fragmentBytes, hfragment]
      rfl
    have hnext : s.bundle6ParserNext env =
        { s with currentStage := .blockType, nextStage := .blockType, currentBlock := .generic } := by
      simp [bundle6ParserNext, enterStage, hstage]
    have hbundle : s.bundle = { b with blocks := [], payloadBlock := none } := by
      rw [← hnamed, hoffset, hlength, hs.bundle]
      rfl
    rw [hbytes, hnext]
    exact ⟨_, .refl _, ⟨⟨⟨hs.status, hs.bulkRead⟩, rfl, rfl⟩, rfl, hbundle, hs.dict,
      hs.dictLength, hs.currentSize, hlt, hs.delivered⟩⟩
  | true =>
    rw [hfragment] at hstage
    have hbytes : b.fragmentBytes =
        sdnvWriteU32 b.fragmentOffset ++ sdnvWriteU32 b.totalAduLength := by
      rw [Bundle.fragmentBytes, hfragment]
      rfl
    have hnext : s.bundle6ParserNext env =
        { s with
          nextStage := .fragmentOffset
          currentStage := .fragmentOffset
          sdnvState := .reset } := by
      simp [bundle6ParserNext, enterStage, hstage]
    rw [hbytes, List.length_append, length_sdnvWriteU32, length_sdnvWriteU32] at hroom
    rw [hbytes, hnext]
    obtain ⟨remaining, hremaining, hend⟩ := reaches_fragment env
      (s := { s with
        nextStage := .fragmentOffset
        currentStage := .fragmentOffset
        sdnvState := .reset }) ⟨⟨hs.status, hs.bulkRead⟩, rfl, rfl, rfl⟩ hs.currentBlock
      hlt hroom h.fragmentOffset h.totalAduLength
    exact ⟨_, hend, ⟨⟨⟨hs.status, hs.bulkRead⟩, rfl, rfl⟩, rfl, hnamed, hs.dict,
      hs.dictLength, hs.currentSize, hremaining, hs.delivered⟩⟩

end Parser

end Upcn.Bundle6
