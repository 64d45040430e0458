import Mathlib.Data.List.Flatten
import Mathlib.Data.List.Forall2
import Upcn.Bundle6.Dictionary

/-!
# The layout of the dictionary

`bundle6_calculate_dict`, `bundle6_serialize_dictionary` and `bundle6_get_dict_length` for
bundles whose EIDs may be `NULL` and whose blocks may have EID references with and without
the flag.

* An `EidPtr` is a `char *` that names an endpoint.  The functions are those of the
  serializer, with the checks for `NULL`.
* `trueOffsets` is where the strings stand.  `calculate_eid_info` keeps 16 bits of it.
* `LaidOut` is what the three functions owe to each other, and `laidOut_iff` when they do.
-/

namespace Upcn.Bundle6.Layout

/-! ## The functions -/

/-- A `char *` to a string, or `NULL`. -/
abbrev EidPtr := Option { eid : List UInt8 // 0 ∉ eid }

/-- A block, as far as it has EID references. -/
structure Block where
  flags : Nat
  eidRefs : List EidPtr
  deriving DecidableEq

/-- `BUNDLE_V6_BLOCK_FLAG_HAS_EID_REF_FIELD`. -/
def Block.hasEidRefField (block : Block) : Bool := block.flags.testBit 6

/-- `struct bundle`, as far as it has EIDs. -/
structure Bundle where
  destination : EidPtr
  source : EidPtr
  reportTo : EidPtr
  currentCustodian : EidPtr
  blocks : List Block
  deriving DecidableEq

/-- `struct bundle6_eid_info`, without `ssp_ptr`, which is not read. -/
structure EidInfo where
  strPtr : EidPtr
  dictSchemeOffset : Nat
  dictSspOffset : Nat
  deriving DecidableEq

/-- `struct bundle6_dict_descriptor`.  `eidReferences` is what is written to the array, which
has room for `eidReferenceCount` entries. -/
structure DictDescriptor where
  dictLengthBytes : Nat
  eidReferenceCount : Nat
  destinationEidInfo : EidInfo
  sourceEidInfo : EidInfo
  reportToEidInfo : EidInfo
  custodianEidInfo : EidInfo
  eidReferences : List EidInfo
  deriving DecidableEq

/-- `write_scheme`. -/
def writeScheme : EidPtr → List UInt8
  | none => [100, 116, 110, 0]
  | some eid => Bundle6.writeScheme eid.val

/-- `write_ssp`. -/
def writeSsp : EidPtr → List UInt8
  | none => [110, 111, 110, 101, 0]
  | some eid => Bundle6.writeSsp eid.val

/-- `write_eid`. -/
def writeEid (info : EidInfo) : List UInt8 := writeScheme info.strPtr ++ writeSsp info.strPtr

/-- `bundle6_serialize_dictionary`. -/
def bundle6SerializeDictionary (desc : DictDescriptor) : List UInt8 :=
  writeEid desc.destinationEidInfo ++ writeEid desc.sourceEidInfo ++
    writeEid desc.reportToEidInfo ++ writeEid desc.custodianEidInfo ++
    (desc.eidReferences.take desc.eidReferenceCount).flatMap writeEid

/-- `analyze_eid`: the lengths of the scheme and of the SSP. -/
def analyzeEid : EidPtr → Nat × Nat
  | none => (3, 4)
  | some eid => Bundle6.analyzeEid eid.val

/-- `calculate_eid_info`: the offsets, and the length of the dictionary with this EID. -/
def calculateEidInfo (eid : EidPtr) (dictLength : Nat) : EidInfo × Nat :=
  let (schemeLen, sspLen) := analyzeEid eid
  (⟨eid, dictLength % 2 ^ 16, (dictLength + schemeLen + 1) % 2 ^ 16⟩,
    dictLength + schemeLen + sspLen + 2)

/-- `calculate_eid_info` for one EID after the other. -/
def calculateEidInfos : List EidPtr → Nat → List EidInfo × Nat
  | [], dictLength => ([], dictLength)
  | eid :: eids, dictLength =>
    let (info, dictLength) := calculateEidInfo eid dictLength
    let (infos, dictLength) := calculateEidInfos eids dictLength
    (info :: infos, dictLength)

namespace Bundle

/-- The EID references of all blocks. -/
def eidRefs (b : Bundle) : List EidPtr := b.blocks.flatMap (·.eidRefs)

/-- `bundle6_calculate_dict`.  The references are counted in the blocks that have the flag,
and laid out for all blocks. -/
def bundle6CalculateDict (b : Bundle) : DictDescriptor :=
  let (destination, length) := calculateEidInfo b.destination 0
  let (source, length) := calculateEidInfo b.source length
  let (reportTo, length) := calculateEidInfo b.reportTo length
  let (custodian, length) := calculateEidInfo b.currentCustodian length
  let (references, length) := calculateEidInfos b.eidRefs length
  { dictLengthBytes := length
    eidReferenceCount := ((b.blocks.filter (·.hasEidRefField)).flatMap (·.eidRefs)).length
    destinationEidInfo := destination
    sourceEidInfo := source
    reportToEidInfo := reportTo
    custodianEidInfo := custodian
    eidReferences := references }

/-- What `bundle6_get_dict_length` adds for an EID of the primary block. -/
def headerEidLength : EidPtr → Nat
  | none => 9
  | some eid => eid.val.length + 1

/-- What it adds for the references: there is no check for `NULL`. -/
def referencesLength : List EidPtr → Option Nat
  | [] => some 0
  | none :: _ => none
  | some eid :: eids => (referencesLength eids).map fun length => eid.val.length + 1 + length

/-- The four EIDs of the primary block, in their order. -/
def headerEids (b : Bundle) : List EidPtr :=
  [b.destination, b.source, b.reportTo, b.currentCustodian]

/-- `bundle6_get_dict_length`: `none` if a `NULL` is dereferenced. -/
def bundle6GetDictLength (b : Bundle) : Option Nat :=
  (referencesLength b.eidRefs).map fun length =>
    (b.headerEids.map headerEidLength).sum + length

end Bundle

/-! ## What the dictionary should be -/

/-- What stands for the scheme of an EID. -/
def EidPtr.scheme : EidPtr → List UInt8
  | none => [100, 116, 110]
  | some eid => if 58 ∈ eid.val then eidScheme eid.val else [100, 116, 110]

/-- What stands for its SSP. -/
def EidPtr.ssp : EidPtr → List UInt8
  | none => [110, 111, 110, 101]
  | some eid => if 58 ∈ eid.val then eidSsp eid.val else [110, 111, 110, 101]

/-- The strings, one behind the other. -/
def words (eids : List EidPtr) : List UInt8 :=
  eids.flatMap fun eid => EidPtr.scheme eid ++ 0 :: (EidPtr.ssp eid ++ [0])

/-- Where the two strings of each EID stand. -/
def trueOffsets : List EidPtr → Nat → List (Nat × Nat)
  | [], _ => []
  | eid :: eids, offset =>
    (offset, offset + (EidPtr.scheme eid).length + 1) ::
      trueOffsets eids (offset + (EidPtr.scheme eid).length + (EidPtr.ssp eid).length + 2)

/-- The strings at two offsets are those of the EID. -/
def ReadsAt (dict : List UInt8) (offsets : Nat × Nat) (eid : EidPtr) : Prop :=
  Parser.dictString dict offsets.1 = EidPtr.scheme eid ∧
    Parser.dictString dict offsets.2 = EidPtr.ssp eid

/-- The lower 16 bits of the offsets lead to the same strings. -/
def SameBelow (dict : List UInt8) (offsets : Nat × Nat) : Prop :=
  Parser.dictString dict (offsets.1 % 2 ^ 16) = Parser.dictString dict offsets.1 ∧
    Parser.dictString dict (offsets.2 % 2 ^ 16) = Parser.dictString dict offsets.2

namespace Bundle

/-- The EIDs of the dictionary, in order. -/
def dictEids (b : Bundle) : List EidPtr := b.headerEids ++ b.eidRefs

/-- Only blocks with the flag have EID references. -/
def Unflagged (b : Bundle) : Prop :=
  ∀ block ∈ b.blocks, block.hasEidRefField = false → block.eidRefs = []

/-- 16 bits are enough to find the strings. -/
def OffsetsHold (b : Bundle) : Prop :=
  ∀ offsets ∈ trueOffsets b.dictEids 0, SameBelow (words b.dictEids) offsets

/-- All EIDs have a colon; those of the primary block may be `NULL`. -/
structure WellFormed (b : Bundle) : Prop where
  header : ∀ eid ∈ b.headerEids, ∀ text ∈ eid, 58 ∈ text.val
  references : ∀ eid ∈ b.eidRefs, ∃ text ∈ eid, 58 ∈ text.val

/-- The entries of the descriptor, in order. -/
def entries (b : Bundle) : List EidInfo :=
  b.bundle6CalculateDict.destinationEidInfo :: b.bundle6CalculateDict.sourceEidInfo ::
    b.bundle6CalculateDict.reportToEidInfo :: b.bundle6CalculateDict.custodianEidInfo ::
    b.bundle6CalculateDict.eidReferences

/-- The dictionary that is written. -/
def dictionary (b : Bundle) : List UInt8 := bundle6SerializeDictionary b.bundle6CalculateDict

/-- The descriptor, the dictionary and its length belong together. -/
structure LaidOut (b : Bundle) : Prop where
  /-- The buffer is filled, and no more. -/
  length : b.dictionary.length = b.bundle6CalculateDict.dictLengthBytes
  /-- Nothing is written behind the descriptor. -/
  inBounds : b.bundle6CalculateDict.eidReferences.length ≤
    b.bundle6CalculateDict.eidReferenceCount
  reads : List.Forall₂ (fun info eid =>
    ReadsAt b.dictionary (info.dictSchemeOffset, info.dictSspOffset) eid) b.entries b.dictEids
  dictLength : b.WellFormed →
    b.bundle6GetDictLength = some b.bundle6CalculateDict.dictLengthBytes

end Bundle

/-! ## One EID -/

variable {eid : EidPtr} {eids : List EidPtr} {pre post : List UInt8} {offset : Nat} {b : Bundle}

theorem writeScheme_eq (eid : EidPtr) : writeScheme eid = EidPtr.scheme eid ++ [0] := by
  cases eid with
  | none => rfl
  | some eid =>
    rw [writeScheme, Bundle6.writeScheme, EidPtr.scheme]
    split <;> rfl

theorem writeSsp_eq (eid : EidPtr) : writeSsp eid = EidPtr.ssp eid ++ [0] := by
  cases eid with
  | none => rfl
  | some eid =>
    rw [writeSsp, Bundle6.writeSsp, EidPtr.ssp]
    split <;> rfl

theorem analyzeEid_eq (eid : EidPtr) :
    analyzeEid eid = ((EidPtr.scheme eid).length, (EidPtr.ssp eid).length) := by
  cases eid with
  | none => rfl
  | some eid =>
    rw [analyzeEid, Bundle6.analyzeEid, EidPtr.scheme, EidPtr.ssp]
    split <;> rfl

theorem zero_not_mem (eid : EidPtr) : 0 ∉ EidPtr.scheme eid ∧ 0 ∉ EidPtr.ssp eid := by
  cases eid with
  | none => decide
  | some eid =>
    rw [EidPtr.scheme, EidPtr.ssp]
    split
    · rename_i hcolon
      exact Bundle6.zero_not_mem ⟨hcolon, eid.property⟩
    · decide

/-- An EID with a colon is one character longer than its parts. -/
theorem length_of_colon {text : { eid : List UInt8 // 0 ∉ eid }} (h : 58 ∈ text.val) :
    text.val.length + 1 =
      (EidPtr.scheme (some text)).length + (EidPtr.ssp (some text)).length + 2 := by
  have hsplit := congrArg List.length (eidScheme_append_eidSsp ⟨h, text.property⟩)
  rw [List.length_append, List.length_cons] at hsplit
  rw [EidPtr.scheme, EidPtr.ssp, if_pos h, if_pos h]
  omega

theorem readsAt_append (hpre : pre.length = offset) :
    ReadsAt (pre ++ (EidPtr.scheme eid ++ 0 :: (EidPtr.ssp eid ++ [0])) ++ post)
      (offset, offset + (EidPtr.scheme eid).length + 1) eid := by
  obtain ⟨hscheme, hssp⟩ := zero_not_mem eid
  constructor
  · have hlist : pre ++ (EidPtr.scheme eid ++ 0 :: (EidPtr.ssp eid ++ [0])) ++ post =
        pre ++ EidPtr.scheme eid ++ 0 :: (EidPtr.ssp eid ++ 0 :: post) := by simp
    rw [hlist]
    exact dictString_append hpre hscheme
  · have hlist : pre ++ (EidPtr.scheme eid ++ 0 :: (EidPtr.ssp eid ++ [0])) ++ post =
        (pre ++ EidPtr.scheme eid ++ [0]) ++ EidPtr.ssp eid ++ 0 :: post := by simp
    rw [hlist]
    refine dictString_append ?_ hssp
    simp only [List.length_append, List.length_singleton, hpre]

/-! ## All of them -/

theorem words_cons (eid : EidPtr) (eids : List EidPtr) :
    words (eid :: eids) = EidPtr.scheme eid ++ 0 :: (EidPtr.ssp eid ++ [0]) ++ words eids :=
  List.flatMap_cons

theorem readsAt_trueOffsets (pre : List UInt8) (eids : List EidPtr) :
    List.Forall₂ (ReadsAt (pre ++ words eids)) (trueOffsets eids pre.length) eids := by
  induction eids generalizing pre with
  | nil => exact .nil
  | cons eid eids ih =>
    have hrest := ih (pre ++ (EidPtr.scheme eid ++ 0 :: (EidPtr.ssp eid ++ [0])))
    have hlength : (pre ++ (EidPtr.scheme eid ++ 0 :: (EidPtr.ssp eid ++ [0]))).length =
        pre.length + (EidPtr.scheme eid).length + (EidPtr.ssp eid).length + 2 := by
      simp only [List.length_append, List.length_cons, List.length_nil]
      omega
    rw [hlength] at hrest
    rw [words_cons, ← List.append_assoc]
    exact .cons (readsAt_append rfl) hrest

/-- The computed offsets are the lower 16 bits. -/
theorem offsets_calculateEidInfos (eids : List EidPtr) (offset : Nat) :
    (calculateEidInfos eids offset).1.map (fun info =>
        (info.dictSchemeOffset, info.dictSspOffset)) =
      (trueOffsets eids offset).map fun offsets =>
        (offsets.1 % 2 ^ 16, offsets.2 % 2 ^ 16) := by
  induction eids generalizing offset with
  | nil => rfl
  | cons eid eids ih =>
    simp only [calculateEidInfos, calculateEidInfo, analyzeEid_eq, trueOffsets, List.map_cons, ih]

theorem writeEid_calculateEidInfos (eids : List EidPtr) (offset : Nat) :
    (calculateEidInfos eids offset).1.flatMap writeEid = words eids := by
  induction eids generalizing offset with
  | nil => rfl
  | cons eid eids ih =>
    simp only [calculateEidInfos, calculateEidInfo, List.flatMap_cons, ih, words_cons, writeEid,
      writeScheme_eq, writeSsp_eq, List.append_assoc, List.cons_append, List.nil_append]

theorem length_calculateEidInfos (eids : List EidPtr) (offset : Nat) :
    (calculateEidInfos eids offset).2 = offset + (words eids).length ∧
      (calculateEidInfos eids offset).1.length = eids.length := by
  induction eids generalizing offset with
  | nil => exact ⟨rfl, rfl⟩
  | cons eid eids ih =>
    obtain ⟨hbytes, hcount⟩ := ih (calculateEidInfo eid offset).2
    refine ⟨?_, congrArg (· + 1) hcount⟩
    show (calculateEidInfos eids (calculateEidInfo eid offset).2).2 = _
    rw [hbytes, words_cons]
    simp only [calculateEidInfo, analyzeEid_eq, List.length_append, List.length_cons,
      List.length_nil]
    omega

theorem lt_of_mem_trueOffsets {offsets : Nat × Nat}
    (h : offsets ∈ trueOffsets eids offset) :
    offsets.1 < offset + (words eids).length ∧ offsets.2 < offset + (words eids).length := by
  induction eids generalizing offset with
  | nil => cases h
  | cons eid eids ih =>
    rw [words_cons]
    simp only [List.length_append, List.length_cons, List.length_nil]
    rcases List.mem_cons.mp h with rfl | h
    · constructor
      · show offset < _
        omega
      · show offset + _ + 1 < _
        omega
    · obtain ⟨hscheme, hssp⟩ := ih h
      omega

/-- Where the strings of an EID are known, reading elsewhere gives the EID if it gives the
same strings. -/
theorem forall₂_readsAt_iff {dict : List UInt8} {offsets : List (Nat × Nat)}
    (h : List.Forall₂ (ReadsAt dict) offsets eids) :
    List.Forall₂ (ReadsAt dict) (offsets.map fun o => (o.1 % 2 ^ 16, o.2 % 2 ^ 16)) eids ↔
      ∀ o ∈ offsets, SameBelow dict o := by
  induction h with
  | nil => simp
  | cons hread _ ih =>
    rw [List.map_cons, List.forall₂_cons, ih, List.forall_mem_cons]
    refine and_congr_left fun _ => ?_
    rw [ReadsAt, SameBelow, hread.1, hread.2]

namespace Bundle

theorem calculateEidInfos_dictEids (b : Bundle) :
    calculateEidInfos b.dictEids 0 = (b.entries, b.bundle6CalculateDict.dictLengthBytes) := rfl

theorem length_words (b : Bundle) :
    b.bundle6CalculateDict.dictLengthBytes = (words b.dictEids).length := by
  have hlength := (length_calculateEidInfos b.dictEids 0).1
  rwa [calculateEidInfos_dictEids, Nat.zero_add] at hlength

theorem length_eidReferences (b : Bundle) :
    b.bundle6CalculateDict.eidReferences.length = b.eidRefs.length :=
  (length_calculateEidInfos b.eidRefs _).2

/-- All references are counted if only blocks with the flag have them, and only then. -/
theorem le_eidReferenceCount_iff (b : Bundle) :
    b.eidRefs.length ≤ b.bundle6CalculateDict.eidReferenceCount ↔ b.Unflagged := by
  have hcount : b.bundle6CalculateDict.eidReferenceCount =
      ((b.blocks.filter (·.hasEidRefField)).flatMap (·.eidRefs)).length := rfl
  rw [hcount, eidRefs, Unflagged]
  generalize b.blocks = blocks
  have hle : ∀ blocks : List Block,
      ((blocks.filter (·.hasEidRefField)).flatMap (·.eidRefs)).length ≤
        (blocks.flatMap (·.eidRefs)).length := fun blocks =>
    (List.filter_sublist.flatMap _).length_le
  induction blocks with
  | nil => simp
  | cons block blocks ih =>
    have hrest := hle blocks
    cases hflag : block.hasEidRefField with
    | true =>
      rw [List.filter_cons_of_pos hflag, List.flatMap_cons, List.flatMap_cons,
        List.length_append, List.length_append, Nat.add_le_add_iff_left, List.forall_mem_cons]
      refine ⟨fun hall => ⟨fun hnot => ?_, ih.mp hall⟩, fun hall => ih.mpr hall.2⟩
      exact absurd (hflag.symm.trans hnot) (by decide)
    | false =>
      rw [List.filter_cons_of_neg (by simp [hflag]), List.flatMap_cons, List.length_append,
        List.forall_mem_cons]
      constructor
      · intro hall
        have hnone : block.eidRefs = [] := List.eq_nil_of_length_eq_zero (by omega)
        exact ⟨fun _ => hnone, ih.mp (by omega)⟩
      · rintro ⟨hnone, hall⟩
        rw [hnone hflag, List.length_nil, Nat.zero_add]
        exact ih.mpr hall

theorem dictionary_eq (h : b.Unflagged) : b.dictionary = words b.dictEids := by
  have hcount : b.bundle6CalculateDict.eidReferences.length ≤
      b.bundle6CalculateDict.eidReferenceCount := by
    rw [length_eidReferences]
    exact b.le_eidReferenceCount_iff.mpr h
  have hentries := writeEid_calculateEidInfos b.dictEids 0
  rw [calculateEidInfos_dictEids] at hentries
  rw [← hentries, dictionary, bundle6SerializeDictionary, List.take_of_length_le hcount, entries]
  simp only [List.flatMap_cons, List.append_assoc]

theorem referencesLength_eq (h : ∀ eid ∈ eids, ∃ text ∈ eid, 58 ∈ text.val) :
    referencesLength eids = some (words eids).length := by
  induction eids with
  | nil => rfl
  | cons eid eids ih =>
    obtain ⟨text, rfl, hcolon⟩ := h eid List.mem_cons_self
    rw [referencesLength, ih fun eid heid => h eid (List.mem_cons_of_mem _ heid), Option.map_some,
      length_of_colon hcolon, words_cons]
    simp only [List.length_append, List.length_cons, List.length_nil]
    refine congrArg some ?_
    omega

theorem headerEidLength_eq (h : ∀ text ∈ eid, 58 ∈ text.val) :
    headerEidLength eid = (EidPtr.scheme eid).length + (EidPtr.ssp eid).length + 2 := by
  cases eid with
  | none => rfl
  | some text => exact length_of_colon (h text rfl)

theorem bundle6GetDictLength_eq (h : b.WellFormed) :
    b.bundle6GetDictLength = some (words b.dictEids).length := by
  rw [bundle6GetDictLength, referencesLength_eq h.references, Option.map_some]
  simp only [headerEids, dictEids, List.cons_append, List.nil_append, words_cons, List.map_cons,
    List.map_nil, List.sum_cons, List.sum_nil, List.length_append, List.length_cons,
    List.length_nil, headerEidLength_eq (h.header b.destination (by simp [headerEids])),
    headerEidLength_eq (h.header b.source (by simp [headerEids])),
    headerEidLength_eq (h.header b.reportTo (by simp [headerEids])),
    headerEidLength_eq (h.header b.currentCustodian (by simp [headerEids]))]
  refine congrArg some ?_
  omega

/-- The computed offsets lead to the EIDs if 16 bits of the true ones do. -/
theorem reads_iff (h : b.Unflagged) :
    List.Forall₂ (fun info eid =>
      ReadsAt b.dictionary (info.dictSchemeOffset, info.dictSspOffset) eid) b.entries
        b.dictEids ↔ b.OffsetsHold := by
  have hoffsets := offsets_calculateEidInfos b.dictEids 0
  rw [calculateEidInfos_dictEids] at hoffsets
  have htrue : List.Forall₂ (ReadsAt (words b.dictEids)) (trueOffsets b.dictEids 0)
      b.dictEids := readsAt_trueOffsets [] b.dictEids
  rw [dictionary_eq h, ← List.forall₂_map_left_iff (f := fun info : EidInfo =>
    (info.dictSchemeOffset, info.dictSspOffset)), hoffsets, forall₂_readsAt_iff htrue]
  rfl

theorem laidOut_of_offsetsHold (hflag : b.Unflagged) (hhold : b.OffsetsHold) : b.LaidOut := by
  have hunflagged := b.le_eidReferenceCount_iff
  rw [← length_eidReferences] at hunflagged
  refine ⟨?_, hunflagged.mpr hflag, (reads_iff hflag).mpr hhold, fun hwell => ?_⟩
  · rw [dictionary_eq hflag, length_words]
  · rw [bundle6GetDictLength_eq hwell, length_words]

/-- The offsets of a dictionary of at most 65536 bytes fit into 16 bits. -/
theorem offsetsHold_of_length (h : b.bundle6CalculateDict.dictLengthBytes ≤ 2 ^ 16) :
    b.OffsetsHold := by
  intro offsets hoffsets
  obtain ⟨hscheme, hssp⟩ := lt_of_mem_trueOffsets hoffsets
  rw [length_words] at h
  rw [Nat.zero_add] at hscheme hssp
  rw [SameBelow, Nat.mod_eq_of_lt (hscheme.trans_le h), Nat.mod_eq_of_lt (hssp.trans_le h)]
  exact ⟨rfl, rfl⟩

/-- Such a dictionary is as it should be if only blocks with the flag have EID references. -/
theorem laidOut_of_length (hflag : b.Unflagged)
    (h : b.bundle6CalculateDict.dictLengthBytes ≤ 2 ^ 16) : b.LaidOut :=
  laidOut_of_offsetsHold hflag (offsetsHold_of_length h)

/-- When the dictionary, its descriptor and its length belong together. -/
theorem laidOut_iff (b : Bundle) : b.LaidOut ↔ b.Unflagged ∧ b.OffsetsHold := by
  have hunflagged := b.le_eidReferenceCount_iff
  rw [← length_eidReferences] at hunflagged
  constructor
  · intro h
    have hflag := hunflagged.mp h.inBounds
    exact ⟨hflag, (reads_iff hflag).mp h.reads⟩
  · rintro ⟨hflag, hhold⟩
    exact laidOut_of_offsetsHold hflag hhold

/-- `"dtn:"` and so many `a`. -/
def longEid (count : Nat) : EidPtr :=
  some ⟨[100, 116, 110, 58] ++ List.replicate count 97, by simp⟩

/-- `"dtn:b"`. -/
def shortEid : EidPtr := some ⟨[100, 116, 110, 58, 98], by decide⟩

/-- A bundle from `dtn:b` to a long EID. -/
def longBundle (count : Nat) : Bundle where
  destination := longEid count
  source := shortEid
  reportTo := none
  currentCustodian := none
  blocks := []

/-- A bundle with an EID reference in a block without the flag. -/
def unflaggedBundle : Bundle := ⟨none, none, none, none, [⟨0, [none]⟩]⟩

/-- The source stands behind `2 ^ 16` bytes, and its offsets lead to the destination. -/
theorem not_laidOut_longBundle {count : Nat} (h : count + 5 = 2 ^ 16) :
    ¬ (longBundle count).LaidOut := by
  intro hlaid
  have hflag : (longBundle count).Unflagged := fun block hblock =>
    absurd hblock List.not_mem_nil
  have hhold := (reads_iff hflag).mp hlaid.reads
  have hscheme : EidPtr.scheme (longEid count) = [100, 116, 110] := by
    simp [longEid, EidPtr.scheme, eidScheme]
  have hssp : EidPtr.ssp (longEid count) = List.replicate count 97 := by
    simp [longEid, EidPtr.ssp, eidSsp]
  have htrue := readsAt_trueOffsets [] (longBundle count).dictEids
  have hdest : (longBundle count).dictEids = [longEid count, shortEid, none, none] := rfl
  rw [OffsetsHold, hdest, trueOffsets, List.forall_mem_cons, trueOffsets,
    List.forall_mem_cons] at hhold
  rw [hdest, trueOffsets, List.forall₂_cons, trueOffsets, List.forall₂_cons] at htrue
  obtain ⟨⟨-, hfirst⟩, ⟨-, hsecond⟩, -⟩ := htrue
  have hsame := hhold.2.1.2
  rw [hscheme, hssp] at hfirst hsecond hsame
  simp only [List.length_nil, List.length_replicate, List.nil_append] at hfirst hsecond hsame
  rw [hsecond] at hsame
  have hwrapped : (0 + ([100, 116, 110] : List UInt8).length + count + 2 +
      (EidPtr.scheme shortEid).length + 1) % 2 ^ 16 =
      0 + ([100, 116, 110] : List UInt8).length + 1 := by
    show (0 + 3 + count + 2 + 3 + 1) % 2 ^ 16 = 0 + 3 + 1
    omega
  rw [hwrapped, hfirst] at hsame
  have hlength := congrArg List.length hsame
  rw [List.length_replicate] at hlength
  have hone : count = 1 := hlength
  omega

theorem not_laidOut : ¬ unflaggedBundle.LaidOut ∧ ¬ (longBundle 65531).LaidOut :=
  ⟨fun h => absurd h.inBounds (by decide), not_laidOut_longBundle (by decide)⟩

end Bundle

end Upcn.Bundle6.Layout
