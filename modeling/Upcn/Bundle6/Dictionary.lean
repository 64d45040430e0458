import Mathlib.Data.List.TakeWhile
import Upcn.Bundle6.Serializer

/-!
# The dictionary

The offsets that `bundle6_calculate_dict` computes point to what
`bundle6_serialize_dictionary` writes: with them, `bundle6_read_eid` gets the EIDs
back.
-/

namespace Upcn.Bundle6

open Upcn.Bundle6.Parser

variable {env : ParserEnv} {s : Parser} {dict pre post : List UInt8}
  {eid : List UInt8} {names : List (List UInt8)} {info : EidInfo} {offset : Nat}

/-! ## One EID -/

theorem eidScheme_append_eidSsp (h : IsEid eid) : eidScheme eid ++ 58 :: eidSsp eid = eid := by
  have hsplit := List.takeWhile_append_dropWhile (p := (· ≠ (58 : UInt8))) (l := eid)
  have hcolon : ∃ rest, eid.dropWhile (· ≠ (58 : UInt8)) = 58 :: rest := by
    cases hdrop : eid.dropWhile (· ≠ (58 : UInt8)) with
    | nil =>
      rw [List.dropWhile_eq_nil_iff] at hdrop
      simpa using hdrop 58 h.1
    | cons b rest =>
      have hb := List.head_dropWhile_not (· ≠ (58 : UInt8)) (l := eid) (by rw [hdrop]; simp)
      simp only [hdrop, List.head_cons] at hb
      have : b = 58 := by simpa using hb
      exact ⟨rest, by rw [this]⟩
  obtain ⟨rest, hrest⟩ := hcolon
  rw [hrest] at hsplit
  rw [eidSsp, hrest]
  exact hsplit

theorem colon_not_mem_eidScheme : 58 ∉ eidScheme eid := by
  intro h
  have := List.mem_takeWhile_imp h
  simp at this

theorem zero_not_mem (h : IsEid eid) : 0 ∉ eidScheme eid ∧ 0 ∉ eidSsp eid := by
  have hsplit := eidScheme_append_eidSsp h
  have hzero := h.2
  rw [← hsplit] at hzero
  simp only [List.mem_append, List.mem_cons] at hzero
  exact ⟨fun hmem => hzero (.inl hmem), fun hmem => hzero (.inr (.inr hmem))⟩

theorem writeEid_eq (h : IsEid info.str) :
    writeEid info = eidScheme info.str ++ 0 :: (eidSsp info.str ++ [0]) := by
  simp [writeEid, writeScheme, writeSsp, h.1]

/-- The string that stands in the dictionary. -/
theorem dictString_append {word : List UInt8} (hpre : pre.length = offset)
    (hword : 0 ∉ word) : dictString (pre ++ word ++ 0 :: post) offset = word := by
  unfold dictString
  rw [List.append_assoc, ← hpre, List.drop_left, List.takeWhile_append_of_pos]
  · simp
  · intro b hb
    have : b ≠ 0 := fun hzero => hword (hzero ▸ hb)
    simpa using this

/-- The offsets of an EID point to it. -/
structure Readable (dict : List UInt8) (info : EidInfo) : Prop where
  eid : IsEid info.str
  schemeOffset : info.dictSchemeOffset < dict.length
  sspOffset : info.dictSspOffset < dict.length
  scheme : dictString dict info.dictSchemeOffset = eidScheme info.str
  ssp : dictString dict info.dictSspOffset = eidSsp info.str

theorem readEid_of_readable (hmem : ∀ n, env.mem n = true) (hdict : s.dict = dict)
    (hlength : s.dictLength = dict.length) (h : Readable dict info) :
    s.readEid env ⟨info.dictSchemeOffset, info.dictSspOffset⟩ =
      (some info.str, { s with allocations := s.allocations + 1 }) := by
  unfold readEid
  rw [if_neg]
  · simp only [hdict, h.scheme, h.ssp, alloc, hmem, Bool.not_true, Bool.false_eq_true,
      if_false, if_neg colon_not_mem_eidScheme, eidScheme_append_eidSsp h.eid]
  · have hscheme := h.schemeOffset
    have hssp := h.sspOffset
    rw [hlength]
    simp only [not_or, Nat.not_le]
    exact ⟨hscheme, hssp⟩

theorem readable_append (heid : IsEid eid) (hpre : pre.length = offset)
    (hlength : (pre ++ writeEid (calculateEidInfo eid offset).1 ++ post).length ≤ 2 ^ 16) :
    Readable (pre ++ writeEid (calculateEidInfo eid offset).1 ++ post)
      (calculateEidInfo eid offset).1 := by
  have hinfo : (calculateEidInfo eid offset).1 = ⟨eid, offset % 2 ^ 16,
      (offset + (eidScheme eid).length + 1) % 2 ^ 16⟩ := by
    simp [calculateEidInfo, analyzeEid, heid.1]
  rw [hinfo] at hlength ⊢
  rw [writeEid_eq heid] at hlength ⊢
  simp only [List.length_append, List.length_cons, List.length_nil] at hlength
  obtain ⟨hscheme, hssp⟩ := zero_not_mem heid
  have hfirst : offset % 2 ^ 16 = offset := Nat.mod_eq_of_lt (by omega)
  have hsecond : (offset + (eidScheme eid).length + 1) % 2 ^ 16 =
      offset + (eidScheme eid).length + 1 := Nat.mod_eq_of_lt (by omega)
  refine ⟨heid, ?_, ?_, ?_, ?_⟩
  · simp only [hfirst, List.length_append, List.length_cons, List.length_nil]
    omega
  · simp only [hsecond, List.length_append, List.length_cons, List.length_nil]
    omega
  · have hlist : pre ++ (eidScheme eid ++ 0 :: (eidSsp eid ++ [0])) ++ post =
        pre ++ eidScheme eid ++ 0 :: (eidSsp eid ++ 0 :: post) := by simp
    rw [hfirst, hlist]
    exact dictString_append hpre hscheme
  · have hlist : pre ++ (eidScheme eid ++ 0 :: (eidSsp eid ++ [0])) ++ post =
        (pre ++ eidScheme eid ++ [0]) ++ eidSsp eid ++ 0 :: post := by simp
    rw [hsecond, hlist]
    refine dictString_append ?_ hssp
    simp only [List.length_append, List.length_cons, List.length_nil, hpre]

theorem length_calculateEidInfo (eid : List UInt8) (offset : Nat) :
    (calculateEidInfo eid offset).2 =
      offset + (writeEid (calculateEidInfo eid offset).1).length := by
  have hstr : (calculateEidInfo eid offset).1.str = eid := rfl
  rw [writeEid, hstr]
  unfold calculateEidInfo analyzeEid writeScheme writeSsp
  by_cases hcolon : 58 ∈ eid
  · simp only [if_pos hcolon, List.length_append, List.length_cons, List.length_nil]
    omega
  · simp only [if_neg hcolon, List.length_append, List.length_cons, List.length_nil]

/-! ## All of them -/

theorem map_str_calculateEidInfos :
    (calculateEidInfos names offset).1.map (·.str) = names := by
  induction names generalizing offset with
  | nil => rfl
  | cons eid names ih => exact congrArg (eid :: ·) ih

theorem length_calculateEidInfos (names : List (List UInt8)) (offset : Nat) :
    (calculateEidInfos names offset).2 =
      offset + ((calculateEidInfos names offset).1.flatMap writeEid).length := by
  induction names generalizing offset with
  | nil => rfl
  | cons eid names ih =>
    have hrest := ih (calculateEidInfo eid offset).2
    show (calculateEidInfos names (calculateEidInfo eid offset).2).2 = offset +
      (((calculateEidInfo eid offset).1 ::
        (calculateEidInfos names (calculateEidInfo eid offset).2).1).flatMap writeEid).length
    rw [hrest, length_calculateEidInfo eid offset,
      List.flatMap_cons, List.length_append]
    omega

theorem readable_calculateEidInfos (heids : ∀ eid ∈ names, IsEid eid)
    (hpre : pre.length = offset)
    (hlength : (pre ++ (calculateEidInfos names offset).1.flatMap writeEid).length ≤
      2 ^ 16) :
    ∀ info ∈ (calculateEidInfos names offset).1,
      Readable (pre ++ (calculateEidInfos names offset).1.flatMap writeEid) info := by
  induction names generalizing pre offset with
  | nil => simp [calculateEidInfos]
  | cons eid names ih =>
    have heid := heids eid (List.mem_cons_self ..)
    have hcons : (calculateEidInfos (eid :: names) offset).1 =
        (calculateEidInfo eid offset).1 ::
          (calculateEidInfos names (calculateEidInfo eid offset).2).1 := rfl
    rw [hcons, List.flatMap_cons, ← List.append_assoc] at hlength ⊢
    have hread := @ih (pre ++ writeEid (calculateEidInfo eid offset).1)
      (calculateEidInfo eid offset).2 (fun e he => heids e (List.mem_cons_of_mem _ he))
      (by rw [length_calculateEidInfo, List.length_append, hpre]) hlength
    intro info hinfo
    rcases List.mem_cons.mp hinfo with rfl | hinfo
    · exact readable_append heid hpre hlength
    · exact hread info hinfo

/-! ## The dictionary of a bundle -/

namespace Bundle

variable {b : Bundle}

/-- The EIDs of the dictionary, in order. -/
def dictEids (b : Bundle) : List (List UInt8) :=
  b.destination :: b.source :: b.reportTo :: b.currentCustodian :: b.eidRefs

theorem calculateEidInfos_dictEids : calculateEidInfos b.dictEids 0 =
    (b.bundle6CalculateDict.destinationEidInfo :: b.bundle6CalculateDict.sourceEidInfo ::
      b.bundle6CalculateDict.reportToEidInfo ::
      b.bundle6CalculateDict.custodianEidInfo :: b.bundle6CalculateDict.eidReferences,
      b.bundle6CalculateDict.dictLengthBytes) := rfl

theorem WellFormed.isEid (h : b.WellFormed) : ∀ eid ∈ b.dictEids, IsEid eid := by
  intro eid heid
  have hhead := h.eids eid
  simp only [dictEids, List.mem_cons, eidRefs, List.mem_flatMap] at heid
  simp only [List.mem_cons, List.not_mem_nil, or_false] at hhead
  rcases heid with heid | heid | heid | heid | ⟨block, hblock, heid⟩
  · exact hhead (.inl heid)
  · exact hhead (.inr (.inl heid))
  · exact hhead (.inr (.inr (.inl heid)))
  · exact hhead (.inr (.inr (.inr heid)))
  · exact (h.blocks block hblock).eidRefs eid heid

theorem map_str_eidReferences :
    b.bundle6CalculateDict.eidReferences.map (·.str) = b.eidRefs :=
  map_str_calculateEidInfos

/-- The blocks without the flag have no references, so that all references are
counted. -/
theorem eidReferenceCount_eq
    (hblocks : ∀ block ∈ b.blocks, block.hasEidRefField = false → block.eidRefs = []) :
    b.bundle6CalculateDict.eidReferenceCount =
      b.bundle6CalculateDict.eidReferences.length := by
  have hlength : b.bundle6CalculateDict.eidReferences.length = b.eidRefs.length := by
    rw [← map_str_eidReferences, List.length_map]
  rw [hlength]
  show ((b.blocks.filter (·.hasEidRefField)).flatMap (·.eidRefs)).length =
    (b.blocks.flatMap (·.eidRefs)).length
  clear hlength
  generalize b.blocks = blocks at hblocks ⊢
  induction blocks with
  | nil => rfl
  | cons block blocks ih =>
    have hrest := ih fun block hblock => hblocks block (List.mem_cons_of_mem _ hblock)
    cases hflag : block.hasEidRefField with
    | true =>
      rw [List.filter_cons_of_pos (by simpa using hflag), List.flatMap_cons,
        List.flatMap_cons, List.length_append, List.length_append, hrest]
    | false =>
      have hnone := hblocks block (List.mem_cons_self ..) hflag
      rw [List.filter_cons_of_neg (by simp [hflag]), List.flatMap_cons, hnone, hrest]
      rfl

/-- The dictionary that is written. -/
def dictionaryBytes (b : Bundle) : List UInt8 :=
  bundle6SerializeDictionary b.bundle6CalculateDict

theorem dictionaryBytes_eq
    (hblocks : ∀ block ∈ b.blocks, block.hasEidRefField = false → block.eidRefs = []) :
    b.dictionaryBytes = (calculateEidInfos b.dictEids 0).1.flatMap writeEid := by
  rw [dictionaryBytes, bundle6SerializeDictionary, eidReferenceCount_eq hblocks,
    List.take_length, calculateEidInfos_dictEids]
  simp

theorem length_dictionaryBytes
    (hblocks : ∀ block ∈ b.blocks, block.hasEidRefField = false → block.eidRefs = []) :
    b.dictionaryBytes.length = b.bundle6CalculateDict.dictLengthBytes := by
  have hlength := length_calculateEidInfos b.dictEids 0
  rw [← dictionaryBytes_eq hblocks, Nat.zero_add, calculateEidInfos_dictEids] at hlength
  exact hlength.symm

/-- All offsets point to their EIDs. -/
theorem WellFormed.readable (h : b.WellFormed) :
    ∀ info ∈ (calculateEidInfos b.dictEids 0).1, Readable b.dictionaryBytes info := by
  have hblocks : ∀ block ∈ b.blocks, block.hasEidRefField = false → block.eidRefs = [] :=
    fun block hblock => (h.blocks block hblock).unflagged
  have hread := @readable_calculateEidInfos [] b.dictEids 0 h.isEid rfl (by
    rw [List.nil_append, ← dictionaryBytes_eq hblocks, length_dictionaryBytes hblocks]
    exact h.dictionary)
  rwa [List.nil_append, ← dictionaryBytes_eq hblocks] at hread

end Bundle

end Upcn.Bundle6
