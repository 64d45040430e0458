import Upcn.Bundle7.Parser

/-!
# Who owns the EID strings

An EID that is parsed is written to the bundle before the array of the EID is left.  If the
decoder reports an error there, or while it copies the SSP, the string is freed and the
bundle keeps the pointer.

* `act_owned_iff` says of one step when the strings still belong to their bundles, and
  `owned_run_iff` of a run.
-/

namespace Upcn.Bundle7Parser

open Cbor

/-- The EIDs of the bundle in the parser, and those of the bundles it has handed on. -/
def Parser.eids (p : Parser) : List (Option Nat) :=
  p.bundle.elim [] Bundle.eids ++ p.delivered.flatMap Bundle.eids

/-- Nothing was freed twice or used after being freed, and every EID is `NULL` or a live
string that no other pointer points to. -/
structure Owned (p : Parser) : Prop where
  noFault : p.heap.fault = false
  live : ∀ a, some a ∈ p.eids → p.heap.live a = true
  alone : p.eids.Pairwise Heap.Apart

variable (cbor : Decoder) (granted : Nat → Bool)

/-! ## Where an EID ends -/

/-- What is found before the string of the SSP is allocated, and what is found after that. -/
def sspEnd (schema : UInt64) (it : cbor.Value) : Except CborError (Except CborError cbor.Value) :=
  if schema = 1 then
    if cbor.isUnsignedInteger it then
      if cbor.getUint64 it ≠ 0 then .error .illegalType else .ok (.ok (cbor.advanceFixed it).2)
    else if !cbor.isTextString it then .error .illegalType
    else
      match cbor.getStringLength it with
      | .error err => .error err
      | .ok length =>
        if cbor.remaining it < length then .error .unexpectedEOF
        else .ok (cbor.copyTextString it)
  else if schema = 2 then (ipnNumbers cbor it).map .ok
  else .error .illegalType

/-- What is found before the string of the EID is allocated, and what is found after that. -/
def eidEnd (it : cbor.Value) : Except CborError (Except CborError cbor.Value) :=
  match eidSchema cbor it with
  | .error err => .error err
  | .ok (schema, recursed) =>
    (sspEnd cbor schema recursed).map fun ssp => ssp.bind (cbor.leaveContainer it)

/-- The round parses an EID for which there is memory, and the decoder reports an error
behind the string. -/
structure Interrupts (s : State cbor) (l : Loop cbor) (it : cbor.Value) (err : CborError) :
    Prop where
  running : s.closed = false
  loop : s.loop = some l
  left : l.parsed < l.buffer.length
  good : s.parser.status = .good
  parsing : s.parser.bulkRead = false
  bundle : s.parser.bundle ≠ none
  stage : s.parser.parse = .destinationEid ∨ s.parser.parse = .sourceEid ∨
    s.parser.parse = .reportToEid
  memory : granted s.parser.heap.next = true
  iterator : l.iterator = .ok it
  behind : eidEnd cbor it = .ok (.error err)

/-- The step is no such round. -/
def Harmless (s : State cbor) (a : Action) : Prop :=
  ∀ fits l it err, a = .round fits → ¬ Interrupts cbor granted s l it err

/-! ## One EID -/

/-- What the end of the EID makes of `*eid`. -/
def EidCell.ended (c : EidCell) :
    Except CborError (Except CborError cbor.Value) → EidCell × Except CborError cbor.Value
  | .error err => (c, .error err)
  | .ok behind =>
    if (c.malloc granted).eid = none then (c.malloc granted, .error .outOfMemory)
    else
      match behind with
      | .error err => ((c.malloc granted).free, .error err)
      | .ok it => (c.malloc granted, .ok it)

variable {cbor granted} {p q : Parser} {b : Bundle} {f : EidField} {c : EidCell} {it : cbor.Value}
  {l : Loop cbor} {s : State cbor} {a : Action}

theorem eidParseSsp_eq (schema : UInt64) (it : cbor.Value) (c : EidCell) :
    eidParseSsp cbor granted schema it c = c.ended cbor granted (sspEnd cbor schema it) := by
  unfold eidParseSsp sspEnd
  split
  · unfold eidParseDtn
    dsimp only
    split
    · split <;> rfl
    · split
      · rfl
      · cases cbor.getStringLength it with
        | error err => rfl
        | ok length =>
          dsimp only
          split <;> rfl
  · split
    · unfold eidParseIpn
      dsimp only
      cases ipnNumbers cbor it <;> rfl
    · rfl

theorem bundle7EidParseCbor_eq (it : cbor.Value) (c : EidCell) :
    bundle7EidParseCbor cbor granted it c = c.ended cbor granted (eidEnd cbor it) := by
  unfold bundle7EidParseCbor eidEnd
  cases eidSchema cbor it with
  | error err => rfl
  | ok read =>
    obtain ⟨schema, recursed⟩ := read
    dsimp only
    rw [eidParseSsp_eq]
    cases sspEnd cbor schema recursed with
    | error err => rfl
    | ok behind =>
      by_cases hnone : (c.malloc granted).eid = none
      · simp [EidCell.ended, Except.map, hnone]
      · cases behind with
        | error err => simp [EidCell.ended, Except.map, Except.bind, hnone]
        | ok last =>
          cases hleave : cbor.leaveContainer it last <;>
            simp [EidCell.ended, Except.map, Except.bind, hnone, hleave]

/-! ## The pointers of a bundle -/

theorem EidCell.malloc_eq (c : EidCell) :
    c.malloc granted =
      if granted c.heap.next then ⟨c.heap.grant, some c.heap.next⟩ else ⟨c.heap.deny, none⟩ := by
  unfold EidCell.malloc Heap.malloc
  split <;> rfl

/-- Where the field is in the list. -/
def EidField.index : EidField → Nat
  | .destination => 0
  | .source => 1
  | .reportTo => 2

theorem eids_store (hb : p.bundle = some b) :
    (p.store b f c).eids = p.eids.set f.index c.eid := by
  unfold Parser.eids Parser.store
  rw [hb]
  cases f <;> rfl

theorem store_get (hb : p.bundle = some b) : p.store b f ⟨p.heap, b.get f⟩ = p := by
  obtain ⟨⟩ := p
  obtain rfl := hb
  cases f <;> rfl

/-- A new string takes the place of what the field points to. -/
theorem Owned.store (h : Owned p) (hb : p.bundle = some b) (hfault : c.heap.fault = p.heap.fault)
    (hlive : ∀ a, p.heap.live a = true → c.heap.live a = true)
    (heid : ∀ a, c.eid = some a → c.heap.live a = true ∧ p.heap.live a = false) :
    Owned (p.store b f c) where
  noFault := hfault.trans h.noFault
  live a ha := by
    rw [eids_store hb] at ha
    rcases List.mem_or_eq_of_mem_set ha with ha | ha
    · exact hlive a (h.live a ha)
    · exact (heid a ha.symm).1
  alone := by
    rw [eids_store hb]
    refine Heap.Apart.set h.alone ?_ _
    cases hc : c.eid with
    | none => exact .inl rfl
    | some a =>
      refine .inr fun hmem => ?_
      have hdead := (heid a hc).2
      rw [h.live a hmem] at hdead
      cases hdead

/-- The pointers and the heap are what they were. -/
def SameEids (p q : Parser) : Prop :=
  q.eids = p.eids ∧ q.heap.live = p.heap.live ∧ q.heap.fault = p.heap.fault

theorem SameEids.owned_iff (h : SameEids p q) : Owned q ↔ Owned p := by
  obtain ⟨heids, hlive, hfault⟩ := h
  constructor
  · rintro ⟨h1, h2, h3⟩
    exact ⟨hfault ▸ h1, fun a ha => hlive ▸ h2 a (heids ▸ ha), heids ▸ h3⟩
  · rintro ⟨h1, h2, h3⟩
    exact ⟨hfault ▸ h1, fun a ha => hlive ▸ h2 a (heids ▸ ha), heids ▸ h3⟩

theorem SameEids.refl (p : Parser) : SameEids p p := ⟨rfl, rfl, rfl⟩

theorem SameEids.trans {r : Parser} (h : SameEids p q) (h' : SameEids q r) : SameEids p r :=
  ⟨h'.1.trans h.1, h'.2.1.trans h.2.1, h'.2.2.trans h.2.2⟩

/-! ## Parsing an EID -/

/-- The first string is freed behind the allocation of its copy. -/
theorem owned_free_first {h' : Heap} {copy : Option Nat} (h : Owned p) (hb : p.bundle = some b)
    (hfault : h'.fault = p.heap.fault)
    (hlive : ∀ a, p.heap.grant.live a = true → h'.live a = true)
    (hcopy : ∀ a, copy = some a → h'.live a = true ∧ p.heap.grant.live a = false) :
    Owned (p.store b f ⟨h'.free (some p.heap.next), copy⟩) := by
  have hfirst : p.heap.grant.live p.heap.next = true := by simp
  have hfree : ∀ a, h'.live a = true → a ≠ p.heap.next →
      (h'.free (some p.heap.next)).live a = true :=
    fun a ha hne => Heap.live_free.mpr ⟨ha, fun heq => hne (Option.some.inj heq).symm⟩
  refine h.store hb ?_ ?_ ?_
  · refine (Heap.fault_free ?_).trans hfault
    rintro a ⟨⟩
    exact hlive _ hfirst
  · intro a ha
    refine hfree a (hlive a (by simp [ha])) ?_
    rintro rfl
    rw [Heap.live_next] at ha
    cases ha
  · intro a ha
    obtain ⟨hnew, hold⟩ := hcopy a ha
    refine ⟨hfree a hnew ?_, (Bool.or_eq_false_iff.mp hold).2⟩
    rintro rfl
    rw [hfirst] at hold
    cases hold

/-- The string is copied, and the first one is freed. -/
theorem owned_dup (h : Owned p) (hb : p.bundle = some b) :
    Owned (p.store b f (EidCell.dup granted ⟨p.heap.grant, some p.heap.next⟩)) := by
  have hfirst : p.heap.grant.live p.heap.next = true := by simp
  unfold EidCell.dup
  dsimp only
  rw [Heap.use_of_live hfirst]
  unfold Heap.malloc
  split
  · have hlive : ∀ a, p.heap.grant.live a = true → p.heap.grant.grant.live a = true :=
      fun a ha => by rw [Heap.live_grant, ha, Bool.or_true]
    refine owned_free_first h hb rfl hlive ?_
    rintro a ⟨⟩
    exact ⟨by simp, Heap.live_next _⟩
  · refine owned_free_first h hb rfl (fun a ha => ha) ?_
    rintro a ⟨⟩

/-- An error behind the string leaves a pointer to what has been freed. -/
theorem not_owned_free :
    ¬ Owned (p.store b f (EidCell.free ⟨p.heap.grant, some p.heap.next⟩)) := by
  intro h
  have hmem : some p.heap.next ∈
      (p.store b f (EidCell.free ⟨p.heap.grant, some p.heap.next⟩)).eids := by
    unfold Parser.eids Parser.store EidCell.free
    cases f <;> simp [Bundle.set, Bundle.eids]
  exact (Heap.live_free.mp (h.live _ hmem)).2 rfl

/-- What parsing an EID makes of the strings. -/
theorem parseEid_owned_iff {next : Stage} (h : Owned p) (hb : p.bundle = some b) :
    Owned (parseEid cbor granted f next p it).1 ↔
      ¬ (granted p.heap.next = true ∧ ∃ err, eidEnd cbor it = .ok (.error err)) := by
  unfold parseEid
  rw [hb]
  dsimp only
  rw [bundle7EidParseCbor_eq]
  cases hend : eidEnd cbor it with
  | error err =>
    simp only [EidCell.ended, store_get hb]
    simp [h]
  | ok behind =>
    by_cases hmemory : granted p.heap.next = true
    · have hcell : EidCell.malloc granted ⟨p.heap, b.get f⟩ = ⟨p.heap.grant, some p.heap.next⟩ := by
        rw [EidCell.malloc_eq, if_pos hmemory]
      cases behind with
      | error err =>
        have hended : EidCell.ended cbor granted ⟨p.heap, b.get f⟩ (.ok (.error err)) =
            (EidCell.free ⟨p.heap.grant, some p.heap.next⟩, .error err) := by
          simp [EidCell.ended, hcell]
        rw [hended]
        exact iff_of_false not_owned_free fun hnot => hnot ⟨hmemory, err, rfl⟩
      | ok last =>
        have hended : EidCell.ended cbor granted ⟨p.heap, b.get f⟩ (.ok (.ok last)) =
            (⟨p.heap.grant, some p.heap.next⟩, .ok last) := by
          simp [EidCell.ended, hcell]
        have hsame : ∀ q : Parser, SameEids q { q with next := some next } :=
          fun q => ⟨rfl, rfl, rfl⟩
        rw [hended]
        refine iff_of_true ((hsame _).owned_iff.mpr (owned_dup h hb)) ?_
        rintro ⟨-, err, ⟨⟩⟩
    · have hcell : EidCell.malloc granted ⟨p.heap, b.get f⟩ = ⟨p.heap.deny, none⟩ := by
        rw [EidCell.malloc_eq, if_neg hmemory]
      have hended : EidCell.ended cbor granted ⟨p.heap, b.get f⟩ (.ok behind) =
          (⟨p.heap.deny, none⟩, .error .outOfMemory) := by
        simp [EidCell.ended, hcell]
      have howned : Owned (p.store b f ⟨p.heap.deny, none⟩) :=
        h.store hb rfl (fun a ha => ha) (by rintro a ⟨⟩)
      rw [hended]
      exact iff_of_true howned fun hbad => hmemory hbad.1

/-! ## The other parse functions -/

theorem sameEids_modifyBundle {g : Bundle → Bundle} (hg : ∀ b, (g b).eids = b.eids) (p : Parser)
    (next : Option Stage) : SameEids p { p.modifyBundle g with next := next } := by
  refine ⟨?_, rfl, rfl⟩
  unfold Parser.modifyBundle Parser.eids
  cases p.bundle with
  | none => rfl
  | some b => exact congrArg (· ++ _) (hg b)

theorem sameEids_parseNumber {record : UInt64 → Parser → Parser × Option CborError}
    (hrecord : ∀ value, SameEids p (record value p).1) :
    SameEids p (parseNumber cbor record p it).1 := by
  have hvalue := hrecord (cbor.getUint64 it)
  unfold parseNumber
  split
  · exact .refl p
  · revert hvalue
    rcases record (cbor.getUint64 it) p with ⟨q, _ | err⟩ <;> exact id

theorem sameEids_primaryProcFlags (flags : UInt64) : SameEids p (primaryProcFlags flags p).1 := by
  unfold primaryProcFlags
  refine sameEids_modifyBundle ?_ p _
  exact fun _ => rfl

theorem sameEids_crcType (type : UInt64) : SameEids p (crcType type p).1 := by
  unfold crcType
  split
  · exact .refl p
  · refine sameEids_modifyBundle ?_ p _
    exact fun _ => rfl

theorem sameEids_blockType (type : UInt64) : SameEids p (blockType granted type p).1 := by
  unfold blockType Parser.allocate
  cases granted p.heap.next with
  | false => exact ⟨rfl, rfl, rfl⟩
  | true =>
    dsimp only
    cases granted p.heap.deny.next <;> exact ⟨rfl, rfl, rfl⟩

theorem sameEids_creationTimestamp : SameEids p (creationTimestamp cbor p it).1 := by
  unfold creationTimestamp
  split <;> exact ⟨rfl, rfl, rfl⟩

theorem sameEids_parseCrc (sixteen fits : Bool) :
    SameEids p (parseCrc cbor sixteen fits p it).1 := by
  unfold parseCrc
  generalize (if sixteen then 2 else 4) = width
  split
  · exact .refl p
  · split
    · exact .refl p
    · split <;> exact ⟨rfl, rfl, rfl⟩

theorem sameEids_blockEnd (p : Parser) : SameEids p p.blockEnd := by
  unfold Parser.blockEnd
  split <;> exact ⟨rfl, rfl, rfl⟩

theorem sameEids_primaryBlockCrc (fits : Bool) :
    SameEids p (primaryBlockCrc cbor fits p it).1 := by
  have hcrc : SameEids p
      (parseCrc cbor ((p.bundle.map Bundle.crcType).getD 0 == 1) fits p it).1 :=
    sameEids_parseCrc _ fits
  unfold primaryBlockCrc
  revert hcrc
  rcases parseCrc cbor ((p.bundle.map Bundle.crcType).getD 0 == 1) fits p it with ⟨q, err | it⟩
  · exact id
  · exact fun hcrc => hcrc.trans ⟨rfl, rfl, rfl⟩

theorem sameEids_blockCrc (fits : Bool) : SameEids p (blockCrc cbor fits p it).1 := by
  have hcrc : SameEids p (parseCrc cbor (p.blockCrcType == 1) fits p it).1 :=
    sameEids_parseCrc _ fits
  unfold blockCrc
  revert hcrc
  rcases parseCrc cbor (p.blockCrcType == 1) fits p it with ⟨q, err | it⟩
  · exact id
  · exact fun hcrc => hcrc.trans (sameEids_blockEnd q)

theorem sameEids_blockData : SameEids p (blockData cbor granted p it).1 := by
  unfold blockData Parser.allocate
  split
  · exact .refl p
  · split
    · exact .refl p
    · cases granted p.heap.next <;> exact ⟨rfl, rfl, rfl⟩

/-- The strings of the bundle are freed. -/
theorem Owned.freeBundle (h : Owned p) : Owned p.freeBundle := by
  obtain ⟨hfault, hlive, halone⟩ := h
  unfold Parser.eids at hlive halone
  obtain ⟨hbundle, hdelivered, hacross⟩ := List.pairwise_append.mp halone
  refine ⟨?_, ?_, hdelivered⟩
  · exact (Heap.fault_freeAll (fun a ha => hlive a (List.mem_append_left _ ha)) hbundle).trans hfault
  · intro a ha
    refine (Heap.live_freeAll _ _).mpr ⟨hlive a (List.mem_append_right _ ha), fun hmem => ?_⟩
    rcases hacross _ hmem _ ha with hnone | hne
    · cases hnone
    · exact hne rfl

/-- What the callback gets is no bundle of the parser any more. -/
theorem eids_deliver (p : Parser) :
    ({ p with bundle := none, delivered := p.bundle.toList ++ p.delivered } : Parser).eids =
      p.eids := by
  unfold Parser.eids
  cases p.bundle with
  | none => rfl
  | some b => rfl

theorem Owned.bundleEnd (h : Owned p) : Owned (bundleEnd cbor p it).1 := by
  have hstatus : SameEids p { p with status := .done } := ⟨rfl, rfl, rfl⟩
  have hdone := hstatus.owned_iff.mpr h
  unfold Upcn.Bundle7Parser.bundleEnd
  split
  · exact h
  · dsimp only
    split
    · exact hdone.freeBundle
    · have hdeliver : SameEids { p with status := .done } _ := ⟨eids_deliver _, rfl, rfl⟩
      exact hdeliver.owned_iff.mpr hdone

/-- The parse functions of the EIDs. -/
def Stage.IsEid (stage : Stage) : Prop :=
  stage = .destinationEid ∨ stage = .sourceEid ∨ stage = .reportToEid

/-- The other parse functions leave the EIDs alone, but for the one that ends the bundle. -/
theorem sameEids_parseStage (fits : Bool) (heid : ¬ p.parse.IsEid) (hend : p.parse ≠ .bundleEnd) :
    SameEids p (parseStage cbor granted fits p it).1 := by
  unfold parseStage
  cases hstage : p.parse with
  | destinationEid => exact absurd (.inl hstage) heid
  | sourceEid => exact absurd (.inr (.inl hstage)) heid
  | reportToEid => exact absurd (.inr (.inr hstage)) heid
  | bundleEnd => exact absurd hstage hend
  | bundleStart =>
    dsimp only [bundleStart]
    split <;> exact ⟨rfl, rfl, rfl⟩
  | primaryBlockStart =>
    dsimp only [primaryBlockStart]
    split <;> exact ⟨rfl, rfl, rfl⟩
  | blockStart =>
    dsimp only [blockStart]
    split <;> exact ⟨rfl, rfl, rfl⟩
  | protocolVersion => exact sameEids_parseNumber fun _ => ⟨rfl, rfl, rfl⟩
  | primaryProcFlags => exact sameEids_parseNumber sameEids_primaryProcFlags
  | crcType => exact sameEids_parseNumber sameEids_crcType
  | creationTimestamp => exact sameEids_creationTimestamp
  | lifetime => exact sameEids_parseNumber fun _ => ⟨rfl, rfl, rfl⟩
  | fragmentOffset => exact sameEids_parseNumber fun _ => ⟨rfl, rfl, rfl⟩
  | totalAduLength => exact sameEids_parseNumber fun _ => ⟨rfl, rfl, rfl⟩
  | primaryBlockCrc => exact sameEids_primaryBlockCrc fits
  | blockType => exact sameEids_parseNumber sameEids_blockType
  | blockNumber => exact sameEids_parseNumber fun _ => ⟨rfl, rfl, rfl⟩
  | blockProcFlags => exact sameEids_parseNumber fun _ => ⟨rfl, rfl, rfl⟩
  | blockCrcType => exact sameEids_parseNumber fun _ => ⟨rfl, rfl, rfl⟩
  | blockCrc => exact sameEids_blockCrc fits
  | blockData => exact sameEids_blockData
  | blockEnd => exact sameEids_blockEnd p

/-- What a parse function makes of the strings. -/
theorem parseStage_owned_iff (h : Owned p) (fits : Bool) :
    Owned (parseStage cbor granted fits p it).1 ↔
      ¬ (p.parse.IsEid ∧ p.bundle ≠ none ∧ granted p.heap.next = true ∧
        ∃ err, eidEnd cbor it = .ok (.error err)) := by
  have heid : ∀ f next, Owned (parseEid cbor granted f next p it).1 ↔
      ¬ (p.bundle ≠ none ∧ granted p.heap.next = true ∧
        ∃ err, eidEnd cbor it = .ok (.error err)) := by
    intro f next
    cases hb : p.bundle with
    | none =>
      rw [parseEid, hb]
      exact iff_of_true h fun hbad => hbad.1 rfl
    | some b =>
      rw [parseEid_owned_iff h hb]
      exact not_congr ⟨fun hbad => ⟨Option.some_ne_none b, hbad⟩, And.right⟩
  by_cases hstage : p.parse.IsEid
  · rw [and_iff_right hstage]
    unfold parseStage
    rcases hstage with hstage | hstage | hstage
    · rw [hstage]
      exact heid _ _
    · rw [hstage]
      exact heid _ _
    · rw [hstage]
      exact heid _ _
  · refine iff_of_true ?_ fun hbad => hstage hbad.1
    by_cases hend : p.parse = .bundleEnd
    · unfold parseStage
      rw [hend]
      exact h.bundleEnd
    · exact (sameEids_parseStage fits hstage hend).owned_iff.mpr h

/-! ## A step of the parser -/

theorem sameEids_failed (p : Parser) (err : CborError) : SameEids p (p.failed err) := by
  unfold Parser.failed
  split <;> exact ⟨rfl, rfl, rfl⟩

theorem sameEids_bulkDone (p : Parser) : SameEids p { p with bulkRead := false }.bulkDone := by
  have hflag : SameEids p { p with bulkRead := false } := ⟨rfl, rfl, rfl⟩
  refine hflag.trans ?_
  unfold Parser.bulkDone
  split
  · obtain ⟨heids, hlive, hfault⟩ := sameEids_blockEnd { p with bulkRead := false }
    exact ⟨heids, hlive, hfault⟩
  · exact .refl _

theorem sameEids_transition (l : Loop cbor) (r : Parsed cbor) :
    SameEids r.1 (transition cbor l r).1 := by
  rcases r with ⟨q, err | it⟩
  · exact sameEids_failed q err
  · unfold transition
    dsimp only
    split <;> exact ⟨rfl, rfl, rfl⟩

/-- What a round of the read loop makes of the strings. -/
theorem readRound_owned_iff (h : Owned p) (fits : Bool) (l : Loop cbor) :
    Owned (readRound cbor granted fits p l).1 ↔
      ¬ ((l.parsed < l.buffer.length ∧ p.status = .good) ∧ ∃ it, l.iterator = .ok it ∧
        p.bulkRead = false ∧ p.parse.IsEid ∧ p.bundle ≠ none ∧ granted p.heap.next = true ∧
          ∃ err, eidEnd cbor it = .ok (.error err)) := by
  unfold readRound
  by_cases hgood : l.parsed < l.buffer.length ∧ p.status = .good
  · rw [if_neg (not_not_intro hgood), and_iff_right hgood]
    cases hit : l.iterator with
    | error err =>
      refine iff_of_true ((sameEids_failed p err).owned_iff.mpr h) ?_
      rintro ⟨it, ⟨⟩, -⟩
    | ok it =>
      dsimp only
      split
      · rename_i hbulk
        refine iff_of_true ?_ ?_
        · split
          · exact h
          · exact (sameEids_bulkDone p).owned_iff.mpr h
        · rintro ⟨-, -, hparsing, -⟩
          rw [hbulk] at hparsing
          cases hparsing
      · rename_i hbulk
        rw [(sameEids_transition l _).owned_iff, parseStage_owned_iff h]
        refine not_congr ⟨fun hbad => ⟨it, rfl, Bool.eq_false_iff.mpr hbulk, hbad⟩, ?_⟩
        rintro ⟨_, ⟨⟩, -, hbad⟩
        exact hbad
  · rw [if_pos hgood]
    exact iff_of_true h fun hbad => hgood hbad.1

theorem Owned.reset (h : Owned p) : Owned p.reset := by
  obtain ⟨hfault, hlive, halone⟩ := h.freeBundle
  unfold Parser.reset
  split
  · exact h
  · refine ⟨hfault, fun a ha => hlive a ?_, ?_⟩
    · simpa [Parser.eids, Bundle.eids, Bundle.init, Parser.freeBundle] using ha
    · simpa [Parser.eids, Bundle.eids, Bundle.init, Parser.freeBundle, Heap.Apart] using halone

theorem owned_init (bundleQuota : Nat) (sendCallback : Bool) :
    Owned (Parser.init bundleQuota sendCallback) := by
  refine Owned.reset ⟨rfl, ?_, List.Pairwise.nil⟩
  rintro a ⟨⟩

theorem parser_act_round (hclosed : s.closed = false) (hloop : s.loop = some l) (fits : Bool) :
    (s.act cbor granted (.round fits)).parser = (readRound cbor granted fits s.parser l).1 := by
  unfold State.act
  rw [hclosed, if_neg Bool.false_ne_true, hloop]
  dsimp only
  rcases readRound cbor granted fits s.parser l with ⟨q, l' | parsed⟩ <;> rfl

/-- The steps that are no rounds of the read loop. -/
theorem Owned.act (h : Owned s.parser) (hround : ∀ fits, a ≠ .round fits) :
    Owned (s.act cbor granted a).parser := by
  unfold State.act
  split
  · exact h
  · split
    · exact h
    · exact absurd rfl (hround _)
    · split
      · exact (sameEids_bulkDone s.parser).owned_iff.mpr h
      · exact h
    · exact h.reset
    · exact h.freeBundle
    · exact h

theorem act_eq_self (h : s.closed = true ∨ s.loop = none) (fits : Bool) :
    s.act cbor granted (.round fits) = s := by
  unfold State.act
  split
  · rfl
  · rename_i hclosed
    rw [h.resolve_left hclosed]

/-- The strings belong to their bundles behind a step just if it is no round in which the
decoder reports an error behind an EID. -/
theorem act_owned_iff (h : Owned s.parser) (a : Action) :
    Owned (s.act cbor granted a).parser ↔ Harmless cbor granted s a := by
  by_cases hround : ∃ fits, a = .round fits
  · obtain ⟨fits, rfl⟩ := hround
    by_cases hidle : s.closed = true ∨ s.loop = none
    · rw [act_eq_self hidle]
      refine iff_of_true h fun _ l it err _ hbad => ?_
      rcases hidle with hclosed | hloop
      · simpa [hclosed] using hbad.running
      · simpa [hloop] using hbad.loop
    · obtain ⟨hclosed, hloop⟩ := not_or.mp hidle
      have hclosed := Bool.eq_false_iff.mpr hclosed
      obtain ⟨l, hloop⟩ := Option.ne_none_iff_exists'.mp hloop
      rw [parser_act_round hclosed hloop, readRound_owned_iff h]
      constructor
      · rintro hnot _ l' it err - hbad
        obtain rfl : l = l' := Option.some.inj (hloop.symm.trans hbad.loop)
        exact hnot ⟨⟨hbad.left, hbad.good⟩, it, hbad.iterator, hbad.parsing, hbad.stage,
          hbad.bundle, hbad.memory, err, hbad.behind⟩
      · rintro hharmless ⟨⟨hleft, hgood⟩, it, hit, hparsing, hstage, hbundle, hmemory, err, hend⟩
        exact hharmless fits l it err rfl
          ⟨hclosed, hloop, hleft, hgood, hparsing, hbundle, hstage, hmemory, hit, hend⟩
  · refine iff_of_true (h.act fun fits heq => hround ⟨fits, heq⟩) ?_
    exact fun fits _ _ _ heq => absurd ⟨fits, heq⟩ hround

/-! ## Runs -/

theorem run_append (s : State cbor) (actions : List Action) (a : Action) :
    s.run cbor granted (actions ++ [a]) = (s.run cbor granted actions).act cbor granted a := by
  simp [State.run, List.foldl_append]

/-- The strings belong to their bundles at all times of a run just if in no step of it the
decoder reports an error behind an EID. -/
theorem owned_run_iff (cbor : Decoder) (granted : Nat → Bool) (bundleQuota : Nat)
    (sendCallback : Bool) (actions : List Action) :
    (∀ before, before <+: actions →
      Owned ((State.init cbor bundleQuota sendCallback).run cbor granted before).parser) ↔
      ∀ before a, before ++ [a] <+: actions →
        Harmless cbor granted ((State.init cbor bundleQuota sendCallback).run cbor granted before)
          a := by
  constructor
  · intro howned before a hbefore
    have hlast := howned _ hbefore
    rw [run_append] at hlast
    exact (act_owned_iff (howned before ((List.prefix_append before [a]).trans hbefore)) a).mp hlast
  · intro hharmless before hbefore
    -- By induction on the steps that were taken.
    induction before using List.reverseRecOn with
    | nil => exact owned_init bundleQuota sendCallback
    | append_singleton before a ih =>
      have hstart := ih ((List.prefix_append before [a]).trans hbefore)
      rw [run_append]
      exact (act_owned_iff hstart a).mpr (hharmless before a hbefore)

/-- The bytes up to the end of the destination, `dtn:none`. -/
def upToDestination : List UInt8 := [0x9f, 0x88, 7, 0, 0, 0x82, 1, 0]

/-- A chunk that ends behind the destination leaves a pointer to a string that was freed,
and a reset frees it once more. -/
theorem not_owned_upToDestination :
    ¬ ∀ actions : List Action,
      Owned ((State.init preparser (2 ^ 64 - 1) true).run preparser (fun _ => true)
        actions).parser := by
  intro h
  have hfault := (h ([.read upToDestination] ++ List.replicate 7 (.round true) ++ [.reset])).noFault
  revert hfault
  decide

end Upcn.Bundle7Parser
