import Upcn.Processor.CustodyList
import Upcn.Processor.Fate

/-!
# Which bundle a custody signal is about

`find` compares the sequence number of a record in 16 bits only, and the fragment
fields for those bundles only that are fragments.

* `Bundle.IsAbout` says that a record is about a bundle.
* `Bundle.Mistakable` says that `find` accepts the bundle although the record is about
  another one.
* `custodyMatches_iff` compares what `custody_manager_get_by_record` returns with the
  bundles that the record is about.
-/

namespace Upcn

open Outcome

/-! ## A search with a test that accepts too much -/

section

variable {α : Type} {test : α → Bool} {right wrong : α → Prop} {l : List α}

/-- The first element that passes the test is a right one if and only if there is a
right one before each wrong one. -/
theorem find?_right_iff (htest : ∀ x ∈ l, test x = true ↔ right x ∨ wrong x)
    (hwrong : ∀ x ∈ l, wrong x → ¬ right x) :
    (∀ x ∈ l.find? test, right x) ↔
      ∀ front x back, l = front ++ x :: back → wrong x → ∃ c ∈ front, right c := by
  induction l with
  | nil => simp
  | cons y rest ih =>
    have hrest := ih (fun x hx => htest x (List.mem_cons_of_mem y hx))
      fun x hx => hwrong x (List.mem_cons_of_mem y hx)
    have hy := htest y List.mem_cons_self
    have hnot := hwrong y List.mem_cons_self
    rw [List.find?_cons]
    cases hpass : test y with
    | true =>
      rw [hpass] at hy
      constructor
      · intro h front x back hl hx
        have hright : right y := h y rfl
        cases front with
        | nil =>
          obtain rfl := (List.cons.inj hl).1
          exact absurd hright (hnot hx)
        | cons z front =>
          obtain rfl := (List.cons.inj hl).1
          exact ⟨y, List.mem_cons_self, hright⟩
      · intro h x hx
        obtain rfl := Option.some.inj hx
        rcases hy.mp rfl with hright | hx
        · exact hright
        · obtain ⟨c, hc, -⟩ := h [] y rest rfl hx
          cases hc
    | false =>
      have hfails : ¬ (right y ∨ wrong y) := by
        intro h
        rw [hy.mpr h] at hpass
        cases hpass
      rw [hrest]
      constructor
      · intro h front x back hl hx
        cases front with
        | nil =>
          obtain rfl := (List.cons.inj hl).1
          exact absurd (.inr hx) hfails
        | cons z front =>
          obtain ⟨c, hc, hright⟩ := h front x back (List.cons.inj hl).2 hx
          exact ⟨c, List.mem_cons_of_mem z hc, hright⟩
      · intro h front x back hl hx
        obtain ⟨c, hc, hright⟩ := h (y :: front) x back (by rw [hl]; rfl) hx
        rcases List.mem_cons.mp hc with rfl | hc
        · exact absurd (.inl hright) hfails
        · exact ⟨c, hc, hright⟩

end

/-! ## A record and a bundle -/

/-- The record is about `b`.  `fragment` is its `BUNDLE_AR_FLAG_FRAGMENT`, which the
custody manager does not look at. -/
structure Bundle.IsAbout (b : Bundle) (record : AdministrativeRecord)
    (fragment : Bool) : Prop where
  creationTimestamp : b.creationTimestamp = record.bundleCreationTimestamp
  sequenceNumber : b.sequenceNumber = record.bundleSequenceNumber
  source : b.source = record.bundleSourceEid
  fragmented : b.bundleIsFragmented = fragment
  range : fragment = true →
    b.fragmentOffset = record.fragmentOffset ∧ b.payloadLength = record.fragmentLength

/-- `b` is taken for the bundle of the record: it has the lower bits of the sequence
number only, or it differs in being a fragment. -/
structure Bundle.Mistakable (b : Bundle) (record : AdministrativeRecord)
    (fragment : Bool) : Prop where
  creationTimestamp : b.creationTimestamp = record.bundleCreationTimestamp
  sequenceNumber : b.sequenceNumber.toNat = record.bundleSequenceNumber.toNat % 2 ^ 16
  source : b.source = record.bundleSourceEid
  range : b.bundleIsFragmented = true →
    b.fragmentOffset = record.fragmentOffset ∧ b.payloadLength = record.fragmentLength
  other : 2 ^ 16 ≤ record.bundleSequenceNumber.toNat ∨ b.bundleIsFragmented ≠ fragment

variable {b : Bundle} {record : AdministrativeRecord} {fragment : Bool}

theorem toUInt16_eq_iff {m n : UInt64} :
    m = n.toUInt16.toUInt64 ↔ m.toNat = n.toNat % 2 ^ 16 := by
  rw [← UInt64.toNat_inj, UInt16.toNat_toUInt64, UInt64.toNat_toUInt16]

/-- The test of `find`, as statements. -/
theorem matchesRecord_iff :
    b.matchesRecord record.bundleCreationTimestamp record.bundleSequenceNumber
        record.bundleSourceEid record.fragmentOffset record.fragmentLength = true ↔
      b.creationTimestamp = record.bundleCreationTimestamp ∧
        b.sequenceNumber.toNat = record.bundleSequenceNumber.toNat % 2 ^ 16 ∧
        b.source = record.bundleSourceEid ∧
        (b.bundleIsFragmented = true → b.fragmentOffset = record.fragmentOffset ∧
          b.payloadLength = record.fragmentLength) := by
  unfold Bundle.matchesRecord
  rw [Bool.and_eq_true, Bool.and_eq_true, Bool.and_eq_true, beq_iff_eq, beq_iff_eq,
    beq_iff_eq, toUInt16_eq_iff, and_assoc, and_assoc]
  cases b.bundleIsFragmented <;> simp

theorem matchesRecord_iff_or (fragment : Bool) :
    b.matchesRecord record.bundleCreationTimestamp record.bundleSequenceNumber
        record.bundleSourceEid record.fragmentOffset record.fragmentLength = true ↔
      (record.bundleSequenceNumber.toNat < 2 ^ 16 ∧ b.IsAbout record fragment) ∨
        b.Mistakable record fragment := by
  rw [matchesRecord_iff]
  constructor
  · intro h
    obtain ⟨hcreation, hsequence, hsource, hrange⟩ := h
    by_cases hother : 2 ^ 16 ≤ record.bundleSequenceNumber.toNat ∨
        b.bundleIsFragmented ≠ fragment
    · exact .inr ⟨hcreation, hsequence, hsource, hrange, hother⟩
    · rw [not_or, not_le, not_not] at hother
      obtain ⟨hlow, hfragment⟩ := hother
      rw [Nat.mod_eq_of_lt hlow] at hsequence
      refine .inl ⟨hlow, hcreation, UInt64.toNat_inj.mp hsequence, hsource, hfragment, ?_⟩
      rwa [← hfragment]
  · intro h
    rcases h with ⟨hlow, h⟩ | h
    · refine ⟨h.creationTimestamp, ?_, h.source, ?_⟩
      · rw [h.sequenceNumber, Nat.mod_eq_of_lt hlow]
      · rw [h.fragmented]
        exact h.range
    · exact ⟨h.creationTimestamp, h.sequenceNumber, h.source, h.range⟩

/-- The record is not about a bundle that is mistaken. -/
theorem Bundle.Mistakable.not_isAbout (h : b.Mistakable record fragment) :
    ¬ b.IsAbout record fragment := by
  intro habout
  rcases h.other with hhigh | hfragment
  · have hsequence := h.sequenceNumber
    rw [habout.sequenceNumber] at hsequence
    have hlt := Nat.mod_lt record.bundleSequenceNumber.toNat (show 0 < 2 ^ 16 by decide)
    omega
  · exact hfragment habout.fragmented

namespace BundleProcessor

variable {p : BundleProcessor}

/-- The bundle at `a` is the one of the record. -/
def AboutAt (p : BundleProcessor) (record : AdministrativeRecord) (fragment : Bool)
    (a : Addr) : Prop :=
  ∃ b, p.cells a = .live b ∧ b.IsAbout record fragment

/-- The bundle at `a` is taken for the one of the record. -/
def MistakableAt (p : BundleProcessor) (record : AdministrativeRecord) (fragment : Bool)
    (a : Addr) : Prop :=
  ∃ b, p.cells a = .live b ∧ b.Mistakable record fragment

/-- `custody_manager_get_by_record` returns a bundle in custody that the record is
about, or `NULL` if there is none, and a custody signal releases that bundle and no
other. -/
def CustodyMatches (p : BundleProcessor) (record : AdministrativeRecord)
    (fragment : Bool) : Prop :=
  ∃ found, p.custodyManagerGetByRecord record = .ok found ∧
    (∀ a ∈ found, a ∈ p.accepted ∧ p.AboutAt record fragment a) ∧
    (found = none → ∀ a ∈ p.accepted, ¬ p.AboutAt record fragment a) ∧
    p.bundleHandleCustodySignal record =
      match found with
      | none => .ok p
      | some a => p.custodyManagerRelease a

/-- Nothing in custody is mistaken: before each bundle that could be there is the right
one, and if the sequence number needs more than 16 bits there is no right one. -/
structure Distinguished (p : BundleProcessor) (record : AdministrativeRecord)
    (fragment : Bool) : Prop where
  before : ∀ front a back, p.accepted = front ++ a :: back →
    p.MistakableAt record fragment a → ∃ c ∈ front, p.AboutAt record fragment c
  high : 2 ^ 16 ≤ record.bundleSequenceNumber.toNat →
    ∀ a ∈ p.accepted, ¬ p.AboutAt record fragment a

/-- The test of `find` at an address. -/
theorem passes_record_iff {a : Addr} (fragment : Bool) :
    p.passes (fun b => b.matchesRecord record.bundleCreationTimestamp
        record.bundleSequenceNumber record.bundleSourceEid record.fragmentOffset
        record.fragmentLength) a = true ↔
      (record.bundleSequenceNumber.toNat < 2 ^ 16 ∧ p.AboutAt record fragment a) ∨
        p.MistakableAt record fragment a := by
  unfold passes AboutAt MistakableAt
  cases p.cells a with
  | live b =>
    dsimp only
    rw [matchesRecord_iff_or fragment]
    simp
  | unused => simp
  | freed => simp

theorem MistakableAt.not_aboutAt {a : Addr} (h : p.MistakableAt record fragment a) :
    ¬ p.AboutAt record fragment a := by
  obtain ⟨b, hb, hmistakable⟩ := h
  intro habout
  obtain ⟨c, hc, habout⟩ := habout
  rw [hb] at hc
  obtain rfl := Cell.live.inj hc
  exact hmistakable.not_isAbout habout

/-- The lookup of a record is the first live entry that passes the test of `find`. -/
theorem custodyManagerGetByRecord_of_live (hl : p.CustodyLive)
    (record : AdministrativeRecord) :
    p.custodyManagerGetByRecord record = .ok (p.entryFound fun b =>
      b.matchesRecord record.bundleCreationTimestamp record.bundleSequenceNumber
        record.bundleSourceEid record.fragmentOffset record.fragmentLength) :=
  find_of_live hl _ _ _ _ _

/-- The first bundle that passes the test is the right one in all cases in which no other
bundle before it is mistaken for it, and in no other case. -/
theorem found_right_iff (p : BundleProcessor) (record : AdministrativeRecord)
    (fragment : Bool) :
    (∀ a, (p.entryFound fun b =>
        b.matchesRecord record.bundleCreationTimestamp record.bundleSequenceNumber
          record.bundleSourceEid record.fragmentOffset record.fragmentLength) = some a →
      record.bundleSequenceNumber.toNat < 2 ^ 16 ∧ p.AboutAt record fragment a) ↔
      ∀ front a back, p.accepted = front ++ a :: back → p.MistakableAt record fragment a →
        ∃ c ∈ front, record.bundleSequenceNumber.toNat < 2 ^ 16 ∧
          p.AboutAt record fragment c :=
  find?_right_iff (l := p.accepted) (fun a _ => @passes_record_iff record p a fragment)
    fun _ _ hmistakable habout => hmistakable.not_aboutAt habout.2

theorem CustodyMatches.distinguished (hl : p.CustodyLive)
    (h : p.CustodyMatches record fragment) : p.Distinguished record fragment := by
  obtain ⟨found, hfound, hsome, hnone, -⟩ := h
  rw [custodyManagerGetByRecord_of_live hl] at hfound
  obtain rfl := Except.ok.inj hfound
  have hhigh : 2 ^ 16 ≤ record.bundleSequenceNumber.toNat →
      ∀ a ∈ p.accepted, ¬ p.AboutAt record fragment a := by
    intro hhigh a ha habout
    cases hentry : p.entryFound _ with
    | none => exact hnone hentry a ha habout
    | some c =>
      have hpasses := List.find?_some hentry
      have hright := (hsome c hentry).2
      rcases (passes_record_iff fragment).mp hpasses with hlow | hmistakable
      · omega
      · exact hmistakable.not_aboutAt hright
  have hright := (found_right_iff p record fragment).mp fun a ha => by
    have habout := hsome a ha
    refine ⟨?_, habout.2⟩
    by_contra hnot
    exact hhigh (by omega) a habout.1 habout.2
  refine ⟨fun front a back hl hmistakable => ?_, hhigh⟩
  obtain ⟨c, hc, hright⟩ := hright front a back hl hmistakable
  exact ⟨c, hc, hright.2⟩

theorem Distinguished.custodyMatches (hl : p.CustodyLive)
    (h : p.Distinguished record fragment) : p.CustodyMatches record fragment := by
  refine ⟨_, custodyManagerGetByRecord_of_live hl record, ?_, ?_, ?_⟩
  · intro a ha
    refine ⟨List.mem_of_find?_eq_some ha, ?_⟩
    refine ((found_right_iff p record fragment).mpr
      (fun front c back hl hmistakable => ?_) a ha).2
    obtain ⟨d, hd, habout⟩ := h.before front c back hl hmistakable
    refine ⟨d, hd, ?_, habout⟩
    by_contra hnot
    refine h.high (by omega) d ?_ habout
    rw [hl]
    exact List.mem_append_left _ hd
  · intro hnone a ha habout
    by_cases hlow : record.bundleSequenceNumber.toNat < 2 ^ 16
    · have hpasses := List.find?_eq_none.mp hnone a ha
      exact hpasses ((passes_record_iff fragment).mpr (.inl ⟨hlow, habout⟩))
    · exact h.high (by omega) a ha habout
  · rw [bundleHandleCustodySignal, custodyManagerGetByRecord_of_live hl, ok_bind]
    cases p.entryFound _ <;> rfl

/-- A custody signal is about the bundle that is found in all cases in which no other
bundle in custody is mistaken for it, and in no other case. -/
theorem custodyMatches_iff (hl : p.CustodyLive) (record : AdministrativeRecord)
    (fragment : Bool) :
    p.CustodyMatches record fragment ↔ p.Distinguished record fragment :=
  ⟨fun h => h.distinguished hl, fun h => h.custodyMatches hl⟩

/-! ## A signal about another bundle -/

/-- The bundle with the sequence number 1 is in custody. -/
def oneInCustody : BundleProcessor :=
  { BundleProcessor.initial with
    cells := fun a => if a = 4096 then .live (entrustedAt 1) else .unused
    acceptedBundles := 4096 :: List.replicate 15 0
    acceptedBundleCount := 1 }

/-- The acceptance of the bundle from `dtn:b` that was created at 1. -/
def acceptanceOf (sequenceNumber : UInt64) : AdministrativeRecord where
  custodySignal := some ⟨.acceptance, 0⟩
  fragmentOffset := 0
  fragmentLength := 2
  bundleCreationTimestamp := 1
  bundleSequenceNumber := sequenceNumber
  bundleSourceEid := "dtn:b".toList

/-- Another sequence number, a fragment, and the bundle with the sequence number 1. -/
def threeInCustody : BundleProcessor :=
  { BundleProcessor.initial with
    cells := fun a =>
      if a = 4096 then .live { entrustedAt 1 with sequenceNumber := 2 }
      else if a = 4104 then .live { entrustedAt 1 with
        procFlags := (entrustedAt 1).procFlags ||| ProcFlag.isFragment
        fragmentOffset := 5 }
      else if a = 4112 then .live (entrustedAt 1)
      else .unused
    acceptedBundles := 4096 :: 4104 :: 4112 :: List.replicate 13 0
    acceptedBundleCount := 3 }

/-- The third one is found. -/
theorem threeInCustody_matches :
    threeInCustody.custodyManagerGetByRecord (acceptanceOf 1) = .ok (some 4112) ∧
      threeInCustody.CustodyMatches (acceptanceOf 1) false := by
  have hl : threeInCustody.CustodyLive := by
    intro c hc
    rcases List.mem_cons.mp (show c ∈ [4096, 4104, 4112] from hc) with rfl | hc
    · exact ⟨_, rfl⟩
    · rcases List.mem_pair.mp hc with rfl | rfl <;> exact ⟨_, rfl⟩
  refine ⟨rfl, (custodyMatches_iff hl _ _).mpr ⟨?_, fun hhigh => absurd hhigh (by decide)⟩⟩
  rintro front a back heq ⟨b, hb, hmistakable⟩
  have ha : a ∈ [4096, 4104, 4112] := by
    show a ∈ threeInCustody.accepted
    rw [heq]
    exact List.mem_append_right _ List.mem_cons_self
  rcases List.mem_cons.mp ha with rfl | ha
  · obtain rfl := Cell.live.inj (show Cell.live { entrustedAt 1 with sequenceNumber := 2 } =
      .live b from hb)
    exact absurd hmistakable.sequenceNumber (by decide)
  · rcases List.mem_pair.mp ha with rfl | rfl
    · obtain rfl := Cell.live.inj (show Cell.live { entrustedAt 1 with
        procFlags := (entrustedAt 1).procFlags ||| ProcFlag.isFragment
        fragmentOffset := 5 } = .live b from hb)
      exact absurd (hmistakable.range rfl).1 (by decide)
    · obtain rfl := Cell.live.inj (show Cell.live (entrustedAt 1) = .live b from hb)
      rcases hmistakable.other with hhigh | hfragment
      · exact absurd hhigh (by decide)
      · exact absurd (show (entrustedAt 1).bundleIsFragmented = false from rfl) hfragment

/-- A signal about the bundle with the sequence number 65537 is taken for one about the
bundle with the sequence number 1. -/
theorem oneInCustody_mistaken :
    ¬ oneInCustody.CustodyMatches (acceptanceOf 65537) false := by
  intro h
  obtain ⟨found, hfound, hsome, -⟩ := h
  have hget : oneInCustody.custodyManagerGetByRecord (acceptanceOf 65537)
      = .ok (some 4096) := rfl
  rw [hget] at hfound
  obtain ⟨-, b, hb, habout⟩ := hsome 4096 (by rw [← Except.ok.inj hfound]; rfl)
  obtain rfl := Cell.live.inj (show Cell.live (entrustedAt 1) = .live b from hb)
  exact absurd habout.sequenceNumber (by decide)

end BundleProcessor

end Upcn
