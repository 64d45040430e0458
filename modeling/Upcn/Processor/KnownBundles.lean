import Mathlib.Data.List.Basic
import Mathlib.Data.List.Perm.Basic
import Upcn.Processor.Assembly

/-!
# The list of known bundles over a run

`bundle_record_add_and_check_known`, `bundle_add_reassembled_as_known` and
`bundle_reassembled_is_known`, called one after the other in any order.

* The list stays sorted, and only entries whose deadline has passed are taken out.
* A search ends behind the deadline of the bundle that is looked up.  The entry has the
  deadline of the bundle that was recorded, so `Visible` is a condition on the two:
  `reassembledSearch_iff` says which entries a search reaches.
-/

namespace Upcn

/-! ## Calls -/

/-- A call of one of the three functions. -/
inductive KnownCall where
  | recordAndCheck (b : Bundle)
  | addReassembled (b : Bundle)
  | reassembledIsKnown (b : Bundle)

namespace KnownCall

variable (o : Inputs) (p : BundleProcessor)

/-- What the call returns. -/
def answer : KnownCall → Option Bool
  | recordAndCheck b => some (bundleRecordAddAndCheckKnown o b p.knownBundleList).1
  | addReassembled _ => none
  | reassembledIsKnown b => some (p.bundleReassembledIsKnown o b)

/-- The state behind the call. -/
def next : KnownCall → BundleProcessor
  | recordAndCheck b =>
    { p with knownBundleList := (bundleRecordAddAndCheckKnown o b p.knownBundleList).2 }
  | addReassembled b => p.bundleAddReassembledAsKnown o b
  | reassembledIsKnown _ => p

/-- The entry has the identity that the call looks for. -/
def isAbout : KnownCall → KnownBundle → Bool
  | recordAndCheck b, e => b.bundleIsEqual e.id
  | addReassembled _, _ => false
  | reassembledIsKnown b, e => b.isReassembledAs e.id

/-- The deadline at which the search of the call ends. -/
def deadline : KnownCall → UInt64
  | recordAndCheck b => b.bundleGetExpirationTime o.deadlineTime
  | addReassembled b => b.bundleGetExpirationTime o.addReassembledTime
  | reassembledIsKnown b => b.bundleGetExpirationTime o.reassembledTime

/-- The time by which the call cleans up, if it does. -/
def cleanupTime : KnownCall → Option UInt64
  | recordAndCheck _ => some o.recordTime
  | addReassembled _ => none
  | reassembledIsKnown _ => none

/-- The entry that the call makes unless it finds one, if there is memory for it. -/
def newEntry : KnownCall → Option KnownBundle
  | recordAndCheck b =>
    if o.recordMem then
      some ⟨b.bundleGetUniqueIdentifier, b.bundleGetExpirationTime o.deadlineTime⟩
    else none
  | addReassembled b =>
    if o.addReassembledMem then
      some ⟨{ b.bundleGetUniqueIdentifier with
        fragmentOffset := 0
        payloadLength := b.totalAduLength }, b.bundleGetExpirationTime o.addReassembledTime⟩
    else none
  | reassembledIsKnown _ => none

/-- The bundle is taken for known because it is expired. -/
def expired : KnownCall → Bool
  | recordAndCheck b => b.bundleGetExpirationTime o.deadlineTime < o.recordTime
  | addReassembled _ => false
  | reassembledIsKnown _ => false

end KnownCall

/-! ## What a call should do -/

/-- A list of known bundles is ordered by deadline. -/
def ByDeadline (list : List KnownBundle) : Prop :=
  list.Pairwise fun x y => x.deadline ≤ y.deadline

/-- A call does what the list is for. -/
structure KnownCall.Right (o : Inputs) (p : BundleProcessor) (call : KnownCall) : Prop where
  sorted : ByDeadline (call.next o p).knownBundleList
  /-- An entry is only removed when its deadline has passed. -/
  removed : ∀ e, (call.next o p).knownBundleList.count e < p.knownBundleList.count e →
    ∃ now ∈ call.cleanupTime o, e.deadline < now
  records : call.answer o p ≠ some true → ∀ e ∈ call.newEntry o,
    e ∈ (call.next o p).knownBundleList
  /-- What was recorded and not removed is found. -/
  found : (∃ e ∈ p.knownBundleList, call.isAbout e) → call.answer o p = some true

/-- If there is an entry to be found, then one has a deadline that is not later than the
one of the search, or is the first with a later one. -/
def KnownCall.Visible (o : Inputs) (p : BundleProcessor) (call : KnownCall) : Prop :=
  (∃ e ∈ p.knownBundleList, call.isAbout e) → call.expired o ∨
    ∃ e ∈ p.knownBundleList, call.isAbout e ∧ (e.deadline ≤ call.deadline o ∨
      p.knownBundleList.find? (fun later => call.deadline o < later.deadline) = some e)

/-- Every call of a run is right. -/
def KnownRight : BundleProcessor → List (Inputs × KnownCall) → Prop
  | _, [] => True
  | p, (o, call) :: calls => call.Right o p ∧ KnownRight (call.next o p) calls

/-- In every call of a run, the entry can be seen. -/
def KnownVisible : BundleProcessor → List (Inputs × KnownCall) → Prop
  | _, [] => True
  | p, (o, call) :: calls => call.Visible o p ∧ KnownVisible (call.next o p) calls

/-! ## Searching -/

variable {isEqual : BundleUniqueIdentifier → Bool} {curTime bundleDeadline : UInt64}
  {list before slot : List KnownBundle} {e new : KnownBundle}

theorem ByDeadline.of_cons (h : ByDeadline (e :: list)) : ByDeadline list :=
  (List.pairwise_cons.mp h).2

/-- The entries that the search reaches. -/
theorem reassembledSearch_iff (h : ByDeadline list) :
    reassembledSearch isEqual bundleDeadline list = true ↔
      ∃ e ∈ list, isEqual e.id = true ∧ (e.deadline ≤ bundleDeadline ∨
        list.find? (fun later => bundleDeadline < later.deadline) = some e) := by
  induction list with
  | nil => simp [reassembledSearch]
  | cons e rest ih =>
    obtain ⟨hlater, hrest⟩ := List.pairwise_cons.mp h
    rw [reassembledSearch]
    by_cases hequal : isEqual e.id = true
    · rw [if_pos hequal]
      refine iff_of_true rfl ⟨e, List.mem_cons_self, hequal, ?_⟩
      by_cases hle : e.deadline ≤ bundleDeadline
      · exact .inl hle
      · have hgt : bundleDeadline < e.deadline := by
          rwa [UInt64.not_le] at hle
        exact .inr (List.find?_cons_of_pos (decide_eq_true hgt))
    · rw [if_neg hequal]
      by_cases hgt : bundleDeadline < e.deadline
      · rw [if_pos hgt]
        refine iff_of_false Bool.false_ne_true ?_
        rintro ⟨e', he', hequal', hle | hfirst⟩
        · rcases List.mem_cons.mp he' with rfl | he'
          · exact hequal hequal'
          · have hfar := hlater e' he'
            rw [UInt64.le_iff_toNat_le] at hle hfar
            rw [UInt64.lt_iff_toNat_lt] at hgt
            omega
        · rw [List.find?_cons_of_pos (by simpa using hgt)] at hfirst
          exact hequal (Option.some.inj hfirst ▸ hequal')
      · rw [if_neg hgt, ih hrest, List.find?_cons_of_neg (by simpa using hgt)]
        simp only [List.mem_cons, exists_eq_or_imp, hequal, false_and, false_or,
          Bool.false_eq_true]

variable (isEqual list) in
/-- The loop that cleans up finds the same entries. -/
theorem recordSearch_eq_none_iff (h : curTime ≤ bundleDeadline) :
    recordSearch isEqual curTime bundleDeadline list = none ↔
      reassembledSearch isEqual bundleDeadline list = true := by
  induction list with
  | nil => simp [recordSearch, reassembledSearch]
  | cons e rest ih =>
    rw [recordSearch, reassembledSearch]
    by_cases hequal : isEqual e.id = true
    · rw [if_pos hequal, if_pos hequal]
      simp
    · rw [if_neg hequal, if_neg hequal]
      by_cases hold : e.deadline < curTime
      · have hnot : ¬ bundleDeadline < e.deadline := by
          rw [UInt64.le_iff_toNat_le] at h
          rw [UInt64.lt_iff_toNat_lt] at hold ⊢
          omega
        rw [if_pos hold, if_neg hnot, ih]
      · rw [if_neg hold]
        by_cases hgt : bundleDeadline < e.deadline
        · rw [if_pos hgt, if_pos hgt]
          simp
        · rw [if_neg hgt, if_neg hgt, Option.map_eq_none_iff, ih]

/-! ## What a search leaves -/

/-- `after` is `list` without some of the entries whose deadline has passed. -/
structure CleanedUp (curTime : UInt64) (list after : List KnownBundle) : Prop where
  sublist : after.Sublist list
  kept : ∀ e, after.count e < list.count e → e.deadline < curTime

theorem CleanedUp.refl (list : List KnownBundle) : CleanedUp curTime list list :=
  ⟨List.Sublist.refl list, fun _ hlt => absurd hlt (Nat.lt_irrefl _)⟩

theorem CleanedUp.keep {after : List KnownBundle} (h : CleanedUp curTime list after)
    (e : KnownBundle) : CleanedUp curTime (e :: list) (e :: after) where
  sublist := h.sublist.cons_cons e
  kept e' hlt := h.kept e' (by
    rw [List.count_cons, List.count_cons] at hlt
    exact Nat.lt_of_add_lt_add_right hlt)

theorem CleanedUp.drop {after : List KnownBundle} (h : CleanedUp curTime list after)
    (hold : e.deadline < curTime) : CleanedUp curTime (e :: list) after where
  sublist := h.sublist.cons e
  kept e' hlt := by
    by_cases heq : e = e'
    · exact heq ▸ hold
    · rw [List.count_cons_of_ne heq] at hlt
      exact h.kept e' hlt

variable (isEqual curTime bundleDeadline) in
theorem recordCleanup_cleanedUp (list : List KnownBundle) :
    CleanedUp curTime list (recordCleanup isEqual curTime bundleDeadline list) := by
  induction list with
  | nil => exact CleanedUp.refl []
  | cons e rest ih =>
    rw [recordCleanup]
    split
    · exact CleanedUp.refl _
    · split
      · rename_i hold
        exact ih.drop hold
      · split
        · exact CleanedUp.refl _
        · exact ih.keep e

/-- Where a new entry goes: what is before it has no later deadline, what is behind it
has one. -/
structure Slot (bundleDeadline : UInt64) (before slot : List KnownBundle) : Prop where
  before : ∀ e ∈ before, e.deadline ≤ bundleDeadline
  slot : ∀ e ∈ slot, bundleDeadline ≤ e.deadline

theorem recordSearch_slot (hsorted : ByDeadline list)
    (h : recordSearch isEqual curTime bundleDeadline list = some (before, slot)) :
    CleanedUp curTime list (before ++ slot) ∧ Slot bundleDeadline before slot := by
  induction list generalizing before with
  | nil =>
    obtain ⟨rfl, rfl⟩ := Prod.mk.inj (Option.some.inj h)
    exact ⟨CleanedUp.refl [], by simp, by simp⟩
  | cons e rest ih =>
    obtain ⟨hlater, hrest⟩ := List.pairwise_cons.mp hsorted
    rw [recordSearch] at h
    split_ifs at h with hequal hold hgt
    · obtain ⟨hclean, hslot⟩ := ih hrest h
      exact ⟨hclean.drop hold, hslot⟩
    · obtain ⟨rfl, rfl⟩ := Prod.mk.inj (Option.some.inj h)
      refine ⟨CleanedUp.refl _, by simp, fun e' he' => ?_⟩
      rcases List.mem_cons.mp he' with rfl | he'
      · exact UInt64.le_of_lt hgt
      · exact UInt64.le_trans (UInt64.le_of_lt hgt) (hlater e' he')
    · obtain ⟨⟨before', slot'⟩, hsearch, heq⟩ := Option.map_eq_some_iff.mp h
      obtain ⟨rfl, rfl⟩ := Prod.mk.inj heq
      obtain ⟨hclean, hslot⟩ := ih hrest hsearch
      refine ⟨hclean.keep e, fun e' he' => ?_, hslot.slot⟩
      rcases List.mem_cons.mp he' with rfl | he'
      · rwa [UInt64.not_lt] at hgt
      · exact hslot.before e' he'

theorem Slot.byDeadline (h : Slot new.deadline before slot)
    (hsorted : ByDeadline (before ++ slot)) : ByDeadline (before ++ new :: slot) := by
  obtain ⟨hbefore, hslot, hcross⟩ := List.pairwise_append.mp hsorted
  refine List.pairwise_append.mpr ⟨hbefore, List.pairwise_cons.mpr ⟨h.slot, hslot⟩, ?_⟩
  intro x hx y hy
  rcases List.mem_cons.mp hy with rfl | hy
  · exact h.before x hx
  · exact hcross x hx y hy

variable (new) in
theorem insertByDeadline_slot (hsorted : ByDeadline list) :
    ∃ before slot, list = before ++ slot ∧ Slot new.deadline before slot ∧
      insertByDeadline new list = before ++ new :: slot := by
  induction list with
  | nil => exact ⟨[], [], rfl, ⟨by simp, by simp⟩, rfl⟩
  | cons e rest ih =>
    obtain ⟨hlater, hrest⟩ := List.pairwise_cons.mp hsorted
    rw [insertByDeadline]
    split
    · rename_i hlt
      refine ⟨[], e :: rest, rfl, ⟨by simp, fun e' he' => ?_⟩, rfl⟩
      rcases List.mem_cons.mp he' with rfl | he'
      · exact UInt64.le_of_lt hlt
      · exact UInt64.le_trans (UInt64.le_of_lt hlt) (hlater e' he')
    · rename_i hge
      obtain ⟨before, slot, rfl, hslot, heq⟩ := ih hrest
      refine ⟨e :: before, slot, rfl, ⟨fun e' he' => ?_, hslot.slot⟩, by rw [heq]; rfl⟩
      rcases List.mem_cons.mp he' with rfl | he'
      · rwa [UInt64.not_lt] at hge
      · exact hslot.before e' he'

/-! ## One call -/

namespace KnownCall

variable {o : Inputs} {p : BundleProcessor} {b : Bundle} {call : KnownCall}

variable (isEqual) in
/-- Visible entries are found, and no others. -/
theorem search_of_visible (hsorted : ByDeadline p.knownBundleList)
    (hexpired : call.expired o = false)
    (hknown : ∃ e ∈ p.knownBundleList, call.isAbout e = true)
    (hequal : ∀ e, call.isAbout e = isEqual e.id) :
    call.Visible o p ↔
      reassembledSearch isEqual (call.deadline o) p.knownBundleList = true := by
  rw [reassembledSearch_iff hsorted, Visible, hexpired]
  simp only [hequal] at hknown ⊢
  simp only [hknown, true_imp_iff, Bool.false_eq_true, false_or]

theorem reassembledIsKnown_right_iff (hsorted : ByDeadline p.knownBundleList) :
    (reassembledIsKnown b).Right o p ↔ (reassembledIsKnown b).Visible o p := by
  have hanswer : (reassembledIsKnown b).answer o p = some (reassembledSearch b.isReassembledAs
      ((reassembledIsKnown b).deadline o) p.knownBundleList) := rfl
  constructor
  · intro hright hknown
    have hfound := hright.found hknown
    rw [hanswer] at hfound
    exact (search_of_visible _ hsorted rfl hknown fun _ => rfl).mpr (Option.some.inj hfound) hknown
  · intro hvisible
    refine ⟨hsorted, fun e hlt => absurd hlt (Nat.lt_irrefl _), fun _ e he => ?_, fun hknown => ?_⟩
    · cases he
    · rw [hanswer, (search_of_visible _ hsorted rfl hknown fun _ => rfl).mp hvisible]

/-- The entry that `bundle_add_reassembled_as_known` makes. -/
theorem next_of_newEntry (h : (addReassembled b).newEntry o = some new) :
    ((addReassembled b).next o p).knownBundleList = insertByDeadline new p.knownBundleList ∧
      new.deadline = (addReassembled b).deadline o := by
  rw [newEntry] at h
  split_ifs at h with hmem
  rw [next, BundleProcessor.bundleAddReassembledAsKnown, if_pos hmem, ← Option.some.inj h]
  exact ⟨rfl, rfl⟩

theorem addReassembled_right (hsorted : ByDeadline p.knownBundleList) :
    (addReassembled b).Right o p := by
  have hfound : (∃ e ∈ p.knownBundleList, (addReassembled b).isAbout e = true) →
      (addReassembled b).answer o p = some true := by
    rintro ⟨e, -, habout⟩
    cases habout
  cases hentry : (addReassembled b).newEntry o with
  | some new =>
    obtain ⟨before, slot, hlist, hslot, hinsert⟩ := insertByDeadline_slot new hsorted
    have hnext : ((addReassembled b).next o p).knownBundleList = before ++ new :: slot := by
      rw [← hinsert]
      exact (next_of_newEntry hentry).1
    refine ⟨?_, fun e hlt => absurd hlt ?_, fun _ e he => ?_, hfound⟩
    · rw [hnext]
      exact hslot.byDeadline (hlist ▸ hsorted)
    · rw [hnext, hlist, List.count_append, List.count_append]
      have hle := List.count_le_count_cons (a := e) (b := new) (l := slot)
      exact Nat.not_lt.mpr (Nat.add_le_add_left hle _)
    · rw [hnext, ← Option.some.inj (hentry.symm.trans he)]
      exact List.mem_append_right _ List.mem_cons_self
  | none =>
    have hnext : ((addReassembled b).next o p).knownBundleList = p.knownBundleList := by
      have hmem : ¬ o.addReassembledMem = true := fun hmem => by
        rw [newEntry, if_pos hmem] at hentry
        cases hentry
      rw [next, BundleProcessor.bundleAddReassembledAsKnown, if_neg hmem]
    refine ⟨?_, fun e hlt => ?_, fun _ e he => ?_, hfound⟩
    · rw [hnext]
      exact hsorted
    · rw [hnext] at hlt
      exact absurd hlt (Nat.lt_irrefl _)
    · cases hentry.symm.trans he

/-- What `bundle_record_add_and_check_known` does with a bundle that is not expired. -/
theorem bundleRecordAddAndCheckKnown_cases
    (hexpired : (recordAndCheck b).expired o = false) (list : List KnownBundle) :
    (reassembledSearch b.bundleIsEqual ((recordAndCheck b).deadline o) list = true ∧
      bundleRecordAddAndCheckKnown o b list = (true, recordCleanup b.bundleIsEqual o.recordTime
        ((recordAndCheck b).deadline o) list)) ∨
    (reassembledSearch b.bundleIsEqual ((recordAndCheck b).deadline o) list = false ∧
      ∃ before slot, recordSearch b.bundleIsEqual o.recordTime
          ((recordAndCheck b).deadline o) list = some (before, slot) ∧
        bundleRecordAddAndCheckKnown o b list =
          (false, before ++ ((recordAndCheck b).newEntry o).toList ++ slot)) := by
  have hnot : ¬ b.bundleGetExpirationTime o.deadlineTime < o.recordTime := by
    simpa [expired] using hexpired
  have hle := UInt64.not_lt.mp hnot
  have hsearch := recordSearch_eq_none_iff b.bundleIsEqual list hle
  rw [bundleRecordAddAndCheckKnown, if_neg hnot]
  cases hrecord : recordSearch b.bundleIsEqual o.recordTime
      (b.bundleGetExpirationTime o.deadlineTime) list with
  | none => exact .inl ⟨hsearch.mp hrecord, rfl⟩
  | some found =>
    obtain ⟨before, slot⟩ := found
    refine .inr ⟨?_, before, slot, hrecord, ?_⟩
    · rw [hrecord] at hsearch
      have hnotFound : reassembledSearch b.bundleIsEqual
          (b.bundleGetExpirationTime o.deadlineTime) list = false := by simpa using hsearch
      exact hnotFound
    · by_cases hmem : o.recordMem = true <;> simp [newEntry, hmem]

theorem deadline_newEntry (h : (recordAndCheck b).newEntry o = some new) :
    (recordAndCheck b).deadline o = new.deadline := by
  rw [newEntry] at h
  split_ifs at h
  rw [← Option.some.inj h]
  rfl

theorem removed_of_cleanedUp {after : List KnownBundle}
    (h : CleanedUp o.recordTime p.knownBundleList after)
    (hnext : ∀ e, after.count e ≤ ((recordAndCheck b).next o p).knownBundleList.count e) :
    ∀ e, ((recordAndCheck b).next o p).knownBundleList.count e < p.knownBundleList.count e →
      ∃ now ∈ (recordAndCheck b).cleanupTime o, e.deadline < now := fun e hlt =>
  ⟨o.recordTime, rfl, h.kept e (Nat.lt_of_le_of_lt (hnext e) hlt)⟩

/-- An expired bundle counts as known, and the list stays. -/
theorem recordAndCheck_right_of_expired (hsorted : ByDeadline p.knownBundleList)
    (hexpired : (recordAndCheck b).expired o = true) : (recordAndCheck b).Right o p := by
  have hrecord : bundleRecordAddAndCheckKnown o b p.knownBundleList =
      (true, p.knownBundleList) := by
    have hlt : b.bundleGetExpirationTime o.deadlineTime < o.recordTime := by
      simpa [expired] using hexpired
    rw [bundleRecordAddAndCheckKnown, if_pos hlt]
  have hanswer : (recordAndCheck b).answer o p = some true := by rw [answer, hrecord]
  have hnext : ((recordAndCheck b).next o p).knownBundleList = p.knownBundleList := by
    rw [next, hrecord]
  refine ⟨?_, ?_, fun hnot => absurd hanswer hnot, fun _ => hanswer⟩
  · rw [hnext]
    exact hsorted
  · refine removed_of_cleanedUp (CleanedUp.refl _) fun e => ?_
    rw [hnext]

/-- Behind a bundle that is found the list is only cleaned up. -/
theorem recordAndCheck_right_of_found (hsorted : ByDeadline p.knownBundleList)
    {list : List KnownBundle} (hclean : CleanedUp o.recordTime p.knownBundleList list)
    (hrecord : bundleRecordAddAndCheckKnown o b p.knownBundleList = (true, list)) :
    (recordAndCheck b).Right o p := by
  have hanswer : (recordAndCheck b).answer o p = some true := by rw [answer, hrecord]
  have hnext : ((recordAndCheck b).next o p).knownBundleList = list := by rw [next, hrecord]
  refine ⟨?_, ?_, fun hnot => absurd hanswer hnot, fun _ => hanswer⟩
  · rw [hnext]
    exact hsorted.sublist hclean.sublist
  · refine removed_of_cleanedUp hclean fun e => ?_
    rw [hnext]

theorem recordAndCheck_right_iff (hsorted : ByDeadline p.knownBundleList) :
    (recordAndCheck b).Right o p ↔ (recordAndCheck b).Visible o p := by
  have hanswer : (recordAndCheck b).answer o p =
      some (bundleRecordAddAndCheckKnown o b p.knownBundleList).1 := rfl
  have hnext : ((recordAndCheck b).next o p).knownBundleList =
      (bundleRecordAddAndCheckKnown o b p.knownBundleList).2 := rfl
  cases hexpired : (recordAndCheck b).expired o with
  | true =>
    exact iff_of_true (recordAndCheck_right_of_expired hsorted hexpired) fun _ => .inl hexpired
  | false =>
    have hvisible := fun hknown => search_of_visible b.bundleIsEqual hsorted hexpired
      hknown fun _ => rfl
    rcases bundleRecordAddAndCheckKnown_cases hexpired p.knownBundleList with
      ⟨hsearch, hrecord⟩ | ⟨hsearch, before, slot, hslot, hrecord⟩
    · have hclean := recordCleanup_cleanedUp b.bundleIsEqual o.recordTime
        ((recordAndCheck b).deadline o) p.knownBundleList
      exact iff_of_true (recordAndCheck_right_of_found hsorted hclean hrecord)
        fun hknown => (hvisible hknown).mpr hsearch hknown
    · obtain ⟨hclean, hat⟩ := recordSearch_slot hsorted hslot
      have hsorted' := hsorted.sublist hclean.sublist
      rw [hrecord] at hanswer hnext
      refine ⟨fun hright hknown => ?_, fun hsees => ⟨?_, ?_, fun _ e he => ?_, fun hknown => ?_⟩⟩
      · have hfound := hanswer.symm.trans (hright.found hknown)
        cases hfound
      · rw [hnext]
        cases hentry : (recordAndCheck b).newEntry o with
        | none =>
          rw [Option.toList_none, List.append_nil]
          exact hsorted'
        | some new =>
          rw [Option.toList_some, List.append_assoc]
          exact (deadline_newEntry hentry ▸ hat).byDeadline hsorted'
      · refine removed_of_cleanedUp hclean fun e => ?_
        rw [hnext, List.append_assoc, List.count_append, List.count_append, List.count_append]
        exact Nat.add_le_add_left (Nat.le_add_left _ _) _
      · rw [hnext, Option.mem_def.mp he]
        exact List.mem_append_left _ (List.mem_append_right _ List.mem_cons_self)
      · exact absurd ((hvisible hknown).mp hsees) (by simp [hsearch])

/-- A call is right just when the entry can be seen. -/
theorem right_iff (hsorted : ByDeadline p.knownBundleList) :
    call.Right o p ↔ call.Visible o p := by
  cases call with
  | recordAndCheck b => exact recordAndCheck_right_iff hsorted
  | addReassembled b =>
    refine iff_of_true (addReassembled_right hsorted) ?_
    rintro ⟨e, -, habout⟩
    cases habout
  | reassembledIsKnown b => exact reassembledIsKnown_right_iff hsorted

end KnownCall

/-! ## Runs -/

/-- In a run every call is right just when every entry can be seen. -/
theorem knownRight_iff (calls : List (Inputs × KnownCall)) :
    KnownRight .initial calls ↔ KnownVisible .initial calls := by
  suffices h : ∀ p, ByDeadline p.knownBundleList →
      (KnownRight p calls ↔ KnownVisible p calls) from h _ List.Pairwise.nil
  induction calls with
  | nil => exact fun _ _ => Iff.rfl
  | cons step calls ih =>
    obtain ⟨o, call⟩ := step
    intro p hsorted
    rw [KnownRight, KnownVisible, KnownCall.right_iff hsorted]
    refine and_congr_right fun hvisible => ih _ ?_
    exact ((KnownCall.right_iff hsorted).mpr hvisible).sorted

/-- A bundle with this sequence number, created at 1000 with this lifetime. -/
def knownFragment (sequenceNumber lifetime : UInt64) : Bundle :=
  { plainFragment 0 0 0 Payload.empty with
    sequenceNumber := sequenceNumber
    lifetime := lifetime }

/-- Two bundles are recorded at 1000, the one that expires later first, and then a copy of it
with a shorter lifetime is looked up. -/
def shorterCopy : List (Inputs × KnownCall) :=
  [(plainInputs 1000, .recordAndCheck (knownFragment 1 300000000)),
    (plainInputs 1000, .recordAndCheck (knownFragment 2 200000000)),
    (plainInputs 1000, .recordAndCheck (knownFragment 1 100000000))]

/-- The search for the copy ends at the other bundle. -/
theorem not_knownRight_shorterCopy : ¬ KnownRight .initial shorterCopy := by
  rintro ⟨-, -, hright, -⟩
  exact absurd (hright.found (by decide)) (by decide)

end Upcn
