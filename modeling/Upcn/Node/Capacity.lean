import Mathlib.Algebra.Order.BigOperators.Group.List
import Upcn.Router.Queueing

/-!
# The capacity of a contact

What `router.c` and `node.c` do to the capacities of a contact while bundles are queued on it.

* `Accounted` says that the fields account for the queued bundles.
* `steps_wrapped` is what holds in every run: the capacities do so modulo `2 ^ 32`, and
  `bundle_count`, which has eight bits, modulo 256.
* `steps_accounted_iff` says in which runs this is enough.
-/

namespace Upcn.Capacity

open Queueing (Priority RoutedBundle)

/-- `struct contact`, with the bundles that are queued on it. -/
structure Contact where
  fromTime : UInt64
  toTime : UInt64
  bitrate : UInt32
  totalCapacity : Nat
  remainingCapacityP0 : Int
  remainingCapacityP1 : Int
  remainingCapacityP2 : Int
  contactBundles : List RoutedBundle
  bundleCount : UInt8

/-- `contact_create`. -/
def contactCreate : Contact where
  fromTime := 0
  toTime := 0
  bitrate := 0
  totalCapacity := 0
  remainingCapacityP0 := 0
  remainingCapacityP1 := 0
  remainingCapacityP2 := 0
  contactBundles := []
  bundleCount := 0

/-- An operation on a contact.  Before a recalculation its times and its bitrate may have
changed. -/
inductive Operation where
  | add (allocated : Bool) (rb : RoutedBundle)
  | remove (id : Nat)
  | recalculate (fromTime toTime : UInt64) (bitrate : UInt32)

namespace Contact

variable (contact : Contact)

/-- `router_add_bundle_to_contact`.  `allocated` is whether there is memory for the entry;
`none` is a failed `ASSERT`. -/
def routerAddBundleToContact (allocated : Bool) (rb : RoutedBundle) : Option Contact :=
  if ¬ 0 < contact.remainingCapacityP0 then none
  else if ¬ allocated then some contact
  else
    let contact := { contact with
      contactBundles := contact.contactBundles ++ [rb]
      bundleCount := contact.bundleCount + 1
      remainingCapacityP0 := (contact.remainingCapacityP0 - rb.size).bmod (2 ^ 32) }
    if rb.prio.rank > Priority.low.rank then
      let contact := { contact with
        remainingCapacityP1 := (contact.remainingCapacityP1 - rb.size).bmod (2 ^ 32) }
      if rb.prio ≠ .normal then
        some { contact with
          remainingCapacityP2 := (contact.remainingCapacityP2 - rb.size).bmod (2 ^ 32) }
      else some contact
    else some contact

/-- The first entry with the id, and the list without it. -/
def findRb (id : Nat) : List RoutedBundle → Option (RoutedBundle × List RoutedBundle)
  | [] => none
  | rb :: rest =>
    if rb.id = id then some (rb, rest)
    else (findRb id rest).map fun found => (found.1, rb :: found.2)

/-- `router_remove_bundle_from_contact`. -/
def routerRemoveBundleFromContact (id : Nat) : Contact :=
  match findRb id contact.contactBundles with
  | none => contact
  | some (rb, rest) =>
    let contact := { contact with
      contactBundles := rest
      bundleCount := contact.bundleCount - 1
      remainingCapacityP0 := (contact.remainingCapacityP0 + rb.size).bmod (2 ^ 32) }
    if rb.prio.rank > Priority.low.rank then
      let contact := { contact with
        remainingCapacityP1 := (contact.remainingCapacityP1 + rb.size).bmod (2 ^ 32) }
      if rb.prio ≠ .normal then
        { contact with
          remainingCapacityP2 := (contact.remainingCapacityP2 + rb.size).bmod (2 ^ 32) }
      else contact
    else contact

/-- `to - from`. -/
def duration : Nat := (contact.toTime - contact.fromTime).toNat

/-- `recalculate_contact_capacity`. -/
def recalculateContactCapacity : Contact :=
  let duration := min contact.duration (2 ^ 32 - 1)
  let newCapacity := min (duration * contact.bitrate.toNat) (2 ^ 31 - 1)
  let capacityDifference := ((newCapacity : Int) - contact.totalCapacity).bmod (2 ^ 32)
  { contact with
    totalCapacity := newCapacity
    remainingCapacityP0 := (contact.remainingCapacityP0 + capacityDifference).bmod (2 ^ 32)
    remainingCapacityP1 := (contact.remainingCapacityP1 + capacityDifference).bmod (2 ^ 32)
    remainingCapacityP2 := (contact.remainingCapacityP2 + capacityDifference).bmod (2 ^ 32) }

/-- The times and the bitrate of the contact are set. -/
def adjust (fromTime toTime : UInt64) (bitrate : UInt32) : Contact :=
  { contact with fromTime := fromTime, toTime := toTime, bitrate := bitrate }

/-- The contact behind the operation. -/
def perform : Operation → Option Contact
  | .add allocated rb => contact.routerAddBundleToContact allocated rb
  | .remove id => some (contact.routerRemoveBundleFromContact id)
  | .recalculate fromTime toTime bitrate =>
    some (contact.adjust fromTime toTime bitrate).recalculateContactCapacity

end Contact

/-! ## Runs -/

/-- An operation of a run, with the contact before and behind it. -/
structure Step where
  before : Contact
  operation : Operation
  after : Contact

/-- The steps of the run, up to an `ASSERT` that fails. -/
def steps (contact : Contact) : List Operation → List Step
  | [] => []
  | operation :: rest =>
    match contact.perform operation with
    | none => []
    | some after => ⟨contact, operation, after⟩ :: steps after rest

/-! ## What the fields are for -/

namespace Contact

variable (contact : Contact)

/-- The sizes of the queued bundles with this priority or a higher one. -/
def queued (level : Priority) : Int := (contact.contactBundles.map fun rb => rb.load level).sum

/-- `CONTACT_CAPACITY`. -/
def remainingCapacity : Priority → Int
  | .low => contact.remainingCapacityP0
  | .normal => contact.remainingCapacityP1
  | .high => contact.remainingCapacityP2

/-- What is left at the level. -/
def left (level : Priority) : Int := contact.totalCapacity - contact.queued level

/-- No `remaining_capacity_pX` overflows: most is queued at the lowest level. -/
def Fits : Prop := -2 ^ 31 ≤ contact.left .low

/-- The fields of the contact account for its queue. -/
structure Accounted : Prop where
  remaining : ∀ level, contact.remainingCapacity level = contact.left level
  ordered : contact.remainingCapacityP0 ≤ contact.remainingCapacityP1 ∧
    contact.remainingCapacityP1 ≤ contact.remainingCapacityP2 ∧
    contact.remainingCapacityP2 ≤ contact.totalCapacity
  count : contact.bundleCount.toNat = contact.contactBundles.length
  total : contact.totalCapacity =
    min (min contact.duration (2 ^ 32 - 1) * contact.bitrate.toNat) (2 ^ 31 - 1)

/-- What the fields are in every run. -/
structure Wrapped : Prop where
  remaining : ∀ level, contact.remainingCapacity level = (contact.left level).bmod (2 ^ 32)
  count : contact.bundleCount.toNat = contact.contactBundles.length % 256
  total : contact.totalCapacity =
    min (min contact.duration (2 ^ 32 - 1) * contact.bitrate.toNat) (2 ^ 31 - 1)

end Contact

/-- The step does not queue a bundle on a contact with 255 bundles. -/
def Step.Counted (step : Step) : Prop :=
  match step.operation with
  | .add true _ => step.before.contactBundles.length < 255
  | _ => True

/-! ## One operation -/

/-- The amount is added at the priority of the bundle and below. -/
structure Charged (before after : Contact) (rb : RoutedBundle) (amount : Int) : Prop where
  remaining : ∀ level, after.remainingCapacity level =
    if level.rank ≤ rb.prio.rank then (before.remainingCapacity level + amount).bmod (2 ^ 32)
    else before.remainingCapacity level
  total : after.totalCapacity = before.totalCapacity
  duration : after.duration = before.duration
  bitrate : after.bitrate = before.bitrate

variable {before after contact : Contact} {rb : RoutedBundle}

theorem charged_add (h : before.routerAddBundleToContact true rb = some after) :
    Charged before after rb (-rb.size) ∧
      after.contactBundles = before.contactBundles ++ [rb] ∧
      after.bundleCount = before.bundleCount + 1 := by
  obtain ⟨id, prio, size, contacts⟩ := rb
  rw [Contact.routerAddBundleToContact] at h
  split at h
  · exact nomatch h
  · cases prio <;> cases h <;>
      exact ⟨⟨fun level => by cases level <;> rfl, rfl, rfl, rfl⟩, rfl, rfl⟩

theorem charged_remove {id : Nat} {rest : List RoutedBundle}
    (h : Contact.findRb id before.contactBundles = some (rb, rest)) :
    Charged before (before.routerRemoveBundleFromContact id) rb rb.size ∧
      (before.routerRemoveBundleFromContact id).contactBundles = rest ∧
      (before.routerRemoveBundleFromContact id).bundleCount = before.bundleCount - 1 := by
  obtain ⟨found, prio, size, contacts⟩ := rb
  rw [Contact.routerRemoveBundleFromContact, h]
  cases prio <;>
    exact ⟨⟨fun level => by cases level <;> rfl, rfl, rfl, rfl⟩, rfl, rfl⟩

/-- The entry that is found is one of the list. -/
theorem findRb_perm {id : Nat} {list rest : List RoutedBundle}
    (h : Contact.findRb id list = some (rb, rest)) : list.Perm (rb :: rest) := by
  induction list generalizing rest with
  | nil => exact nomatch h
  | cons first list ih =>
    rw [Contact.findRb] at h
    split at h
    · cases h
      exact List.Perm.refl _
    · obtain ⟨found, hfound, heq⟩ := Option.map_eq_some_iff.mp h
      cases heq
      exact ((ih hfound).cons first).trans (List.Perm.swap _ _ _)

/-- The capacities follow the queue when a bundle is charged. -/
theorem Charged.wrapped {amount : Int} (h : Charged before after rb amount)
    (hbefore : before.Wrapped)
    (hleft : ∀ level, after.left level =
      before.left level + if level.rank ≤ rb.prio.rank then amount else 0)
    (hcount : after.bundleCount.toNat = after.contactBundles.length % 256) : after.Wrapped := by
  refine ⟨fun level => ?_, hcount, ?_⟩
  · rw [h.remaining, hleft, hbefore.remaining]
    split
    · exact Int.bmod_add_bmod
    · rw [Int.add_zero]
  · rw [h.total, h.duration, h.bitrate]
    exact hbefore.total

theorem wrapped_add (hbefore : before.Wrapped)
    (h : before.routerAddBundleToContact true rb = some after) : after.Wrapped := by
  obtain ⟨hcharged, hbundles, hcount⟩ := charged_add h
  refine hcharged.wrapped hbefore (fun level => ?_) ?_
  · rw [Contact.left, Contact.left, Contact.queued, Contact.queued, hcharged.total, hbundles,
      List.map_append, List.sum_append, List.map_cons, List.map_nil, List.sum_cons, List.sum_nil,
      RoutedBundle.load]
    split <;> omega
  · have hone := hbefore.count
    rw [hcount, hbundles, UInt8.toNat_add, List.length_append, hone]
    exact Nat.mod_add_mod _ _ _

theorem wrapped_remove (hbefore : before.Wrapped) (id : Nat) :
    (before.routerRemoveBundleFromContact id).Wrapped := by
  cases hfound : Contact.findRb id before.contactBundles with
  | none =>
    rw [Contact.routerRemoveBundleFromContact, hfound]
    exact hbefore
  | some found =>
    obtain ⟨rb, rest⟩ := found
    obtain ⟨hcharged, hbundles, hcount⟩ := charged_remove hfound
    have hperm := findRb_perm hfound
    refine hcharged.wrapped hbefore (fun level => ?_) ?_
    · have hsum := (hperm.map fun rb => rb.load level).sum_eq
      rw [List.map_cons, List.sum_cons, RoutedBundle.load] at hsum
      rw [Contact.left, Contact.left, Contact.queued, Contact.queued, hcharged.total, hbundles,
        hsum]
      split <;> omega
    · have hone := hbefore.count
      have hlength := hperm.length_eq
      rw [List.length_cons] at hlength
      rw [hcount, hbundles, UInt8.toNat_sub, hone, hlength]
      show (256 - 1 + (rest.length + 1) % 256) % 256 = rest.length % 256
      omega

/-- The difference of the capacities takes the place of the old one. -/
theorem bmod_difference (total new amount : Int) (n : Nat) :
    ((total - amount).bmod n + (new - total).bmod n).bmod n = (new - amount).bmod n := by
  rw [Int.bmod_add_bmod, Int.add_bmod_bmod]
  congr 1
  omega

/-- The difference is added at every level. -/
theorem remainingCapacity_recalculate (contact : Contact) (level : Priority) :
    contact.recalculateContactCapacity.remainingCapacity level =
      (contact.remainingCapacity level + ((contact.recalculateContactCapacity.totalCapacity : Int) -
        contact.totalCapacity).bmod (2 ^ 32)).bmod (2 ^ 32) := by
  cases level <;> rfl

/-- Everything but the capacities is as it was. -/
theorem recalculate_frame (contact : Contact) :
    contact.recalculateContactCapacity.contactBundles = contact.contactBundles ∧
      contact.recalculateContactCapacity.bundleCount = contact.bundleCount := ⟨rfl, rfl⟩

theorem wrapped_recalculate (hremaining : ∀ level,
      contact.remainingCapacity level = (contact.left level).bmod (2 ^ 32))
    (hcount : contact.bundleCount.toNat = contact.contactBundles.length % 256) :
    contact.recalculateContactCapacity.Wrapped := by
  obtain ⟨hbundles, hbundleCount⟩ := recalculate_frame contact
  refine ⟨fun level => ?_, ?_, rfl⟩
  · rw [remainingCapacity_recalculate, hremaining, Contact.left, bmod_difference, Contact.left,
      Contact.queued, Contact.queued, hbundles]
  · rw [hbundleCount, hbundles, hcount]

theorem wrapped_perform (hbefore : before.Wrapped) {operation : Operation}
    (h : before.perform operation = some after) : after.Wrapped := by
  cases operation with
  | add allocated rb =>
    cases allocated with
    | true => exact wrapped_add hbefore h
    | false =>
      rw [Contact.perform, Contact.routerAddBundleToContact] at h
      split at h
      · exact nomatch h
      · cases h
        exact hbefore
  | remove id =>
    cases h
    exact wrapped_remove hbefore id
  | recalculate fromTime toTime bitrate =>
    cases h
    refine wrapped_recalculate (fun level => ?_) hbefore.count
    have hlevel := hbefore.remaining level
    cases level <;> exact hlevel

/-! ## One state -/

theorem load_antitone {level other : Priority} (h : level.rank ≤ other.rank) (rb : RoutedBundle) :
    rb.load other ≤ rb.load level := by
  rw [RoutedBundle.load, RoutedBundle.load]
  split <;> split <;> omega

theorem load_nonneg (level : Priority) (rb : RoutedBundle) : 0 ≤ rb.load level := by
  rw [RoutedBundle.load]
  split <;> omega

theorem left_mono (contact : Contact) {level other : Priority} (h : level.rank ≤ other.rank) :
    contact.left level ≤ contact.left other := by
  have hsum : contact.queued other ≤ contact.queued level :=
    List.sum_le_sum fun rb _ => load_antitone h rb
  rw [Contact.left, Contact.left]
  omega

theorem left_le_total (contact : Contact) (level : Priority) :
    contact.left level ≤ contact.totalCapacity := by
  have hsum : 0 ≤ contact.queued level := List.sum_nonneg fun load hload => by
    obtain ⟨rb, -, rfl⟩ := List.mem_map.mp hload
    exact load_nonneg level rb
  rw [Contact.left]
  omega

/-- A capacity that fits is not wrapped. -/
theorem remaining_eq_left (hwrapped : contact.Wrapped) (hfits : contact.Fits) (level : Priority) :
    contact.remainingCapacity level = contact.left level := by
  have htotal := hwrapped.total
  have hlow := left_mono contact (show Priority.low.rank ≤ level.rank from Nat.zero_le _)
  have hhigh := left_le_total contact level
  have hleast : -2 ^ 31 ≤ contact.left .low := hfits
  rw [hwrapped.remaining]
  exact Int.bmod_eq_of_le (by omega) (by omega)

/-- Where nothing overflows, only the eight bits of `bundle_count` are left. -/
theorem accounted_iff (hwrapped : contact.Wrapped) (hfits : contact.Fits) :
    contact.Accounted ↔ contact.contactBundles.length ≤ 255 := by
  have hcount := hwrapped.count
  constructor
  · intro h
    have hlength := h.count
    omega
  · intro hlength
    have hremaining := remaining_eq_left hwrapped hfits
    refine ⟨hremaining, ⟨?_, ?_, ?_⟩, by omega, hwrapped.total⟩
    · rw [show contact.remainingCapacityP0 = _ from hremaining .low,
        show contact.remainingCapacityP1 = _ from hremaining .normal]
      exact left_mono contact (by decide)
    · rw [show contact.remainingCapacityP1 = _ from hremaining .normal,
        show contact.remainingCapacityP2 = _ from hremaining .high]
      exact left_mono contact (by decide)
    · rw [show contact.remainingCapacityP2 = _ from hremaining .high]
      exact left_le_total contact .high

theorem counted_iff {operation : Operation} (h : before.perform operation = some after)
    (hbefore : before.contactBundles.length ≤ 255) :
    Step.Counted ⟨before, operation, after⟩ ↔ after.contactBundles.length ≤ 255 := by
  cases operation with
  | add allocated rb =>
    cases allocated with
    | true =>
      rw [(charged_add h).2.1, List.length_append]
      exact Iff.rfl
    | false =>
      rw [Contact.perform, Contact.routerAddBundleToContact] at h
      split at h
      · exact nomatch h
      · cases h
        exact iff_of_true trivial hbefore
  | remove id =>
    cases h
    refine iff_of_true trivial ?_
    cases hfound : Contact.findRb id before.contactBundles with
    | none =>
      rw [Contact.routerRemoveBundleFromContact, hfound]
      exact hbefore
    | some found =>
      have hlength := (findRb_perm hfound).length_eq
      rw [List.length_cons] at hlength
      rw [(charged_remove hfound).2.1]
      omega
  | recalculate fromTime toTime bitrate =>
    cases h
    rw [(recalculate_frame _).1]
    exact iff_of_true trivial hbefore

/-! ## A run -/

theorem wrapped_contactCreate : contactCreate.Wrapped :=
  ⟨fun level => by cases level <;> rfl, rfl, by decide⟩

/-- The invariant of a run. -/
theorem steps_wrapped (hcontact : contact.Wrapped) (operations : List Operation) :
    ∀ step ∈ steps contact operations, step.after.Wrapped := by
  induction operations generalizing contact with
  | nil => exact fun step hstep => nomatch hstep
  | cons operation rest ih =>
    intro step hstep
    rw [steps] at hstep
    cases hafter : contact.perform operation with
    | none =>
      rw [hafter] at hstep
      exact nomatch hstep
    | some after =>
      rw [hafter] at hstep
      have hwrapped := wrapped_perform hcontact hafter
      rcases List.mem_cons.mp hstep with rfl | hrest
      · exact hwrapped
      · exact ih hwrapped step hrest

theorem steps_accounted_iff_of (hcontact : contact.Wrapped)
    (hlength : contact.contactBundles.length ≤ 255) (operations : List Operation)
    (hfits : ∀ step ∈ steps contact operations, step.after.Fits) :
    (∀ step ∈ steps contact operations, step.after.Accounted) ↔
      ∀ step ∈ steps contact operations, step.Counted := by
  induction operations generalizing contact with
  | nil => exact iff_of_true (fun step hstep => nomatch hstep) fun step hstep => nomatch hstep
  | cons operation rest ih =>
    rw [steps] at hfits ⊢
    cases hafter : contact.perform operation with
    | none => exact iff_of_true (fun step hstep => nomatch hstep) fun step hstep => nomatch hstep
    | some after =>
      simp only [hafter, List.forall_mem_cons] at hfits ⊢
      have hwrapped := wrapped_perform hcontact hafter
      rw [accounted_iff hwrapped hfits.1, counted_iff hafter hlength]
      exact and_congr_right fun hnext => ih hwrapped hnext hfits.2

/-- In every run without an overflow the fields account for the queue behind every operation
just when no bundle is queued on a contact that has 255 bundles. -/
theorem steps_accounted_iff (operations : List Operation)
    (hfits : ∀ step ∈ steps contactCreate operations, step.after.Fits) :
    (∀ step ∈ steps contactCreate operations, step.after.Accounted) ↔
      ∀ step ∈ steps contactCreate operations, step.Counted :=
  steps_accounted_iff_of wrapped_contactCreate (Nat.zero_le _) operations hfits

instance (contact : Contact) : Decidable contact.Fits :=
  inferInstanceAs (Decidable (-2 ^ 31 ≤ contact.left .low))

/-- A contact of 1000 bytes with one bundle, which is removed again. -/
theorem steps_accounted_iff_removed :
    (∀ step ∈ steps contactCreate [.recalculate 0 1000 1, .add true ⟨7, .normal, 10, []⟩,
      .remove 7], step.after.Accounted) ↔
      ∀ step ∈ steps contactCreate [.recalculate 0 1000 1, .add true ⟨7, .normal, 10, []⟩,
        .remove 7], step.Counted :=
  steps_accounted_iff [.recalculate 0 1000 1, .add true ⟨7, .normal, 10, []⟩, .remove 7]
    (by decide +kernel)

/-- A bundle of one byte. -/
def small (id : Nat) : RoutedBundle := ⟨id + 1, .low, 1, []⟩

/-- A contact of 1000 bytes with so many bundles of one byte. -/
def crowded (n : Nat) : Contact where
  fromTime := 0
  toTime := 1000
  bitrate := 1
  totalCapacity := 1000
  remainingCapacityP0 := 1000 - n
  remainingCapacityP1 := 1000
  remainingCapacityP2 := 1000
  contactBundles := (List.range n).map small
  bundleCount := UInt8.ofNat n

theorem perform_crowded {n : Nat} (hn : n < 1000) :
    (crowded n).perform (.add true (small n)) = some (crowded (n + 1)) := by
  have hpos : 0 < (crowded n).remainingCapacityP0 := by
    show (0 : Int) < 1000 - n
    omega
  rw [Contact.perform, Contact.routerAddBundleToContact, if_neg (not_not.mpr hpos)]
  have hcapacity : ((crowded n).remainingCapacityP0 - (small n).size).bmod (2 ^ 32) =
      (crowded (n + 1)).remainingCapacityP0 := by
    show ((1000 - n : Int) - (1 : Nat)).bmod (2 ^ 32) = 1000 - ((n + 1 : Nat) : Int)
    rw [Int.bmod_eq_of_le (by omega) (by omega)]
    omega
  have hbundles : (crowded n).contactBundles ++ [small n] = (crowded (n + 1)).contactBundles := by
    show _ = (List.range (n + 1)).map small
    rw [List.range_succ, List.map_append]
    rfl
  have hcount : (crowded n).bundleCount + 1 = (crowded (n + 1)).bundleCount :=
    (UInt8.ofNat_add n 1).symm
  simp only [hcapacity, hbundles, hcount]
  rfl

/-- So many bundles are queued on a contact of 1000 bytes. -/
def crowd (n : Nat) : List Operation :=
  .recalculate 0 1000 1 :: (List.range n).map fun id => .add true (small id)

theorem steps_crowded {n k : Nat} (h : n + k ≤ 1000) :
    steps (crowded n) ((List.range' n k).map fun id => .add true (small id)) =
      (List.range' n k).map fun m => ⟨crowded m, .add true (small m), crowded (m + 1)⟩ := by
  induction k generalizing n with
  | zero => rfl
  | succ k ih =>
    rw [List.range'_succ, List.map_cons, List.map_cons, steps, perform_crowded (by omega)]
    exact congrArg _ (ih (by omega))

theorem steps_crowd {n : Nat} (h : n ≤ 1000) : steps contactCreate (crowd n) =
    ⟨contactCreate, .recalculate 0 1000 1, crowded 0⟩ :: (List.range n).map fun m =>
      ⟨crowded m, .add true (small m), crowded (m + 1)⟩ := by
  have hfirst : contactCreate.perform (.recalculate 0 1000 1) = some (crowded 0) := rfl
  rw [crowd, steps, hfirst, List.range_eq_range']
  exact congrArg _ (steps_crowded (by omega))

theorem fits_crowded {n : Nat} (h : n ≤ 1000) : (crowded n).Fits := by
  have hqueued : (crowded n).queued .low = n := by
    show (((List.range n).map small).map fun rb => rb.load .low).sum = n
    rw [List.map_map]
    induction n with
    | zero => rfl
    | succ n ih =>
      rw [List.range_succ, List.map_append, List.sum_append, ih (by omega)]
      rfl
  rw [Contact.Fits, Contact.left, hqueued]
  show -2 ^ 31 ≤ ((1000 : Nat) : Int) - n
  omega

/-- The 256 bundles are counted as none. -/
theorem not_accounted_crowd :
    (∀ step ∈ steps contactCreate (crowd 256), step.after.Fits) ∧
      ¬∀ step ∈ steps contactCreate (crowd 256), step.after.Accounted := by
  rw [steps_crowd (by decide)]
  constructor
  · intro step hstep
    rcases List.mem_cons.mp hstep with rfl | hrest
    · exact fits_crowded (by decide)
    · obtain ⟨m, hm, rfl⟩ := List.mem_map.mp hrest
      have hm := List.mem_range.mp hm
      exact fits_crowded (by omega)
  · intro h
    have hlast := h ⟨crowded 255, .add true (small 255), crowded 256⟩
      (List.mem_cons_of_mem _ (List.mem_map.mpr ⟨255, List.mem_range.mpr (by decide), rfl⟩))
    have hcount : (0 : Nat) = ((List.range 256).map small).length := hlast.count
    rw [List.length_map, List.length_range] at hcount
    exact nomatch hcount

end Upcn.Capacity
