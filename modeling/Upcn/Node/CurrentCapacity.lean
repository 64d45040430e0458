import Upcn.Node.Capacity

/-!
# The capacity that is left of a contact

`contact_get_cur_remaining_capacity` for a contact that is running: the share of its capacity
that the time left has, in unsigned 64-bit arithmetic.

`curRemainingCapacity_iff`: for a contact of any run it is right just when the product of the
capacity and the time left cannot wrap.
-/

namespace Upcn.Capacity

open Queueing (Priority)

namespace Contact

variable (contact : Contact)

/-- `contact_get_cur_remaining_capacity`, at this time. -/
def contactGetCurRemainingCapacity (prio : Priority) (time : UInt64) : Int :=
  if time ≥ contact.toTime then 0
  else if time ≤ contact.fromTime then contact.remainingCapacity prio
  else
    let capLeft := UInt64.ofNat contact.totalCapacity * (contact.toTime - time) /
      (contact.toTime - contact.fromTime)
    let capLeft := if capLeft > 0x7fffffff then 0x7fffffff else capLeft
    min (capLeft.toNat : Int) (contact.remainingCapacity prio)

/-- What the function is for. -/
structure CurCapacityRight (prio : Priority) : Prop where
  antitone : 0 ≤ contact.remainingCapacity prio → ∀ t₁ t₂, t₁ ≤ t₂ →
    contact.contactGetCurRemainingCapacity prio t₂ ≤ contact.contactGetCurRemainingCapacity prio t₁
  ended : ∀ t, contact.toTime ≤ t → contact.contactGetCurRemainingCapacity prio t = 0
  bounded : ∀ t, contact.contactGetCurRemainingCapacity prio t ≤ contact.remainingCapacity prio
  share : ∀ t, contact.fromTime ≤ t → t < contact.toTime →
    contact.contactGetCurRemainingCapacity prio t ≤
      (contact.totalCapacity * (contact.toTime.toNat - t.toNat) /
        (contact.toTime.toNat - contact.fromTime.toNat) : Nat)
  noWrap : ∀ t, contact.fromTime < t → t < contact.toTime →
    contact.totalCapacity * (contact.toTime.toNat - t.toNat) < 2 ^ 64

/-- The product of the capacity and the time left stays within 64 bits, one second after the
start. -/
def ShortEnough : Prop :=
  contact.totalCapacity * (contact.toTime.toNat - contact.fromTime.toNat - 1) < 2 ^ 64

variable {contact} {prio : Priority} {t : UInt64}

theorem cur_ended (ht : contact.toTime ≤ t) :
    contact.contactGetCurRemainingCapacity prio t = 0 := if_pos ht

theorem cur_before (ht : t ≤ contact.fromTime) (hto : t < contact.toTime) :
    contact.contactGetCurRemainingCapacity prio t = contact.remainingCapacity prio := by
  rw [Contact.contactGetCurRemainingCapacity, if_neg (UInt64.not_le.mpr hto), if_pos ht]

theorem ShortEnough.product_lt (h : contact.ShortEnough) (hfrom : contact.fromTime < t) :
    contact.totalCapacity * (contact.toTime.toNat - t.toNat) < 2 ^ 64 := by
  have hlt := UInt64.lt_iff_toNat_lt.mp hfrom
  exact lt_of_le_of_lt (Nat.mul_le_mul_left _ (by omega)) h

/-- During the contact, as long as nothing wraps. -/
theorem cur_during (h : contact.ShortEnough) (htotal : contact.totalCapacity < 2 ^ 64)
    (hfrom : contact.fromTime < t) (hto : t < contact.toTime) :
    contact.contactGetCurRemainingCapacity prio t =
      min ((min (contact.totalCapacity * (contact.toTime.toNat - t.toNat) /
        (contact.toTime.toNat - contact.fromTime.toNat)) (2 ^ 31 - 1) : Nat) : Int)
        (contact.remainingCapacity prio) := by
  have hinterval := UInt64.le_of_lt (UInt64.lt_trans hfrom hto)
  have hshare : (UInt64.ofNat contact.totalCapacity * (contact.toTime - t) /
      (contact.toTime - contact.fromTime)).toNat = contact.totalCapacity *
        (contact.toTime.toNat - t.toNat) / (contact.toTime.toNat - contact.fromTime.toNat) := by
    rw [UInt64.toNat_div, UInt64.toNat_mul, UInt64.toNat_sub_of_le _ _ (UInt64.le_of_lt hto),
      UInt64.toNat_sub_of_le _ _ hinterval, UInt64.toNat_ofNat_of_lt' htotal,
      Nat.mod_eq_of_lt (h.product_lt hfrom)]
  rw [contactGetCurRemainingCapacity, if_neg (UInt64.not_le.mpr hto),
    if_neg (UInt64.not_le.mpr hfrom), ← hshare]
  generalize UInt64.ofNat contact.totalCapacity * (contact.toTime - t) /
    (contact.toTime - contact.fromTime) = share
  have hclamp : (if share > 0x7fffffff then 0x7fffffff else share).toNat =
      min share.toNat (2 ^ 31 - 1) := by
    split
    · rename_i hlarge
      have hlt : 0x7fffffff < share.toNat := UInt64.lt_iff_toNat_lt.mp hlarge
      show 0x7fffffff = _
      exact (Nat.min_eq_right (by omega)).symm
    · rename_i hsmall
      have hle : share.toNat ≤ 0x7fffffff := UInt64.le_iff_toNat_le.mp (UInt64.not_lt.mp hsmall)
      exact (Nat.min_eq_left (by omega)).symm
  rw [← hclamp]

theorem cur_le_remaining (h : contact.ShortEnough) (htotal : contact.totalCapacity < 2 ^ 64)
    (hremaining : 0 ≤ contact.remainingCapacity prio) (t : UInt64) :
    contact.contactGetCurRemainingCapacity prio t ≤ contact.remainingCapacity prio := by
  rcases UInt64.le_or_lt contact.toTime t with hended | hto
  · rw [cur_ended hended]
    exact hremaining
  rcases UInt64.le_or_lt t contact.fromTime with hbefore | hfrom
  · rw [cur_before hbefore hto]
  · rw [cur_during h htotal hfrom hto]
    exact min_le_right _ _

theorem cur_nonneg (h : contact.ShortEnough) (htotal : contact.totalCapacity < 2 ^ 64)
    (hremaining : 0 ≤ contact.remainingCapacity prio) (t : UInt64) :
    0 ≤ contact.contactGetCurRemainingCapacity prio t := by
  rcases UInt64.le_or_lt contact.toTime t with hended | hto
  · rw [cur_ended hended]
  rcases UInt64.le_or_lt t contact.fromTime with hbefore | hfrom
  · rwa [cur_before hbefore hto]
  · rw [cur_during h htotal hfrom hto]
    exact le_min (Int.natCast_nonneg _) hremaining

theorem cur_antitone (h : contact.ShortEnough) (htotal : contact.totalCapacity < 2 ^ 64)
    (hremaining : 0 ≤ contact.remainingCapacity prio) {t₁ t₂ : UInt64} (ht : t₁ ≤ t₂) :
    contact.contactGetCurRemainingCapacity prio t₂ ≤
      contact.contactGetCurRemainingCapacity prio t₁ := by
  rcases UInt64.le_or_lt contact.toTime t₂ with hended | hto
  · rw [cur_ended hended]
    exact cur_nonneg h htotal hremaining t₁
  have hto₁ := UInt64.lt_of_le_of_lt ht hto
  rcases UInt64.le_or_lt t₁ contact.fromTime with hbefore | hfrom
  · rw [cur_before hbefore hto₁]
    exact cur_le_remaining h htotal hremaining t₂
  -- Both are during the contact, and less time is left at the later one.
  rw [cur_during h htotal hfrom hto₁, cur_during h htotal (UInt64.lt_of_lt_of_le hfrom ht) hto]
  have hle := UInt64.le_iff_toNat_le.mp ht
  have hshare := Nat.div_le_div_right (c := contact.toTime.toNat - contact.fromTime.toNat)
    (Nat.mul_le_mul_left contact.totalCapacity
      (show contact.toTime.toNat - t₂.toNat ≤ contact.toTime.toNat - t₁.toNat by omega))
  exact min_le_min_right _ (Int.ofNat_le.mpr (min_le_min_right _ hshare))

/-- Where the contact is right, the product cannot wrap one second after the start. -/
theorem CurCapacityRight.shortEnough (h : contact.CurCapacityRight prio) : contact.ShortEnough := by
  rw [ShortEnough]
  by_cases hlong : contact.fromTime.toNat + 1 < contact.toTime.toNat
  · have hnext : (contact.fromTime + 1).toNat = contact.fromTime.toNat + 1 := by
      have hlt := contact.toTime.toNat_lt
      rw [UInt64.toNat_add]
      exact Nat.mod_eq_of_lt (Nat.lt_trans hlong hlt)
    have hprod := h.noWrap (contact.fromTime + 1)
      (UInt64.lt_iff_toNat_lt.mpr (by omega)) (UInt64.lt_iff_toNat_lt.mpr (by omega))
    rwa [hnext, ← Nat.sub_sub] at hprod
  · rw [show contact.toTime.toNat - contact.fromTime.toNat - 1 = 0 by omega, Nat.mul_zero]
    decide

/-- Of a contact whose capacities account for its queue. -/
theorem curCapacityRight_iff (hle : contact.remainingCapacity prio ≤ contact.totalCapacity)
    (htotal : contact.totalCapacity ≤ 2 ^ 31 - 1) (hinterval : contact.fromTime < contact.toTime) :
    contact.CurCapacityRight prio ↔
      0 ≤ contact.remainingCapacity prio ∧ contact.ShortEnough := by
  have hlt64 : contact.totalCapacity < 2 ^ 64 := by omega
  constructor
  · intro h
    have hend := h.bounded contact.toTime
    rw [cur_ended (UInt64.le_refl _)] at hend
    exact ⟨hend, h.shortEnough⟩
  · rintro ⟨hremaining, hshort⟩
    refine ⟨fun _ t₁ t₂ => cur_antitone hshort hlt64 hremaining, fun t => cur_ended,
      cur_le_remaining hshort hlt64 hremaining, fun t hfrom hto => ?_,
      fun t hfrom _ => hshort.product_lt hfrom⟩
    rcases UInt64.lt_or_eq_of_le hfrom with hduring | rfl
    · rw [cur_during hshort hlt64 hduring hto]
      exact (min_le_left _ _).trans (Int.ofNat_le.mpr (min_le_left _ _))
    · have hpos := UInt64.lt_iff_toNat_lt.mp hinterval
      rw [cur_before (UInt64.le_refl _) hto, Nat.mul_div_cancel _ (by omega)]
      exact hle

end Contact

/-- For every contact of a run without an overflow. -/
theorem curRemainingCapacity_iff (operations : List Operation) {step : Step}
    (hstep : step ∈ steps contactCreate operations) (hfits : step.after.Fits)
    (hinterval : step.after.fromTime < step.after.toTime) (prio : Priority) :
    step.after.CurCapacityRight prio ↔
      0 ≤ step.after.remainingCapacity prio ∧ step.after.ShortEnough := by
  have hwrapped := steps_wrapped wrapped_contactCreate operations step hstep
  have htotal : step.after.totalCapacity ≤ 2 ^ 31 - 1 := by
    rw [hwrapped.total]
    exact min_le_right _ _
  refine Contact.curCapacityRight_iff ?_ htotal hinterval
  rw [remaining_eq_left hwrapped hfits]
  exact left_le_total _ prio

/-- A contact from 0 to 1000 with one byte for each second. -/
theorem curRemainingCapacity_iff_thousand :
    (contactCreate.adjust 0 1000 1).recalculateContactCapacity.CurCapacityRight .low ↔
      0 ≤ (contactCreate.adjust 0 1000 1).recalculateContactCapacity.remainingCapacity .low ∧
        (contactCreate.adjust 0 1000 1).recalculateContactCapacity.ShortEnough :=
  curRemainingCapacity_iff [.recalculate 0 1000 1]
    (List.mem_singleton_self (⟨contactCreate, .recalculate 0 1000 1, _⟩ : Step))
    (by decide +kernel) (by decide) .low

/-- A contact from 0 to `2 ^ 34`, with one byte for each second: there is no capacity left, and
five seconds later there is. -/
theorem not_curCapacityRight_long :
    ¬(contactCreate.adjust 0 17179869184 1).recalculateContactCapacity.CurCapacityRight .low := by
  intro h
  have hle := h.antitone (by decide +kernel) 8589934587 8589934592 (by decide)
  exact absurd hle (by decide +kernel)

end Upcn.Capacity
