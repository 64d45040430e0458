import Upcn.Contact.InProgress
import Upcn.Router.Admission

/-!
# The wake-up of the contact manager

How long `contact_manager_task` waits after a check of the contact list.

* `events` are the moments at which the contacts that are on end and the other ones start.
* `nextContactTime_eq`: the loop over the list, which ends at the first contact of the future,
  finds the earliest of them.
* `wakesRight_iff` says when the task waits for it.
-/

namespace Upcn

open Outcome

/-- The moment at which something happens to the contact. -/
def Contact.event (now : Nat) (k : Contact) : Option Nat :=
  if k.fromTime ≤ now then
    if now < k.toTime then some k.toTime else none
  else some k.fromTime

namespace ContactManager

/-- `CONTACT_CHECKING_MAX_PERIOD`. -/
def contactCheckingMaxPeriod : UInt64 := 600000

/-- The loop of `contact_manager_task` behind `manage_contacts`: the `delay`, or `none` when it
does not wait. -/
def contactManagerDelay (nextContactTime curTime : UInt64) : Option UInt64 :=
  let nextTime := min 0xffffffffffffffff (nextContactTime * 1000)
  if nextTime > curTime + contactCheckingMaxPeriod then some contactCheckingMaxPeriod
  else if nextTime ≤ curTime then none
  else some (nextTime - curTime)

/-- The events of the contacts in the list. -/
def events (m : ContactManager) (now : Nat) (list : List ContactPtr) : List Nat :=
  list.filterMap fun c => (m.table.contacts c).bind (Contact.event now)

/-- The task waits for the earliest event. -/
structure WakesRight (events : List Nat) (nextContactTime : Nat) (curTime : UInt64) : Prop where
  none : events = [] → nextContactTime = 2 ^ 64 - 1
  earliest : events ≠ [] → nextContactTime ∈ events ∧ ∀ e ∈ events, nextContactTime ≤ e
  noWrap : nextContactTime * 1000 < 2 ^ 64
  waits : ∀ delay, contactManagerDelay (.ofNat nextContactTime) curTime = some delay →
    0 < delay ∧ delay ≤ contactCheckingMaxPeriod ∧
      curTime.toNat + delay.toNat ≤ nextContactTime * 1000
  due : contactManagerDelay (.ofNat nextContactTime) curTime = .none →
    nextContactTime * 1000 ≤ curTime.toNat

/-- Some event is early enough for 64 bits of milliseconds, and the clock is not at their end,
unless an event was at their start. -/
def InTime (events : List Nat) (curTime : UInt64) : Prop :=
  (∃ e ∈ events, e * 1000 < 2 ^ 64) ∧
    (curTime.toNat + 600000 < 2 ^ 64 ∨ ∃ e ∈ events, e * 1000 + 2 ^ 64 ≤ curTime.toNat + 600000)

variable {m m' : ContactManager} {o : Surroundings} {a : Attempt} {c : ContactPtr}
  {added added' : List ContactInfo}

/-! ## The loop over the contacts -/

theorem startContact_frame {node : Node} {claAddr : Eid}
    (h : m.startContact a c node claAddr added = .ok (m', added')) :
    m'.table = m.table ∧ m'.nextContactTime = m.nextContactTime := by
  unfold startContact at h
  cases hconf : a.claConf with
  | none =>
    rw [hconf] at h
    obtain ⟨rfl, -⟩ := Prod.mk.inj (Except.ok.inj h)
    exact ⟨rfl, rfl⟩
  | some claConf =>
    rw [hconf] at h
    obtain ⟨m₁, hset, h⟩ := bind_eq_ok h
    have hslot : m₁.table = m.table ∧ m₁.nextContactTime = m.nextContactTime := by
      unfold setSlot at hset
      split at hset
      · cases hset
        exact ⟨rfl, rfl⟩
      · exact nomatch hset
    split at h
    · obtain ⟨rfl, -⟩ := Prod.mk.inj (Except.ok.inj h)
      exact hslot
    · obtain ⟨list, -, h⟩ := bind_eq_ok h
      obtain ⟨rfl, -⟩ := Prod.mk.inj (Except.ok.inj h)
      exact hslot

/-- An attempt changes no times. -/
theorem tryContact_frame (h : m.tryContact o a c added = .ok (m', added')) :
    (∀ x, (m'.table.contacts x).map planOf = (m.table.contacts x).map planOf) ∧
      m'.nextContactTime = m.nextContactTime := by
  obtain ⟨m₁, hset, h⟩ := bind_eq_ok h
  obtain ⟨⟨n, node⟩, -, h⟩ := bind_eq_ok h
  have hkept := (kept_setActive hset).1.contacts
  have htime : m₁.nextContactTime = m.nextContactTime := by
    obtain ⟨k, -, hset⟩ := bind_eq_ok hset
    cases hset
    rfl
  dsimp only at h
  split at h
  · exact nomatch h
  · obtain ⟨htable, hnext⟩ := startContact_frame h
    rw [htable, hnext, htime]
    exact ⟨hkept, rfl⟩

theorem foldl_min_of_le {events : List Nat} {least : Nat} (h : ∀ e ∈ events, least ≤ e) :
    events.foldl min least = least := by
  induction events with
  | nil => rfl
  | cons e rest ih =>
    rw [List.foldl_cons, Nat.min_eq_left (h e List.mem_cons_self)]
    exact ih fun e he => h e (List.mem_cons_of_mem _ he)

/-- What starts first is the first of the contacts that are still to start. -/
theorem le_events {now : Nat} {k : Contact} {rest : List ContactPtr}
    (hk : m.table.contacts c = some k) (hfuture : now < k.fromTime)
    (hsorted : m.table.SortedBy (·.fromTime) (c :: rest)) :
    ∀ e ∈ m.events now rest, k.fromTime ≤ e := by
  intro e he
  obtain ⟨d, hd, hevent⟩ := List.mem_filterMap.mp he
  obtain ⟨l, hl, hevent⟩ := Option.bind_eq_some_iff.mp hevent
  have hle := List.rel_of_pairwise_cons hsorted hd
  rw [RoutingTable.keyOf_of_some hk, RoutingTable.keyOf_of_some hl] at hle
  have hlater : ¬l.fromTime ≤ now := by omega
  rw [Contact.event, if_neg hlater] at hevent
  cases hevent
  exact hle

/-- The loop over the contact list, from a state with the times of `m₀`. -/
theorem processUpcoming_nextContactTime {m₀ : ContactManager} (list : List ContactPtr)
    {tried : Nat} (h : processUpcoming o list tried m added = .ok (m', added'))
    (hkept : ∀ x, (m.table.contacts x).map planOf = (m₀.table.contacts x).map planOf)
    (hsorted : m₀.table.SortedBy (·.fromTime) list) :
    m'.nextContactTime = (m₀.events o.now list).foldl min m.nextContactTime := by
  induction list generalizing m tried added with
  | nil =>
    obtain ⟨rfl, -⟩ := Prod.mk.inj (Except.ok.inj h)
    rfl
  | cons c rest ih =>
    rw [processUpcoming] at h
    obtain ⟨k, hload, h⟩ := bind_eq_ok h
    have hk : m.table.contacts c = some k := by
      unfold load at hload
      split at hload
      · exact nomatch hload
      · cases hload
        assumption
    have hc := hkept c
    rw [hk] at hc
    obtain ⟨k₀, hk₀, hplan⟩ := Option.map_eq_some_iff.mp hc.symm
    have hfrom : k₀.fromTime = k.fromTime := (congrArg Contact.fromTime hplan :)
    have hto : k₀.toTime = k.toTime := (congrArg Contact.toTime hplan :)
    have hrest : m₀.table.SortedBy (·.fromTime) rest := List.Pairwise.of_cons hsorted
    rw [events, List.filterMap_cons, hk₀, Option.bind_some, Contact.event, hfrom, hto]
    split at h
    · rename_i hstarted
      rw [if_pos hstarted]
      split at h
      · rename_i hrunning
        rw [if_pos hrunning]
        split at h
        · obtain ⟨⟨m₁, added₁⟩, htry, h⟩ := bind_eq_ok h
          obtain ⟨htimes, hnext⟩ := tryContact_frame htry
          have hlater := ih h (fun x => (htimes x).trans (hkept x)) hrest
          rw [hlater, List.foldl_cons]
          dsimp only
          rw [hnext]
          rfl
        · exact ih h hkept hrest
      · rename_i hover
        rw [if_neg hover]
        exact ih h hkept hrest
    · rename_i hfuture
      rw [if_neg hfuture]
      obtain ⟨rfl, -⟩ := Prod.mk.inj (Except.ok.inj h)
      rw [List.foldl_cons]
      refine (foldl_min_of_le fun e he => ?_).symm
      have hle := le_events hk₀ (by omega) hsorted e he
      rw [hfrom] at hle
      exact (Nat.min_le_right _ _).trans hle

/-- The earliest event. -/
theorem nextContactTime_eq (h : m.processUpcomingList o = .ok (m', added))
    (hsorted : m.table.SortedBy (·.fromTime) m.table.contactList) :
    m'.nextContactTime = (m.events o.now m.table.contactList).foldl min (2 ^ 64 - 1) :=
  processUpcoming_nextContactTime m.table.contactList h (fun _ => rfl) hsorted

/-! ## The delay -/

theorem foldl_min_le (events : List Nat) (start : Nat) :
    events.foldl min start ≤ start ∧ ∀ e ∈ events, events.foldl min start ≤ e := by
  induction events generalizing start with
  | nil => exact ⟨Nat.le_refl _, fun e he => nomatch he⟩
  | cons first rest ih =>
    obtain ⟨hstart, hall⟩ := ih (min start first)
    rw [List.foldl_cons]
    refine ⟨hstart.trans (Nat.min_le_left _ _), fun e he => ?_⟩
    rcases List.mem_cons.mp he with rfl | he
    · exact hstart.trans (Nat.min_le_right _ _)
    · exact hall e he

theorem foldl_min_mem (events : List Nat) (start : Nat) :
    events.foldl min start = start ∨ events.foldl min start ∈ events := by
  induction events generalizing start with
  | nil => exact .inl rfl
  | cons first rest ih =>
    rw [List.foldl_cons]
    rcases ih (min start first) with heq | hmem
    · rw [heq]
      rcases Nat.le_total start first with hle | hle
      · exact .inl (Nat.min_eq_left hle)
      · rw [Nat.min_eq_right hle]
        exact .inr List.mem_cons_self
    · exact .inr (List.mem_cons_of_mem _ hmem)

/-- The delay for a moment that can be written in milliseconds. -/
theorem contactManagerDelay_eq {nextContactTime : Nat} (h : nextContactTime * 1000 < 2 ^ 64)
    (curTime : UInt64) : contactManagerDelay (.ofNat nextContactTime) curTime =
      if nextContactTime * 1000 > (curTime.toNat + 600000) % 2 ^ 64 then
        some contactCheckingMaxPeriod
      else if nextContactTime * 1000 ≤ curTime.toNat then none
      else some (.ofNat (nextContactTime * 1000) - curTime) := by
  have hnext : min 0xffffffffffffffff (UInt64.ofNat nextContactTime * 1000) =
      UInt64.ofNat (nextContactTime * 1000) := by
    have hproduct : UInt64.ofNat nextContactTime * 1000 = UInt64.ofNat (nextContactTime * 1000) :=
      (UInt64.ofNat_mul nextContactTime 1000).symm
    have hmax : UInt64.ofNat (nextContactTime * 1000) ≤ 0xffffffffffffffff :=
      UInt64.le_iff_toNat_le.mpr (Nat.le_of_lt_succ (UInt64.toNat_lt _))
    rw [hproduct]
    show (if (0xffffffffffffffff : UInt64) ≤ .ofNat (nextContactTime * 1000) then _ else _) = _
    split
    · rename_i hle
      exact UInt64.le_antisymm hle hmax
    · rfl
  have hnat : (UInt64.ofNat (nextContactTime * 1000)).toNat = nextContactTime * 1000 :=
    UInt64.toNat_ofNat_of_lt' h
  have hperiod : (curTime + contactCheckingMaxPeriod).toNat = (curTime.toNat + 600000) % 2 ^ 64 :=
    UInt64.toNat_add _ _
  rw [contactManagerDelay, hnext]
  simp only [gt_iff_lt, UInt64.lt_iff_toNat_lt, UInt64.le_iff_toNat_le, hnat, hperiod]

/-- The delay is right unless the clock is at the end of 64 bits of milliseconds. -/
theorem delay_iff {nextContactTime : Nat} (h : nextContactTime * 1000 < 2 ^ 64)
    (curTime : UInt64) :
    ((∀ delay, contactManagerDelay (.ofNat nextContactTime) curTime = some delay →
        0 < delay ∧ delay ≤ contactCheckingMaxPeriod ∧
          curTime.toNat + delay.toNat ≤ nextContactTime * 1000) ∧
      (contactManagerDelay (.ofNat nextContactTime) curTime = none →
        nextContactTime * 1000 ≤ curTime.toNat)) ↔
      (curTime.toNat + 600000 < 2 ^ 64 ∨
        nextContactTime * 1000 + 2 ^ 64 ≤ curTime.toNat + 600000) := by
  have hcur := curTime.toNat_lt
  rw [contactManagerDelay_eq h]
  by_cases hlate : nextContactTime * 1000 > (curTime.toNat + 600000) % 2 ^ 64
  · rw [if_pos hlate]
    constructor
    · rintro ⟨hwaits, -⟩
      have hmoment : curTime.toNat + 600000 ≤ nextContactTime * 1000 := (hwaits _ rfl).2.2
      omega
    · intro hclock
      refine ⟨fun delay hdelay => ?_, fun hnone => nomatch hnone⟩
      cases hdelay
      refine ⟨by decide, UInt64.le_refl _, ?_⟩
      show curTime.toNat + 600000 ≤ _
      omega
  rw [if_neg hlate]
  by_cases hdue : nextContactTime * 1000 ≤ curTime.toNat
  · rw [if_pos hdue]
    exact iff_of_true ⟨fun delay hdelay => (nomatch hdelay), fun _ => hdue⟩ (by omega)
  rw [if_neg hdue]
  refine iff_of_true ⟨fun delay hdelay => ?_, fun hnone => nomatch hnone⟩ (by omega)
  cases hdelay
  have hnat : (UInt64.ofNat (nextContactTime * 1000)).toNat = nextContactTime * 1000 :=
    UInt64.toNat_ofNat_of_lt' h
  have hsub : (UInt64.ofNat (nextContactTime * 1000) - curTime).toNat =
      nextContactTime * 1000 - curTime.toNat := by
    rw [UInt64.toNat_sub_of_le _ _ (UInt64.le_iff_toNat_le.mpr (by omega)), hnat]
  have hperiod : contactCheckingMaxPeriod.toNat = 600000 := rfl
  have hzero : (0 : UInt64).toNat = 0 := rfl
  refine ⟨UInt64.lt_iff_toNat_lt.mpr ?_, UInt64.le_iff_toNat_le.mpr ?_, ?_⟩ <;> omega

/-- After a check the task waits for the earliest event just when it has to and can. -/
theorem wakesRight_iff (h : m.processUpcomingList o = .ok (m', added))
    (hsorted : m.table.SortedBy (·.fromTime) m.table.contactList)
    (hrange : ∀ c k, m.table.contacts c = some k → k.fromTime < 2 ^ 64 ∧ k.toTime < 2 ^ 64)
    (curTime : UInt64) :
    WakesRight (m.events o.now m.table.contactList) m'.nextContactTime curTime ↔
      InTime (m.events o.now m.table.contactList) curTime := by
  have hnext := nextContactTime_eq h hsorted
  have hlt : ∀ e ∈ m.events o.now m.table.contactList, e < 2 ^ 64 := by
    intro e he
    obtain ⟨c, -, hevent⟩ := List.mem_filterMap.mp he
    obtain ⟨k, hk, hevent⟩ := Option.bind_eq_some_iff.mp hevent
    obtain ⟨hfrom, hto⟩ := hrange c k hk
    rw [Contact.event] at hevent
    split at hevent
    · split at hevent <;> cases hevent
      exact hto
    · cases hevent
      exact hfrom
  generalize m.events o.now m.table.contactList = events at hnext hlt ⊢
  obtain ⟨hstart, hall⟩ := foldl_min_le events (2 ^ 64 - 1)
  have hmem := foldl_min_mem events (2 ^ 64 - 1)
  rw [← hnext] at hstart hall hmem
  -- The earliest event is one of them.
  have hearliest : events ≠ [] → m'.nextContactTime ∈ events := by
    intro hne
    obtain ⟨e, he⟩ := List.exists_mem_of_ne_nil events hne
    rcases hmem with heq | hmem
    · have hle := hall e he
      have hlte := hlt e he
      rwa [show m'.nextContactTime = e by omega]
    · exact hmem
  constructor
  · intro hright
    have hne : events ≠ [] := by
      rintro rfl
      have hwrap := hright.noWrap
      rw [hright.none rfl] at hwrap
      omega
    refine ⟨⟨_, hearliest hne, hright.noWrap⟩, ?_⟩
    rcases (delay_iff hright.noWrap curTime).mp ⟨hright.waits, hright.due⟩ with hclock | hclock
    · exact .inl hclock
    · exact .inr ⟨_, hearliest hne, hclock⟩
  · rintro ⟨⟨e, he, hsmall⟩, hclock⟩
    have hne : events ≠ [] := List.ne_nil_of_mem he
    have hle := hall e he
    have hnoWrap : m'.nextContactTime * 1000 < 2 ^ 64 :=
      Nat.lt_of_le_of_lt (Nat.mul_le_mul_right 1000 hle) hsmall
    have hdelay := (delay_iff hnoWrap curTime).mpr (hclock.imp id fun ⟨e, he, hearly⟩ =>
      (Nat.add_le_add_right (Nat.mul_le_mul_right 1000 (hall e he)) _).trans hearly)
    exact ⟨fun hnil => absurd hnil hne, fun _ => ⟨hearliest hne, hall⟩, hnoWrap, hdelay.1,
      hdelay.2⟩

/-- A contact from 5 to 12, and one from 8 to 10. -/
def startedAndUpcoming : RoutingTable :=
  { planned 2 fun _ => 12 with
    contacts := fun c => if c < 2 then
        some ⟨some 0, if c = 0 then 5 else 8, if c = 0 then 12 else 10, [], false⟩
      else none }

/-- At 6, when the first contact has started and the second has not, the start of the second one
is waited for. -/
theorem wakesRight_iff_two : ∃ m' added,
    (ContactManager.initial 10 startedAndUpcoming).processUpcomingList (attemptsSucceed 6) =
      .ok (m', added) ∧ m'.nextContactTime = 8 ∧
    (WakesRight [12, 8] m'.nextContactTime 6000 ↔ InTime [12, 8] 6000) := by
  have hrange : ∀ c k, startedAndUpcoming.contacts c = some k →
      k.fromTime < 2 ^ 64 ∧ k.toTime < 2 ^ 64 := by
    intro c k hk
    unfold startedAndUpcoming at hk
    dsimp only at hk
    split at hk
    · cases hk
      split <;> exact ⟨by decide, by decide⟩
    · cases hk
  have hsorted : startedAndUpcoming.SortedBy (·.fromTime) startedAndUpcoming.contactList :=
    List.pairwise_pair.mpr (by decide)
  obtain ⟨m', added, h, hnext⟩ : ∃ m' added, (ContactManager.initial 10
      startedAndUpcoming).processUpcomingList (attemptsSucceed 6) = .ok (m', added) ∧
      m'.nextContactTime = 8 := ⟨_, _, rfl, rfl⟩
  exact ⟨m', added, h, hnext, wakesRight_iff h hsorted hrange 6000⟩

/-- The end of this contact is far away, and the task does not wait at all. -/
theorem not_wakesRight_far : ∃ m' added,
    (ContactManager.initial 10 (planned 1 fun _ => 18446744073709552)).processUpcomingList
      (attemptsSucceed 6) = .ok (m', added) ∧
    contactManagerDelay (.ofNat m'.nextContactTime) 6000 = none ∧
    ¬WakesRight [18446744073709552] m'.nextContactTime 6000 := by
  refine ⟨_, _, rfl, by decide, fun h => ?_⟩
  exact absurd (h.due (by decide)) (by decide)

end ContactManager

end Upcn
