import Upcn.Contact.InProgress

/-!
# The end of contacts

After a full check every contact of the list that is over has been reported to
the router, once, as long as every such contact was started by an earlier check
and the clock does not go back.  The contact manager knows of a contact only from
its start on: one that no check falls into, that finds the array full or whose CLA
is not there is never reported.

The contacts have the times of one plan.  `Retiring` is the invariant: what was
started is in the array or was reported, and what was reported is over and does
not come back.
-/

namespace Upcn

open Outcome

/-- The time a contact begins, and the time it ends. -/
structure Plan where
  fromTime : ContactPtr → Nat
  toTime : ContactPtr → Nat

namespace ContactManager

variable {m m' : ContactManager} {infos new : List ContactInfo} {c : ContactPtr}
  {plan : Plan} {o : Surroundings} {signal : ManagerSignal} {last : Nat}

/-- The contacts have their times from the plan. -/
def OnPlan (plan : Plan) (m : ContactManager) : Prop :=
  ∀ c k, m.table.contacts c = some k →
    k.fromTime = plan.fromTime c ∧ k.toTime = plan.toTime c

/-- The clock does not go back, every contact of the list that is over was started
before, and the removals stay within the array.  `last` is the time of the check
before. -/
structure Timely (plan : Plan) (m : ContactManager) (last : Nat) (o : Surroundings) :
    Prop where
  clock : last ≤ o.now
  started : ∀ c ∈ m.table.contactList, plan.toTime c ≤ o.now → c ∈ m.started
  bounds : m.InBounds o

/-- Runs over contacts on the plan, with the time of the last check.  A check has
`ok`. -/
inductive Checks (maxConcurrentContacts : Nat) (plan : Plan)
    (ok : ContactManager → Nat → Surroundings → Prop) : ContactManager → Nat → Prop where
  | start {table : RoutingTable}
      (hplan : OnPlan plan (.initial maxConcurrentContacts table))
      (h : ∀ c k, table.contacts c = some k → k.active = false) :
      Checks maxConcurrentContacts plan ok (.initial maxConcurrentContacts table) 0
  | check {m m' : ContactManager} {last : Nat} {signal : ManagerSignal}
      {o : Surroundings} (run : Checks maxConcurrentContacts plan ok m last)
      (hok : ok m last o) (hsignal : signal ≠ ⟨false, true⟩)
      (h : m.manageContacts signal o = .ok m') :
      Checks maxConcurrentContacts plan ok m' o.now
  | handOver {m m' : ContactManager} {last : Nat} {o : Surroundings}
      (run : Checks maxConcurrentContacts plan ok m last)
      (h : m.manageContacts ⟨false, true⟩ o = .ok m') :
      Checks maxConcurrentContacts plan ok m' last
  | elsewhere {m m' : ContactManager} {last : Nat}
      (run : Checks maxConcurrentContacts plan ok m last) (h : Elsewhere m m')
      (hplan : OnPlan plan m') : Checks maxConcurrentContacts plan ok m' last

/-- What was started is in progress or was reported; what was reported is over and
is not in progress. -/
structure Retiring (plan : Plan) (m : ContactManager) (last : Nat)
    (infos : List ContactInfo) : Prop where
  occupied : m.Occupied infos
  onPlan : m.OnPlan plan
  once : m.signals.Nodup
  past : ∀ c ∈ m.signals, plan.toTime c ≤ last ∧ c ∉ infos.map ContactInfo.contact
  current : ∀ c ∈ m.started, c ∈ infos.map ContactInfo.contact ∨ c ∈ m.signals

theorem OnPlan.expiredAt (h : m.OnPlan plan) {now : Nat}
    (hover : m.ExpiredAt now c = true) : plan.toTime c ≤ now := by
  cases hk : m.table.contacts c with
  | none =>
    rw [ExpiredAt, hk] at hover
    cases hover
  | some k =>
    rw [← (h c k hk).2]
    exact (expiredAt_iff hk).mp hover

theorem OnPlan.expiredAt_of (h : m.OnPlan plan) {now : Nat} (hactive : m.ActiveAt c)
    (hover : plan.toTime c ≤ now) : m.ExpiredAt now c = true := by
  obtain ⟨k, hk, _⟩ := hactive
  rw [← (h c k hk).2] at hover
  exact (expiredAt_iff hk).mpr hover

theorem OnPlan.runningAt (h : m.OnPlan plan) {now : Nat} (hr : m.RunningAt now c) :
    now < plan.toTime c := by
  obtain ⟨k, hk, _, hto⟩ := hr
  rw [← (h c k hk).2]
  exact hto

theorem OnPlan.of_contacts (h : m.OnPlan plan)
    (hsame : ∀ c, (m'.table.contacts c).map planOf = (m.table.contacts c).map planOf) :
    m'.OnPlan plan := by
  intro c k hk
  have hc := hsame c
  rw [hk] at hc
  obtain ⟨k', hk', hplan⟩ := Option.map_eq_some_iff.mp hc.symm
  obtain ⟨hfrom, hto⟩ := h c k' hk'
  rw [← hfrom, ← hto]
  exact ⟨(congrArg Contact.fromTime hplan).symm, (congrArg Contact.toTime hplan).symm⟩

theorem nodup_lapsed (h : m.Occupied infos) (now : Nat) : (m.lapsed now infos).Nodup := by
  have hsub : ((infos.filter fun x => m.ExpiredAt now x.contact).map
      ContactInfo.contact).Sublist (infos.map ContactInfo.contact) :=
    List.filter_sublist.map _
  unfold lapsed
  rw [List.map_reverse]
  exact List.nodup_reverse.mpr (h.nodup.sublist hsub)

/-- An entry after the check was there before and is not over, or is new. -/
theorem mem_after (hc : c ∈ ((infos.filter fun x =>
      !m.ExpiredAt o.now x.contact) ++ new).map ContactInfo.contact) :
    (c ∈ infos.map ContactInfo.contact ∧ ¬ m.ExpiredAt o.now c = true) ∨
      c ∈ new.map ContactInfo.contact := by
  rw [List.map_append, List.mem_append] at hc
  rcases hc with hc | hc
  · obtain ⟨info, hinfo, rfl⟩ := List.mem_map.mp hc
    obtain ⟨hmem, hon⟩ := List.mem_filter.mp hinfo
    exact .inl ⟨List.mem_map_of_mem hmem, by simpa using hon⟩
  · exact .inr hc

/-- A check retires what is over. -/
theorem Retiring.checked (h : Retiring plan m last infos) (hclock : last ≤ o.now)
    (hc : Checked o m infos m' new) :
    Retiring plan m' o.now
      ((infos.filter fun x => !m.ExpiredAt o.now x.contact) ++ new) where
  occupied := hc.occupied
  onPlan := h.onPlan.of_contacts hc.contacts
  once := by
    rw [hc.signals, List.nodup_append]
    refine ⟨h.once, nodup_lapsed h.occupied _, fun x hx y hy hxy => ?_⟩
    rw [← hxy] at hy
    exact (h.past x hx).2 (mem_lapsed.mp hy).1
  past := by
    intro x hx
    rw [hc.signals, List.mem_append] at hx
    have hto : plan.toTime x ≤ o.now := by
      rcases hx with hx | hx
      · exact Nat.le_trans (h.past x hx).1 hclock
      · exact h.onPlan.expiredAt (mem_lapsed.mp hx).2
    refine ⟨hto, fun hin => ?_⟩
    rcases mem_after hin with ⟨hmem, hon⟩ | hnew
    · rcases hx with hx | hx
      · exact (h.past x hx).2 hmem
      · exact hon (mem_lapsed.mp hx).2
    · obtain ⟨info, hinfo, rfl⟩ := List.mem_map.mp hnew
      have hrunning := h.onPlan.runningAt (hc.running info hinfo)
      omega
  current := by
    intro x hx
    rw [hc.started, List.mem_append] at hx
    rw [hc.signals, List.mem_append, List.map_append, List.mem_append]
    rcases hx with hx | hx
    · rcases h.current x hx with hmem | hold
      · by_cases hover : m.ExpiredAt o.now x = true
        · exact .inr (.inr (mem_lapsed.mpr ⟨hmem, hover⟩))
        · obtain ⟨info, hinfo, rfl⟩ := List.mem_map.mp hmem
          have hon : (!m.ExpiredAt o.now info.contact) = true := by simpa using hover
          exact .inl (.inl (List.mem_map_of_mem (List.mem_filter.mpr ⟨hinfo, hon⟩)))
      · exact .inr (.inl hold)
    · exact .inl (.inr hx)

/-- After the check, what was started before and is over has been reported. -/
theorem Retiring.reported (h : Retiring plan m last infos) (hclock : last ≤ o.now)
    (hc : Checked o m infos m' new) (hstarted : c ∈ m.started)
    (hover : plan.toTime c ≤ o.now) : m'.signals.count c = 1 := by
  refine List.count_eq_one_of_mem (h.checked hclock hc).once ?_
  rw [hc.signals, List.mem_append]
  rcases h.current c hstarted with hmem | hold
  · obtain ⟨info, hinfo, rfl⟩ := List.mem_map.mp hmem
    have hexpired := h.onPlan.expiredAt_of (h.occupied.active info hinfo) hover
    exact .inr (mem_lapsed.mpr ⟨hmem, hexpired⟩)
  · exact .inl hold

theorem Retiring.handedOver (h : Retiring plan m last infos)
    (handedOver : List ContactPtr) :
    Retiring plan { m with handedOver := handedOver } last infos :=
  ⟨⟨h.occupied.slots, h.occupied.length, h.occupied.nodup, h.occupied.active⟩,
    h.onPlan, h.once, h.past, h.current⟩

/-- A full check, after the hand-over of bundles. -/
theorem Retiring.manageContacts (h : Retiring plan m last infos)
    (hok : Timely plan m last o) (hsignal : signal ≠ ⟨false, true⟩)
    (hm : m.manageContacts signal o = .ok m') :
    ∃ m₁ new, Retiring plan m₁ last infos ∧ m₁.started = m.started ∧
      m₁.table = m.table ∧ Checked o m₁ infos m' new := by
  obtain ⟨handedOver, hdone⟩ := handOverCurrent_spec h.occupied signal
  unfold ContactManager.manageContacts at hm
  rw [hdone, ok_bind, if_neg hsignal] at hm
  have h₁ := h.handedOver handedOver
  have hroom : Removable { m with handedOver := handedOver } o.now infos [] :=
    hok.bounds.removable h.occupied
  obtain ⟨new, hc⟩ := (checkAndInform_spec h₁.occupied hroom).ok hm
  exact ⟨_, new, h₁, rfl, rfl, hc⟩

/-- The invariant holds in every run of timely checks. -/
theorem Checks.retiring {maxConcurrentContacts : Nat}
    (h : Checks maxConcurrentContacts plan (Timely plan) m last) :
    ∃ infos, Retiring plan m last infos := by
  induction h with
  | start hplan hnone =>
    obtain ⟨infos, hocc, _⟩ := tidy_initial maxConcurrentContacts hnone
    refine ⟨infos, hocc, hplan, List.nodup_nil, ?_, ?_⟩
    · intro c hc
      cases hc
    · intro c hc
      cases hc
  | check run hok hsignal hm ih =>
    obtain ⟨infos, hr⟩ := ih
    obtain ⟨m₁, new, hr₁, _, _, hc⟩ := hr.manageContacts hok hsignal hm
    exact ⟨_, hr₁.checked hok.clock hc⟩
  | handOver run hm ih =>
    obtain ⟨infos, hr⟩ := ih
    obtain ⟨handedOver, hdone⟩ := handOverCurrent_spec hr.occupied ⟨false, true⟩
    unfold ContactManager.manageContacts at hm
    rw [hdone, ok_bind, if_pos rfl] at hm
    obtain rfl := Except.ok.inj hm
    exact ⟨infos, hr.handedOver handedOver⟩
  | elsewhere run he hplan ih =>
    obtain ⟨infos, hr⟩ := ih
    refine ⟨infos, he.occupied hr.occupied, hplan, ?_, ?_, ?_⟩
    · rw [he.signals]
      exact hr.once
    · rw [he.signals]
      exact hr.past
    · rw [he.signals, he.started]
      exact hr.current

/-- After a timely check in a run of timely checks, every contact of the list that
is over has been reported once. -/
theorem contacts_retired (maxConcurrentContacts : Nat) (plan : Plan)
    (m m' : ContactManager) (last : Nat) (signal : ManagerSignal) (o : Surroundings)
    (h : Checks maxConcurrentContacts plan (Timely plan) m last)
    (hok : Timely plan m last o) (hsignal : signal ≠ ⟨false, true⟩)
    (hm : m.manageContacts signal o = .ok m') (c : ContactPtr)
    (hc : c ∈ m'.table.contactList) (hover : plan.toTime c ≤ o.now) :
    m'.signals.count c = 1 := by
  obtain ⟨infos, hr⟩ := h.retiring
  obtain ⟨m₁, new, hr₁, hstarted, htable, hchecked⟩ :=
    hr.manageContacts hok hsignal hm
  have hlisted : c ∈ m.table.contactList := by
    rw [← htable, ← hchecked.contactList]
    exact hc
  have hbefore : c ∈ m₁.started := by
    rw [hstarted]
    exact hok.started c hlisted hover
  exact hr₁.reported hok.clock hchecked hbefore hover

/-! ## One contact -/

/-- All contacts last from 5 to 9. -/
def onePlan : Plan := ⟨fun _ => 5, fun _ => 9⟩

theorem onPlan_onePlan : OnPlan onePlan (.initial 10 (planned 1 fun _ => 9)) := by
  intro c k hk
  have hcell : (if c < 1 then some (⟨some 0, 5, 9, [], false⟩ : Contact) else none)
      = some k := hk
  split at hcell
  · cases hcell
    exact ⟨rfl, rfl⟩
  · cases hcell

/-- Checks at 6 and at 9: the contact is started and then reported. -/
theorem contacts_retired_one : ∃ m m', Checks 10 onePlan (Timely onePlan) m 6 ∧
    m.started = [0] ∧ m.manageContacts ⟨true, true⟩ (attemptsSucceed 9) = .ok m' ∧
      0 ∈ m'.table.contactList ∧ m'.signals.count 0 = 1 := by
  obtain ⟨m, m', hm, hstarted, hcount, hroom, hlist, hm', hlist'⟩ : ∃ m m',
      (ContactManager.initial 10 (planned 1 fun _ => 9)).manageContacts ⟨true, true⟩
        (attemptsSucceed 6) = .ok m ∧ m.started = [0] ∧ m.currentContactCount = 1 ∧
      m.currentContacts.length = 10 ∧ m.table.contactList = [0] ∧
      m.manageContacts ⟨true, true⟩ (attemptsSucceed 9) = .ok m' ∧
      0 ∈ m'.table.contactList := ⟨_, _, rfl, rfl, rfl, rfl, rfl, rfl, by decide⟩
  have hfirst : Timely onePlan (.initial 10 (planned 1 fun _ => 9)) 0
      (attemptsSucceed 6) := by
    refine ⟨Nat.zero_le _, fun c _ hover => ?_, fun hfull => absurd hfull (by decide)⟩
    exact absurd hover (show ¬ 9 ≤ 6 by decide)
  have hrun : Checks 10 onePlan (Timely onePlan) m 6 :=
    .check (.start onPlan_onePlan (planned_inactive _ _)) hfirst (by decide) hm
  have hsecond : Timely onePlan m 6 (attemptsSucceed 9) := by
    refine ⟨by decide, fun c hc _ => ?_, fun hfull => ?_⟩
    · rw [hlist] at hc
      rw [hstarted]
      exact hc
    · rw [hcount, hroom] at hfull
      exact absurd hfull (by decide)
  exact ⟨m, m', hrun, hstarted, hm', hlist', contacts_retired 10 onePlan m m' 6
    ⟨true, true⟩ (attemptsSucceed 9) hrun hsecond (by decide) hm' 0 hlist' (by decide)⟩

/-- Checks at 4 and at 10: the contact is over and was never reported. -/
theorem contact_never_reported : ∃ m m', Checks 10 onePlan (fun _ _ _ => True) m 4 ∧
    m.manageContacts ⟨true, true⟩ (attemptsSucceed 10) = .ok m' ∧
      0 ∈ m'.table.contactList ∧ onePlan.toTime 0 ≤ 10 ∧ m'.signals.count 0 = 0 := by
  obtain ⟨m, m', hm, hm', hlist, hcount⟩ : ∃ m m',
      (ContactManager.initial 10 (planned 1 fun _ => 9)).manageContacts ⟨true, true⟩
        (attemptsSucceed 4) = .ok m ∧
      m.manageContacts ⟨true, true⟩ (attemptsSucceed 10) = .ok m' ∧
      0 ∈ m'.table.contactList ∧ m'.signals.count 0 = 0 :=
    ⟨_, _, rfl, rfl, by decide, rfl⟩
  exact ⟨m, m', .check (.start onPlan_onePlan (planned_inactive _ _)) trivial
    (by decide) hm, hm', hlist, by decide, hcount⟩

end ContactManager

end Upcn
