import Upcn.Router.Rescheduling

/-!
# What the removal of contacts does to the queued bundles

`Reachable` are the states of all runs: contacts come and change, bundles are routed,
handed over, transmitted and optimized, and contacts are removed.  `SignalledOnce` is what
a removal is to do, and `removal_iff` says when it does.
-/

namespace Upcn.Queueing

open Outcome
open Relation (ReflTransGen)

namespace RoutingState

variable {s s' : RoutingState} {c : ContactPtr} {r : RbPtr} {rb : RoutedBundle}

/-- No list refers to a freed bundle. -/
def NoneFreed (s : RoutingState) : Prop :=
  (∀ c, ∀ r ∈ s.bundlesOf c, s.routed r ≠ .freed) ∧ ∀ r ∈ s.handed, s.routed r ≠ .freed

/-- The bundles of the contacts are signalled to the bundle processor once each, removed
from every contact and freed, the capacities of the other contacts are restored, and no
list refers to a freed bundle. -/
def SignalledOnce (affected : List ContactPtr) (s s' : RoutingState) : Prop :=
  ∃ rs, (∀ r, r ∈ rs ↔ ∃ c ∈ affected, r ∈ s.bundlesOf c) ∧
    Rescheduled .bundleProcessor affected s rs s' ∧ s'.NoneFreed

end RoutingState

/-- No bundle of the contacts is handed over.  A contact that is over shares no bundle with
another one, and the contacts of a withdrawn node have none. -/
def Removal.Fits (removal : Removal) (s : RoutingState) : Prop :=
  (∀ c ∈ removal.affected, ∀ r ∈ s.bundlesOf c, r ∉ s.handed) ∧
    match removal with
    | passed c => ∀ r ∈ s.bundlesOf c, ∀ x, x ≠ c → r ∉ s.bundlesOf x
    | withdrawn contacts => ∀ c ∈ contacts.map Prod.fst, s.bundlesOf c = []
    | replaced _ | deleted _ | changed _ _ => True

/-- A step of the router task, the contact manager or the optimizer. -/
inductive Step : RoutingState → RoutingState → Prop where
  /-- A contact is created, its capacity is calculated again, or its list is sorted. -/
  | contact {s : RoutingState} (c : ContactPtr) (k : Contact)
      (hbundles : k.contactBundles.Perm (s.bundlesOf c))
      (hnode : k.hasNode = false → s.bundlesOf c = []) : Step s (s.setContact c k)
  /-- A bundle with another id than the routed ones, or one that the optimizer has removed
  from its contacts, is added to a route. -/
  | route {s s' : RoutingState} (r : RbPtr) (rb : RoutedBundle)
      (hnew : s.routed r = .unused ∨
        ∃ old, s.routed r = .live old ∧ ∀ c, r ∉ s.bundlesOf c)
      (hid : ∀ x b, x ≠ r → s.routed x = .live b → b.id ≠ rb.id)
      (hcontacts : rb.contacts.Nodup) (hcount : rb.contacts.length ≤ routerMaxContacts)
      (hnode : ∀ c ∈ rb.contacts, (s.contacts c).hasNode = true)
      (hadd : s.routerUpdateRoutedBundle r rb = .ok s') : Step s s'
  /-- The optimizer removes a bundle from its contacts. -/
  | unlist {s : RoutingState} (r : RbPtr) (rb : RoutedBundle) (hlive : s.routed r = .live rb) :
      Step s (s.withdrawFrom r rb rb.contacts)
  /-- A fragment leaves its route again. -/
  | unroute {s s' : RoutingState} {c : ContactPtr} (r : RbPtr) (rb : RoutedBundle)
      (hlive : s.routed r = .live rb) (hmem : r ∈ s.bundlesOf c) (hhanded : r ∉ s.handed)
      (hremove : s.routerRemoveBundleFromRoute rb.contacts rb.id true = .ok s') : Step s s'
  | handOver {s : RoutingState} (c : ContactPtr) : Step s (s.handOverContactBundles c)
  | finish {s : RoutingState} (r : RbPtr) (hlist : ∀ c, r ∉ s.bundlesOf c) : Step s (s.finish r)
  | remove {s s' : RoutingState} (removal : Removal) (hfits : removal.Fits s)
      (hperform : removal.perform s = .ok s') : Step s s'

/-- No contact and no bundle. -/
def RoutingState.initial : RoutingState :=
  ⟨fun _ => ⟨false, [], 0, fun _ => 0⟩, fun _ => .unused, [], []⟩

/-- The states of all runs in which the removals meet the condition. -/
def Reachable (s : RoutingState) : Prop := ReflTransGen Step .initial s

namespace RoutingState

variable {s s' : RoutingState} {c : ContactPtr} {r : RbPtr} {rb : RoutedBundle}

/-- The handed over bundles are live as well. -/
structure Sound (s : RoutingState) : Prop where
  consistent : s.Consistent
  handed : ∀ r ∈ s.handed, ∃ rb, s.routed r = .live rb

theorem Sound.noneFreed (h : s.Sound) : s.NoneFreed := by
  constructor
  · intro c r hr hfreed
    obtain ⟨rb, hrb, -⟩ := h.consistent.listed c r hr
    cases hrb.symm.trans hfreed
  · intro r hr hfreed
    obtain ⟨rb, hrb⟩ := h.handed r hr
    cases hrb.symm.trans hfreed

theorem sound_initial : initial.Sound where
  consistent :=
    { listed := fun c r hr => by cases hr
      nodup := fun c => List.nodup_nil
      ids := fun r r' rb rb' h => by cases h
      count := fun r rb h => by cases h
      nodeless := fun c _ => rfl }
  handed r hr := by cases hr

/-! ## The steps that remove no contact -/

/-- Contacts change, and no list gets a bundle. -/
theorem Sound.of_contacts (h : s.Sound) (hrouted : s'.routed = s.routed)
    (hsub : ∀ c, ∀ r ∈ s'.bundlesOf c, r ∈ s.bundlesOf c) (hnodup : ∀ c, (s'.bundlesOf c).Nodup)
    (hnode : ∀ c, (s'.contacts c).hasNode = false → s.bundlesOf c = [])
    (hhanded : ∀ r ∈ s'.handed, r ∈ s.handed ∨ ∃ c, r ∈ s.bundlesOf c) : s'.Sound where
  consistent :=
    { listed := fun c r hr => by
        rw [hrouted]
        exact h.consistent.listed c r (hsub c r hr)
      nodup := hnodup
      ids := by
        rw [hrouted]
        exact h.consistent.ids
      count := by
        rw [hrouted]
        exact h.consistent.count
      nodeless := fun c hc => by
        refine List.eq_nil_iff_forall_not_mem.mpr fun r hr => ?_
        have hmem := hsub c r hr
        rw [hnode c hc] at hmem
        cases hmem }
  handed r hr := by
    rw [hrouted]
    rcases hhanded r hr with hold | ⟨c, hc⟩
    · exact h.handed r hold
    · obtain ⟨rb, hrb, -⟩ := h.consistent.listed c r hc
      exact ⟨rb, hrb⟩

theorem contacts_setContact (s : RoutingState) (c x : ContactPtr) (k : Contact) :
    (s.setContact c k).contacts x = if x = c then k else s.contacts x :=
  Function.update_apply s.contacts c k x

theorem Sound.setContact (h : s.Sound) (c : ContactPtr) (k : Contact)
    (hbundles : k.contactBundles.Perm (s.bundlesOf c))
    (hnode : k.hasNode = false → s.bundlesOf c = []) : (s.setContact c k).Sound := by
  refine h.of_contacts rfl (fun x r hr => ?_) (fun x => ?_) (fun x hx => ?_) fun r hr => .inl hr
  · unfold bundlesOf at hr
    rw [contacts_setContact] at hr
    by_cases hxc : x = c
    · rw [if_pos hxc] at hr
      rw [hxc]
      exact hbundles.mem_iff.mp hr
    · rw [if_neg hxc] at hr
      exact hr
  · unfold bundlesOf
    rw [contacts_setContact]
    by_cases hxc : x = c
    · rw [if_pos hxc]
      exact hbundles.nodup_iff.mpr (h.consistent.nodup c)
    · rw [if_neg hxc]
      exact h.consistent.nodup x
  · rw [contacts_setContact] at hx
    by_cases hxc : x = c
    · rw [if_pos hxc] at hx
      rw [hxc]
      exact hnode hx
    · rw [if_neg hxc] at hx
      exact h.consistent.nodeless x hx

theorem Sound.handOver (h : s.Sound) (c : ContactPtr) : (s.handOverContactBundles c).Sound := by
  have hbundles : ∀ x, (s.handOverContactBundles c).bundlesOf x =
      if x = c then [] else s.bundlesOf x := by
    intro x
    show ((s.setContact c { s.contacts c with contactBundles := [] }).contacts x).contactBundles = _
    rw [contacts_setContact]
    split <;> rfl
  refine h.of_contacts rfl (fun x r hr => ?_) (fun x => ?_) (fun x hx => ?_) fun r hr => ?_
  · rw [hbundles] at hr
    split at hr
    · cases hr
    · exact hr
  · rw [hbundles]
    split
    · exact List.nodup_nil
    · exact h.consistent.nodup x
  · refine h.consistent.nodeless x ?_
    rw [← hx]
    show _ = ((s.setContact c { s.contacts c with contactBundles := [] }).contacts x).hasNode
    rw [contacts_setContact]
    by_cases hxc : x = c
    · rw [if_pos hxc, hxc]
    · rw [if_neg hxc]
  · rcases List.mem_append.mp hr with hold | hnew
    · exact .inl hold
    · exact .inr ⟨c, hnew⟩

theorem Sound.unlist (h : s.Sound) (r : RbPtr) (rb : RoutedBundle) (cs : List ContactPtr) :
    (s.withdrawFrom r rb cs).Sound := by
  refine h.of_contacts rfl (fun x y hy => ?_) (fun x => ?_) (fun x hx => ?_) fun y hy => .inl hy
  · rw [bundlesOf_withdrawFrom] at hy
    split at hy
    · exact List.mem_of_mem_erase hy
    · exact hy
  · rw [bundlesOf_withdrawFrom]
    split
    · exact (h.consistent.nodup x).erase r
    · exact h.consistent.nodup x
  · refine h.consistent.nodeless x ?_
    rw [← hx]
    show _ = (if x ∈ cs ∧ r ∈ s.bundlesOf x then (s.contacts x).withdraw r rb
      else s.contacts x).hasNode
    split <;> rfl

theorem Sound.finish (h : s.Sound) (hlist : ∀ c, r ∉ s.bundlesOf c) : (s.finish r).Sound := by
  have hother : ∀ x, x ≠ r → (s.finish r).routed x = s.routed x := fun x hx =>
    Function.update_of_ne hx _ _
  have hlive : ∀ x b, (s.finish r).routed x = .live b → s.routed x = .live b := by
    intro x b hb
    by_cases hx : x = r
    · have hself : (s.finish r).routed r = .freed := Function.update_self r _ _
      rw [hx, hself] at hb
      cases hb
    · rwa [hother x hx] at hb
  constructor
  · constructor
    · intro c x hx
      have hne : x ≠ r := fun hxr => hlist c (hxr ▸ hx)
      rw [hother x hne]
      exact h.consistent.listed c x hx
    · exact h.consistent.nodup
    · intro x y b b' hb hb' hid
      exact h.consistent.ids x y b b' (hlive x b hb) (hlive y b' hb') hid
    · intro x b hb
      exact h.consistent.count x b (hlive x b hb)
    · exact h.consistent.nodeless
  · intro x hx
    obtain ⟨hmem, hne⟩ := List.mem_filter.mp hx
    rw [hother x (of_decide_eq_true hne)]
    exact h.handed x hmem

theorem addToContacts_ok {cs : List ContactPtr} (hnodup : cs.Nodup)
    (h : addToContacts r rb s cs = .ok s') :
    s'.routed = s.routed ∧ s'.handed = s.handed ∧
      ∀ c, s'.contacts c = if c ∈ cs then (s.contacts c).append r rb else s.contacts c := by
  induction cs generalizing s with
  | nil =>
    cases h
    exact ⟨rfl, rfl, fun c => (if_neg List.not_mem_nil).symm⟩
  | cons c rest ih =>
    obtain ⟨hc, hrest⟩ := List.nodup_cons.mp hnodup
    rw [addToContacts, routerAddBundleToContact] at h
    by_cases hcap : 0 < (s.contacts c).remaining .low
    · rw [if_pos hcap, ok_bind] at h
      obtain ⟨hrouted, hhanded, hcontacts⟩ := ih hrest h
      refine ⟨hrouted, hhanded, fun x => ?_⟩
      rw [hcontacts, contacts_setContact]
      by_cases hx : x = c
      · rw [hx, if_neg hc, if_pos rfl, if_pos List.mem_cons_self]
      · rw [if_neg hx]
        simp only [List.mem_cons, hx, false_or]
    · rw [if_neg hcap, error_bind] at h
      cases h

theorem Sound.route (h : s.Sound)
    (hnew : s.routed r = .unused ∨ ∃ old, s.routed r = .live old ∧ ∀ c, r ∉ s.bundlesOf c)
    (hid : ∀ x b, x ≠ r → s.routed x = .live b → b.id ≠ rb.id)
    (hcontacts : rb.contacts.Nodup) (hcount : rb.contacts.length ≤ routerMaxContacts)
    (hnode : ∀ c ∈ rb.contacts, (s.contacts c).hasNode = true)
    (hadd : s.routerUpdateRoutedBundle r rb = .ok s') : s'.Sound := by
  obtain ⟨hrouted, hhanded, hlists⟩ := addToContacts_ok hcontacts hadd
  have hself : s'.routed r = .live rb := by
    rw [hrouted]
    exact Function.update_self r _ _
  have hother : ∀ x, x ≠ r → s'.routed x = s.routed x := by
    intro x hx
    rw [hrouted]
    exact Function.update_of_ne hx _ _
  have hnone : ∀ c, r ∉ s.bundlesOf c := by
    rcases hnew with hunused | ⟨old, -, hlist⟩
    · intro c hr
      obtain ⟨b, hb, -⟩ := h.consistent.listed c r hr
      cases hunused.symm.trans hb
    · exact hlist
  have hbundles : ∀ c, s'.bundlesOf c =
      if c ∈ rb.contacts then s.bundlesOf c ++ [r] else s.bundlesOf c := by
    intro c
    unfold bundlesOf
    rw [hlists]
    split <;> rfl
  have hlive : ∀ x b, s'.routed x = .live b →
      x = r ∧ b = rb ∨ x ≠ r ∧ s.routed x = .live b := by
    intro x b hb
    by_cases hx : x = r
    · rw [hx, hself] at hb
      exact .inl ⟨hx, (RbCell.live.inj hb).symm⟩
    · rw [hother x hx] at hb
      exact .inr ⟨hx, hb⟩
  constructor
  · constructor
    · intro c x hx
      have hold : ∀ y ∈ s.bundlesOf c, ∃ b, s'.routed y = .live b ∧ c ∈ b.contacts := by
        intro y hy
        rw [hother y fun hyr => hnone c (hyr ▸ hy)]
        exact h.consistent.listed c y hy
      rw [hbundles] at hx
      by_cases hc : c ∈ rb.contacts
      · rw [if_pos hc] at hx
        rcases List.mem_append.mp hx with hmem | hmem
        · exact hold x hmem
        · rw [List.mem_singleton.mp hmem]
          exact ⟨rb, hself, hc⟩
      · rw [if_neg hc] at hx
        exact hold x hx
    · intro c
      rw [hbundles]
      split
      · exact List.nodup_append'.mpr ⟨h.consistent.nodup c, List.nodup_singleton r,
          fun x hx hxr => hnone c (List.mem_singleton.mp hxr ▸ hx)⟩
      · exact h.consistent.nodup c
    · intro x y b b' hb hb' hbid
      rcases hlive x b hb with ⟨rfl, rfl⟩ | ⟨hx, hb⟩
      · rcases hlive y b' hb' with ⟨rfl, rfl⟩ | ⟨hy, hb'⟩
        · rfl
        · exact absurd hbid.symm (hid y b' hy hb')
      · rcases hlive y b' hb' with ⟨rfl, rfl⟩ | ⟨hy, hb'⟩
        · exact absurd hbid (hid x b hx hb)
        · exact h.consistent.ids x y b b' hb hb' hbid
    · intro x b hb
      rcases hlive x b hb with ⟨rfl, rfl⟩ | ⟨hx, hb⟩
      · exact hcount
      · exact h.consistent.count x b hb
    · intro c hc
      have hnot : c ∉ rb.contacts := by
        intro hmem
        rw [hlists, if_pos hmem] at hc
        have hfalse : (s.contacts c).hasNode = false := hc
        rw [hnode c hmem] at hfalse
        cases hfalse
      rw [hlists, if_neg hnot] at hc
      rw [hbundles, if_neg hnot]
      exact h.consistent.nodeless c hc
  · intro x hx
    by_cases hxr : x = r
    · exact ⟨rb, hxr ▸ hself⟩
    · rw [hhanded] at hx
      rw [hother x hxr]
      exact h.handed x hx

/-! ## The removals -/

theorem Rescheduled.sound {queue : QueueIdentifier} {own : List ContactPtr} {rs : List RbPtr}
    (h : Rescheduled queue own s rs s') (hs : s.Sound) (hs' : s'.Consistent)
    (hhanded : ∀ r ∈ rs, r ∉ s.handed) : s'.Sound where
  consistent := hs'
  handed r hr := by
    rw [h.handed] at hr
    rw [h.routed, if_neg fun hmem => hhanded r hmem hr]
    exact hs.handed r hr

theorem Sound.unroute (h : s.Sound) (hlive : s.routed r = .live rb) (hmem : r ∈ s.bundlesOf c)
    (hhanded : r ∉ s.handed)
    (hremove : s.routerRemoveBundleFromRoute rb.contacts rb.id true = .ok s') : s'.Sound := by
  rw [routerRemoveBundleFromRoute_of_live h.consistent hlive hmem] at hremove
  cases hremove
  have hresched : Rescheduled .bundleProcessor [] s [r]
      ((s.removed r rb).bundleProcessorInform .bundleProcessor rb.id) :=
    rescheduled_removed h.consistent hlive
  have hcons := hresched.consistent h.consistent fun x hx =>
    .inl ((hasNode_removed s r rb x).symm.trans hx)
  have hsound := hresched.sound h hcons fun x hx => List.mem_singleton.mp hx ▸ hhanded
  exact ⟨⟨hsound.consistent.listed, hsound.consistent.nodup, hsound.consistent.ids,
    hsound.consistent.count, hsound.consistent.nodeless⟩, hsound.handed⟩

/-- Without a bundle, it does not matter which queue is signalled. -/
theorem Rescheduled.of_nil {queue : QueueIdentifier} {own : List ContactPtr}
    (h : Rescheduled queue own s [] s') (queue' : QueueIdentifier) :
    Rescheduled queue' own s [] s' :=
  ⟨h.nodup, h.live, h.informed, h.routed, h.handed, h.bundles, h.remaining⟩

theorem dropContacts_signalledOnce (hs : s.Sound) (cs : List (ContactPtr × Bool))
    (hhanded : ∀ c ∈ cs.map Prod.fst, ∀ r ∈ s.bundlesOf c, r ∉ s.handed) :
    ∃ s', dropContacts .bundleProcessor s cs = .ok s' ∧
      SignalledOnce (cs.map Prod.fst) s s' ∧ s'.Sound := by
  obtain ⟨rs, s', hrun, hresched, hs', hiff⟩ :=
    dropContacts_spec .bundleProcessor cs hs.consistent
  have hsound : s'.Sound := hresched.sound hs hs' fun r hr => by
    obtain ⟨c, hc, hmem⟩ := (hiff r).mp hr
    exact hhanded c hc r hmem
  exact ⟨s', hrun, ⟨rs, hiff, hresched.mono _, hsound.noneFreed⟩, hsound⟩

theorem withdrawn_signalledOnce (hs : s.Sound) (cs : List (ContactPtr × Bool))
    (hempty : ∀ c ∈ cs.map Prod.fst, s.bundlesOf c = []) :
    ∃ s', dropContacts .router s cs = .ok s' ∧
      SignalledOnce (cs.map Prod.fst) s s' ∧ s'.Sound := by
  obtain ⟨rs, s', hrun, hresched, hs', hiff⟩ := dropContacts_spec .router cs hs.consistent
  have hnil : rs = [] := by
    refine List.eq_nil_iff_forall_not_mem.mpr fun r hr => ?_
    obtain ⟨c, hc, hmem⟩ := (hiff r).mp hr
    rw [hempty c hc] at hmem
    cases hmem
  subst hnil
  have hsound : s'.Sound := hresched.sound hs hs' fun r hr => by cases hr
  exact ⟨s', hrun, ⟨[], hiff, (hresched.of_nil .bundleProcessor).mono _, hsound.noneFreed⟩, hsound⟩

theorem passed_signalledOnce (hs : s.Sound) (c : ContactPtr)
    (hhanded : ∀ r ∈ s.bundlesOf c, r ∉ s.handed)
    (hown : ∀ r ∈ s.bundlesOf c, ∀ x, x ≠ c → r ∉ s.bundlesOf x) :
    ∃ s', s.routingTableContactPassed c = .ok s' ∧ SignalledOnce [c] s s' ∧ s'.Sound := by
  obtain ⟨s', hrun, hhanded', hinformed, hrouted, hempty, hnode, hothers⟩ :=
    routingTableContactPassed_spec hs.consistent c
  have hbundles : ∀ x, s'.bundlesOf x = (s.bundlesOf x).filter (· ∉ s.bundlesOf c) := by
    intro x
    by_cases hx : x = c
    · rw [hx, hempty]
      refine (List.filter_eq_nil_iff.mpr fun r hr => ?_).symm
      simp [hr]
    · have hsame : s'.bundlesOf x = s.bundlesOf x := congrArg Contact.contactBundles (hothers x hx)
      rw [hsame]
      refine (List.filter_eq_self.mpr fun r hr => ?_).symm
      have hnot : r ∉ s.bundlesOf c := fun hmem => hown r hmem x hx hr
      exact decide_eq_true hnot
  have hresched : Rescheduled .bundleProcessor [c] s (s.bundlesOf c) s' := by
    refine ⟨hs.consistent.nodup c, fun r hr => ?_, hinformed, hrouted, hhanded', hbundles,
      fun x hx level => ?_⟩
    · obtain ⟨rb, hrb, -⟩ := hs.consistent.listed c r hr
      exact ⟨rb, hrb⟩
    · have hxc : x ≠ c := fun h => hx (List.mem_singleton.mpr h)
      have hnone : (s.bundlesOf x).filter (· ∈ s.bundlesOf c) = [] := by
        refine List.filter_eq_nil_iff.mpr fun r hr hmem => ?_
        exact hown r (of_decide_eq_true hmem) x hxc hr
      rw [hnone, hothers x hxc, List.map_nil, List.sum_nil, Int.add_zero]
  have hs' : s'.Consistent := hresched.consistent hs.consistent fun x hx => by
    by_cases hxc : x = c
    · rw [hxc, hnode] at hx
      exact .inl (hxc ▸ hx)
    · rw [hothers x hxc] at hx
      exact .inl hx
  have hsound : s'.Sound := hresched.sound hs hs' hhanded
  refine ⟨s', hrun, ⟨s.bundlesOf c, fun r => ?_, hresched, hsound.noneFreed⟩, hsound⟩
  simp only [List.mem_singleton, exists_eq_left]

end RoutingState

open RoutingState

variable {s s' : RoutingState}

/-- A removal that meets the condition does what it is to do. -/
theorem Removal.perform_of_fits (hs : s.Sound) (removal : Removal) (hfits : removal.Fits s) :
    ∃ s', removal.perform s = .ok s' ∧ SignalledOnce removal.affected s s' ∧ s'.Sound := by
  obtain ⟨hhanded, hcond⟩ := hfits
  cases removal with
  | passed c =>
    exact passed_signalledOnce hs c (hhanded c List.mem_cons_self) hcond
  | replaced contacts => exact dropContacts_signalledOnce hs contacts hhanded
  | deleted contacts => exact dropContacts_signalledOnce hs contacts hhanded
  | withdrawn contacts => exact withdrawn_signalledOnce hs contacts hcond
  | changed modifiedContacts deletedContacts =>
    have hfst : ((modifiedContacts ++ deletedContacts).map fun c => (c, false)).map Prod.fst =
        modifiedContacts ++ deletedContacts := by
      rw [List.map_map]
      exact List.map_id _
    have hdrop := dropContacts_signalledOnce hs
      ((modifiedContacts ++ deletedContacts).map fun c => (c, false)) (by rwa [hfst])
    rw [hfst, ← rescheduleAll_eq] at hdrop
    exact hdrop

theorem Step.sound (hs : s.Sound) (hstep : Step s s') : s'.Sound := by
  cases hstep with
  | contact c k hbundles hnode => exact hs.setContact c k hbundles hnode
  | route r rb hnew hid hcontacts hcount hnode hadd =>
    exact hs.route hnew hid hcontacts hcount hnode hadd
  | unlist r rb hlive => exact hs.unlist r rb rb.contacts
  | unroute r rb hlive hmem hhanded hremove => exact hs.unroute hlive hmem hhanded hremove
  | handOver c => exact hs.handOver c
  | finish r hlist => exact hs.finish hlist
  | remove removal hfits hperform =>
    obtain ⟨s'', hrun, -, hs''⟩ := removal.perform_of_fits hs hfits
    rw [hrun] at hperform
    cases hperform
    exact hs''

theorem Reachable.sound (h : Reachable s) : s.Sound := by
  induction h with
  | refl => exact sound_initial
  | tail _ hstep ih => exact hstep.sound ih

/-- A bundle that stays handed over is not freed. -/
theorem handed_of_signalledOnce {affected : List ContactPtr} (h : SignalledOnce affected s s') :
    ∀ c ∈ affected, ∀ r ∈ s.bundlesOf c, r ∉ s.handed := by
  obtain ⟨rs, hiff, hresched, -, hnone⟩ := h
  intro c hc r hr hhanded
  have hmem : r ∈ rs := (hiff r).mpr ⟨c, hc, hr⟩
  refine hnone r (hresched.handed ▸ hhanded) ?_
  rw [hresched.routed, if_pos hmem]

/-- In every reachable state, a removal signals the bundles of its contacts once each and
removes them everywhere exactly when none of them is handed over to a transmit task, and
besides a contact that is over shares none with another contact, and a withdrawn node has
none. -/
theorem removal_iff {s : RoutingState} (hs : Reachable s) (removal : Removal) :
    (∃ s', removal.perform s = .ok s' ∧ SignalledOnce removal.affected s s') ↔
      removal.Fits s := by
  constructor
  · rintro ⟨s', hperform, hsignalled⟩
    refine ⟨handed_of_signalledOnce hsignalled, ?_⟩
    obtain ⟨rs, hiff, hresched, hnone, -⟩ := hsignalled
    cases removal with
    | passed c =>
      intro r hr x hx hshared
      obtain ⟨s'', hrun, -, -, -, -, -, hothers⟩ :=
        routingTableContactPassed_spec hs.sound.consistent c
      have hperform' : s.routingTableContactPassed c = .ok s' := hperform
      rw [hrun] at hperform'
      cases hperform'
      -- the list of the other contact is left as it is
      have hlisted : r ∈ s'.bundlesOf x := by
        unfold bundlesOf
        rw [hothers x hx]
        exact hshared
      refine hnone x r hlisted ?_
      rw [hresched.routed, if_pos ((hiff r).mpr ⟨c, List.mem_cons_self, hr⟩)]
    | withdrawn contacts =>
      obtain ⟨rs', s'', hrun, hrouter, -, hiff'⟩ :=
        dropContacts_spec .router contacts hs.sound.consistent
      have hperform' : s.dropContacts .router contacts = .ok s' := hperform
      rw [hrun] at hperform'
      cases hperform'
      intro c hc
      refine List.eq_nil_iff_forall_not_mem.mpr fun r hr => ?_
      have hsame := List.append_cancel_left (hresched.informed.symm.trans hrouter.informed)
      have hmem : (QueueIdentifier.bundleProcessor, s.idOf r) ∈
          rs.map fun r => (QueueIdentifier.bundleProcessor, s.idOf r) :=
        List.mem_map.mpr ⟨r, (hiff r).mpr ⟨c, hc, hr⟩, rfl⟩
      rw [hsame] at hmem
      obtain ⟨x, -, hx⟩ := List.mem_map.mp hmem
      cases (Prod.mk.inj hx).1
    | replaced contacts => trivial
    | deleted contacts => trivial
    | changed modifiedContacts deletedContacts => trivial
  · intro hfits
    obtain ⟨s', hperform, hsignalled, -⟩ := removal.perform_of_fits hs.sound hfits
    exact ⟨s', hperform, hsignalled⟩

/-! ## Two contacts with one bundle -/

/-- A contact with a capacity of ten bytes. -/
def tenBytes : Contact := ⟨true, [], 0, fun _ => 10⟩

/-- A bundle of four bytes on two contacts. -/
def onBoth : RoutedBundle := ⟨7, .low, 4, [0, 1]⟩

/-- The state with the two contacts. -/
def twoContacts : RoutingState := (initial.setContact 0 tenBytes).setContact 1 tenBytes

/-- The state in which the two contacts have the bundle. -/
def bothQueued : RoutingState :=
  match twoContacts.routerUpdateRoutedBundle 1 onBoth with
  | .ok s => s
  | .error _ => twoContacts

theorem reachable_bothQueued : Reachable bothQueued := by
  have hfirst : Step initial (initial.setContact 0 tenBytes) :=
    .contact 0 tenBytes (List.Perm.refl _) fun h => by cases h
  have hsecond : Step (initial.setContact 0 tenBytes) twoContacts :=
    .contact 1 tenBytes (List.Perm.refl _) fun h => by cases h
  have hroute : Step twoContacts bothQueued :=
    .route 1 onBoth (.inl rfl) (fun x b _ hb => by cases hb) (by decide) (by decide) (by decide)
      rfl
  exact ((ReflTransGen.single hfirst).tail hsecond).tail hroute

/-- The node of the first contact is deleted. -/
theorem removal_iff_bothQueued :
    (∃ s', (Removal.deleted [(0, false)]).perform bothQueued = .ok s' ∧
      SignalledOnce [0] bothQueued s') ↔ (Removal.deleted [(0, false)]).Fits bothQueued :=
  removal_iff reachable_bothQueued (.deleted [(0, false)])

/-- When the first contact is over, the second one keeps the freed bundle. -/
theorem passed_bothQueued :
    Reachable bothQueued ∧ ∃ s', (Removal.passed 0).perform bothQueued = .ok s' ∧
      1 ∈ bothQueued.bundlesOf 0 ∧ 1 ∈ s'.bundlesOf 1 ∧ s'.routed 1 = .freed ∧
      ¬SignalledOnce [0] bothQueued s' := by
  refine ⟨reachable_bothQueued, _, rfl, by decide, by decide, rfl, ?_⟩
  rintro ⟨rs, -, -, hnone, -⟩
  exact hnone 1 1 (by decide) rfl

end Upcn.Queueing
