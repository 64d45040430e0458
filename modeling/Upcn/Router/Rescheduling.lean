import Mathlib.Data.List.Nodup
import Upcn.Router.Queueing

/-!
# Rescheduling

What `reschedule_bundles` and `routing_table_contact_passed` do to the queues.

`Consistent` is what the queues keep: a listed bundle is not freed and names the contact.
From it a single removal is computed (`routerRemoveBundleFromRoute_of_live`), and the loop
is a sequence of them (`Rescheduled.trans`).
-/

namespace Upcn.Queueing

open Outcome

namespace RoutingState

variable {s s' : RoutingState} {c : ContactPtr} {r : RbPtr} {rb : RoutedBundle}
  {queue : QueueIdentifier}

/-- The bundles of a contact. -/
abbrev bundlesOf (s : RoutingState) (c : ContactPtr) : List RbPtr :=
  (s.contacts c).contactBundles

/-- A listed bundle is not freed and names the contact. -/
structure Consistent (s : RoutingState) : Prop where
  listed : ∀ c, ∀ r ∈ s.bundlesOf c, ∃ rb, s.routed r = .live rb ∧ c ∈ rb.contacts
  nodup : ∀ c, (s.bundlesOf c).Nodup
  ids : ∀ r r' rb rb', s.routed r = .live rb → s.routed r' = .live rb' → rb.id = rb'.id →
    r = r'
  count : ∀ r rb, s.routed r = .live rb → rb.contacts.length ≤ routerMaxContacts
  nodeless : ∀ c, (s.contacts c).hasNode = false → s.bundlesOf c = []

/-! ## One bundle -/

/-- The bundle is in none of these lists any more. -/
def withdrawFrom (s : RoutingState) (r : RbPtr) (rb : RoutedBundle) (cs : List ContactPtr) :
    RoutingState :=
  { s with
    contacts := fun c =>
      if c ∈ cs ∧ r ∈ s.bundlesOf c then (s.contacts c).withdraw r rb else s.contacts c }

/-- The bundle is removed from its contacts and freed. -/
def removed (s : RoutingState) (r : RbPtr) (rb : RoutedBundle) : RoutingState :=
  { s.withdrawFrom r rb rb.contacts with routed := Function.update s.routed r .freed }

theorem load_of_live (h : s.routed r = .live rb) : s.load r = .ok rb := by
  rw [load, h]

theorem findBundle_of_live (hr : s.routed r = .live rb) {list : List RbPtr}
    (hlive : ∀ x ∈ list, ∃ b, s.routed x = .live b ∧ (b.id = rb.id → x = r)) :
    s.findBundle rb.id list = .ok (if r ∈ list then some (r, rb) else none) := by
  induction list with
  | nil => rfl
  | cons x rest ih =>
    obtain ⟨b, hb, hid⟩ := hlive x List.mem_cons_self
    rw [findBundle, load_of_live hb, ok_bind]
    by_cases heq : b.id = rb.id
    · have hx : x = r := hid heq
      subst hx
      have hbr : b = rb := by
        rw [hr] at hb
        exact (RbCell.live.inj hb).symm
      rw [if_pos heq, if_pos List.mem_cons_self, hbr]
      rfl
    · rw [if_neg heq, ih fun y hy => hlive y (List.mem_cons_of_mem x hy)]
      have hne : r ≠ x := by
        intro hrx
        subst hrx
        rw [hr] at hb
        exact heq (congrArg RoutedBundle.id (RbCell.live.inj hb).symm)
      simp only [List.mem_cons, hne, false_or]

theorem bundlesOf_withdrawFrom (s : RoutingState) (cs : List ContactPtr) (c : ContactPtr) :
    (s.withdrawFrom r rb cs).bundlesOf c =
      if c ∈ cs then (s.bundlesOf c).erase r else s.bundlesOf c := by
  show (if c ∈ cs ∧ r ∈ s.bundlesOf c then (s.contacts c).withdraw r rb
    else s.contacts c).contactBundles = _
  by_cases hc : c ∈ cs
  · by_cases hr : r ∈ s.bundlesOf c
    · rw [if_pos ⟨hc, hr⟩, if_pos hc]
      rfl
    · rw [if_neg fun h => hr h.2, if_pos hc, List.erase_of_not_mem hr]
  · rw [if_neg fun h => hc h.1, if_neg hc]

/-- One more contact is searched for the bundle. -/
theorem routerRemoveBundleFromContact_withdrawFrom (hs : s.Consistent)
    (hr : s.routed r = .live rb) (done : List ContactPtr) (c : ContactPtr) :
    (s.withdrawFrom r rb done).routerRemoveBundleFromContact c rb.id =
      .ok (if c ∉ done ∧ r ∈ s.bundlesOf c then some r else none,
        s.withdrawFrom r rb (done ++ [c])) := by
  have hfind : (s.withdrawFrom r rb done).findBundle rb.id
      ((s.withdrawFrom r rb done).bundlesOf c) =
      .ok (if r ∈ (s.withdrawFrom r rb done).bundlesOf c then some (r, rb) else none) := by
    refine findBundle_of_live (s := s.withdrawFrom r rb done) hr fun x hx => ?_
    have hmem : x ∈ s.bundlesOf c := by
      rw [bundlesOf_withdrawFrom] at hx
      split at hx
      · exact List.mem_of_mem_erase hx
      · exact hx
    obtain ⟨b, hb, -⟩ := hs.listed c x hmem
    exact ⟨b, hb, fun hid => hs.ids x r b rb hb hr hid⟩
  have hmem : r ∈ (s.withdrawFrom r rb done).bundlesOf c ↔ c ∉ done ∧ r ∈ s.bundlesOf c := by
    rw [bundlesOf_withdrawFrom]
    by_cases hc : c ∈ done
    · rw [if_pos hc]
      exact iff_of_false (hs.nodup c).not_mem_erase fun h => h.1 hc
    · rw [if_neg hc]
      exact (and_iff_right hc).symm
  unfold routerRemoveBundleFromContact
  rw [hfind, ok_bind]
  by_cases hcond : c ∉ done ∧ r ∈ s.bundlesOf c
  · rw [if_pos (hmem.mpr hcond), if_pos hcond]
    have hcontact : (s.withdrawFrom r rb done).contacts c = s.contacts c :=
      if_neg fun h => hcond.1 h.1
    show Except.ok (some r, _) = _
    rw [hcontact]
    refine congrArg (fun t => Except.ok (some r, t)) ?_
    unfold setContact withdrawFrom
    congr 1
    funext x
    by_cases hx : x = c
    · subst hx
      rw [Function.update_self, if_pos ⟨List.mem_append_right done List.mem_cons_self, hcond.2⟩]
    · rw [Function.update_of_ne hx]
      simp only [List.mem_append, List.mem_singleton, hx, or_false]
  · rw [if_neg fun h => hcond (hmem.mp h), if_neg hcond]
    refine congrArg (fun t => Except.ok (none, t)) ?_
    unfold withdrawFrom
    congr 1
    funext x
    by_cases hx : x = c
    · subst hx
      have hiff : (x ∈ done ∧ r ∈ s.bundlesOf x) ↔ (x ∈ done ++ [x] ∧ r ∈ s.bundlesOf x) := by
        refine ⟨fun h => ⟨List.mem_append_left _ h.1, h.2⟩, fun h => ⟨?_, h.2⟩⟩
        by_contra hnot
        exact hcond ⟨hnot, h.2⟩
      simp only [hiff]
    · simp only [List.mem_append, List.mem_singleton, hx, or_false]

theorem removeFromContacts_withdrawFrom (hs : s.Consistent) (hr : s.routed r = .live rb)
    (cs done : List ContactPtr) (found : Option RbPtr) (hfound : found = none ∨ found = some r) :
    ∃ found', removeFromContacts rb.id (s.withdrawFrom r rb done) found cs =
        .ok (found', s.withdrawFrom r rb (done ++ cs)) ∧
      (found' = none ∨ found' = some r) ∧
      (found = some r ∨ (∃ c ∈ cs, c ∉ done ∧ r ∈ s.bundlesOf c) → found' = some r) := by
  induction cs generalizing done found with
  | nil =>
    refine ⟨found, by rw [removeFromContacts, List.append_nil], hfound, ?_⟩
    intro h
    rcases h with h | ⟨c, hc, -⟩
    · exact h
    · cases hc
  | cons c rest ih =>
    rw [removeFromContacts, routerRemoveBundleFromContact_withdrawFrom hs hr, ok_bind]
    dsimp only
    by_cases hcond : c ∉ done ∧ r ∈ s.bundlesOf c
    · rw [if_pos hcond]
      obtain ⟨found', hrun, hsome, himp⟩ := ih (done ++ [c]) (some r) (.inr rfl)
      rw [List.append_assoc] at hrun
      exact ⟨found', hrun, hsome, fun _ => himp (.inl rfl)⟩
    · rw [if_neg hcond]
      obtain ⟨found', hrun, hsome, himp⟩ := ih (done ++ [c]) found hfound
      rw [List.append_assoc] at hrun
      refine ⟨found', hrun, hsome, fun h => himp ?_⟩
      rcases h with h | ⟨x, hx, hnot, hmem⟩
      · exact .inl h
      · rcases List.mem_cons.mp hx with rfl | hrest
        · exact absurd ⟨hnot, hmem⟩ hcond
        · refine .inr ⟨x, hrest, ?_, hmem⟩
          intro hdone
          rcases List.mem_append.mp hdone with h | h
          · exact hnot h
          · rw [List.mem_singleton.mp h] at hnot hmem
            exact hcond ⟨hnot, hmem⟩

theorem withdrawFrom_nil (s : RoutingState) (r : RbPtr) (rb : RoutedBundle) :
    s.withdrawFrom r rb [] = s := by
  unfold withdrawFrom
  simp only [List.not_mem_nil, false_and, if_false]

/-- A listed bundle is removed from all its contacts and freed. -/
theorem routerRemoveBundleFromRoute_of_live (hs : s.Consistent) (hr : s.routed r = .live rb)
    (hmem : r ∈ s.bundlesOf c) :
    s.routerRemoveBundleFromRoute rb.contacts rb.id true = .ok (s.removed r rb) := by
  obtain ⟨found, hrun, -, himp⟩ :=
    removeFromContacts_withdrawFrom hs hr rb.contacts [] none (.inl rfl)
  obtain ⟨b, hb, hc⟩ := hs.listed c r hmem
  have hbr : b = rb := RbCell.live.inj (hb.symm.trans hr)
  have hfound : found = some r :=
    himp (.inr ⟨c, hbr ▸ hc, List.not_mem_nil, hmem⟩)
  rw [withdrawFrom_nil, List.nil_append, hfound] at hrun
  unfold routerRemoveBundleFromRoute
  rw [hrun, ok_bind]
  show (s.withdrawFrom r rb rb.contacts).free r = _
  unfold free
  rw [load_of_live (s := s.withdrawFrom r rb rb.contacts) hr, ok_bind]
  rfl

/-! ## Removed bundles -/

/-- The id of a live bundle. -/
def idOf (s : RoutingState) (r : RbPtr) : Nat :=
  match s.routed r with
  | .live rb => rb.id
  | _ => 0

/-- What a live bundle takes of the capacity at a level. -/
def loadOf (s : RoutingState) (level : Priority) (r : RbPtr) : Int :=
  match s.routed r with
  | .live rb => rb.load level
  | _ => 0

theorem idOf_of_live (h : s.routed r = .live rb) : s.idOf r = rb.id := by
  rw [idOf, h]

theorem loadOf_of_live (h : s.routed r = .live rb) (level : Priority) :
    s.loadOf level r = rb.load level := by
  rw [loadOf, h]

/-- The bundles `rs` are signalled once each in this order, removed from every contact and
freed, and the capacities of all contacts but `own` are restored. -/
structure Rescheduled (queue : QueueIdentifier) (own : List ContactPtr) (s : RoutingState)
    (rs : List RbPtr) (s' : RoutingState) : Prop where
  nodup : rs.Nodup
  live : ∀ r ∈ rs, ∃ rb, s.routed r = .live rb
  informed : s'.informed = s.informed ++ rs.map fun r => (queue, s.idOf r)
  routed : ∀ r, s'.routed r = if r ∈ rs then .freed else s.routed r
  handed : s'.handed = s.handed
  bundles : ∀ c, s'.bundlesOf c = (s.bundlesOf c).filter (· ∉ rs)
  remaining : ∀ c ∉ own, ∀ level, (s'.contacts c).remaining level =
    (s.contacts c).remaining level + (((s.bundlesOf c).filter (· ∈ rs)).map (s.loadOf level)).sum

theorem Rescheduled.refl (queue : QueueIdentifier) (own : List ContactPtr) (s : RoutingState) :
    Rescheduled queue own s [] s where
  nodup := List.nodup_nil
  live r hr := by cases hr
  informed := (List.append_nil _).symm
  routed r := (if_neg List.not_mem_nil).symm
  handed := rfl
  bundles c := (List.filter_eq_self.mpr fun r _ => by simp).symm
  remaining c _ level := by
    have hnone : (s.bundlesOf c).filter (· ∈ ([] : List RbPtr)) = [] := by
      rw [List.filter_eq_nil_iff]
      simp
    rw [hnone, List.map_nil, List.sum_nil, Int.add_zero]

theorem sum_filter_append (f g : RbPtr → Int) (rs rs' list : List RbPtr)
    (hfg : ∀ r, r ∉ rs → g r = f r) (hdisjoint : ∀ r ∈ rs, r ∉ rs') :
    ((list.filter (· ∈ rs)).map f).sum +
        (((list.filter (· ∉ rs)).filter (· ∈ rs')).map g).sum =
      ((list.filter (· ∈ rs ++ rs')).map f).sum := by
  induction list with
  | nil => rfl
  | cons x list ih =>
    by_cases hx : x ∈ rs
    · have hx' := hdisjoint x hx
      simp only [List.filter_cons, hx, decide_true, if_true, List.map_cons, List.sum_cons,
        not_true, decide_false, Bool.false_eq_true, if_false, List.mem_append, true_or]
      simp only [List.mem_append] at ih
      omega
    · by_cases hx' : x ∈ rs'
      · simp only [List.filter_cons, hx, hx', decide_true, if_true, List.map_cons, List.sum_cons,
          not_false_eq_true, decide_false, Bool.false_eq_true, if_false, List.mem_append, or_true,
          hfg x hx]
        simp only [List.mem_append] at ih
        omega
      · simp only [List.filter_cons, hx, hx', decide_true, if_true,
          not_false_eq_true, decide_false, Bool.false_eq_true, if_false, List.mem_append, or_self]
        simp only [List.mem_append] at ih
        exact ih

theorem Rescheduled.trans {own : List ContactPtr} {rs rs' : List RbPtr} {s₁ s₂ : RoutingState}
    (h : Rescheduled queue own s rs s₁) (h' : Rescheduled queue own s₁ rs' s₂) :
    Rescheduled queue own s (rs ++ rs') s₂ := by
  have hrouted : ∀ r, r ∉ rs → s₁.routed r = s.routed r := fun r hr => by
    rw [h.routed, if_neg hr]
  have hlater : ∀ r ∈ rs', r ∉ rs := by
    intro r hr' hr
    obtain ⟨rb, hrb⟩ := h'.live r hr'
    rw [h.routed, if_pos hr] at hrb
    cases hrb
  have hload : ∀ level r, r ∉ rs → s₁.loadOf level r = s.loadOf level r := by
    intro level r hr
    unfold loadOf
    rw [hrouted r hr]
  refine ⟨List.nodup_append'.mpr ⟨h.nodup, h'.nodup, fun r hr hr' => hlater r hr' hr⟩,
    ?_, ?_, ?_, h'.handed.trans h.handed, ?_, ?_⟩
  · intro r hr
    rcases List.mem_append.mp hr with hrs | hrs'
    · exact h.live r hrs
    · obtain ⟨rb, hrb⟩ := h'.live r hrs'
      exact ⟨rb, (hrouted r (hlater r hrs')).symm.trans hrb⟩
  · have hids : (rs'.map fun r => (queue, s₁.idOf r)) = rs'.map fun r => (queue, s.idOf r) := by
      refine List.map_congr_left fun r hr => ?_
      unfold idOf
      rw [hrouted r (hlater r hr)]
    rw [h'.informed, h.informed, hids, List.map_append, List.append_assoc]
  · intro r
    rw [h'.routed, h.routed]
    by_cases hr' : r ∈ rs'
    · rw [if_pos hr', if_pos (List.mem_append_right rs hr')]
    · rw [if_neg hr']
      simp only [List.mem_append, hr', or_false]
  · intro c
    rw [h'.bundles, h.bundles, List.filter_filter]
    refine List.filter_congr fun r _ => ?_
    by_cases hr : r ∈ rs
    · simp [hr]
    · simp [hr]
  · intro c hc level
    rw [h'.remaining c hc, h.remaining c hc, h.bundles c, Int.add_assoc,
      sum_filter_append (s.loadOf level) (s₁.loadOf level) rs rs' _ (hload level)
        fun r hr hr' => hlater r hr' hr]

/-- What is known of all contacts is known of the others. -/
theorem Rescheduled.mono {rs : List RbPtr} (h : Rescheduled queue [] s rs s')
    (own : List ContactPtr) : Rescheduled queue own s rs s' :=
  ⟨h.nodup, h.live, h.informed, h.routed, h.handed, h.bundles, fun c _ => h.remaining c List.not_mem_nil⟩

/-- A consistent state stays consistent. -/
theorem Rescheduled.consistent {own : List ContactPtr} {rs : List RbPtr}
    (h : Rescheduled queue own s rs s') (hs : s.Consistent)
    (hnode : ∀ c, (s'.contacts c).hasNode = false →
      (s.contacts c).hasNode = false ∨ s'.bundlesOf c = []) : s'.Consistent := by
  have hlive : ∀ r rb, s'.routed r = .live rb → r ∉ rs ∧ s.routed r = .live rb := by
    intro r rb hrb
    rw [h.routed] at hrb
    by_cases hr : r ∈ rs
    · rw [if_pos hr] at hrb
      cases hrb
    · rw [if_neg hr] at hrb
      exact ⟨hr, hrb⟩
  constructor
  · intro c r hr
    rw [h.bundles, List.mem_filter] at hr
    obtain ⟨rb, hrb, hc⟩ := hs.listed c r hr.1
    exact ⟨rb, by rw [h.routed, if_neg (of_decide_eq_true hr.2), hrb], hc⟩
  · intro c
    rw [h.bundles]
    exact (hs.nodup c).filter _
  · intro r r' rb rb' hr hr' hid
    exact hs.ids r r' rb rb' (hlive r rb hr).2 (hlive r' rb' hr').2 hid
  · intro r rb hr
    exact hs.count r rb (hlive r rb hr).2
  · intro c hc
    rcases hnode c hc with hnone | hempty
    · rw [h.bundles, hs.nodeless c hnone]
      rfl
    · exact hempty

/-! ## Rescheduling a contact -/

theorem bundlesOf_removed (hs : s.Consistent) (hr : s.routed r = .live rb) (c : ContactPtr) :
    (s.removed r rb).bundlesOf c = (s.bundlesOf c).filter (· ∉ [r]) := by
  have herase : (s.bundlesOf c).erase r = (s.bundlesOf c).filter (· ∉ [r]) := by
    rw [(hs.nodup c).erase_eq_filter]
    refine List.filter_congr fun x _ => ?_
    by_cases hx : x = r
    · simp [hx]
    · simp [hx]
  show (s.withdrawFrom r rb rb.contacts).bundlesOf c = _
  rw [bundlesOf_withdrawFrom, ← herase]
  by_cases hc : c ∈ rb.contacts
  · rw [if_pos hc]
  · rw [if_neg hc]
    refine (List.erase_of_not_mem fun hmem => hc ?_).symm
    obtain ⟨b, hb, hbc⟩ := hs.listed c r hmem
    rw [hr] at hb
    exact RbCell.live.inj hb ▸ hbc

theorem filter_mem_singleton {list : List RbPtr} (h : list.Nodup) (r : RbPtr) :
    list.filter (· ∈ [r]) = if r ∈ list then [r] else [] := by
  induction list with
  | nil => rfl
  | cons x list ih =>
    obtain ⟨hx, hlist⟩ := List.nodup_cons.mp h
    rw [List.filter_cons]
    by_cases heq : x = r
    · rw [if_pos (by simp [heq]), ih hlist, ← heq, if_neg hx, if_pos List.mem_cons_self]
    · rw [if_neg (by simp [heq]), ih hlist]
      have hne : r ≠ x := fun h => heq h.symm
      simp only [List.mem_cons, hne, false_or]

theorem remaining_removed (hs : s.Consistent) (hr : s.routed r = .live rb) (c : ContactPtr)
    (level : Priority) :
    ((s.removed r rb).contacts c).remaining level = (s.contacts c).remaining level +
      (((s.bundlesOf c).filter (· ∈ [r])).map (s.loadOf level)).sum := by
  rw [filter_mem_singleton (hs.nodup c)]
  show (if c ∈ rb.contacts ∧ r ∈ s.bundlesOf c then (s.contacts c).withdraw r rb
    else s.contacts c).remaining level = _
  by_cases hmem : r ∈ s.bundlesOf c
  · obtain ⟨b, hb, hc⟩ := hs.listed c r hmem
    rw [hr] at hb
    rw [if_pos ⟨RbCell.live.inj hb ▸ hc, hmem⟩, if_pos hmem, List.map_singleton,
      List.sum_singleton, loadOf_of_live hr]
    rfl
  · rw [if_neg fun h => hmem h.2, if_neg hmem, List.map_nil, List.sum_nil, Int.add_zero]

/-- A turn of `reschedule_bundles`. -/
theorem rescheduled_removed (hs : s.Consistent) (hr : s.routed r = .live rb) :
    Rescheduled queue [] s [r] ((s.removed r rb).bundleProcessorInform queue rb.id) where
  nodup := List.nodup_singleton r
  live x hx := by
    rw [List.mem_singleton.mp hx]
    exact ⟨rb, hr⟩
  informed := by
    rw [List.map_singleton, idOf_of_live hr]
    rfl
  routed x := by
    show Function.update s.routed r .freed x = _
    by_cases hx : x = r
    · rw [hx, Function.update_self, if_pos List.mem_cons_self]
    · rw [Function.update_of_ne hx, if_neg fun h => hx (List.mem_singleton.mp h)]
  handed := rfl
  bundles c := bundlesOf_removed hs hr c
  remaining c _ level := remaining_removed hs hr c level

theorem hasNode_removed (s : RoutingState) (r : RbPtr) (rb : RoutedBundle) (c : ContactPtr) :
    ((s.removed r rb).contacts c).hasNode = (s.contacts c).hasNode := by
  show (if c ∈ rb.contacts ∧ r ∈ s.bundlesOf c then (s.contacts c).withdraw r rb
    else s.contacts c).hasNode = _
  split <;> rfl

/-- The loop of `reschedule_bundles` ends with the list of the contact empty. -/
theorem rescheduleBundles_spec (queue : QueueIdentifier) (c : ContactPtr) (hs : s.Consistent)
    {turns : Nat} (hturns : (s.bundlesOf c).length < turns) :
    ∃ s', rescheduleBundles queue c turns s = .ok s' ∧
      Rescheduled queue [] s (s.bundlesOf c) s' ∧ s'.Consistent ∧
      ∀ x, (s'.contacts x).hasNode = (s.contacts x).hasNode := by
  induction turns generalizing s with
  | zero => exact absurd hturns (Nat.not_lt_zero _)
  | succ turns ih =>
    rw [rescheduleBundles]
    cases hlist : (s.contacts c).contactBundles with
    | nil =>
      have hlist' : s.bundlesOf c = [] := hlist
      rw [hlist']
      exact ⟨s, rfl, .refl queue [] s, hs, fun _ => rfl⟩
    | cons r rest =>
      have hlist' : s.bundlesOf c = r :: rest := hlist
      have hmem : r ∈ s.bundlesOf c := by
        rw [hlist']
        exact List.mem_cons_self
      obtain ⟨rb, hrb, hc⟩ := hs.listed c r hmem
      have hfirst : Rescheduled queue [] s [r]
          ((s.removed r rb).bundleProcessorInform queue rb.id) := rescheduled_removed hs hrb
      have hnode : ∀ x, (((s.removed r rb).bundleProcessorInform queue rb.id).contacts x).hasNode =
          (s.contacts x).hasNode := fun x => hasNode_removed s r rb x
      have hnext : ((s.removed r rb).bundleProcessorInform queue rb.id).Consistent :=
        hfirst.consistent hs fun x hx => .inl ((hnode x).symm.trans hx)
      have hnodup : (r :: rest).Nodup := hlist' ▸ hs.nodup c
      have hrest : ((s.removed r rb).bundleProcessorInform queue rb.id).bundlesOf c = rest := by
        rw [hfirst.bundles c, hlist', List.filter_cons, if_neg (by simp)]
        refine List.filter_eq_self.mpr fun x hx => decide_eq_true fun hxr => ?_
        rw [List.mem_singleton.mp hxr] at hx
        exact (List.nodup_cons.mp hnodup).1 hx
      have hlength : (((s.removed r rb).bundleProcessorInform queue rb.id).bundlesOf c).length <
          turns := by
        rw [hlist', List.length_cons] at hturns
        rw [hrest]
        omega
      obtain ⟨s', hrun, hothers, hs', hnode'⟩ := ih hnext hlength
      rw [hrest] at hothers
      rw [hlist']
      refine ⟨s', ?_, hfirst.trans hothers, hs', fun x => (hnode' x).trans (hnode x)⟩
      dsimp only
      rw [load_of_live hrb, ok_bind, if_neg (Nat.not_lt.mpr (hs.count r rb hrb))]
      show (s.routerRemoveBundleFromRoute rb.contacts rb.id true >>= _) = _
      rw [routerRemoveBundleFromRoute_of_live hs hrb hmem, ok_bind, hrun]

theorem setContact_hasNode_contacts (s : RoutingState) (c x : ContactPtr) (node : Bool) :
    (s.setContact c { s.contacts c with hasNode := node }).bundlesOf x = s.bundlesOf x ∧
      ((s.setContact c { s.contacts c with hasNode := node }).contacts x).remaining =
        (s.contacts x).remaining := by
  show (Function.update s.contacts c _ x).contactBundles = _ ∧
    (Function.update s.contacts c _ x).remaining = _
  by_cases hx : x = c
  · subst hx
    rw [Function.update_self]
    exact ⟨rfl, rfl⟩
  · rw [Function.update_of_ne hx]
    exact ⟨rfl, rfl⟩

/-- An un-associated contact keeps its list and its capacities. -/
theorem Rescheduled.unassociate {own : List ContactPtr} {rs : List RbPtr}
    (h : Rescheduled queue own s rs s') (c : ContactPtr) :
    Rescheduled queue own s rs (s'.setContact c { s'.contacts c with hasNode := false }) where
  nodup := h.nodup
  live := h.live
  informed := h.informed
  routed := h.routed
  handed := h.handed
  bundles x := (setContact_hasNode_contacts s' c x false).1.trans (h.bundles x)
  remaining x hx level := by
    rw [(setContact_hasNode_contacts s' c x false).2]
    exact h.remaining x hx level

theorem bundlesOf_rescheduled {own : List ContactPtr}
    (h : Rescheduled queue own s (s.bundlesOf c) s') : s'.bundlesOf c = [] := by
  rw [h.bundles, List.filter_eq_nil_iff]
  intro r hr
  simp [hr]

theorem dropContacts_spec (queue : QueueIdentifier) (cs : List (ContactPtr × Bool))
    (hs : s.Consistent) :
    ∃ rs s', dropContacts queue s cs = .ok s' ∧ Rescheduled queue [] s rs s' ∧
      s'.Consistent ∧ ∀ r, r ∈ rs ↔ ∃ c ∈ cs.map Prod.fst, r ∈ s.bundlesOf c := by
  induction cs generalizing s with
  | nil =>
    refine ⟨[], s, rfl, .refl queue [] s, hs, fun r => ?_⟩
    exact iff_of_false List.not_mem_nil fun ⟨c, hc, _⟩ => by cases hc
  | cons p rest ih =>
    obtain ⟨c, active⟩ := p
    obtain ⟨s₁, hrun, hresched, hs₁, hnode⟩ :=
      rescheduleBundles_spec queue c hs (Nat.lt_succ_self _)
    have hempty : s₁.bundlesOf c = [] := bundlesOf_rescheduled hresched
    -- an active contact is un-associated
    obtain ⟨s₂, hs₂eq, hresched₂, hs₂⟩ : ∃ s₂,
        (if active then s₁.setContact c { s₁.contacts c with hasNode := false } else s₁) = s₂ ∧
          Rescheduled queue [] s (s.bundlesOf c) s₂ ∧ s₂.Consistent := by
      cases active with
      | false => exact ⟨s₁, rfl, hresched, hs₁⟩
      | true =>
        refine ⟨_, rfl, hresched.unassociate c, (hresched.unassociate c).consistent hs ?_⟩
        intro x hx
        by_cases hxc : x = c
        · subst hxc
          exact .inr ((setContact_hasNode_contacts s₁ x x false).1.trans hempty)
        · have hsame : (s₁.setContact c { s₁.contacts c with hasNode := false }).contacts x =
              s₁.contacts x := Function.update_of_ne hxc _ _
          rw [hsame, hnode x] at hx
          exact .inl hx
    obtain ⟨rs, s', hrest, hothers, hs', hiff⟩ := ih hs₂
    refine ⟨s.bundlesOf c ++ rs, s', ?_, hresched₂.trans hothers, hs', fun r => ?_⟩
    · rw [dropContacts]
      show (rescheduleBundles queue c _ s >>= _) = _
      rw [hrun, ok_bind]
      dsimp only
      rw [hs₂eq, hrest]
    · rw [List.mem_append, hiff]
      simp only [hresched₂.bundles, List.mem_filter, List.map_cons, List.mem_cons,
        exists_eq_or_imp]
      constructor
      · intro h
        rcases h with h | ⟨x, hx, hr⟩
        · exact .inl h
        · exact .inr ⟨x, hx, hr.1⟩
      · intro h
        rcases h with h | ⟨x, hx, hr⟩
        · exact .inl h
        · by_cases hrc : r ∈ s.bundlesOf c
          · exact .inl hrc
          · exact .inr ⟨x, hx, hr, decide_eq_true hrc⟩

theorem rescheduleAll_eq (queue : QueueIdentifier) (cs : List ContactPtr) (s : RoutingState) :
    rescheduleAll queue s cs = dropContacts queue s (cs.map fun c => (c, false)) := by
  induction cs generalizing s with
  | nil => rfl
  | cons c rest ih =>
    rw [rescheduleAll, List.map_cons, dropContacts]
    exact congrArg (s.reschedule queue c >>= ·) (funext fun s => ih s)

/-! ## A contact that is over -/

theorem passBundles_spec {list : List RbPtr} (hnodup : list.Nodup)
    (hlive : ∀ r ∈ list, ∃ rb, s.routed r = .live rb) :
    ∃ s', passBundles s list = .ok s' ∧ s'.contacts = s.contacts ∧ s'.handed = s.handed ∧
      s'.informed = s.informed ++ list.map (fun r => (.bundleProcessor, s.idOf r)) ∧
      ∀ r, s'.routed r = if r ∈ list then .freed else s.routed r := by
  induction list generalizing s with
  | nil =>
    exact ⟨s, rfl, rfl, rfl, (List.append_nil _).symm, fun r => (if_neg List.not_mem_nil).symm⟩
  | cons r rest ih =>
    obtain ⟨hr, hrest⟩ := List.nodup_cons.mp hnodup
    obtain ⟨rb, hrb⟩ := hlive r List.mem_cons_self
    let s₁ : RoutingState :=
      { s.bundleProcessorInform .bundleProcessor rb.id with
        routed := Function.update s.routed r .freed }
    have hother : ∀ x, x ≠ r → s₁.routed x = s.routed x := fun x hx =>
      Function.update_of_ne hx _ _
    have hlive₁ : ∀ x ∈ rest, ∃ rb, s₁.routed x = .live rb := by
      intro x hx
      have hne : x ≠ r := fun h => hr (h ▸ hx)
      rw [hother x hne]
      exact hlive x (List.mem_cons_of_mem r hx)
    obtain ⟨s', hrun, hcontacts, hhanded, hinformed, hrouted⟩ := ih hrest hlive₁
    refine ⟨s', ?_, hcontacts, hhanded, ?_, fun x => ?_⟩
    · rw [passBundles, load_of_live hrb, ok_bind]
      unfold free
      rw [load_of_live (s := s.bundleProcessorInform .bundleProcessor rb.id) hrb, ok_bind]
      exact hrun
    · have hids : (rest.map fun x => (QueueIdentifier.bundleProcessor, s₁.idOf x)) =
          rest.map fun x => (QueueIdentifier.bundleProcessor, s.idOf x) := by
        refine List.map_congr_left fun x hx => ?_
        have hne : x ≠ r := fun h => hr (h ▸ hx)
        unfold idOf
        rw [hother x hne]
      rw [hinformed, hids, List.map_cons, idOf_of_live hrb]
      show (s.informed ++ [(QueueIdentifier.bundleProcessor, rb.id)]) ++ _ = _
      rw [List.append_assoc, List.singleton_append]
    · rw [hrouted]
      by_cases hx : x = r
      · rw [hx, if_neg hr, if_pos List.mem_cons_self]
        exact Function.update_self ..
      · rw [hother x hx]
        simp only [List.mem_cons, hx, false_or]

/-- A contact that is over is emptied, and no other contact is touched. -/
theorem routingTableContactPassed_spec (hs : s.Consistent) (c : ContactPtr) :
    ∃ s', s.routingTableContactPassed c = .ok s' ∧ s'.handed = s.handed ∧
      s'.informed = s.informed ++ (s.bundlesOf c).map (fun r => (.bundleProcessor, s.idOf r)) ∧
      (∀ r, s'.routed r = if r ∈ s.bundlesOf c then .freed else s.routed r) ∧
      s'.bundlesOf c = [] ∧ (s'.contacts c).hasNode = (s.contacts c).hasNode ∧
      ∀ x, x ≠ c → s'.contacts x = s.contacts x := by
  unfold routingTableContactPassed
  cases hnode : (s.contacts c).hasNode with
  | false =>
    have hempty : s.bundlesOf c = [] := hs.nodeless c hnode
    rw [if_neg Bool.false_ne_true, if_pos hempty, hempty]
    exact ⟨s, rfl, rfl, (List.append_nil _).symm, fun r => (if_neg List.not_mem_nil).symm, hempty,
      hnode, fun _ _ => rfl⟩
  | true =>
    have hlive : ∀ r ∈ s.bundlesOf c, ∃ rb, s.routed r = .live rb := fun r hr =>
      let ⟨rb, hrb, _⟩ := hs.listed c r hr
      ⟨rb, hrb⟩
    obtain ⟨s', hrun, hcontacts, hhanded, hinformed, hrouted⟩ :=
      passBundles_spec (hs.nodup c) hlive
    rw [if_pos rfl]
    refine ⟨s'.setContact c { s'.contacts c with contactBundles := [] }, ?_, hhanded, hinformed,
      hrouted, ?_, ?_, fun x hx => ?_⟩
    · show (passBundles s (s.bundlesOf c) >>= _) = _
      rw [hrun, ok_bind]
      rfl
    · show (Function.update s'.contacts c _ c).contactBundles = []
      rw [Function.update_self]
    · show (Function.update s'.contacts c _ c).hasNode = true
      rw [Function.update_self, hcontacts]
      exact hnode
    · show Function.update s'.contacts c _ x = _
      rw [Function.update_of_ne hx, hcontacts]

end RoutingState

end Upcn.Queueing
