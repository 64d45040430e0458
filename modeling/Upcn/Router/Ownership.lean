import Mathlib.Data.List.Perm.Basic
import Upcn.Router.Admission

/-!
# The edits of nodes and contacts

What the parts of the operations before `add_node_to_tables` do to the nodes
and contacts: the union and the difference of contact lists, the removal of a
node from the tables, and the deallocation of a node.

Each has one lemma that says which objects change and how.
-/

namespace Upcn

namespace RoutingTable

variable {t t' : RoutingTable} {mem : Memory} {c x y : ContactPtr} {n : NodePtr}
  {k : Contact} {a b : List ContactPtr}

/-- Everything but the contacts themselves is the same. -/
structure SameBut (t t' : RoutingTable) : Prop where
  nodes : t'.nodes = t.nodes
  nodeList : t'.nodeList = t.nodeList
  contactList : t'.contactList = t.contactList
  eidTable : t'.eidTable = t.eidTable

theorem SameBut.refl (t : RoutingTable) : t.SameBut t := ⟨rfl, rfl, rfl, rfl⟩

theorem SameBut.trans {t'' : RoutingTable} (h : t.SameBut t')
    (h' : t'.SameBut t'') : t.SameBut t'' :=
  ⟨h'.nodes.trans h.nodes, h'.nodeList.trans h.nodeList,
    h'.contactList.trans h.contactList, h'.eidTable.trans h.eidTable⟩

theorem modifyContact_spec {f : Contact → Contact}
    (h : t.modifyContact c f = some t') :
    ∃ k, t.contacts c = some k ∧ t'.contacts c = some (f k) ∧
      (∀ z, z ≠ c → t'.contacts z = t.contacts z) ∧ t.SameBut t' := by
  obtain ⟨k, hk, h⟩ := Option.bind_eq_some_iff.mp h
  obtain rfl := Option.some.inj h
  refine ⟨k, hk, Function.update_self .., fun z hz => ?_, ⟨rfl, rfl, rfl, rfl⟩⟩
  exact Function.update_of_ne hz ..

theorem freeContact_spec (h : t.freeContact c = some t') :
    t'.contacts c = none ∧ (∀ z, z ≠ c → t'.contacts z = t.contacts z) ∧
      t.SameBut t' := by
  obtain ⟨k, hk, h⟩ := Option.bind_eq_some_iff.mp h
  split at h
  · cases h
  · obtain rfl := Option.some.inj h
    refine ⟨Function.update_self .., fun z hz => ?_, ⟨rfl, rfl, rfl, rfl⟩⟩
    exact Function.update_of_ne hz ..

/-! ## Union -/

theorem subset_endpointListUnion (mem : Memory) (a b : List Eid) :
    ∀ eid ∈ a, eid ∈ endpointListUnion mem a b := by
  unfold endpointListUnion
  induction b generalizing a with
  | nil => exact fun _ h => h
  | cons e rest ih =>
    intro eid heid
    rw [List.foldl_cons]
    refine ih _ eid ?_
    split
    · exact heid
    · split
      · exact List.mem_append_left _ heid
      · exact heid

theorem mem_of_endpointListUnion {a b : List Eid} {eid : Eid}
    (h : eid ∈ endpointListUnion mem a b) : eid ∈ a ∨ eid ∈ b := by
  unfold endpointListUnion at h
  induction b generalizing a with
  | nil => exact .inl h
  | cons e rest ih =>
    rw [List.foldl_cons] at h
    rcases ih h with h | h
    · split at h
      · exact .inl h
      · split at h
        · rcases List.mem_append.mp h with h | h
          · exact .inl h
          · rw [List.mem_singleton.mp h]
            exact .inr List.mem_cons_self
        · exact .inl h
    · exact .inr (List.mem_cons_of_mem _ h)

theorem mem_endpointListUnion_sufficient {a b : List Eid} {eid : Eid}
    (h : eid ∈ b) : eid ∈ endpointListUnion .sufficient a b := by
  induction b generalizing a with
  | nil => cases h
  | cons e rest ih =>
    rcases List.mem_cons.mp h with rfl | h
    · have hstart : eid ∈ (if eid ∈ a then a
          else if Memory.sufficient.endpoint eid then a ++ [eid] else a) := by
        split
        · assumption
        · exact List.mem_append_right _ (List.mem_singleton_self eid)
      exact subset_endpointListUnion _ _ rest eid hstart
    · exact ih h

/-- A contact after a union with the contacts `b`: its endpoints may grow by
those of the contacts at the same times. -/
structure Grown (t : RoutingTable) (b : List ContactPtr) (k k' : Contact) :
    Prop where
  node : k'.node = k.node
  fromTime : k'.fromTime = k.fromTime
  toTime : k'.toTime = k.toTime
  active : k'.active = k.active
  old : ∀ eid ∈ k.contactEndpoints, eid ∈ k'.contactEndpoints
  new : ∀ eid ∈ k'.contactEndpoints, eid ∈ k.contactEndpoints ∨
    ∃ y ∈ b, ∃ ky, t.contacts y = some ky ∧ ky.fromTime = k.fromTime ∧
      ky.toTime = k.toTime ∧ eid ∈ ky.contactEndpoints

theorem Grown.refl (t : RoutingTable) (b : List ContactPtr) (k : Contact) :
    Grown t b k k :=
  ⟨rfl, rfl, rfl, rfl, fun _ h => h, fun _ h => .inl h⟩

theorem Grown.trans {t₁ : RoutingTable} {b₁ : List ContactPtr} {k₁ k₂ : Contact}
    (h : Grown t b k k₁) (h' : Grown t₁ b₁ k₁ k₂)
    (hb : ∀ y ∈ b₁, y ∈ b ∧ t₁.contacts y = t.contacts y) : Grown t b k k₂ where
  node := h'.node.trans h.node
  fromTime := h'.fromTime.trans h.fromTime
  toTime := h'.toTime.trans h.toTime
  active := h'.active.trans h.active
  old eid heid := h'.old eid (h.old eid heid)
  new eid heid := by
    rcases h'.new eid heid with hold | ⟨y, hy, ky, hky, hf, ht, hmem⟩
    · exact h.new eid hold
    · refine .inr ⟨y, (hb y hy).1, ky, (hb y hy).2 ▸ hky, ?_, ?_, hmem⟩
      · rw [hf, h.fromTime]
      · rw [ht, h.toTime]

/-- The inner loop of `contact_list_union`. -/
theorem unionBefore_spec {inserted left : List ContactPtr}
    (h : unionBefore mem x t b = some (t', inserted, left))
    (hx : x ∉ b) (hb : b.Nodup) (hk : t.contacts x = some k) :
    (inserted ++ left).Sublist b ∧
      (∃ k', t'.contacts x = some k' ∧ Grown t b k k') ∧
      (∀ z ∈ inserted ++ left, t'.contacts z = t.contacts z) ∧
      (∀ z, z ≠ x → z ∉ b → t'.contacts z = t.contacts z) ∧ t.SameBut t' := by
  induction b generalizing t inserted left k with
  | nil =>
    rw [unionBefore] at h
    obtain ⟨rfl, rfl, rfl⟩ := by simpa using h
    exact ⟨List.Sublist.refl _, ⟨k, hk, .refl _ _ k⟩, by simp, by simp, .refl t⟩
  | cons y rest ih =>
    have hxy : x ≠ y := fun he => hx (he ▸ List.mem_cons_self)
    have hxr : x ∉ rest := fun hm => hx (List.mem_cons_of_mem _ hm)
    obtain ⟨hy, hrest⟩ := List.nodup_cons.mp hb
    rw [unionBefore, hk] at h
    simp only [Option.bind_eq_bind, Option.bind_some] at h
    obtain ⟨ky, hky, h⟩ := Option.bind_eq_some_iff.mp h
    split at h
    · rename_i hle
      split at h
      · -- The contact is inserted before `x`.
        obtain ⟨⟨t₁, ins, lft⟩, h₁, h⟩ := Option.bind_eq_some_iff.mp h
        obtain ⟨rfl, rfl, rfl⟩ := by simpa using h
        obtain ⟨hsub, ⟨k', hk', hgrown⟩, hkept, hother, hsame⟩ :=
          ih h₁ hxr hrest hk
        refine ⟨hsub.cons_cons y, ⟨k', hk', ?_⟩, ?_, ?_, hsame⟩
        · refine { hgrown with new := fun eid heid => ?_ }
          rcases hgrown.new eid heid with hold | ⟨z, hz, hrestz⟩
          · exact .inl hold
          · exact .inr ⟨z, List.mem_cons_of_mem _ hz, hrestz⟩
        · intro z hz
          rcases List.mem_cons.mp hz with rfl | hz
          · exact hother z (Ne.symm hxy) hy
          · exact hkept z hz
        · intro z hzx hz
          exact hother z hzx fun hm => hz (List.mem_cons_of_mem _ hm)
      · -- The contact starts with `x`: it is merged, if it also ends with
        -- `x`, and freed.
        rename_i hnlt
        have hfrom : ky.fromTime = k.fromTime := by omega
        obtain ⟨t₁, h₁, h⟩ := Option.bind_eq_some_iff.mp h
        obtain ⟨t₂, h₂, h⟩ := Option.bind_eq_some_iff.mp h
        have hmerge : ∃ k₁, t₁.contacts x = some k₁ ∧ Grown t (y :: rest) k k₁ ∧
            (∀ z, z ≠ x → t₁.contacts z = t.contacts z) ∧ t.SameBut t₁ := by
          unfold mergeContacts at h₁
          split at h₁
          · rename_i hto
            obtain ⟨kx, hkx, hkx', hz, hsame⟩ := modifyContact_spec h₁
            obtain rfl : k = kx := Option.some.inj (hk.symm.trans hkx)
            refine ⟨_, hkx', ⟨rfl, rfl, rfl, rfl, ?_, ?_⟩, hz, hsame⟩
            · exact subset_endpointListUnion mem _ _
            · intro eid heid
              rcases mem_of_endpointListUnion heid with hold | hnew
              · exact .inl hold
              · exact .inr ⟨y, List.mem_cons_self, ky, hky, hfrom, hto, hnew⟩
          · obtain rfl := Option.some.inj h₁
            exact ⟨k, hk, .refl _ _ k, fun _ _ => rfl, .refl t⟩
        obtain ⟨k₁, hk₁, hgrown₁, hz₁, hsame₁⟩ := hmerge
        obtain ⟨-, hz₂, hsame₂⟩ := freeContact_spec h₂
        have hk₂ : t₂.contacts x = some k₁ := by rw [hz₂ x hxy, hk₁]
        have hback : ∀ z ∈ rest, t₂.contacts z = t.contacts z := by
          intro z hz
          have hzy : z ≠ y := fun he => hy (he ▸ hz)
          have hzx : z ≠ x := fun he => hxr (he ▸ hz)
          rw [hz₂ z hzy, hz₁ z hzx]
        obtain ⟨hsub, ⟨k', hk', hgrown⟩, hkept, hother, hsame⟩ :=
          ih h hxr hrest hk₂
        refine ⟨hsub.cons y, ⟨k', hk', hgrown₁.trans hgrown fun z hz =>
            ⟨List.mem_cons_of_mem _ hz, hback z hz⟩⟩, ?_, ?_,
          (hsame₁.trans hsame₂).trans hsame⟩
        · intro z hz
          rw [hkept z hz, hback z (hsub.subset hz)]
        · intro z hzx hz
          have hzy : z ≠ y := fun he => hz (he ▸ List.mem_cons_self)
          rw [hother z hzx fun hm => hz (List.mem_cons_of_mem _ hm), hz₂ z hzy,
            hz₁ z hzx]
    · obtain ⟨rfl, rfl, rfl⟩ := by simpa using h
      exact ⟨List.Sublist.refl _, ⟨k, hk, .refl _ _ k⟩, fun _ _ => rfl,
        fun _ _ _ => rfl, .refl t⟩

/-- `contact_list_union` keeps all contacts of the first list, with some
endpoints more, and some of the second list as they are. -/
theorem unionContacts_spec {list : List ContactPtr}
    (h : unionContacts mem t a b = some (t', list)) (hnodup : (a ++ b).Nodup)
    (hlive : ∀ z ∈ a, ∃ k, t.contacts z = some k) :
    ∃ b', b'.Sublist b ∧ list.Perm (a ++ b') ∧
      (∀ z ∈ a, ∀ k, t.contacts z = some k →
        ∃ k', t'.contacts z = some k' ∧ Grown t b k k') ∧
      (∀ z ∈ b', t'.contacts z = t.contacts z) ∧
      (∀ z, z ∉ a → z ∉ b → t'.contacts z = t.contacts z) ∧ t.SameBut t' := by
  induction a generalizing t b list with
  | nil =>
    rw [unionContacts] at h
    obtain ⟨rfl, rfl⟩ := by simpa using h
    exact ⟨b, List.Sublist.refl _, List.Perm.refl _, by simp, fun _ _ => rfl,
      fun _ _ _ => rfl, .refl t⟩
  | cons x rest ih =>
    obtain ⟨hx, hrb⟩ := List.nodup_cons.mp (show (x :: (rest ++ b)).Nodup from hnodup)
    have hxr : x ∉ rest := fun hm => hx (List.mem_append_left _ hm)
    have hxb : x ∉ b := fun hm => hx (List.mem_append_right _ hm)
    obtain ⟨hr, hb, hdisj⟩ := List.nodup_append.mp hrb
    obtain ⟨kx, hkx⟩ := hlive x List.mem_cons_self
    rw [unionContacts] at h
    obtain ⟨⟨t₁, ins, left⟩, h₁, h⟩ := Option.bind_eq_some_iff.mp h
    obtain ⟨⟨t₂, list₂⟩, h₂, h⟩ := Option.bind_eq_some_iff.mp h
    obtain ⟨rfl, rfl⟩ := by simpa using h
    obtain ⟨hsub, ⟨kx', hkx', hgx⟩, hkept, hother, hsame₁⟩ :=
      unionBefore_spec h₁ hxb hb hkx
    have hleft : left.Sublist b := (List.sublist_append_right _ _).trans hsub
    have hinsleft := hsub.nodup hb
    have hrest₁ : ∀ z ∈ rest, t₁.contacts z = t.contacts z := by
      intro z hz
      refine hother z (fun he => hxr (he ▸ hz)) fun hm => ?_
      exact hdisj z hz z hm rfl
    have hnodup₁ : (rest ++ left).Nodup := hrb.sublist (hleft.append_left _)
    obtain ⟨b', hb', hperm, hold, hnew, hout, hsame₂⟩ := ih h₂ hnodup₁
      (fun z hz => by
        rw [hrest₁ z hz]
        exact hlive z (List.mem_cons_of_mem _ hz))
    refine ⟨ins ++ b', (hb'.append_left ins).trans hsub, ?_, ?_, ?_, ?_,
      hsame₁.trans hsame₂⟩
    · calc ins ++ x :: list₂
          _ |>.Perm (x :: (ins ++ list₂)) := List.perm_middle
          _ |>.Perm (x :: (ins ++ (rest ++ b'))) := (hperm.append_left ins).cons x
          _ |>.Perm (x :: (rest ++ (ins ++ b'))) := by
            refine List.Perm.cons x ?_
            rw [← List.append_assoc, ← List.append_assoc]
            exact List.perm_append_comm.append_right b'
    · intro z hz k hkz
      rcases List.mem_cons.mp hz with rfl | hz
      · obtain rfl : kx = k := Option.some.inj (hkx.symm.trans hkz)
        refine ⟨kx', ?_, hgx⟩
        rw [hout z hxr fun hm => hxb (hleft.subset hm), hkx']
      · obtain ⟨k', hk', hg⟩ := hold z hz k (by rw [hrest₁ z hz, hkz])
        refine ⟨k', hk', (Grown.refl t b k).trans hg fun y hy => ?_⟩
        exact ⟨hleft.subset hy, hkept y (List.mem_append_right _ hy)⟩
    · intro z hz
      rcases List.mem_append.mp hz with hz | hz
      · have hzb : z ∈ b := hsub.subset (List.mem_append_left _ hz)
        have hzl : z ∉ left := fun hm =>
          (List.nodup_append.mp hinsleft).2.2 z hz z hm rfl
        rw [hout z (fun hm => hdisj z hm z hzb rfl) hzl,
          hkept z (List.mem_append_left _ hz)]
      · rw [hnew z hz, hkept z (List.mem_append_right _ (hb'.subset hz))]
    · intro z hza hzb
      have hzx : z ≠ x := fun he => hza (he ▸ List.mem_cons_self)
      rw [hout z (fun hm => hza (List.mem_cons_of_mem _ hm))
        (fun hm => hzb (hleft.subset hm)), hother z hzx hzb]

/-! ## Difference -/

/-- A contact after changes to its endpoints. -/
structure SameTimes (k k' : Contact) : Prop where
  node : k'.node = k.node
  fromTime : k'.fromTime = k.fromTime
  toTime : k'.toTime = k.toTime
  active : k'.active = k.active

theorem SameTimes.refl (k : Contact) : SameTimes k k := ⟨rfl, rfl, rfl, rfl⟩

theorem SameTimes.trans {k₁ k₂ : Contact} (h : SameTimes k k₁)
    (h' : SameTimes k₁ k₂) : SameTimes k k₂ :=
  ⟨h'.node.trans h.node, h'.fromTime.trans h.fromTime,
    h'.toTime.trans h.toTime, h'.active.trans h.active⟩

/-- What changes in the contacts of an operation on the lists `a` and `b`:
those of `a` keep their times, and others than those of `a` and `b` do not
change. -/
structure Edited (t : RoutingTable) (a b : List ContactPtr) (t' : RoutingTable) :
    Prop where
  kept : ∀ z ∈ a, ∀ k, t.contacts z = some k →
    ∃ k', t'.contacts z = some k' ∧ SameTimes k k'
  other : ∀ z, z ∉ a → z ∉ b → t'.contacts z = t.contacts z
  same : t.SameBut t'

theorem Edited.refl (t : RoutingTable) (a b : List ContactPtr) : Edited t a b t :=
  ⟨fun _ _ k hk => ⟨k, hk, .refl k⟩, fun _ _ _ => rfl, .refl t⟩

theorem Edited.trans {t₁ : RoutingTable} {a₁ b₁ : List ContactPtr}
    (h : Edited t a b t₁) (h' : Edited t₁ a₁ b₁ t')
    (ha : ∀ z ∈ a₁, z ∈ a) (hb : ∀ z ∈ b₁, z ∈ b) (hdisj : ∀ z ∈ a, z ∉ b) :
    Edited t a b t' where
  kept := by
    intro z hz k hk
    obtain ⟨k₁, hk₁, hsame⟩ := h.kept z hz k hk
    by_cases hz₁ : z ∈ a₁
    · obtain ⟨k', hk', hsame'⟩ := h'.kept z hz₁ k₁ hk₁
      exact ⟨k', hk', hsame.trans hsame'⟩
    · refine ⟨k₁, ?_, hsame⟩
      rw [h'.other z hz₁ fun hm => hdisj z hz (hb z hm), hk₁]
  other := by
    intro z hza hzb
    rw [h'.other z (fun hm => hza (ha z hm)) (fun hm => hzb (hb z hm)),
      h.other z hza hzb]
  same := h.same.trans h'.same

theorem edited_freeContact (h : t.freeContact y = some t') (hy : y ∉ a)
    (hb : y ∈ b) : Edited t a b t' := by
  obtain ⟨-, hz, hsame⟩ := freeContact_spec h
  refine ⟨fun z hza k hk => ⟨k, ?_, .refl k⟩, fun z hza hzb => ?_, hsame⟩
  · rw [hz z fun he => hy (he ▸ hza), hk]
  · exact hz z fun he => hzb (he ▸ hb)

theorem edited_modifyContact {f : Contact → Contact}
    (h : t.modifyContact x f = some t') (hx : x ∈ a)
    (hf : ∀ k, SameTimes k (f k)) : Edited t a b t' := by
  obtain ⟨kx, hkx, hkx', hz, hsame⟩ := modifyContact_spec h
  refine ⟨fun z hza k hk => ?_, fun z hza hzb => ?_, hsame⟩
  · by_cases hzx : z = x
    · subst hzx
      obtain rfl : kx = k := Option.some.inj (hkx.symm.trans hk)
      exact ⟨_, hkx', hf kx⟩
    · exact ⟨k, by rw [hz z hzx, hk], .refl k⟩
  · exact hz z fun he => hza (he ▸ hx)

/-- `contact_list_difference` splits the first list. -/
theorem differenceContacts_spec {left deleted : List ContactPtr}
    (h : differenceContacts t a b = some (t', left, deleted))
    (hnodup : (a ++ b).Nodup) :
    (left ++ deleted).Perm a ∧ Edited t a b t' := by
  induction hsize : a.length + b.length using Nat.strong_induction_on generalizing
    t a b left deleted with
  | h size ih =>
  match a, b with
  | [], b =>
    rw [differenceContacts] at h
    obtain ⟨rfl, rfl, rfl⟩ := by simpa using h
    exact ⟨List.Perm.refl _, .refl _ _ _⟩
  | x :: a, [] =>
    rw [differenceContacts] at h
    · obtain ⟨rfl, rfl, rfl⟩ := by simpa using h
      exact ⟨by simp, .refl _ _ _⟩
    · simp
  | x :: a, y :: b =>
    have hsplit := List.nodup_append.mp hnodup
    have hdisj : ∀ z ∈ x :: a, z ∉ y :: b :=
      fun z hz hzb => hsplit.2.2 z hz z hzb rfl
    have hya : y ∉ x :: a := fun hm => hdisj y hm List.mem_cons_self
    have hab : (a ++ b).Nodup :=
      hnodup.sublist ((List.sublist_cons_self x a).append (List.sublist_cons_self y b))
    have hxab : (x :: a ++ b).Nodup :=
      hnodup.sublist ((List.sublist_cons_self y b).append_left (x :: a))
    have hayb : (a ++ y :: b).Nodup :=
      hnodup.sublist ((List.sublist_cons_self x a).append_right (y :: b))
    simp only [List.length_cons] at hsize
    rw [differenceContacts] at h
    obtain ⟨kx, hkx, h⟩ := Option.bind_eq_some_iff.mp h
    obtain ⟨ky, hky, h⟩ := Option.bind_eq_some_iff.mp h
    have hna : ∀ z ∈ a, z ∈ x :: a := fun z hz => List.mem_cons_of_mem _ hz
    have hnb : ∀ z ∈ b, z ∈ y :: b := fun z hz => List.mem_cons_of_mem _ hz
    split at h
    · split at h
      · split at h
        · -- The contact is deleted.
          obtain ⟨t₁, h₁, h⟩ := Option.bind_eq_some_iff.mp h
          obtain ⟨⟨t₂, l₂, d₂⟩, h₂, h⟩ := Option.bind_eq_some_iff.mp h
          obtain ⟨rfl, rfl, rfl⟩ := by simpa using h
          obtain ⟨hperm, hedit⟩ := ih _ (by omega) h₂ hab rfl
          refine ⟨?_, (edited_freeContact h₁ hya List.mem_cons_self).trans hedit hna
            hnb hdisj⟩
          exact List.perm_middle.trans (hperm.cons x)
        · -- Its endpoints are reduced.
          obtain ⟨t₁, h₁, h⟩ := Option.bind_eq_some_iff.mp h
          obtain ⟨t₂, h₂, h⟩ := Option.bind_eq_some_iff.mp h
          obtain ⟨⟨t₃, l₃, d₃⟩, h₃, h⟩ := Option.bind_eq_some_iff.mp h
          obtain ⟨rfl, rfl, rfl⟩ := by simpa using h
          obtain ⟨hperm, hedit⟩ := ih _ (by omega) h₃ hab rfl
          have hmod : Edited t (x :: a) (y :: b) t₁ :=
            edited_modifyContact h₁ List.mem_cons_self
              fun k => ⟨rfl, rfl, rfl, rfl⟩
          have hfree := edited_freeContact (a := x :: a) (b := y :: b) h₂ hya
            List.mem_cons_self
          refine ⟨hperm.cons x, ?_⟩
          exact (hmod.trans hfree (fun _ h => h) (fun _ h => h) hdisj).trans hedit
            hna hnb hdisj
      · -- The contact of the command is not in the list.
        obtain ⟨t₁, h₁, h⟩ := Option.bind_eq_some_iff.mp h
        obtain ⟨hperm, hedit⟩ := ih _ (by simp; omega) h hxab rfl
        refine ⟨hperm, ?_⟩
        exact (edited_freeContact h₁ hya List.mem_cons_self).trans hedit
          (fun _ h => h) hnb hdisj
    · obtain ⟨⟨t₂, l₂, d₂⟩, h₂, h⟩ := Option.bind_eq_some_iff.mp h
      obtain ⟨rfl, rfl, rfl⟩ := by simpa using h
      obtain ⟨hperm, hedit⟩ := ih _ (by simp; omega) h₂ hayb rfl
      refine ⟨hperm.cons x, ?_⟩
      exact (Edited.refl t (x :: a) (y :: b)).trans hedit hna (fun _ h => h) hdisj

/-! ## Loops over contacts -/

/-- The last loop of `mergeNode`. -/
theorem setNode_spec {list : List ContactPtr}
    (h : list.foldlM (fun t c => t.modifyContact c fun k =>
      { k with node := some n }) t = some t') :
    (∀ z ∈ list, ∃ k, t.contacts z = some k ∧
        t'.contacts z = some { k with node := some n }) ∧
      (∀ z, z ∉ list → t'.contacts z = t.contacts z) ∧ t.SameBut t' := by
  induction list generalizing t with
  | nil =>
    obtain rfl := Option.some.inj h
    exact ⟨by simp, fun _ _ => rfl, .refl t⟩
  | cons c rest ih =>
    rw [List.foldlM_cons] at h
    obtain ⟨t₁, h₁, h⟩ := Option.bind_eq_some_iff.mp h
    obtain ⟨k, hk, hk', hz, hsame⟩ := modifyContact_spec h₁
    obtain ⟨hin, hout, hsame'⟩ := ih h
    refine ⟨fun z hzm => ?_, fun z hzm => ?_, hsame.trans hsame'⟩
    · by_cases hzr : z ∈ rest
      · obtain ⟨k₁, hk₁, hk₁'⟩ := hin z hzr
        by_cases hzc : z = c
        · subst hzc
          rw [hk'] at hk₁
          obtain rfl := Option.some.inj hk₁
          exact ⟨k, hk, hk₁'⟩
        · rw [hz z hzc] at hk₁
          exact ⟨k₁, hk₁, hk₁'⟩
      · obtain rfl : z = c := by simpa [hzr] using hzm
        exact ⟨k, hk, by rw [hout z hzr, hk']⟩
    · rw [hout z fun hm => hzm (List.mem_cons_of_mem _ hm),
        hz z fun he => hzm (he ▸ List.mem_cons_self)]

/-- A loop that frees some of the contacts of a list. -/
theorem freeSome_spec {list : List ContactPtr}
    {g : RoutingTable → ContactPtr → Option RoutingTable}
    (hg : ∀ s c s', g s c = some s' → s' = s ∨ s.freeContact c = some s')
    (h : list.foldlM g t = some t') :
    (∀ z, z ∉ list → t'.contacts z = t.contacts z) ∧ t.SameBut t' := by
  have hloop := Outcome.foldlM_some_induction
    (motive := fun rest s => (∀ z ∈ rest, z ∈ list) ∧
      (∀ z, z ∉ list → s.contacts z = t.contacts z) ∧ t.SameBut s) ?_ h
    ⟨fun _ hz => hz, fun _ _ => rfl, .refl t⟩
  · exact hloop.2
  · rintro c rest s s' ⟨hrest, hz, hsame⟩ hstep
    refine ⟨fun z hm => hrest z (List.mem_cons_of_mem _ hm), ?_⟩
    rcases hg s c s' hstep with rfl | hfree
    · exact ⟨hz, hsame⟩
    · obtain ⟨-, hz', hsame'⟩ := freeContact_spec hfree
      refine ⟨fun z hm => ?_, hsame.trans hsame'⟩
      rw [hz' z fun he => hm (he ▸ hrest c List.mem_cons_self), hz z hm]

/-! ## Removal of a node -/

/-- `free_node` for a node whose object is `node`. -/
theorem freeNode_spec {node : Node} (hnode : t.nodes n = some node)
    (h : t.freeNode n = some t') :
    (∀ z, z ∉ node.contacts → t'.contacts z = t.contacts z) ∧
      (∀ m, m ≠ n → t'.nodes m = t.nodes m) ∧ t'.nodeList = t.nodeList ∧
      t'.contactList = t.contactList ∧ t'.eidTable = t.eidTable := by
  obtain ⟨node', hnode', h⟩ := Option.bind_eq_some_iff.mp h
  obtain rfl : node = node' := Option.some.inj (hnode.symm.trans hnode')
  obtain ⟨t₁, h₁, h⟩ := Option.bind_eq_some_iff.mp h
  obtain rfl := Option.some.inj h
  obtain ⟨hz, hsame⟩ := freeSome_spec (g := fun t c => t.freeContact c)
    (fun s c s' hs => .inr hs) h₁
  refine ⟨hz, fun m hm => ?_, hsame.nodeList, hsame.contactList, hsame.eidTable⟩
  exact (Function.update_of_ne hm ..).trans (congrFun hsame.nodes m)

/-- The body of the loop of `remove_node_from_tables`. -/
def removeStep (node : Node) (n : NodePtr) (dropContacts : Bool)
    (t : RoutingTable) (c : ContactPtr) : Option RoutingTable := do
  let t ← t.removeContactFromTables node c
  if dropContacts then t.dropContact n c else return t

/-- The state `s` in the loop of `remove_node_from_tables` for the node `n`,
which started in `t`, before the contacts in `rest` are removed. -/
structure Removing (t : RoutingTable) (node : Node) (n : NodePtr)
    (dropContacts : Bool) (rest : List ContactPtr) (s : RoutingTable) : Prop where
  coming_sublist : rest.Sublist node.contacts
  nodeList : s.nodeList = t.nodeList
  nodes : ∀ m, m ≠ n → s.nodes m = t.nodes m
  object : ∃ contacts, s.nodes n = some { node with contacts := contacts } ∧
    contacts.Sublist node.contacts ∧ (dropContacts = false → contacts = node.contacts)
  others : ∀ z, z ∉ node.contacts → s.contacts z = t.contacts z
  coming : ∀ z ∈ rest, s.contacts z = t.contacts z
  kept : dropContacts = false → s.contacts = t.contacts
  sublist : s.contactList.Sublist t.contactList
  list : ∀ z ∈ t.contactList, z ∉ node.contacts → z ∈ s.contactList
  left : ∀ z ∈ s.contactList, z ∈ node.contacts → z ∈ rest

theorem removing_start {node : Node} (hnode : t.nodes n = some node)
    (dropContacts : Bool) :
    Removing t node n dropContacts node.contacts t where
  coming_sublist := List.Sublist.refl _
  nodeList := rfl
  nodes _ _ := rfl
  object := ⟨node.contacts, hnode, List.Sublist.refl _, fun _ => rfl⟩
  others _ _ := rfl
  coming _ _ := rfl
  kept _ := rfl
  sublist := List.Sublist.refl _
  list _ hz _ := hz
  left _ _ hz := hz

theorem dropContact_spec {node : Node} (hnode : t.nodes n = some node)
    (h : t.dropContact n c = some t') :
    t'.nodeList = t.nodeList ∧ (∀ m, m ≠ n → t'.nodes m = t.nodes m) ∧
      (∃ contacts, t'.nodes n = some { node with contacts := contacts } ∧
        contacts.Sublist node.contacts) ∧
      (∀ z, z ≠ c → t'.contacts z = t.contacts z) ∧
      t'.contactList = t.contactList ∧ t'.eidTable = t.eidTable := by
  obtain ⟨k, hk, h⟩ := Option.bind_eq_some_iff.mp h
  split at h
  · obtain ⟨t₁, h₁, h₂⟩ := Option.bind_eq_some_iff.mp h
    obtain ⟨-, -, -, hz, hsame⟩ := modifyContact_spec h₁
    obtain ⟨node', hnode', h₂⟩ := Option.bind_eq_some_iff.mp h₂
    rw [hsame.nodes, hnode] at hnode'
    obtain rfl := Option.some.inj hnode'
    obtain rfl := Option.some.inj h₂
    refine ⟨hsame.nodeList, fun m hm => ?_, ⟨_, Function.update_self .., ?_⟩, hz,
      hsame.contactList, hsame.eidTable⟩
    · exact (Function.update_of_ne hm ..).trans (congrFun hsame.nodes m)
    · exact List.erase_sublist
  · obtain rfl := Option.some.inj h
    exact ⟨rfl, fun _ _ => rfl, ⟨node.contacts, hnode, List.Sublist.refl _⟩,
      fun _ _ => rfl, rfl, rfl⟩

/-- What `removeContactFromTables` does besides the hash table. -/
theorem removeContactFromTables_spec {node : Node}
    (h : t.removeContactFromTables node c = some t') :
    ∃ k, t.contacts c = some k ∧ t'.nodes = t.nodes ∧ t'.contacts = t.contacts ∧
      t'.nodeList = t.nodeList ∧ t'.contactList = t.contactList.erase c ∧
      t'.eidTable = ((reachableEids node k).foldl
        (fun t eid => t.removeContactFromNodeInHtab c eid) t).eidTable := by
  obtain ⟨k, hk, h⟩ := Option.bind_eq_some_iff.mp h
  obtain rfl := Option.some.inj h
  have hsame := unlink_same t c (reachableEids node k)
  exact ⟨k, hk, hsame.nodes, hsame.contacts, hsame.nodeList,
    congrArg (·.erase c) hsame.contactList, rfl⟩

theorem Removing.step {node : Node} {dropContacts : Bool} {rest : List ContactPtr}
    {s s' : RoutingTable} (h : Removing t node n dropContacts (c :: rest) s)
    (hnodup : node.contacts.Nodup) (hlist : t.contactList.Nodup)
    (hs : removeStep node n dropContacts s c = some s') :
    Removing t node n dropContacts rest s' := by
  obtain ⟨s₁, h₁, h₂⟩ := Option.bind_eq_some_iff.mp hs
  obtain ⟨k, hk, hnodes₁, hcontacts₁, hlist₁, hcl₁, -⟩ :=
    removeContactFromTables_spec h₁
  have hcr := List.nodup_cons.mp (h.coming_sublist.nodup hnodup)
  have hnodup_s : s.contactList.Nodup := h.sublist.nodup hlist
  obtain ⟨contacts, hnode, hsub, hkeep⟩ := h.object
  have hnode₁ : s₁.nodes n = some { node with contacts := contacts } := by
    rw [hnodes₁, hnode]
  have hc : c ∈ node.contacts := h.coming_sublist.subset List.mem_cons_self
  have hend : s'.nodeList = s₁.nodeList ∧ (∀ m, m ≠ n → s'.nodes m = s₁.nodes m) ∧
      (∃ contacts', s'.nodes n = some { node with contacts := contacts' } ∧
        contacts'.Sublist contacts ∧ (dropContacts = false → contacts' = contacts)) ∧
      (∀ z, z ≠ c → s'.contacts z = s₁.contacts z) ∧
      (dropContacts = false → s'.contacts = s₁.contacts) ∧
      s'.contactList = s₁.contactList := by
    cases dropContacts with
    | true =>
      obtain ⟨hl, hm, ⟨cs, hcs, hcsub⟩, hz, hcl, -⟩ := dropContact_spec hnode₁ h₂
      exact ⟨hl, hm, ⟨cs, hcs, hcsub, by simp⟩, hz, by simp, hcl⟩
    | false =>
      obtain rfl := Option.some.inj h₂
      exact ⟨rfl, fun _ _ => rfl, ⟨contacts, hnode₁, List.Sublist.refl _,
        fun _ => rfl⟩, fun _ _ => rfl, fun _ => rfl, rfl⟩
  obtain ⟨hl, hm, ⟨contacts', hcs, hcsub, hsame⟩, hz, hall, hcl⟩ := hend
  refine
    { coming_sublist := (List.sublist_cons_self c rest).trans h.coming_sublist
      nodeList := hl.trans (hlist₁.trans h.nodeList)
      nodes := fun m hne => ?_
      object := ⟨contacts', hcs, hcsub.trans hsub, fun hd => ?_⟩
      others := fun z hz' => ?_
      coming := fun z hz' => ?_
      kept := fun hd => ?_
      sublist := ?_
      list := fun z hzl hz' => ?_
      left := fun z hzl hz' => ?_ }
  · rw [hm m hne, hnodes₁, h.nodes m hne]
  · rw [hsame hd, hkeep hd]
  · rw [hz z fun he => hz' (he ▸ hc), hcontacts₁, h.others z hz']
  · rw [hz z fun he => hcr.1 (he ▸ hz'), hcontacts₁,
      h.coming z (List.mem_cons_of_mem _ hz')]
  · rw [hall hd, hcontacts₁, h.kept hd]
  · rw [hcl, hcl₁]
    exact List.erase_sublist.trans h.sublist
  · rw [hcl, hcl₁]
    have hzc : z ≠ c := fun he => hz' (he ▸ hc)
    exact (List.mem_erase_of_ne hzc).mpr (h.list z hzl hz')
  · rw [hcl, hcl₁] at hzl
    have hmem := (hnodup_s.mem_erase_iff).mp hzl
    rcases List.mem_cons.mp (h.left z hmem.2 hz') with rfl | hr
    · exact absurd rfl hmem.1
    · exact hr

/-- `remove_node_from_tables` takes all contacts of the node out of the
global list. -/
theorem removeNodeFromTables_spec {node : Node} {dropContacts : Bool}
    (hnode : t.nodes n = some node) (hnodup : node.contacts.Nodup)
    (hlist : t.contactList.Nodup)
    (h : t.removeNodeFromTables n dropContacts = some t') :
    Removing t node n dropContacts [] t' := by
  obtain ⟨node', hnode', h⟩ := Option.bind_eq_some_iff.mp h
  obtain rfl : node = node' := Option.some.inj (hnode.symm.trans hnode')
  exact Outcome.foldlM_some_induction
    (motive := fun rest s => Removing t node n dropContacts rest s)
    (fun _ _ _ _ hs hstep => hs.step hnodup hlist hstep) h
    (removing_start hnode dropContacts)

/-- A node and its contacts are taken away, and no other object changes. -/
structure Without (t : RoutingTable) (cur : NodePtr) (node : Node)
    (t' : RoutingTable) : Prop where
  nodeList : t'.nodeList = t.nodeList.erase cur
  nodes : ∀ m, m ≠ cur → t'.nodes m = t.nodes m
  contacts : ∀ z, z ∉ node.contacts → t'.contacts z = t.contacts z
  sublist : t'.contactList.Sublist t.contactList
  gone : ∀ z ∈ t'.contactList, z ∉ node.contacts
  list : ∀ z ∈ t.contactList, z ∉ node.contacts → z ∈ t'.contactList

/-- A contact belongs to one node only. -/
theorem Owned.node_unique (ht : t.Owned) {m : NodePtr} {node node' : Node}
    (hn : n ∈ t.nodeList) (hnode : t.nodes n = some node)
    (hm : m ∈ t.nodeList) (hnode' : t.nodes m = some node')
    (hc : c ∈ node.contacts) (hc' : c ∈ node'.contacts) : n = m := by
  obtain ⟨k, hk, hkn⟩ := ht.of_mem hn hnode hc
  obtain ⟨k', hk', hkm⟩ := ht.of_mem hm hnode' hc'
  obtain rfl : k = k' := Option.some.inj (hk.symm.trans hk')
  exact Option.some.inj (hkn.symm.trans hkm)

theorem Without.owned {cur : NodePtr} {node : Node} (h : Without t cur node t')
    (ht : t.Owned) (hcur : cur ∈ t.nodeList) (hnode : t.nodes cur = some node) :
    t'.Owned where
  nodup := by
    rw [h.nodeList]
    exact ht.nodup.erase cur
  node := by
    intro m hm
    rw [h.nodeList] at hm
    obtain ⟨hne, hm⟩ := (ht.nodup.mem_erase_iff).mp hm
    obtain ⟨nm, hnm, hnd, hall⟩ := ht.node m hm
    refine ⟨nm, by rw [h.nodes m hne, hnm], hnd, fun z hz => ?_⟩
    have hzn : z ∉ node.contacts := fun hzc =>
      hne (ht.node_unique hm hnm hcur hnode hz hzc)
    rw [h.contacts z hzn]
    exact hall z hz
  listed := by
    intro z hz
    obtain ⟨m, hm, nm, hnm, hzm⟩ := ht.listed z (h.sublist.subset hz)
    have hne : m ≠ cur := by
      rintro rfl
      rw [hnode] at hnm
      obtain rfl := Option.some.inj hnm
      exact h.gone z hz hzm
    refine ⟨m, ?_, nm, by rw [h.nodes m hne, hnm], hzm⟩
    rw [h.nodeList]
    exact (List.mem_erase_of_ne hne).mpr hm
  list := h.sublist.nodup ht.list

/-- The contacts that stay listed do not change. -/
theorem Without.admitted {cur : NodePtr} {node : Node} {maxConcurrentContacts : Nat}
    (h : Without t cur node t') (ht : t.Owned)
    (hadm : t.Admitted maxConcurrentContacts) :
    t'.Admitted maxConcurrentContacts := by
  refine hadm.of_sublist h.sublist fun z hz => ?_
  obtain ⟨k, hk⟩ := ht.live (h.sublist.subset hz)
  exact ⟨k, k, hk, by rw [h.contacts z (h.gone z hz), hk], rfl, rfl, rfl⟩

end RoutingTable

end Upcn
