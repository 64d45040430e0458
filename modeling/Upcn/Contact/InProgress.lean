import Upcn.Contact.Manager
import Mathlib.Data.List.Induction
import Mathlib.Data.List.Nodup

/-!
# The contacts in progress

After every invocation of the contact manager the contacts with the flag
`active` are those in the array, as long as every contact that is tried is
started, and the array is accessed within its bounds, as long as it is not full
when an entry that is not the last one ends.

* `Occupied` says that the entries in use are a list of different contacts with
  the flag set; `Tidy` adds that no other contact has it.
* `Kept` is what the functions leave alone.

There is one lemma for each loop: `removeExpired_spec` and
`processUpcoming_spec`.  A start that fails leaves the flag set of a contact
that is not in the array.
-/

namespace Upcn

open Outcome

/-- The CLA is found, and both strings are copied. -/
def Attempt.Succeeds (a : Attempt) : Prop :=
  a.claConf.isSome = true ∧ a.eid = true ∧ a.claAddr = true

namespace ContactManager

variable {m m' : ContactManager} {infos front kept ended : List ContactInfo}
  {info : ContactInfo} {c : ContactPtr} {k : Contact} {now i n : Nat}

/-- The contact is there and has the flag. -/
def ActiveAt (m : ContactManager) (c : ContactPtr) : Prop :=
  ∃ k, m.table.contacts c = some k ∧ k.active = true

/-- The contact is there and over. -/
def ExpiredAt (m : ContactManager) (now : Nat) (c : ContactPtr) : Bool :=
  (m.table.contacts c).any fun k => k.toTime ≤ now

/-- The contact is there and on. -/
def RunningAt (m : ContactManager) (now : Nat) (c : ContactPtr) : Prop :=
  ∃ k, m.table.contacts c = some k ∧ k.fromTime ≤ now ∧ now < k.toTime

/-- The entries in use. -/
structure Occupied (m : ContactManager) (infos : List ContactInfo) : Prop where
  slots : m.currentContacts.take m.currentContactCount = infos.map some
  length : infos.length = m.currentContactCount
  nodup : (infos.map ContactInfo.contact).Nodup
  active : ∀ info ∈ infos, m.ActiveAt info.contact

/-- A contact without its flag. -/
def planOf (k : Contact) : Contact := { k with active := false }

/-- What an invocation leaves alone. -/
structure Kept (m m' : ContactManager) : Prop where
  contacts : ∀ c, (m'.table.contacts c).map planOf = (m.table.contacts c).map planOf
  contactList : m'.table.contactList = m.table.contactList
  room : m'.currentContacts.length = m.currentContacts.length
  signals : m'.signals = m.signals
  started : m'.started = m.started

theorem Kept.refl (m : ContactManager) : Kept m m :=
  ⟨fun _ => rfl, rfl, rfl, rfl, rfl⟩

theorem Kept.trans {m'' : ContactManager} (h : Kept m m') (h' : Kept m' m'') :
    Kept m m'' where
  contacts c := (h'.contacts c).trans (h.contacts c)
  contactList := h'.contactList.trans h.contactList
  room := h'.room.trans h.room
  signals := h'.signals.trans h.signals
  started := h'.started.trans h.started

/-- A contact that was there is there, with the same times. -/
theorem Kept.contact (h : Kept m m') (hk : m.table.contacts c = some k) :
    ∃ k', m'.table.contacts c = some k' ∧ k'.fromTime = k.fromTime ∧
      k'.toTime = k.toTime := by
  have hc := h.contacts c
  rw [hk] at hc
  obtain ⟨k', hk', hplan⟩ := Option.map_eq_some_iff.mp hc
  have hfrom := congrArg Contact.fromTime hplan
  have hto := congrArg Contact.toTime hplan
  exact ⟨k', hk', hfrom, hto⟩

theorem Kept.expiredAt (h : Kept m m') (now : Nat) (c : ContactPtr) :
    m'.ExpiredAt now c = m.ExpiredAt now c := by
  have hc := h.contacts c
  unfold ExpiredAt
  cases hk : m.table.contacts c with
  | none =>
    rw [hk] at hc
    rw [Option.map_eq_none_iff.mp hc]
  | some k =>
    obtain ⟨k', hk', _, hto⟩ := h.contact hk
    rw [hk', Option.any_some, Option.any_some, hto]

theorem Kept.runningAt (h : Kept m m') (hr : m.RunningAt now c) :
    m'.RunningAt now c := by
  obtain ⟨k, hk, hfrom, hto⟩ := hr
  obtain ⟨k', hk', hf, ht⟩ := h.contact hk
  exact ⟨k', hk', by omega, by omega⟩

theorem Kept.runningAt_of (h : Kept m m') (hr : m'.RunningAt now c) :
    m.RunningAt now c :=
  Kept.runningAt ⟨fun c => (h.contacts c).symm, h.contactList.symm, h.room.symm,
    h.signals.symm, h.started.symm⟩ hr

/-! ## Access to the entries in use -/

theorem Occupied.getElem? (h : m.Occupied infos) (hi : infos[i]? = some info) :
    m.currentContacts[i]? = some (some info) := by
  obtain ⟨hlt, _⟩ := List.getElem?_eq_some_iff.mp hi
  have hslot := congrArg (·[i]?) h.slots
  simp only [List.getElem?_map, hi, Option.map_some] at hslot
  rw [List.getElem?_take_of_lt (by rw [← h.length]; exact hlt)] at hslot
  exact hslot

theorem Occupied.entry (h : m.Occupied infos) (hi : infos[i]? = some info) :
    m.entry i = .ok info := by
  unfold ContactManager.entry
  rw [h.getElem? hi]

/-- The entry behind `front`. -/
theorem Occupied.entry_append {front rest : List ContactInfo}
    (h : m.Occupied (front ++ info :: rest)) : m.entry front.length = .ok info := by
  refine h.entry ?_
  rw [List.getElem?_append_right (Nat.le_refl _), Nat.sub_self]
  rfl

theorem Occupied.le (h : m.Occupied infos) :
    m.currentContactCount ≤ m.currentContacts.length := by
  have hlength := congrArg List.length h.slots
  rw [List.length_take, List.length_map, h.length] at hlength
  omega

theorem Occupied.contactActive (h : m.Occupied infos) (c : ContactPtr) :
    m.contactActive c = true ↔ c ∈ infos.map ContactInfo.contact := by
  unfold ContactManager.contactActive
  rw [h.slots, List.any_map, List.any_eq_true, List.mem_map]
  constructor
  · rintro ⟨info, hmem, hc⟩
    exact ⟨info, hmem, of_decide_eq_true hc⟩
  · rintro ⟨info, hmem, hc⟩
    exact ⟨info, hmem, decide_eq_true hc⟩

/-! ## The flag -/

theorem setActive_ok {active : Bool} (hk : m.table.contacts c = some k) :
    m.setActive c active = .ok { m with
      table := { m.table with
        contacts := Function.update m.table.contacts c (some
          { k with active := active }) } } := by
  unfold setActive load
  rw [hk]
  rfl

theorem kept_setActive {active : Bool} (h : m.setActive c active = .ok m') :
    Kept m m' ∧ m'.currentContacts = m.currentContacts ∧
      m'.currentContactCount = m.currentContactCount ∧
      (∀ x, x ≠ c → (m'.ActiveAt x ↔ m.ActiveAt x)) ∧
      (m'.ActiveAt c ↔ active = true) := by
  obtain ⟨k, hk, h⟩ := bind_eq_ok h
  have hc : m.table.contacts c = some k := by
    unfold load at hk
    split at hk
    · cases hk
    · cases hk
      assumption
  obtain rfl := Except.ok.inj h
  refine ⟨⟨fun x => ?_, rfl, rfl, rfl, rfl⟩, rfl, rfl, fun x hx => ?_, ?_⟩
  · by_cases hx : x = c
    · subst hx
      dsimp only
      rw [Function.update_self, hc]
      rfl
    · dsimp only
      rw [Function.update_of_ne hx]
  · unfold ActiveAt
    dsimp only
    rw [Function.update_of_ne hx]
  · unfold ActiveAt
    dsimp only
    rw [Function.update_self]
    constructor
    · rintro ⟨e, he, hactive⟩
      cases he
      exact hactive
    · intro hactive
      exact ⟨_, rfl, hactive⟩

/-! ## The removal of one entry -/

theorem shiftDown_ok (slots : List (Option ContactInfo)) {c n : Nat}
    (h : c + n < slots.length) :
    ∃ slots', shiftDown n c slots = .ok slots' ∧ slots'.length = slots.length ∧
      ∀ j, slots'[j]? = if c ≤ j ∧ j < c + n then slots[j + 1]? else slots[j]? := by
  induction n generalizing c slots with
  | zero =>
    refine ⟨slots, rfl, rfl, fun j => ?_⟩
    rw [if_neg (by omega)]
  | succ n ih =>
    have hnext : c + 1 < slots.length := by omega
    obtain ⟨slots', hshift, hlength, hslots⟩ := ih
      (slots.set c slots[c + 1]) (c := c + 1) (by rw [List.length_set]; omega)
    refine ⟨slots', ?_, by rw [hlength, List.length_set], fun j => ?_⟩
    · unfold shiftDown
      rw [List.getElem?_eq_getElem hnext]
      exact hshift
    · rw [hslots j]
      by_cases hj : j = c
      · subst hj
        rw [if_neg (by omega), if_pos (by omega), List.getElem?_set_self (by omega),
          List.getElem?_eq_getElem hnext]
      · rw [List.getElem?_set_ne (Ne.symm hj)]
        by_cases hin : c + 1 ≤ j ∧ j < c + 1 + n
        · rw [if_pos hin, if_pos (by omega), List.getElem?_set_ne (by omega)]
        · rw [if_neg hin, if_neg (by omega)]

/-- An entry is taken out, when it is the last one or the array is not full. -/
theorem Occupied.removeEntry (h : m.currentContacts.take m.currentContactCount
      = (front ++ info :: kept).map some)
    (hlength : (front ++ info :: kept).length = m.currentContactCount)
    (hroom : kept = [] ∨ m.currentContactCount < m.currentContacts.length) :
    ∃ slots, m.removeEntry front.length = .ok { m with
        currentContacts := slots
        currentContactCount := m.currentContactCount - 1 } ∧
      slots.length = m.currentContacts.length ∧
      slots.take (m.currentContactCount - 1) = (front ++ kept).map some := by
  rw [List.length_append, List.length_cons] at hlength
  have hget : ∀ j, j < m.currentContactCount →
      m.currentContacts[j]? = ((front ++ info :: kept)[j]?).map some := by
    intro j hj
    have hslot := congrArg (·[j]?) h
    simp only [List.getElem?_map] at hslot
    rw [List.getElem?_take_of_lt hj] at hslot
    exact hslot
  unfold ContactManager.removeEntry
  by_cases hlast : front.length = m.currentContactCount - 1
  · have hnil : kept = [] := List.eq_nil_of_length_eq_zero (by omega)
    rw [if_pos hlast]
    refine ⟨m.currentContacts, rfl, rfl, ?_⟩
    have htake := congrArg (List.take (m.currentContactCount - 1)) h
    rw [List.take_take, Nat.min_eq_left (by omega), ← List.map_take, ← hlast,
      List.take_left] at htake
    rw [← hlast, htake, hnil, List.append_nil]
  · have hspace : m.currentContactCount < m.currentContacts.length := by
      rcases hroom with hnil | hspace
      · rw [hnil, List.length_nil] at hlength
        omega
      · exact hspace
    obtain ⟨slots, hshift, hsame, hslots⟩ := shiftDown_ok m.currentContacts
      (c := front.length) (n := m.currentContactCount - front.length) (by omega)
    rw [if_neg hlast, hshift]
    refine ⟨slots, rfl, hsame, List.ext_getElem? fun j => ?_⟩
    by_cases hj : j < m.currentContactCount - 1
    · rw [List.getElem?_take_of_lt hj, hslots j, List.getElem?_map]
      by_cases hbefore : j < front.length
      · rw [if_neg (by omega), hget j (by omega), List.getElem?_append_left hbefore,
          List.getElem?_append_left hbefore]
      · rw [if_pos (by omega), hget (j + 1) (by omega),
          List.getElem?_append_right (by omega), List.getElem?_append_right (by omega),
          Nat.sub_add_comm (by omega), List.getElem?_cons_succ]
    · rw [List.getElem?_take_eq_none (by omega), List.getElem?_eq_none]
      rw [List.length_map, List.length_append]
      omega

/-! ## The loop over the expired contacts -/

theorem Occupied.not_mem (h : m.Occupied (front ++ info :: kept)) :
    ∀ x ∈ front ++ kept, x.contact ≠ info.contact := by
  have hnodup := h.nodup
  rw [List.map_append, List.map_cons, List.nodup_append] at hnodup
  intro x hx heq
  rcases List.mem_append.mp hx with hx | hx
  · exact hnodup.2.2 _ (List.mem_map_of_mem hx) _ (List.mem_cons_self ..) heq
  · exact (List.nodup_cons.mp hnodup.2.1).1 (heq ▸ List.mem_map_of_mem hx)

theorem load_eq (hk : m.table.contacts c = some k) : m.load c = .ok k := by
  unfold load
  rw [hk]

theorem ActiveAt.load (h : m.ActiveAt c) : ∃ k, m.table.contacts c = some k := by
  obtain ⟨k, hk, _⟩ := h
  exact ⟨k, hk⟩

theorem expiredAt_iff (hk : m.table.contacts c = some k) :
    m.ExpiredAt now c = true ↔ k.toTime ≤ now := by
  unfold ExpiredAt
  rw [hk, Option.any_some, decide_eq_true_iff]

/-- The entry at the end of `front` is over. -/
theorem removeIfExpired_expired (ended : List ContactInfo)
    (h : m.Occupied (front ++ info :: kept))
    (hover : m.ExpiredAt now info.contact = true)
    (hlist : ended.length < m.currentContacts.length)
    (hroom : kept = [] ∨ m.currentContactCount < m.currentContacts.length) :
    ∃ m', m.removeIfExpired now front.length ended = .ok (m', ended ++ [info]) ∧
      m'.Occupied (front ++ kept) ∧ Kept m m' ∧
      m'.currentContactCount < m'.currentContacts.length ∧
      ∀ c, m'.ActiveAt c ↔ m.ActiveAt c ∧ c ≠ info.contact := by
  have hmem : info ∈ front ++ info :: kept :=
    List.mem_append_right _ (List.mem_cons_self ..)
  have hentry := h.entry_append
  obtain ⟨k, hk⟩ := (h.active info hmem).load
  have hto := (expiredAt_iff hk).mp hover
  obtain ⟨m₁, hset⟩ : ∃ m₁, m.setActive info.contact false = .ok m₁ :=
    ⟨_, setActive_ok hk⟩
  obtain ⟨hkept, hslots, hcount, hothers, hself⟩ := kept_setActive hset
  obtain ⟨slots, hremove, hsame, htake⟩ := Occupied.removeEntry (m := m₁)
    (by rw [hslots, hcount]; exact h.slots) (by rw [hcount]; exact h.length)
    (by rw [hslots, hcount]; exact hroom)
  have hlength := h.length
  rw [List.length_append, List.length_cons] at hlength
  have hle := h.le
  unfold removeIfExpired
  rw [hentry, ok_bind, load_eq hk, ok_bind, if_pos hto, hset, ok_bind]
  unfold ContactManager.push
  rw [if_pos (by rw [hslots]; exact hlist), ok_bind, hremove]
  refine ⟨_, rfl, ⟨htake, ?_, ?_, ?_⟩, ?_, ?_, ?_⟩
  · rw [List.length_append]
    show _ = m₁.currentContactCount - 1
    omega
  · have hsub : (front ++ kept).Sublist (front ++ info :: kept) :=
      List.Sublist.append_left (List.sublist_cons_self ..) _
    exact h.nodup.sublist (hsub.map _)
  · intro x hx
    refine (hothers x.contact (h.not_mem x hx)).mpr (h.active x ?_)
    rcases List.mem_append.mp hx with hx | hx
    · exact List.mem_append_left _ hx
    · exact List.mem_append_right _ (List.mem_cons_of_mem _ hx)
  · exact ⟨hkept.contacts, hkept.contactList, hsame.trans hkept.room, hkept.signals,
      hkept.started⟩
  · show m₁.currentContactCount - 1 < slots.length
    rw [hsame, hslots]
    omega
  · intro c
    by_cases hc : c = info.contact
    · subst hc
      constructor
      · intro hfalse
        cases hself.mp hfalse
      · intro hne
        exact absurd rfl hne.2
    · exact ⟨fun ha => ⟨(hothers c hc).mp ha, hc⟩, fun ha => (hothers c hc).mpr ha.1⟩

theorem removeIfExpired_on (h : m.Occupied (front ++ info :: kept))
    (hover : ¬ m.ExpiredAt now info.contact = true) :
    m.removeIfExpired now front.length ended = .ok (m, ended) := by
  have hmem : info ∈ front ++ info :: kept :=
    List.mem_append_right _ (List.mem_cons_self ..)
  have hentry := h.entry_append
  obtain ⟨k, hk⟩ := (h.active info hmem).load
  unfold removeIfExpired
  rw [hentry, ok_bind, load_eq hk, ok_bind,
    if_neg fun hto => hover ((expiredAt_iff hk).mpr hto)]
  rfl

/-- The removal of the entries of `front` that are over stays within the array:
there is a slot left, or nothing to remove, or the first removal is at the end. -/
def Removable (m : ContactManager) (now : Nat) (front kept : List ContactInfo) : Prop :=
  m.currentContactCount < m.currentContacts.length ∨
    (∀ info ∈ front, ¬ m.ExpiredAt now info.contact = true) ∨
    kept = [] ∧ ∃ older newest, front = older ++ [newest] ∧
      m.ExpiredAt now newest.contact = true

theorem removeExpiredFrom_spec (ended : List ContactInfo)
    (h : m.Occupied (front ++ kept))
    (hlist : ended.length + front.length ≤ m.currentContacts.length)
    (hroom : m.Removable now front kept) :
    ∃ m', removeExpiredFrom now front.length m ended = .ok (m',
        ended ++ (front.filter fun x => m.ExpiredAt now x.contact).reverse) ∧
      m'.Occupied ((front.filter fun x => !m.ExpiredAt now x.contact) ++ kept) ∧
      Kept m m' ∧ ∀ c, m'.ActiveAt c ↔ m.ActiveAt c ∧
        ∀ x ∈ front, x.contact = c → ¬ m.ExpiredAt now c = true := by
  induction front using List.reverseRecOn generalizing m kept ended with
  | nil =>
    refine ⟨m, ?_, h, Kept.refl m, fun c => ?_⟩
    · rw [List.filter_nil, List.reverse_nil, List.append_nil]
      rfl
    · exact ⟨fun ha => ⟨ha, fun x hx => by cases hx⟩, fun ha => ha.1⟩
  | append_singleton front info ih =>
    rw [List.append_assoc, List.singleton_append] at h
    rw [List.length_append, List.length_singleton] at hlist ⊢
    rw [List.filter_append, List.filter_append, List.reverse_append]
    by_cases hover : m.ExpiredAt now info.contact = true
    · have hspace : kept = [] ∨ m.currentContactCount < m.currentContacts.length := by
        rcases hroom with hspace | hnone | ⟨hnil, _⟩
        · exact .inr hspace
        · exact absurd hover (hnone info (List.mem_append_right _
            (List.mem_singleton_self _)))
        · exact .inl hnil
      have hyes : [info].filter (fun x => m.ExpiredAt now x.contact) = [info] :=
        List.filter_cons_of_pos hover
      have hno : [info].filter (fun x => !m.ExpiredAt now x.contact) = [] :=
        List.filter_cons_of_neg (by rw [hover]; decide)
      obtain ⟨m₁, hstep, h₁, hkept₁, hspace₁, hactive₁⟩ :=
        removeIfExpired_expired ended h hover (by omega) hspace
      have hsame : ∀ c, m₁.ExpiredAt now c = m.ExpiredAt now c := hkept₁.expiredAt now
      obtain ⟨m', hrest, h', hkept', hactive'⟩ := ih (ended ++ [info]) h₁
        (by rw [List.length_append, List.length_singleton, hkept₁.room]; omega)
        (.inl hspace₁)
      simp only [hsame] at hrest h' hactive'
      refine ⟨m', ?_, ?_, hkept₁.trans hkept', fun c => ?_⟩
      · unfold removeExpiredFrom
        rw [hstep, ok_bind]
        dsimp only
        rw [hrest, hyes, List.append_assoc]
        rfl
      · rw [hno, List.append_nil]
        exact h'
      · rw [hactive' c, hactive₁ c]
        constructor
        · rintro ⟨⟨ha, hne⟩, hall⟩
          refine ⟨ha, fun x hx hxc => ?_⟩
          rcases List.mem_append.mp hx with hx | hx
          · exact hall x hx hxc
          · rw [List.mem_singleton.mp hx] at hxc
            exact absurd hxc.symm hne
        · rintro ⟨ha, hall⟩
          refine ⟨⟨ha, fun hc => ?_⟩, fun x hx hxc => ?_⟩
          · refine hall info (List.mem_append_right _ (List.mem_singleton_self _))
              hc.symm ?_
            rw [hc]
            exact hover
          · exact hall x (List.mem_append_left _ hx) hxc
    · have hno : [info].filter (fun x => m.ExpiredAt now x.contact) = [] :=
        List.filter_cons_of_neg hover
      have hyes : [info].filter (fun x => !m.ExpiredAt now x.contact) = [info] :=
        List.filter_cons_of_pos (by simpa using hover)
      have hroom' : m.Removable now front (info :: kept) := by
        rcases hroom with hspace | hnone | ⟨_, older, newest, heq, hnewest⟩
        · exact .inl hspace
        · exact .inr (.inl fun x hx => hnone x (List.mem_append_left _ hx))
        · obtain ⟨_, heq⟩ := List.append_inj' heq rfl
          cases heq
          exact absurd hnewest hover
      obtain ⟨m', hrest, h', hkept', hactive'⟩ := ih ended h (by omega) hroom'
      refine ⟨m', ?_, ?_, hkept', fun c => ?_⟩
      · unfold removeExpiredFrom
        rw [removeIfExpired_on h hover, ok_bind]
        dsimp only
        rw [hrest, hno]
        rfl
      · rw [hyes, List.append_assoc]
        exact h'
      · rw [hactive' c]
        constructor
        · rintro ⟨ha, hall⟩
          refine ⟨ha, fun x hx hxc => ?_⟩
          rcases List.mem_append.mp hx with hx | hx
          · exact hall x hx hxc
          · rw [List.mem_singleton.mp hx] at hxc
            rw [← hxc]
            exact hover
        · rintro ⟨ha, hall⟩
          exact ⟨ha, fun x hx hxc => hall x (List.mem_append_left _ hx) hxc⟩

/-! ## The loop over the contact list -/

variable {a : Attempt} {o : Surroundings} {added : List ContactInfo}

/-- A slot that is not in use is written. -/
theorem Occupied.setSlot (h : m.Occupied infos)
    (hroom : m.currentContactCount < m.currentContacts.length) (info : ContactInfo) :
    ∃ m', m.setSlot info = .ok m' ∧ m'.Occupied infos ∧ Kept m m' ∧
      m'.table = m.table ∧ m'.currentContactCount = m.currentContactCount ∧
      m'.currentContacts.take (m.currentContactCount + 1)
        = (infos ++ [info]).map some := by
  refine ⟨{ m with currentContacts :=
      m.currentContacts.set m.currentContactCount (some info) }, if_pos hroom,
    ⟨?_, h.length, h.nodup, h.active⟩,
    ⟨fun _ => rfl, rfl, List.length_set, rfl, rfl⟩, rfl, rfl, ?_⟩
  · show (m.currentContacts.set _ _).take m.currentContactCount = _
    rw [List.take_set_of_le (Nat.le_refl _)]
    exact h.slots
  · show (m.currentContacts.set _ _).take _ = _
    rw [List.take_succ_eq_append_getElem (by rw [List.length_set]; exact hroom),
      List.getElem_set_self, List.take_set_of_le (Nat.le_refl _), h.slots,
      List.map_append]
    rfl

/-- A contact is started, or it is not and its attempt does not succeed. -/
def Started (m : ContactManager) (infos added : List ContactInfo) (a : Attempt)
    (c : ContactPtr) (r : ContactManager × List ContactInfo) : Prop :=
  Kept m r.1 ∧
    ((∃ info, info.contact = c ∧ r.1.Occupied (infos ++ [info]) ∧
        r.2 = added ++ [info]) ∨
      r.1.Occupied infos ∧ r.2 = added ∧ ¬ a.Succeeds)

theorem startContact_spec (h : m.Occupied infos)
    (hnew : c ∉ infos.map ContactInfo.contact) (hactive : m.ActiveAt c)
    (hroom : m.currentContactCount < m.currentContacts.length)
    (hadded : added.length ≤ infos.length) (a : Attempt) (node : Node)
    (claAddr : Eid) :
    Ends (· ≠ .outOfBounds) (m.startContact a c node claAddr added) fun r =>
      Started m infos added a c r ∧ r.1.table = m.table := by
  have hlength := h.length
  unfold ContactManager.startContact
  cases hconf : a.claConf with
  | none =>
    refine ends_ok ⟨⟨Kept.refl m, .inr ⟨h, rfl, fun hs => ?_⟩⟩, rfl⟩
    rw [Attempt.Succeeds, hconf] at hs
    cases hs.1
  | some claConf =>
    dsimp only
    generalize hinfo : (⟨c, claConf, if a.eid then some node.eid else none,
      if a.eid && a.claAddr then some claAddr else none⟩ : ContactInfo) = info
    have hcontact : info.contact = c := by rw [← hinfo]
    obtain ⟨m₁, hset, h₁, hkept, htable, hcount, htake⟩ := h.setSlot hroom info
    rw [hset, ok_bind]
    split
    · rename_i hfails
      refine ends_ok ⟨⟨hkept, .inr ⟨h₁, rfl, fun hs => ?_⟩⟩, htable⟩
      rw [hs.2.1, hs.2.2] at hfails
      exact absurd hfails (by decide)
    · unfold ContactManager.push
      rw [if_pos (by rw [hkept.room]; omega), ok_bind]
      refine ends_ok ⟨⟨?_, .inl ⟨info, hcontact, ⟨?_, ?_, ?_, ?_⟩, rfl⟩⟩, htable⟩
      · exact ⟨hkept.contacts, hkept.contactList, hkept.room, hkept.signals,
          hkept.started⟩
      · show m₁.currentContacts.take (m₁.currentContactCount + 1) = _
        rw [hcount]
        exact htake
      · rw [List.length_append, hlength]
        exact (congrArg (· + 1) hcount).symm
      · rw [List.map_append, List.nodup_append]
        refine ⟨h.nodup, List.nodup_singleton _, fun x hx y hy hxy => hnew ?_⟩
        rw [List.map_singleton, List.mem_singleton] at hy
        rw [← hcontact, ← hy, ← hxy]
        exact hx
      · intro x hx
        show ∃ k, m₁.table.contacts x.contact = some k ∧ k.active = true
        rw [htable]
        rcases List.mem_append.mp hx with hx | hx
        · exact h.active x hx
        · rw [List.mem_singleton.mp hx, hcontact]
          exact hactive

theorem nodeOf_ends (m : ContactManager) (c : ContactPtr) :
    Ends (· ≠ .outOfBounds) (m.nodeOf c) fun _ => True := by
  unfold nodeOf ContactManager.load
  cases m.table.contacts c with
  | none => exact ends_error (by decide)
  | some k =>
    rw [ok_bind]
    cases k.node with
    | none => exact ends_error (by decide)
    | some n =>
      dsimp only
      cases m.table.nodes n with
      | none => exact ends_error (by decide)
      | some node => exact ends_ok trivial

/-- An attempt sets the flag, whether the contact is started or not. -/
theorem tryContact_spec (h : m.Occupied infos) (hk : m.table.contacts c = some k)
    (htries : m.Tries c) (hadded : added.length ≤ infos.length) (a : Attempt) :
    Ends (· ≠ .outOfBounds) (m.tryContact o a c added) fun r =>
      Started m infos added a c r ∧ r.1.ActiveAt c ∧
        ∀ x, x ≠ c → (r.1.ActiveAt x ↔ m.ActiveAt x) := by
  obtain ⟨m₁, hset⟩ : ∃ m₁, m.setActive c true = .ok m₁ := ⟨_, setActive_ok hk⟩
  obtain ⟨hkept, hslots, hcount, hothers, hself⟩ := kept_setActive hset
  have hnew : c ∉ infos.map ContactInfo.contact := by
    rw [← h.contactActive c, htries.1]
    decide
  have h₁ : m₁.Occupied infos := by
    refine ⟨by rw [hslots, hcount]; exact h.slots, by rw [hcount]; exact h.length,
      h.nodup, fun x hx => ?_⟩
    refine (hothers _ ?_).mpr (h.active x hx)
    intro hxc
    exact hnew (hxc ▸ List.mem_map_of_mem hx)
  unfold ContactManager.tryContact
  rw [hset, ok_bind]
  refine (nodeOf_ends m₁ c).bind fun r _ => ?_
  obtain ⟨n, node⟩ := r
  dsimp only
  cases o.claAddr n with
  | none => exact ends_error (by decide)
  | some claAddr =>
    refine (startContact_spec h₁ hnew (hself.mpr rfl)
      (by rw [hslots, hcount]; exact htries.2) hadded a node claAddr).imp ?_
    rintro r ⟨⟨hkept', hcases⟩, htable⟩
    refine ⟨⟨hkept.trans hkept', hcases⟩, ?_, fun x hx => ?_⟩
    · unfold ActiveAt
      rw [htable]
      exact hself.mpr rfl
    · unfold ActiveAt
      rw [htable]
      exact hothers x hx

/-- What the loop over the contact list has done. -/
structure Progress (o : Surroundings) (m : ContactManager)
    (infos added : List ContactInfo) (r : ContactManager × List ContactInfo)
    (new : List ContactInfo) : Prop where
  occupied : r.1.Occupied (infos ++ new)
  added : r.2 = added ++ new
  kept : Kept m r.1
  running : ∀ info ∈ new, m.RunningAt o.now info.contact
  still : ∀ c, m.ActiveAt c → r.1.ActiveAt c
  only : (∀ i, (o.attempt i).Succeeds) → ∀ c, r.1.ActiveAt c →
    m.ActiveAt c ∨ c ∈ new.map ContactInfo.contact

theorem Occupied.setTime (h : m.Occupied infos) (t : Nat) :
    Occupied { m with nextContactTime := t } infos :=
  ⟨h.slots, h.length, h.nodup, h.active⟩

theorem Kept.setTime (h : Kept m m') (t : Nat) :
    Kept m { m' with nextContactTime := t } :=
  ⟨h.contacts, h.contactList, h.room, h.signals, h.started⟩

theorem processUpcoming_spec (contacts : List ContactPtr) (tried : Nat)
    (added : List ContactInfo) (h : m.Occupied infos) (hadded : added.length ≤ infos.length) :
    Ends (· ≠ .outOfBounds) (processUpcoming o contacts tried m added) fun r =>
      ∃ new, Progress o m infos added r new := by
  induction contacts generalizing m infos added tried with
  | nil =>
    refine ends_ok ⟨[], by rwa [List.append_nil], (List.append_nil _).symm, Kept.refl m,
      ?_, fun c hc => hc, fun _ c hc => .inl hc⟩
    intro info hinfo
    cases hinfo
  | cons c rest ih =>
    unfold processUpcoming
    cases hk : m.table.contacts c with
    | none =>
      unfold ContactManager.load
      rw [hk]
      exact ends_error (by decide)
    | some k =>
      rw [load_eq hk, ok_bind]
      split
      · split
        · split
          · rename_i hfrom hto htries
            refine (tryContact_spec h hk htries hadded (o.attempt tried)).bind ?_
            rintro ⟨m₁, added₁⟩ ⟨⟨hkept, hcases⟩, hself, hothers⟩
            dsimp only at hkept hcases hself hothers ⊢
            have hrunning : m.RunningAt o.now c := ⟨k, hk, hfrom, hto⟩
            have hstill : ∀ x, m.ActiveAt x → m₁.ActiveAt x := by
              intro x hx
              by_cases hxc : x = c
              · rw [hxc]
                exact hself
              · exact (hothers x hxc).mpr hx
            rcases hcases with ⟨info, hcontact, h₁, rfl⟩ | ⟨h₁, rfl, hfails⟩
            · have hnext := ih (tried + 1) (added ++ [info])
                (h₁.setTime (min m₁.nextContactTime k.toTime))
                (by rw [List.length_append, List.length_append]; omega)
              refine hnext.imp ?_
              rintro r ⟨new, hp⟩
              have hback : Kept m { m₁ with
                  nextContactTime := min m₁.nextContactTime k.toTime } :=
                hkept.setTime _
              refine ⟨info :: new, ?_, ?_, hback.trans hp.kept, ?_,
                fun x hx => hp.still x (hstill x hx), ?_⟩
              · have hocc := hp.occupied
                rwa [List.append_assoc] at hocc
              · rw [hp.added, List.append_assoc]
                rfl
              · intro x hx
                rcases List.mem_cons.mp hx with rfl | hx
                · rw [hcontact]
                  exact hrunning
                · exact hback.runningAt_of (hp.running x hx)
              · intro hall x hx
                rw [List.map_cons, List.mem_cons, hcontact]
                rcases hp.only hall x hx with hold | hin
                · by_cases hxc : x = c
                  · exact .inr (.inl hxc)
                  · exact .inl ((hothers x hxc).mp hold)
                · exact .inr (.inr hin)
            · have hnext := ih (tried + 1) _
                (h₁.setTime (min m₁.nextContactTime k.toTime)) hadded
              refine hnext.imp ?_
              rintro r ⟨new, hp⟩
              have hback : Kept m { m₁ with
                  nextContactTime := min m₁.nextContactTime k.toTime } :=
                hkept.setTime _
              refine ⟨new, hp.occupied, hp.added, hback.trans hp.kept, ?_,
                fun x hx => hp.still x (hstill x hx), ?_⟩
              · intro x hx
                exact hback.runningAt_of (hp.running x hx)
              · intro hall
                exact absurd (hall tried) hfails
          · have hnext := ih tried added (h.setTime (min m.nextContactTime k.toTime))
              hadded
            refine hnext.imp ?_
            rintro r ⟨new, hp⟩
            exact ⟨new, hp.occupied, hp.added,
              ((Kept.refl m).setTime _).trans hp.kept, hp.running, hp.still, hp.only⟩
        · exact ih tried added h hadded
      · refine ends_ok ⟨[], ?_, (List.append_nil _).symm, (Kept.refl m).setTime _, ?_,
          fun c hc => hc, fun _ c hc => .inl hc⟩
        · rw [List.append_nil]
          exact h.setTime _
        · intro info hinfo
          cases hinfo

/-! ## Invocations -/

/-- The entries that are over, the last one first, as they are removed. -/
def lapsed (m : ContactManager) (now : Nat) (infos : List ContactInfo) : List ContactPtr :=
  ((infos.filter fun x => m.ExpiredAt now x.contact).reverse).map ContactInfo.contact

theorem mem_lapsed : c ∈ m.lapsed now infos ↔
    c ∈ infos.map ContactInfo.contact ∧ m.ExpiredAt now c = true := by
  unfold lapsed
  rw [List.mem_map, List.mem_map]
  constructor
  · rintro ⟨info, hinfo, rfl⟩
    obtain ⟨hmem, hover⟩ := List.mem_filter.mp (List.mem_reverse.mp hinfo)
    exact ⟨⟨info, hmem, rfl⟩, hover⟩
  · rintro ⟨⟨info, hmem, rfl⟩, hover⟩
    exact ⟨info, List.mem_reverse.mpr (List.mem_filter.mpr ⟨hmem, hover⟩), rfl⟩

/-- What a full check has done. -/
structure Checked (o : Surroundings) (m : ContactManager) (infos : List ContactInfo)
    (m' : ContactManager) (new : List ContactInfo) : Prop where
  occupied : m'.Occupied
    ((infos.filter fun x => !m.ExpiredAt o.now x.contact) ++ new)
  contacts : ∀ c, (m'.table.contacts c).map planOf = (m.table.contacts c).map planOf
  contactList : m'.table.contactList = m.table.contactList
  room : m'.currentContacts.length = m.currentContacts.length
  signals : m'.signals = m.signals ++ m.lapsed o.now infos
  started : m'.started = m.started ++ new.map ContactInfo.contact
  running : ∀ info ∈ new, m.RunningAt o.now info.contact
  only : (∀ i, (o.attempt i).Succeeds) → ∀ c, m'.ActiveAt c →
    (m.ActiveAt c ∧ ¬ (c ∈ infos.map ContactInfo.contact ∧ m.ExpiredAt o.now c = true)) ∨
      c ∈ new.map ContactInfo.contact

theorem checkAndInform_spec (h : m.Occupied infos)
    (hroom : m.Removable o.now infos []) :
    Ends (· ≠ .outOfBounds) (m.checkAndInform o) fun m' =>
      ∃ new, Checked o m infos m' new := by
  have hlength := h.length
  have hle := h.le
  obtain ⟨m₁, hremove, h₁, hkept₁, hactive₁⟩ := removeExpiredFrom_spec []
    (by rwa [List.append_nil]) (by rw [List.length_nil]; omega) hroom
  rw [List.append_nil] at h₁
  rw [List.nil_append] at hremove
  unfold checkAndInform checkForContacts removeExpiredContacts
  rw [← hlength, hremove, ok_bind]
  dsimp only
  have hspec := processUpcoming_spec (o := o) m₁.table.contactList 0 []
    (h₁.setTime (2 ^ 64 - 1)) (Nat.zero_le _)
  unfold processUpcomingList
  refine Ends.bind (Ends.bind hspec ?_) ?_ (Q := fun r => (∃ new, Checked o m infos
    { r.1 with signals := r.1.signals ++ r.2.map ContactInfo.contact } new))
  · rintro ⟨m₂, added⟩ ⟨new, hp⟩
    obtain rfl : added = new := hp.added
    have hback : Kept m m₂ := (hkept₁.setTime (2 ^ 64 - 1)).trans hp.kept
    refine ends_ok ⟨added, ?_, hback.contacts, hback.contactList, hback.room, ?_, ?_, ?_, ?_⟩
    · exact ⟨hp.occupied.slots, hp.occupied.length, hp.occupied.nodup,
        hp.occupied.active⟩
    · exact congrArg (· ++ m.lapsed o.now infos) hback.signals
    · exact congrArg (· ++ added.map ContactInfo.contact) hback.started
    · intro info hinfo
      exact (hkept₁.setTime (2 ^ 64 - 1)).runningAt_of (hp.running info hinfo)
    · intro hall c hc
      rcases hp.only hall c hc with hold | hin
      · obtain ⟨ha, hnot⟩ := (hactive₁ c).mp hold
        refine .inl ⟨ha, ?_⟩
        rintro ⟨hmem, hover⟩
        obtain ⟨info, hinfo, hcontact⟩ := List.mem_map.mp hmem
        exact hnot info hinfo hcontact hover
      · exact .inr hin
  · rintro ⟨m₂, removed⟩ hnew
    exact ends_ok hnew

theorem processCurrent_spec (h : m.Occupied infos) (hn : n ≤ infos.length) :
    ∃ handedOver, processCurrent n m
      = .ok { m with handedOver := m.handedOver ++ handedOver } := by
  induction n with
  | zero => exact ⟨[], by rw [List.append_nil]; rfl⟩
  | succ n ih =>
    obtain ⟨handedOver, hih⟩ := ih (by omega)
    have hentry := h.entry (List.getElem?_eq_getElem (show n < infos.length by omega))
    refine ⟨handedOver ++ [infos[n].contact], ?_⟩
    unfold processCurrent
    rw [hih, ok_bind]
    unfold ContactManager.entry at hentry ⊢
    dsimp only
    rw [hentry, ok_bind, List.append_assoc]
    rfl

/-- The bundles of the contacts in progress are handed over; nothing else
happens. -/
theorem processCurrentContacts_spec (h : m.Occupied infos) :
    ∃ handedOver, m.processCurrentContacts
      = .ok { m with handedOver := m.handedOver ++ handedOver } :=
  processCurrent_spec h (Nat.le_of_eq h.length.symm)

theorem handOverCurrent_spec (h : m.Occupied infos) (signal : ManagerSignal) :
    ∃ handedOver, m.handOverCurrent signal
      = .ok { m with handedOver := handedOver } := by
  unfold handOverCurrent
  split
  · obtain ⟨handedOver, hdone⟩ := processCurrentContacts_spec h
    exact ⟨_, hdone⟩
  · exact ⟨m.handedOver, rfl⟩

/-! ## Runs -/

/-- The contacts with the flag are those in the array. -/
def Tidy (m : ContactManager) : Prop :=
  ∃ infos, m.Occupied infos ∧ ∀ c, m.ActiveAt c → c ∈ infos.map ContactInfo.contact

/-- What the rest of the program does between two invocations: contacts come, go
and change, but the flag stays with the contacts that have it. -/
structure Elsewhere (m m' : ContactManager) : Prop where
  active : ∀ c, m'.ActiveAt c ↔ m.ActiveAt c
  array : m'.currentContacts = m.currentContacts
  count : m'.currentContactCount = m.currentContactCount
  signals : m'.signals = m.signals
  started : m'.started = m.started

/-- If the array is full, no contact in it is over, or the last one is. -/
def InBounds (m : ContactManager) (o : Surroundings) : Prop :=
  m.currentContactCount = m.currentContacts.length →
    (∃ i info, m.entry i = .ok info ∧ i < m.currentContactCount ∧
      m.ExpiredAt o.now info.contact = true) →
    ∃ info, m.entry (m.currentContactCount - 1) = .ok info ∧
      m.ExpiredAt o.now info.contact = true

/-- The attempts succeed, and the removals stay within the array. -/
def Smooth (m : ContactManager) (o : Surroundings) : Prop :=
  (∀ i, (o.attempt i).Succeeds) ∧ m.InBounds o

/-- Runs from the start, when no contact has the flag.  The invocations that do more
than hand over bundles have `ok`. -/
inductive Run (maxConcurrentContacts : Nat)
    (ok : ContactManager → Surroundings → Prop) : ContactManager → Prop where
  | start {table : RoutingTable}
      (h : ∀ c k, table.contacts c = some k → k.active = false) :
      Run maxConcurrentContacts ok (.initial maxConcurrentContacts table)
  | invoke {m m' : ContactManager} {signal : ManagerSignal} {o : Surroundings}
      (run : Run maxConcurrentContacts ok m) (hok : signal ≠ ⟨false, true⟩ → ok m o)
      (h : m.manageContacts signal o = .ok m') : Run maxConcurrentContacts ok m'
  | elsewhere {m m' : ContactManager} (run : Run maxConcurrentContacts ok m)
      (h : Elsewhere m m') : Run maxConcurrentContacts ok m'

theorem Elsewhere.occupied (h : Elsewhere m m') (hocc : m.Occupied infos) :
    m'.Occupied infos :=
  ⟨by rw [h.array, h.count]; exact hocc.slots, by rw [h.count]; exact hocc.length,
    hocc.nodup, fun x hx => (h.active _).mpr (hocc.active x hx)⟩

theorem InBounds.removable (h : m.InBounds o) (hocc : m.Occupied infos) :
    m.Removable o.now infos [] := by
  have hlength := hocc.length
  by_cases hfull : m.currentContactCount = m.currentContacts.length
  · by_cases hany : ∃ info ∈ infos, m.ExpiredAt o.now info.contact = true
    · obtain ⟨info, hinfo, hover⟩ := hany
      obtain ⟨i, hi⟩ := List.getElem?_of_mem hinfo
      obtain ⟨hlt, _⟩ := List.getElem?_eq_some_iff.mp hi
      obtain ⟨last, hlast, hover'⟩ := h hfull
        ⟨i, info, hocc.entry hi, by omega, hover⟩
      have hne : infos ≠ [] := by
        intro hnil
        rw [hnil] at hinfo
        cases hinfo
      obtain ⟨older, newest, heq⟩ : ∃ older newest, infos = older ++ [newest] :=
        ⟨_, _, (List.dropLast_append_getLast hne).symm⟩
      have hnewest : infos[m.currentContactCount - 1]? = some newest := by
        have hindex : m.currentContactCount - 1 = older.length := by
          rw [← hlength, heq, List.length_append, List.length_singleton]
          rfl
        rw [hindex, heq, List.getElem?_append_right (Nat.le_refl _), Nat.sub_self]
        rfl
      have hsame : newest = last := by
        have hentry := hocc.entry hnewest
        rw [hlast] at hentry
        exact (Except.ok.inj hentry).symm
      exact .inr (.inr ⟨rfl, older, newest, heq, by rw [hsame]; exact hover'⟩)
    · exact .inr (.inl fun info hinfo hover => hany ⟨info, hinfo, hover⟩)
  · have hle := hocc.le
    exact .inl (by omega)

/-- An invocation keeps the array tidy and within its bounds. -/
theorem Tidy.manageContacts (h : m.Tidy) (signal : ManagerSignal)
    (hok : signal ≠ ⟨false, true⟩ → m.Smooth o) :
    Ends (· ≠ .outOfBounds) (m.manageContacts signal o) fun m' =>
      m'.Tidy ∧ m'.currentContacts.length = m.currentContacts.length := by
  obtain ⟨infos, hocc, honly⟩ := h
  obtain ⟨handedOver, hdone⟩ := handOverCurrent_spec hocc signal
  unfold ContactManager.manageContacts
  rw [hdone, ok_bind]
  have hocc' : Occupied { m with handedOver := handedOver } infos :=
    ⟨hocc.slots, hocc.length, hocc.nodup, hocc.active⟩
  split
  · exact ends_ok ⟨⟨infos, hocc', honly⟩, rfl⟩
  · rename_i hcheck
    have hroom : Removable { m with handedOver := handedOver } o.now infos [] :=
      (hok hcheck).2.removable hocc
    refine (checkAndInform_spec hocc' hroom).imp ?_
    rintro m' ⟨new, hc⟩
    refine ⟨⟨_, hc.occupied, fun c ha => ?_⟩, hc.room⟩
    rw [List.map_append, List.mem_append]
    rcases hc.only (hok hcheck).1 c ha with ⟨hold, hnot⟩ | hin
    · obtain ⟨info, hinfo, rfl⟩ := List.mem_map.mp (honly c hold)
      refine .inl (List.mem_map_of_mem (List.mem_filter.mpr ⟨hinfo, ?_⟩))
      rw [Bool.not_eq_true', Bool.eq_false_iff]
      intro hover
      exact hnot ⟨List.mem_map_of_mem hinfo, hover⟩
    · exact .inr hin

theorem tidy_initial (maxConcurrentContacts : Nat) {table : RoutingTable}
    (h : ∀ c k, table.contacts c = some k → k.active = false) :
    (ContactManager.initial maxConcurrentContacts table).Tidy := by
  refine ⟨[], ⟨rfl, rfl, List.nodup_nil, ?_⟩, ?_⟩
  · intro info hinfo
    cases hinfo
  · rintro c ⟨k, hk, hactive⟩
    rw [h c k hk] at hactive
    cases hactive

theorem Run.tidy {maxConcurrentContacts : Nat}
    (h : Run maxConcurrentContacts Smooth m) :
    m.Tidy ∧ m.currentContacts.length = maxConcurrentContacts := by
  induction h with
  | start hnone => exact ⟨tidy_initial _ hnone, List.length_replicate⟩
  | invoke run hok hm ih =>
    obtain ⟨htidy, hroom⟩ := (ih.1.manageContacts _ hok).ok hm
    exact ⟨htidy, hroom.trans ih.2⟩
  | elsewhere run he ih =>
    obtain ⟨⟨infos, hocc, honly⟩, hroom⟩ := ih
    refine ⟨⟨infos, he.occupied hocc, fun c hc => honly c ((he.active c).mp hc)⟩, ?_⟩
    rw [he.array]
    exact hroom

/-- The array and the flags agree. -/
structure Consistent (maxConcurrentContacts : Nat) (m : ContactManager) : Prop where
  active : ∀ c, m.ActiveAt c ↔ ∃ i info, i < m.currentContactCount ∧
    m.entry i = .ok info ∧ info.contact = c
  distinct : ∀ i j info info', i < m.currentContactCount → j < m.currentContactCount →
    m.entry i = .ok info → m.entry j = .ok info' → info.contact = info'.contact → i = j
  count : m.currentContactCount ≤ maxConcurrentContacts
  bounds : ∀ signal o, (signal ≠ ⟨false, true⟩ → m.Smooth o) →
    m.manageContacts signal o ≠ .error .outOfBounds

theorem Occupied.entry_iff (h : m.Occupied infos) (hi : i < m.currentContactCount) :
    m.entry i = .ok info ↔ infos[i]? = some info := by
  have hlt : i < infos.length := by rw [h.length]; exact hi
  have hentry := h.entry (List.getElem?_eq_getElem hlt)
  rw [hentry, List.getElem?_eq_getElem hlt]
  constructor
  · intro heq
    rw [Except.ok.inj heq]
  · intro heq
    rw [Option.some.inj heq]

theorem Tidy.consistent (h : m.Tidy) :
    m.Consistent m.currentContacts.length := by
  have htidy := h
  obtain ⟨infos, hocc, honly⟩ := h
  refine ⟨fun c => ⟨fun hc => ?_, ?_⟩, ?_, hocc.le, ?_⟩
  · obtain ⟨info, hinfo, rfl⟩ := List.mem_map.mp (honly c hc)
    obtain ⟨i, hi⟩ := List.getElem?_of_mem hinfo
    obtain ⟨hlt, _⟩ := List.getElem?_eq_some_iff.mp hi
    exact ⟨i, info, by rw [← hocc.length]; exact hlt, hocc.entry hi, rfl⟩
  · rintro ⟨i, info, hi, hentry, rfl⟩
    exact hocc.active info (List.mem_of_getElem? ((hocc.entry_iff hi).mp hentry))
  · intro i j info info' hi hj hentry hentry' hsame
    have hgi := (hocc.entry_iff hi).mp hentry
    have hgj := (hocc.entry_iff hj).mp hentry'
    have hmi : (infos.map ContactInfo.contact)[i]? = some info.contact := by
      rw [List.getElem?_map, hgi]
      rfl
    have hmj : (infos.map ContactInfo.contact)[j]? = some info.contact := by
      rw [List.getElem?_map, hgj, hsame]
      rfl
    have hlt : i < (infos.map ContactInfo.contact).length := by
      rw [List.length_map, hocc.length]
      exact hi
    exact (List.getElem?_inj hlt hocc.nodup).mp (hmi.trans hmj.symm)
  · intro signal o hok hfault
    exact (htidy.manageContacts signal hok).error hfault rfl

/-- In a run in which every attempt succeeds, and no entry but the last ends
while the array is full, the array and the flags agree. -/
theorem contacts_consistent (maxConcurrentContacts : Nat) (m : ContactManager)
    (h : Run maxConcurrentContacts Smooth m) : m.Consistent maxConcurrentContacts := by
  obtain ⟨htidy, hroom⟩ := h.tidy
  rw [← hroom]
  exact htidy.consistent

/-! ## Some contacts -/

/-- Contacts with one node: the contact `c` begins at 5 and ends at `toTime c`. -/
def planned (count : Nat) (toTime : ContactPtr → Nat) : RoutingTable where
  nodes n := if n = 0 then some ⟨"dtn:a".toList, [], List.range count⟩ else none
  contacts c := if c < count then some ⟨some 0, 5, toTime c, [], false⟩ else none
  nodeList := [0]
  contactList := List.range count
  eidTable _ := none

/-- Every attempt succeeds. -/
def attemptsSucceed (now : Nat) : Surroundings :=
  ⟨now, fun _ => some "mtcp:".toList, fun _ => ⟨some 0, true, true⟩⟩

/-- The CLA of the contact is not found. -/
def claMissing (now : Nat) : Surroundings :=
  ⟨now, fun _ => some "mtcp:".toList, fun _ => ⟨none, true, true⟩⟩

theorem planned_inactive (count : Nat) (toTime : ContactPtr → Nat) (c : ContactPtr)
    (k : Contact) (h : (planned count toTime).contacts c = some k) :
    k.active = false := by
  unfold planned at h
  dsimp only at h
  split at h
  · cases h
    rfl
  · cases h

/-- Two contacts are started in their time, and one of them ends. -/
theorem contacts_consistent_two : ∃ m m',
    (ContactManager.initial 10 (planned 2 fun c => if c = 0 then 9 else 12)).manageContacts
        ⟨true, true⟩ (attemptsSucceed 6) = .ok m ∧
      m.manageContacts ⟨true, true⟩ (attemptsSucceed 9) = .ok m' ∧
      m.currentContactCount = 2 ∧ m'.currentContactCount = 1 ∧ m'.ActiveAt 1 ∧
      m'.signals = [0] ∧ m.Consistent 10 ∧ m'.Consistent 10 := by
  obtain ⟨m, m', hm, hm', hcount, hcount', hactive, hsignals⟩ : ∃ m m', (ContactManager.initial 10
      (planned 2 fun c => if c = 0 then 9 else 12)).manageContacts ⟨true, true⟩
        (attemptsSucceed 6) = .ok m ∧
      m.manageContacts ⟨true, true⟩ (attemptsSucceed 9) = .ok m' ∧ m.currentContactCount = 2 ∧
      m'.currentContactCount = 1 ∧ m'.ActiveAt 1 ∧ m'.signals = [0] :=
    ⟨_, _, rfl, rfl, rfl, rfl, ⟨_, rfl, rfl⟩, rfl⟩
  have hattempts : ∀ now i, ((attemptsSucceed now).attempt i).Succeeds :=
    fun _ _ => ⟨rfl, rfl, rfl⟩
  have hfirst : Run 10 Smooth m := by
    refine .invoke (.start (planned_inactive _ _)) (fun _ => ⟨hattempts 6, fun hfull => ?_⟩) hm
    exact absurd hfull (by decide)
  have hsecond : Run 10 Smooth m' := by
    refine .invoke hfirst (fun _ => ⟨hattempts 9, fun hfull => ?_⟩) hm'
    rw [hfirst.tidy.2, hcount] at hfull
    exact absurd hfull (by decide)
  exact ⟨m, m', hm, hm', hcount, hcount', hactive, hsignals, contacts_consistent 10 m hfirst,
    contacts_consistent 10 m' hsecond⟩

/-- A contact whose CLA is not found has the flag and is not in the array.  Ten
contacts fill the array, and when the first of them ends, the entry behind the
array is read. -/
theorem contacts_inconsistent :
    (∃ m, Run 10 (fun _ _ => True) m ∧ m.ActiveAt 0 ∧ m.currentContactCount = 0 ∧
      ¬ m.Consistent 10) ∧
    ∃ m, Run 10 (fun _ _ => True) m ∧
      m.manageContacts ⟨true, true⟩ (attemptsSucceed 9) = .error .outOfBounds := by
  constructor
  · obtain ⟨m, hm, hcount, hactive⟩ : ∃ m, (ContactManager.initial 10
        (planned 1 fun _ => 9)).manageContacts ⟨true, true⟩ (claMissing 6) = .ok m ∧
        m.currentContactCount = 0 ∧ m.ActiveAt 0 := ⟨_, rfl, rfl, _, rfl, rfl⟩
    refine ⟨m, .invoke (.start (planned_inactive _ _)) (fun _ => trivial) hm, hactive, hcount, ?_⟩
    intro h
    obtain ⟨i, _, hi, _⟩ := (h.active 0).mp hactive
    omega
  · obtain ⟨m, hm, hover⟩ : ∃ m, (ContactManager.initial 10
        (planned 10 fun c => if c = 0 then 9 else 12)).manageContacts ⟨true, true⟩
          (attemptsSucceed 6) = .ok m ∧
        m.manageContacts ⟨true, true⟩ (attemptsSucceed 9) = .error .outOfBounds :=
      ⟨_, rfl, rfl⟩
    exact ⟨m, .invoke (.start (planned_inactive _ _)) (fun _ => trivial) hm, hover⟩

end ContactManager

end Upcn
