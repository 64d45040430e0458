import Upcn.Router.Queueing

/-!
# Bundles taken back from their routes

`router_add_bundle_to_route` of `router.c` with the allocations that may fail in it, and
what `router_remove_bundle_from_route` does to the routes of bundles that were just added.

* `Rolled` says which entries the contacts have got since a state, `Lines` which of them are
  left during a rollback.
* `NoEntry` says that none of the entries before has the id that is removed, `FreedLast` that
  a record is freed when it is on no list any more.
* `removeAll_restores_iff` says when a rollback leaves the queues as they were: it is put
  together from `removeAll_total` and `removeAll_rolled`, and from `removeAll_loses` and
  `removeAll_freedLast` for the other direction.
* `freedLast_of_before` is for bundles that find their own entries only.
-/

namespace Upcn.Queueing

/-- The allocations of one call of `router_add_bundle_to_route`. -/
structure RouteMemory where
  routedMem : Option RbPtr
  destinationMem : Bool
  contactsMem : Bool
  /-- The entry for the contact at this place of the route. -/
  entryMem : Nat → Bool

namespace RoutingState

/-- The record at `r` is freed. -/
def drop (s : RoutingState) (r : RbPtr) : RoutingState :=
  { s with routed := Function.update s.routed r .freed }

/-- The record at `r` is written. -/
def write (s : RoutingState) (r : RbPtr) (rb : RoutedBundle) : RoutingState :=
  { s with routed := Function.update s.routed r (.live rb) }

/-- The loop of `router_update_routed_bundle`, from the place `i` of the route on: the
contacts that get an entry. -/
def addEntries (entryMem : Nat → Bool) (r : RbPtr) (rb : RoutedBundle) :
    Nat → List ContactPtr → RoutingState → Except Fault (List ContactPtr × RoutingState)
  | _, [], s => .ok ([], s)
  | i, c :: rest, s =>
    if 0 < (s.contacts c).remaining .low then
      if entryMem i then do
        let (placed, s) ← addEntries entryMem r rb (i + 1) rest
          (s.setContact c ((s.contacts c).append r rb))
        return (c :: placed, s)
      else addEntries entryMem r rb (i + 1) rest s
    else .error .assertion

/-- `router_add_bundle_to_route`, for a bundle with this id, priority and size.  A record
that is in use is never the result of `malloc`. -/
def routerAddBundleToRoute (s : RoutingState) (mem : RouteMemory)
    (contacts : List ContactPtr) (id : Nat) (prio : Priority) (size : Nat) :
    Except Fault (Bool × RoutingState) :=
  match mem.routedMem with
  | none => .ok (false, s)
  | some r =>
    if s.routed r ≠ .unused then .error .useAfterFree
    else if mem.destinationMem = false then .ok (false, s.drop r)
    else if contacts = [] then .error .assertion
    else if mem.contactsMem = false then .ok (false, s.drop r)
    else do
      let rb : RoutedBundle := ⟨id, prio, size, contacts⟩
      let (placed, s) ← addEntries mem.entryMem r rb 0 contacts (s.write r rb)
      if placed = [] then return (false, s.drop r)
      else return (true, s.write r { rb with contacts := placed })

end RoutingState

/-- The contacts of the route that get an entry, when the places are counted from `i`. -/
def placedFrom (entryMem : Nat → Bool) (i : Nat) (contacts : List ContactPtr) :
    List ContactPtr :=
  ((contacts.zipIdx i).filter fun y => entryMem y.2).map Prod.fst

/-- The contacts of a route that get an entry. -/
def RouteMemory.placed (mem : RouteMemory) (contacts : List ContactPtr) : List ContactPtr :=
  placedFrom mem.entryMem 0 contacts

/-- The bundle is added to a route with these contacts. -/
def RouteMemory.Places (mem : RouteMemory) (contacts : List ContactPtr) : Prop :=
  mem.routedMem.isSome ∧ mem.destinationMem = true ∧ mem.contactsMem = true ∧
    mem.placed contacts ≠ []

theorem placedFrom_cons (entryMem : Nat → Bool) (i : Nat) (c : ContactPtr)
    (rest : List ContactPtr) :
    placedFrom entryMem i (c :: rest) = if entryMem i then c :: placedFrom entryMem (i + 1) rest
      else placedFrom entryMem (i + 1) rest := by
  rw [placedFrom, List.zipIdx_cons]
  cases hentry : entryMem i <;> simp [placedFrom, hentry]

theorem placedFrom_sublist (entryMem : Nat → Bool) (i : Nat) (contacts : List ContactPtr) :
    (placedFrom entryMem i contacts).Sublist contacts := by
  have hsub := (List.filter_sublist (p := fun y : ContactPtr × Nat => entryMem y.2)
    (l := contacts.zipIdx i)).map Prod.fst
  rwa [List.zipIdx_map_fst] at hsub

/-! ## Entries behind a list -/

/-- An entry of a contact, with the record of its bundle. -/
abbrev Entry := RbPtr × RoutedBundle

/-- The entries are at the end of the list. -/
def Contact.extend (k : Contact) (entries : List Entry) : Contact :=
  entries.foldl (fun k x => k.append x.1 x.2) k

variable {k : Contact} {entries front back : List Entry} {x : Entry}

@[simp] theorem Contact.extend_nil (k : Contact) : k.extend [] = k := rfl

theorem Contact.extend_append (k : Contact) (front back : List Entry) :
    k.extend (front ++ back) = (k.extend front).extend back :=
  List.foldl_append ..

theorem Contact.contactBundles_extend (k : Contact) (entries : List Entry) :
    (k.extend entries).contactBundles = k.contactBundles ++ entries.map Prod.fst := by
  induction entries generalizing k with
  | nil => simp
  | cons x rest ih =>
    show ((k.append x.1 x.2).extend rest).contactBundles = _
    rw [ih]
    simp [Contact.append]

theorem Contact.hasNode_extend (k : Contact) (entries : List Entry) :
    (k.extend entries).hasNode = k.hasNode := by
  induction entries generalizing k with
  | nil => rfl
  | cons x rest ih => exact ih (k.append x.1 x.2)

theorem Contact.bundleCount_extend (k : Contact) (entries : List Entry) :
    (k.extend entries).bundleCount = k.bundleCount + UInt8.ofNat entries.length := by
  induction entries generalizing k with
  | nil => simp
  | cons x rest ih =>
    show ((k.append x.1 x.2).extend rest).bundleCount = _
    rw [ih, List.length_cons, UInt8.ofNat_add]
    show k.bundleCount + 1 + UInt8.ofNat rest.length = _
    rw [UInt8.add_assoc, UInt8.add_comm 1]
    rfl

theorem Contact.remaining_extend (k : Contact) (entries : List Entry) (level : Priority) :
    (k.extend entries).remaining level =
      k.remaining level - (entries.map fun x => x.2.load level).sum := by
  induction entries generalizing k with
  | nil => simp
  | cons x rest ih =>
    show ((k.append x.1 x.2).extend rest).remaining level = _
    rw [ih, List.map_cons, List.sum_cons]
    show k.remaining level - x.2.load level - _ = _
    omega

theorem Contact.eq_of_fields {k l : Contact} (hnode : k.hasNode = l.hasNode)
    (hbundles : k.contactBundles = l.contactBundles) (hcount : k.bundleCount = l.bundleCount)
    (hremaining : ∀ level, k.remaining level = l.remaining level) : k = l := by
  obtain ⟨_, _, _, remaining⟩ := k
  obtain ⟨_, _, _, other⟩ := l
  obtain rfl : remaining = other := funext hremaining
  simp_all

/-- The first entry of a bundle is taken back. -/
theorem Contact.withdraw_extend (hold : x.1 ∉ k.contactBundles)
    (hfront : x.1 ∉ front.map Prod.fst) :
    (k.extend (front ++ x :: back)).withdraw x.1 x.2 = k.extend (front ++ back) := by
  apply Contact.eq_of_fields
  · show (k.extend (front ++ x :: back)).hasNode = _
    rw [hasNode_extend, hasNode_extend]
  · show (k.extend (front ++ x :: back)).contactBundles.erase x.1 = _
    rw [contactBundles_extend, contactBundles_extend, List.erase_append_right _ hold,
      List.map_append, List.erase_append_right _ hfront, List.map_cons, List.erase_cons_head,
      List.map_append]
  · show (k.extend (front ++ x :: back)).bundleCount - 1 = _
    rw [bundleCount_extend, bundleCount_extend]
    have hlength : (front ++ x :: back).length = (front ++ back).length + 1 := by
      simp only [List.length_append, List.length_cons]
      omega
    rw [hlength, UInt8.ofNat_add, ← UInt8.add_assoc]
    exact UInt8.add_sub_cancel _ _
  · intro level
    show (k.extend (front ++ x :: back)).remaining level + x.2.load level = _
    rw [remaining_extend, remaining_extend]
    simp only [List.map_append, List.map_cons, List.sum_append, List.sum_cons]
    omega

/-! ## Bundles are added -/

namespace RoutingState

variable {s s' s₀ : RoutingState} {r : RbPtr} {rb : RoutedBundle} {c : ContactPtr}
  {contacts placed : List ContactPtr} {entryMem : Nat → Bool} {i id : Nat} {prio : Priority}
  {size : Nat} {mem : RouteMemory}

/-- What the loop of `router_update_routed_bundle` does.  The contacts of the record make no
difference to it. -/
theorem addEntries_ok (others : List ContactPtr)
    (h : addEntries entryMem r ⟨id, prio, size, others⟩ i contacts s = .ok (placed, s')) :
    placed = placedFrom entryMem i contacts ∧ s'.routed = s.routed ∧
      ∀ c (final : List ContactPtr), s'.contacts c =
        (s.contacts c).extend (List.replicate (placed.count c) (r, ⟨id, prio, size, final⟩)) := by
  induction contacts generalizing i s placed with
  | nil =>
    cases h
    exact ⟨rfl, rfl, fun c final => rfl⟩
  | cons c rest ih =>
    rw [addEntries] at h
    rw [placedFrom_cons]
    split at h
    · split at h
      · rename_i hentry
        obtain ⟨⟨later, s₁⟩, hloop, h⟩ := Outcome.bind_eq_ok h
        cases h
        obtain ⟨hplaced, hrouted, hcontacts⟩ := ih hloop
        refine ⟨by rw [if_pos hentry, hplaced], hrouted, fun d final => ?_⟩
        rw [hcontacts d final]
        by_cases hd : d = c
        · rw [hd, List.count_cons_self, List.replicate_succ]
          simp only [setContact, Function.update_self]
          rfl
        · rw [List.count_cons_of_ne (Ne.symm hd)]
          simp only [setContact, Function.update_of_ne hd]
      · rename_i hentry
        rw [if_neg hentry]
        exact ih h
    · cases h

/-- The loop ends at an `ASSERT`, if it does not return. -/
theorem addEntries_error {e : Fault} (h : addEntries entryMem r rb i contacts s = .error e) :
    e = .assertion := by
  induction contacts generalizing i s with
  | nil => cases h
  | cons c rest ih =>
    rw [addEntries] at h
    split at h
    · split at h
      · rcases hloop : addEntries entryMem r rb (i + 1) rest
          (s.setContact c ((s.contacts c).append r rb)) with e' | y
        · rw [hloop] at h
          cases h
          exact ih hloop
        · rw [hloop] at h
          cases h
      · exact ih h
    · cases h
      rfl

/-- A bundle that is not added leaves no entry, and a bundle that is added has its entries
behind the lists. -/
theorem routerAddBundleToRoute_ok {added : Bool}
    (h : s.routerAddBundleToRoute mem contacts id prio size = .ok (added, s')) :
    (added = true ↔ mem.Places contacts) ∧
      (added = false → s'.contacts = s.contacts ∧
        ∀ q, s.routed q ≠ .unused → s'.routed q = s.routed q) ∧
      (added = true → ∃ r, mem.routedMem = some r ∧ s.routed r = .unused ∧
        s'.routed = Function.update s.routed r (.live ⟨id, prio, size, mem.placed contacts⟩) ∧
        ∀ c, s'.contacts c = (s.contacts c).extend (List.replicate
          ((mem.placed contacts).count c) (r, ⟨id, prio, size, mem.placed contacts⟩))) := by
  have hdrop : ∀ {s : RoutingState} {r : RbPtr}, s.routed r = .unused →
      ∀ q, s.routed q ≠ .unused → (s.drop r).routed q = s.routed q := by
    intro s r hr q hq
    have hne : q ≠ r := by
      rintro rfl
      exact hq hr
    exact Function.update_of_ne hne _ _
  unfold routerAddBundleToRoute at h
  unfold RouteMemory.Places
  split at h
  · rename_i hnone
    cases h
    exact ⟨by simp [hnone], fun _ => ⟨rfl, fun _ _ => rfl⟩, by simp⟩
  · rename_i r hsome
    split_ifs at h with hunused hdest hempty hcontacts
    · rw [not_not] at hunused
      cases h
      exact ⟨by simp [hdest], fun _ => ⟨rfl, hdrop hunused⟩, by simp⟩
    · rw [not_not] at hunused
      cases h
      exact ⟨by simp [hcontacts], fun _ => ⟨rfl, hdrop hunused⟩, by simp⟩
    · rw [not_not] at hunused
      rw [Bool.not_eq_false] at hdest hcontacts
      obtain ⟨⟨placed, s₁⟩, hloop, h⟩ := Outcome.bind_eq_ok h
      obtain ⟨hplaced, hrouted, hentries⟩ := addEntries_ok contacts hloop
      obtain rfl : placed = mem.placed contacts := hplaced
      dsimp only at h
      split at h
      · rename_i hnil
        cases h
        refine ⟨by simp [hnil], fun _ => ⟨?_, fun q hq => ?_⟩, by simp⟩
        · funext c
          have hc := hentries c []
          rw [hnil] at hc
          exact hc
        · have hne : q ≠ r := by
            rintro rfl
            exact hq hunused
          show Function.update s₁.routed r .freed q = _
          rw [Function.update_of_ne hne, hrouted]
          exact Function.update_of_ne hne _ _
      · rename_i hne
        cases h
        refine ⟨by simp [hsome, hdest, hcontacts, hne], by simp,
          fun _ => ⟨r, hsome, hunused, ?_, fun c => hentries c _⟩⟩
        show Function.update s₁.routed r _ = _
        rw [hrouted]
        show Function.update (Function.update s.routed r _) r _ = _
        rw [Function.update_idem]

/-- When `malloc` returns a record that is not in use, only an `ASSERT` can fail. -/
theorem routerAddBundleToRoute_error {e : Fault}
    (hunused : ∀ r, mem.routedMem = some r → s.routed r = .unused)
    (h : s.routerAddBundleToRoute mem contacts id prio size = .error e) : e = .assertion := by
  unfold routerAddBundleToRoute at h
  split at h
  · cases h
  · rename_i r hsome
    rw [if_neg (not_not.mpr (hunused r hsome))] at h
    split_ifs at h
    · cases h
      rfl
    · dsimp only at h
      cases hloop : addEntries mem.entryMem r ⟨id, prio, size, contacts⟩ 0 contacts
        (s.write r ⟨id, prio, size, contacts⟩) with
      | error e' =>
        rw [hloop] at h
        cases h
        exact addEntries_error hloop
      | ok y =>
        rw [hloop, Outcome.ok_bind] at h
        split at h <;> cases h

/-! ## Bundles are taken back -/

/-- What the search finds is the first entry with the id. -/
theorem findBundle_ok {entries : List RbPtr} {found : Option (RbPtr × RoutedBundle)}
    (h : s.findBundle id entries = .ok found) :
    (found = none ∧ ∀ r ∈ entries, ∃ rb, s.routed r = .live rb ∧ rb.id ≠ id) ∨
      ∃ r rb front back, found = some (r, rb) ∧ entries = front ++ r :: back ∧
        s.routed r = .live rb ∧ rb.id = id ∧
        ∀ q ∈ front, ∃ rb, s.routed q = .live rb ∧ rb.id ≠ id := by
  induction entries with
  | nil =>
    cases h
    exact .inl ⟨rfl, by simp⟩
  | cons r rest ih =>
    rw [findBundle] at h
    obtain ⟨rb, hload, h⟩ := Outcome.bind_eq_ok h
    have hlive : s.routed r = .live rb := by
      unfold load at hload
      split at hload
      · rename_i hlive
        cases hload
        exact hlive
      · cases hload
    split at h
    · rename_i hid
      cases h
      exact .inr ⟨r, rb, [], rest, rfl, rfl, hlive, hid, by simp⟩
    · rename_i hid
      rcases ih h with ⟨hfound, hrest⟩ | ⟨q, other, front, back, hfound, hsplit, hq, hother, hfront⟩
      · exact .inl ⟨hfound, List.forall_mem_cons.mpr ⟨⟨rb, hlive, hid⟩, hrest⟩⟩
      · refine .inr ⟨q, other, r :: front, back, hfound, by rw [hsplit]; rfl, hq, hother, ?_⟩
        exact List.forall_mem_cons.mpr ⟨⟨rb, hlive, hid⟩, hfront⟩

/-- The queued bundles of a state have their records. -/
def QueuedLive (s : RoutingState) : Prop :=
  ∀ c, ∀ r ∈ (s.contacts c).contactBundles, ∃ rb, s.routed r = .live rb

/-- No bundle with the id is queued on the contact. -/
def NoEntry (s : RoutingState) (c : ContactPtr) (id : Nat) : Prop :=
  ∀ r ∈ (s.contacts c).contactBundles, ∀ rb, s.routed r = .live rb → rb.id ≠ id

/-- Since `s₀` the contacts have got the entries `N`, for bundles that were added since. -/
structure Rolled (s₀ s : RoutingState) (N : ContactPtr → List Entry) : Prop where
  contacts : ∀ c, s.contacts c = (s₀.contacts c).extend (N c)
  added : ∀ c, ∀ x ∈ N c, s₀.routed x.1 = .unused
  taken : ∀ c, ∀ x ∈ N c, s.routed x.1 ≠ .unused
  records : ∀ c, ∀ x ∈ N c, ∀ rb, s.routed x.1 = .live rb → rb = x.2
  before : ∀ r, s₀.routed r ≠ .unused → s.routed r = s₀.routed r

/-- The entries of bundles with the id. -/
def line (id : Nat) (entries : List Entry) : List Entry := entries.filter fun x => x.2.id = id

/-- What the search for the id finds on the contacts, one after the other. -/
def finds (id : Nat) (N : ContactPtr → List Entry) (contacts : List ContactPtr) : List RbPtr :=
  contacts.zipIdx.filterMap fun x =>
    (line id (N x.1))[(contacts.take x.2).count x.1]?.map Prod.fst

theorem finds_cons (id : Nat) {N N' : ContactPtr → List Entry} {c : ContactPtr}
    {rest : List ContactPtr}
    (hline : ∀ d, line id (N' d) = (line id (N d)).drop ([c].count d)) :
    finds id N (c :: rest) =
      ((line id (N c)).head?.map Prod.fst).toList ++ finds id N' rest := by
  have htail : (rest.zipIdx 1).filterMap (fun x =>
      (line id (N x.1))[((c :: rest).take x.2).count x.1]?.map Prod.fst) = finds id N' rest := by
    rw [List.zipIdx_succ, List.filterMap_map]
    refine List.filterMap_congr fun x _ => ?_
    show (line id (N x.1))[((c :: rest).take (x.2 + 1)).count x.1]?.map Prod.fst = _
    rw [hline, List.getElem?_drop, List.take_succ_cons, ← List.count_append]
    rfl
  rw [finds, List.zipIdx_cons, List.filterMap_cons, htail]
  dsimp only
  rw [List.take_zero, List.count_nil, ← List.head?_eq_getElem?]
  cases (line id (N c)).head? <;> rfl

theorem mem_finds {N : ContactPtr → List Entry} (h : r ∈ finds id N contacts) :
    ∃ d, ∃ x ∈ line id (N d), x.1 = r := by
  obtain ⟨y, -, hr⟩ := List.mem_filterMap.mp h
  obtain ⟨x, hx, rfl⟩ := Option.map_eq_some_iff.mp hr
  exact ⟨y.1, x, List.mem_of_getElem? hx, rfl⟩

end RoutingState

namespace RoutingState

variable {s s' s₀ : RoutingState} {r : RbPtr} {rb : RoutedBundle} {c : ContactPtr}
  {contacts : List ContactPtr} {id : Nat} {found : Option RbPtr} {N : ContactPtr → List Entry}

/-- What `router_remove_bundle_from_contact` does. -/
theorem removeFromContact_ok (h : s.routerRemoveBundleFromContact c id = .ok (found, s')) :
    (found = none ∧ s' = s ∧
        ∀ r ∈ (s.contacts c).contactBundles, ∃ rb, s.routed r = .live rb ∧ rb.id ≠ id) ∨
      ∃ r rb front back, found = some r ∧
        s' = s.setContact c ((s.contacts c).withdraw r rb) ∧
        (s.contacts c).contactBundles = front ++ r :: back ∧ s.routed r = .live rb ∧ rb.id = id ∧
        ∀ q ∈ front, ∃ rb, s.routed q = .live rb ∧ rb.id ≠ id := by
  unfold routerRemoveBundleFromContact at h
  obtain ⟨found', hfind, h⟩ := Outcome.bind_eq_ok h
  rcases findBundle_ok hfind with ⟨rfl, hnone⟩ | ⟨r, rb, front, back, rfl, hsplit⟩
  · cases h
    exact .inl ⟨rfl, rfl, hnone⟩
  · cases h
    exact .inr ⟨r, rb, front, back, rfl, rfl, hsplit⟩

/-- Of the entries behind a list, the first one of a bundle that is not in the list. -/
theorem split_behind {old front back : List RbPtr} {entries : List Entry}
    (h : old ++ entries.map Prod.fst = front ++ r :: back) (hr : r ∉ old) :
    ∃ before x after, entries = before ++ x :: after ∧ x.1 = r ∧
      front = old ++ before.map Prod.fst := by
  rcases List.append_eq_append_iff.mp h with ⟨middle, hfront, hentries⟩ | ⟨middle, hold, hback⟩
  · obtain ⟨before, rest, rfl, rfl, hrest⟩ := List.map_eq_append_iff.mp hentries
    obtain ⟨x, after, rfl, hx, -⟩ := List.map_eq_cons_iff.mp hrest
    exact ⟨before, x, after, rfl, hx, hfront⟩
  · cases middle with
    | nil =>
      obtain ⟨x, after, rfl, hx, -⟩ := List.map_eq_cons_iff.mp hback.symm
      exact ⟨[], x, after, rfl, hx, by simpa using hold.symm⟩
    | cons y rest =>
      obtain ⟨rfl, -⟩ := List.cons.inj hback
      exact absurd (hold ▸ List.mem_append_right _ List.mem_cons_self) hr

/-- One contact: the first entry with the id is taken back, if there is one. -/
theorem removeFromContact_rolled (hrolled : Rolled s₀ s N) (hlive : QueuedLive s₀)
    (hno : NoEntry s₀ c id) (h : s.routerRemoveBundleFromContact c id = .ok (found, s')) :
    ∃ N', Rolled s₀ s' N' ∧ s'.routed = s.routed ∧
      found = (line id (N c)).head?.map Prod.fst ∧
      ∀ d i, line i (N' d) = (line i (N d)).drop (if i = id then [c].count d else 0) := by
  have hbundles : (s.contacts c).contactBundles =
      (s₀.contacts c).contactBundles ++ (N c).map Prod.fst := by
    rw [hrolled.contacts, Contact.contactBundles_extend]
  rcases removeFromContact_ok h with
    ⟨rfl, rfl, hnone⟩ | ⟨r, rb, front, back, rfl, rfl, hsplit, hr, hid, hfront⟩
  · have hnil : line id (N c) = [] := by
      refine List.filter_eq_nil_iff.mpr fun x hx => ?_
      obtain ⟨rb, hrb, hne⟩ := hnone x.1 (by
        rw [hbundles]
        exact List.mem_append_right _ (List.mem_map_of_mem hx))
      rw [← hrolled.records c x hx rb hrb]
      simpa using hne
    refine ⟨N, hrolled, rfl, by rw [hnil]; rfl, fun d i => ?_⟩
    split
    · rename_i hi
      by_cases hd : d = c
      · rw [hd, hi, hnil, List.drop_nil]
      · rw [List.count_cons_of_ne (Ne.symm hd), List.count_nil, List.drop_zero]
    · rw [List.drop_zero]
  · have hold : r ∉ (s₀.contacts c).contactBundles := by
      intro hmem
      obtain ⟨other, hother⟩ := hlive c r hmem
      have hsame := hrolled.before r (by rw [hother]; simp)
      rw [hr, hother] at hsame
      cases hsame
      exact hno r hmem rb hother hid
    rw [hbundles] at hsplit
    obtain ⟨before, x, after, hN, rfl, hbefore⟩ := split_behind hsplit hold
    have hmem : ∀ y ∈ before, y ∈ N c := fun y hy => by
      rw [hN]
      exact List.mem_append_left _ hy
    have hx : x ∈ N c := by
      rw [hN]
      exact List.mem_append_right _ List.mem_cons_self
    obtain rfl := hrolled.records c x hx rb hr
    have hskipped : ∀ y ∈ before, y.2.id ≠ id := by
      intro y hy
      obtain ⟨other, hother, hne⟩ := hfront y.1 (by
        rw [hbefore]
        exact List.mem_append_right _ (List.mem_map_of_mem hy))
      rwa [← hrolled.records c y (hmem y hy) other hother]
    have hfirst : x.1 ∉ before.map Prod.fst := by
      intro hmem'
      obtain ⟨other, hother, hne⟩ := hfront x.1 (by
        rw [hbefore]
        exact List.mem_append_right _ hmem')
      rw [hr] at hother
      cases hother
      exact hne hid
    have hnone : line id before = [] :=
      List.filter_eq_nil_iff.mpr fun y hy => by simpa using hskipped y hy
    have hline : line id (N c) = x :: line id after := by
      rw [hN, line, List.filter_append, List.filter_cons_of_pos (by simpa using hid)]
      show line id before ++ x :: line id after = _
      rw [hnone, List.nil_append]
    have hsub : ∀ d, ∀ y ∈ Function.update N c (before ++ after) d, y ∈ N d := by
      intro d y hy
      by_cases hd : d = c
      · rw [hd, Function.update_self] at hy
        rw [hd, hN]
        rcases List.mem_append.mp hy with hy | hy
        · exact List.mem_append_left _ hy
        · exact List.mem_append_right _ (List.mem_cons_of_mem _ hy)
      · rwa [Function.update_of_ne hd] at hy
    refine ⟨Function.update N c (before ++ after), ⟨fun d => ?_,
      fun d y hy => hrolled.added d y (hsub d y hy), fun d y hy => hrolled.taken d y (hsub d y hy),
      fun d y hy => hrolled.records d y (hsub d y hy), hrolled.before⟩, rfl,
      by rw [hline]; rfl, fun d i => ?_⟩
    · by_cases hd : d = c
      · rw [hd]
        simp only [setContact, Function.update_self]
        rw [hrolled.contacts, hN]
        exact Contact.withdraw_extend hold hfirst
      · simp only [setContact, Function.update_of_ne hd]
        exact hrolled.contacts d
    · by_cases hd : d = c
      · rw [hd, Function.update_self]
        split
        · rename_i hi
          rw [hi, hline, List.count_cons_self, List.count_nil, List.drop_succ_cons, List.drop_zero,
            line, List.filter_append]
          show line id before ++ line id after = _
          rw [hnone, List.nil_append]
        · rename_i hi
          have hne : ¬ x.2.id = i := fun heq => hi (heq.symm.trans hid)
          rw [hN, List.drop_zero, line, line, List.filter_append, List.filter_append,
            List.filter_cons_of_neg (by simpa using hne)]
      · rw [Function.update_of_ne hd, List.count_cons_of_ne (Ne.symm hd), List.count_nil, ite_self,
          List.drop_zero]

/-- The contacts of one route. -/
theorem removeFromContacts_rolled (hrolled : Rolled s₀ s N) (hlive : QueuedLive s₀)
    (hno : ∀ c ∈ contacts, NoEntry s₀ c id) {start : Option RbPtr}
    (h : removeFromContacts id s start contacts = .ok (found, s')) :
    ∃ N', Rolled s₀ s' N' ∧ s'.routed = s.routed ∧
      found = (finds id N contacts).getLast?.or start ∧
      ∀ d i, line i (N' d) = (line i (N d)).drop (if i = id then contacts.count d else 0) := by
  induction contacts generalizing s start N with
  | nil =>
    cases h
    exact ⟨N, hrolled, rfl, rfl, fun d i => by simp⟩
  | cons c rest ih =>
    rw [removeFromContacts] at h
    obtain ⟨⟨tmp, s₁⟩, hfirst, h⟩ := Outcome.bind_eq_ok h
    obtain ⟨N₁, hrolled₁, hrouted₁, htmp, hline₁⟩ :=
      removeFromContact_rolled hrolled hlive (hno c List.mem_cons_self) hfirst
    obtain ⟨N₂, hrolled₂, hrouted₂, hfound₂, hline₂⟩ :=
      ih hrolled₁ (fun d hd => hno d (List.mem_cons_of_mem c hd)) h
    refine ⟨N₂, hrolled₂, hrouted₂.trans hrouted₁, ?_, fun d i => ?_⟩
    · rw [hfound₂, finds_cons id (fun d => by rw [hline₁, if_pos rfl]), List.getLast?_append, ← htmp,
        Option.or_assoc]
      cases tmp <;> rfl
    · have hcons : (c :: rest).count d = [c].count d + rest.count d := by
        rw [← List.count_append]
        rfl
      rw [hline₂, hline₁, List.drop_drop, hcons]
      split <;> rfl

/-- One route: the record that was found last is freed. -/
theorem removeFromRoute_ok (h : s.routerRemoveBundleFromRoute contacts id true = .ok s') :
    ∃ found s₁, removeFromContacts id s none contacts = .ok (found, s₁) ∧
      s'.contacts = s₁.contacts ∧
      ∀ q, s'.routed q = if some q = found then .freed else s₁.routed q := by
  unfold routerRemoveBundleFromRoute at h
  obtain ⟨⟨found, s₁⟩, hloop, h⟩ := Outcome.bind_eq_ok h
  refine ⟨found, s₁, hloop, ?_⟩
  cases found with
  | none =>
    cases h
    exact ⟨rfl, fun q => by simp⟩
  | some r =>
    have hfree : s₁.free r = .ok s' := h
    unfold free at hfree
    obtain ⟨rb, -, hdone⟩ := Outcome.bind_eq_ok hfree
    cases hdone
    exact ⟨rfl, fun q => by simp [Function.update_apply]⟩

theorem removeFromRoute_rolled (hrolled : Rolled s₀ s N) (hlive : QueuedLive s₀)
    (hno : ∀ c ∈ contacts, NoEntry s₀ c id)
    (h : s.routerRemoveBundleFromRoute contacts id true = .ok s') :
    ∃ N', Rolled s₀ s' N' ∧
      (∀ q, s'.routed q =
        if some q = (finds id N contacts).getLast? then .freed else s.routed q) ∧
      ∀ d i, line i (N' d) = (line i (N d)).drop (if i = id then contacts.count d else 0) := by
  obtain ⟨found, s₁, hloop, hcontacts, hfreed⟩ := removeFromRoute_ok h
  obtain ⟨N', hrolled', hrouted, hfound, hline⟩ :=
    removeFromContacts_rolled hrolled hlive hno hloop
  rw [Option.or_none] at hfound
  have hrecord : ∀ q, s'.routed q =
      if some q = (finds id N contacts).getLast? then .freed else s.routed q := by
    intro q
    rw [hfreed, hfound, hrouted]
  refine ⟨N', ⟨fun c => ?_, hrolled'.added, fun c x hx => ?_, fun c x hx rb hrb => ?_,
    fun q hq => ?_⟩, hrecord, hline⟩
  · rw [hcontacts]
    exact hrolled'.contacts c
  · rw [hfreed]
    split
    · simp
    · exact hrolled'.taken c x hx
  · rw [hfreed] at hrb
    split at hrb
    · cases hrb
    · exact hrolled'.records c x hx rb hrb
  · rw [hrecord, if_neg]
    · exact hrolled.before q hq
    · intro hmem
      obtain ⟨d, x, hx, rfl⟩ := mem_finds (List.mem_of_getLast? hmem.symm)
      exact hq (hrolled.added d x (List.mem_of_mem_filter hx))

/-! ## The bundles of a rollback -/

/-- A bundle that was added to a route: its record and its id, the contacts of the route, and
those that have got an entry. -/
structure Added where
  record : RbPtr
  id : Nat
  contacts : List ContactPtr
  placed : List ContactPtr

/-- The bundles leave their routes. -/
def removeAll (added : List Added) (s : RoutingState) : Except Fault RoutingState :=
  added.foldlM (fun s y => s.routerRemoveBundleFromRoute y.contacts y.id true) s

/-- How often they look for the id on the contact. -/
def asked (d : ContactPtr) (i : Nat) : List Added → Nat
  | [] => 0
  | y :: rest => (if i = y.id then y.contacts.count d else 0) + asked d i rest

/-- What was queued on the contact under the id, in the order of the list. -/
def queuedUnder (d : ContactPtr) (i : Nat) : List Added → List RbPtr
  | [] => []
  | y :: rest =>
    (if i = y.id then List.replicate (y.placed.count d) y.record else []) ++
      queuedUnder d i rest

/-- What the removal of `y` finds on the contacts of its route, one after the other, when
those of `before` have left theirs. -/
def foundBy (added before : List Added) (y : Added) : List RbPtr :=
  y.contacts.zipIdx.filterMap fun x =>
    (queuedUnder x.1 y.id added)[asked x.1 y.id before + (y.contacts.take x.2).count x.1]?

/-- The record that a removal finds last, and frees, is on no list any more. -/
def FreedLast (added : List Added) : Prop :=
  ∀ before y after, added = before ++ y :: after → ∀ r ∈ (foundBy added before y).getLast?,
    ∀ d, r ∉ (queuedUnder d y.id added).drop (asked d y.id (before ++ [y]))

theorem asked_append (d : ContactPtr) (i : Nat) (front back : List Added) :
    asked d i (front ++ back) = asked d i front + asked d i back := by
  induction front with
  | nil => simp [asked]
  | cons x rest ih => rw [List.cons_append, asked, asked, ih, Nat.add_assoc]

theorem asked_concat (d : ContactPtr) (i : Nat) (front : List Added) (y : Added) :
    asked d i (front ++ [y]) = asked d i front + if i = y.id then y.contacts.count d else 0 := by
  rw [asked_append]
  rfl

theorem queuedUnder_append (d : ContactPtr) (i : Nat) (front back : List Added) :
    queuedUnder d i (front ++ back) = queuedUnder d i front ++ queuedUnder d i back := by
  induction front with
  | nil => rfl
  | cons x rest ih => rw [List.cons_append, queuedUnder, queuedUnder, ih, List.append_assoc]

/-- They look for an id at least as often as something is queued under it. -/
theorem length_queuedUnder_le (d : ContactPtr) (i : Nat) {added : List Added}
    (hplaced : ∀ y ∈ added, y.placed.Sublist y.contacts) :
    (queuedUnder d i added).length ≤ asked d i added := by
  induction added with
  | nil => exact Nat.le_refl _
  | cons y rest ih =>
    have hrest := ih fun z hz => hplaced z (List.mem_cons_of_mem y hz)
    have hcount := (hplaced y List.mem_cons_self).count_le d
    rw [queuedUnder, asked, List.length_append]
    split <;> simp <;> omega

/-- The entries are those that are left of `added`, when those of `before` have left their
routes. -/
def Lines (added before : List Added) (N : ContactPtr → List Entry) : Prop :=
  ∀ d i, (line i (N d)).map Prod.fst = (queuedUnder d i added).drop (asked d i before)

variable {added before : List Added} {y : Added}

theorem Lines.finds (h : Lines added before N) :
    RoutingState.finds y.id N y.contacts = foundBy added before y := by
  refine List.filterMap_congr fun x _ => ?_
  rw [← List.getElem?_map, h, List.getElem?_drop]

theorem Lines.next {N' : ContactPtr → List Entry} (h : Lines added before N)
    (hline : ∀ d i, line i (N' d) =
      (line i (N d)).drop (if i = y.id then y.contacts.count d else 0)) :
    Lines added (before ++ [y]) N' := by
  intro d i
  rw [hline, List.map_drop, h, List.drop_drop, asked_concat]

theorem Rolled.refl (s₀ : RoutingState) : Rolled s₀ s₀ fun _ => [] where
  contacts _ := rfl
  added := by simp
  taken := by simp
  records := by simp
  before _ _ := rfl

/-- A bundle that could not be added. -/
theorem Rolled.failed (h : Rolled s₀ s N) (hcontacts : s'.contacts = s.contacts)
    (hrouted : ∀ q, s.routed q ≠ .unused → s'.routed q = s.routed q) : Rolled s₀ s' N where
  contacts c := by rw [hcontacts, h.contacts]
  added := h.added
  taken c x hx := by
    rw [hrouted _ (h.taken c x hx)]
    exact h.taken c x hx
  records c x hx rb hrb := by
    rw [hrouted _ (h.taken c x hx)] at hrb
    exact h.records c x hx rb hrb
  before r hr := by
    have hbefore := h.before r hr
    rw [hrouted r (by rw [hbefore]; exact hr), hbefore]

/-- A bundle that was added. -/
theorem Rolled.next {placed : List ContactPtr} (h : Rolled s₀ s N) (hr : s.routed r = .unused)
    (hrouted : s'.routed = Function.update s.routed r (.live rb))
    (hcontacts : ∀ c, s'.contacts c =
      (s.contacts c).extend (List.replicate (placed.count c) (r, rb))) :
    Rolled s₀ s' fun c => N c ++ List.replicate (placed.count c) (r, rb) where
  contacts c := by rw [hcontacts, h.contacts, Contact.extend_append]
  added c x hx := by
    rcases List.mem_append.mp hx with hx | hx
    · exact h.added c x hx
    · rw [List.eq_of_mem_replicate hx]
      by_contra hne
      exact hne ((h.before r hne).symm.trans hr)
  taken c x hx := by
    rw [hrouted]
    by_cases hxr : x.1 = r
    · simp [hxr]
    · rw [Function.update_of_ne hxr]
      rcases List.mem_append.mp hx with hx | hx
      · exact h.taken c x hx
      · exact absurd (congrArg Prod.fst (List.eq_of_mem_replicate hx)) hxr
  records c x hx other hother := by
    rw [hrouted] at hother
    rcases List.mem_append.mp hx with hold | hx
    · have hxr : x.1 ≠ r := fun heq => h.taken c x hold (heq ▸ hr)
      rw [Function.update_of_ne hxr] at hother
      exact h.records c x hold other hother
    · rw [List.eq_of_mem_replicate hx] at hother ⊢
      rw [Function.update_self] at hother
      exact (RbCell.live.inj hother).symm
  before q hq := by
    have hbefore := h.before q hq
    have hne : q ≠ r := by
      rintro rfl
      exact hq (hbefore.symm.trans hr)
    rw [hrouted, Function.update_of_ne hne, hbefore]

/-- The records are still there when a bundle could not be added. -/
theorem QueuedLive.failed (h : QueuedLive s) (hcontacts : s'.contacts = s.contacts)
    (hrouted : ∀ q, s.routed q ≠ .unused → s'.routed q = s.routed q) : QueuedLive s' := by
  intro c q hq
  rw [hcontacts] at hq
  obtain ⟨rb, hrb⟩ := h c q hq
  exact ⟨rb, (hrouted q (by rw [hrb]; simp)).trans hrb⟩

/-- The records are there when a bundle was added. -/
theorem QueuedLive.next {count : ContactPtr → Nat} (h : QueuedLive s) (hr : s.routed r = .unused)
    (hrouted : s'.routed = Function.update s.routed r (.live rb))
    (hcontacts : ∀ c, s'.contacts c = (s.contacts c).extend (List.replicate (count c) (r, rb))) :
    QueuedLive s' := by
  intro c q hq
  rw [hcontacts, Contact.contactBundles_extend] at hq
  rw [hrouted]
  rcases List.mem_append.mp hq with hold | hnew
  · obtain ⟨other, hother⟩ := h c q hold
    have hne : q ≠ r := by
      rintro rfl
      rw [hr] at hother
      cases hother
    exact ⟨other, by rw [Function.update_of_ne hne, hother]⟩
  · obtain ⟨x, hx, rfl⟩ := List.mem_map.mp hnew
    rw [List.eq_of_mem_replicate hx]
    exact ⟨rb, by rw [Function.update_self]⟩

/-- One more bundle is added. -/
theorem Lines.concat (h : Lines added [] N) (hid : rb.id = y.id) :
    Lines (added ++ [y]) [] fun c =>
      N c ++ List.replicate (y.placed.count c) (y.record, rb) := by
  intro d i
  have hold := h d i
  rw [asked, List.drop_zero] at hold ⊢
  rw [queuedUnder_append, line, List.filter_append, List.map_append, ← hold]
  congr 1
  rw [queuedUnder, queuedUnder, List.append_nil]
  split
  · rename_i hi
    rw [List.filter_replicate_of_pos (by simpa using hid.trans hi.symm), List.map_replicate]
  · rename_i hi
    rw [List.filter_replicate_of_neg (by simpa using fun heq => hi (heq.symm.trans hid))]
    rfl

/-- The entries that they look for are all taken back. -/
theorem removeAll_rolled (hrolled : Rolled s₀ s N) (hlive : QueuedLive s₀)
    (hno : ∀ y ∈ added, ∀ c ∈ y.contacts, NoEntry s₀ c y.id)
    (hasked : ∀ d i, (line i (N d)).length ≤ asked d i added)
    (h : removeAll added s = .ok s') :
    s'.contacts = s₀.contacts ∧ ∀ r, s₀.routed r ≠ .unused → s'.routed r = s₀.routed r := by
  induction added generalizing s N with
  | nil =>
    cases h
    refine ⟨funext fun d => ?_, hrolled.before⟩
    have hnil : N d = [] := by
      cases hN : N d with
      | nil => rfl
      | cons x rest =>
        have hx := hasked d x.2.id
        rw [hN, line, List.filter_cons_of_pos (by simp), List.length_cons] at hx
        exact absurd hx (Nat.not_succ_le_zero _)
    rw [hrolled.contacts, hnil]
    rfl
  | cons y rest ih =>
    rw [removeAll, List.foldlM_cons] at h
    obtain ⟨s₁, hfirst, h⟩ := Outcome.bind_eq_ok h
    obtain ⟨N₁, hrolled₁, -, hline⟩ :=
      removeFromRoute_rolled hrolled hlive (hno y List.mem_cons_self) hfirst
    refine ih hrolled₁ (fun z hz => hno z (List.mem_cons_of_mem y hz)) (fun d i => ?_) h
    have hd := hasked d i
    rw [asked] at hd
    rw [hline, List.length_drop]
    omega

/-! ## Rollbacks that return -/

theorem findBundle_total {entries : List RbPtr} (id : Nat)
    (h : ∀ r ∈ entries, ∃ rb, s.routed r = .live rb) :
    ∃ found, s.findBundle id entries = .ok found := by
  induction entries with
  | nil => exact ⟨none, rfl⟩
  | cons r rest ih =>
    obtain ⟨rb, hrb⟩ := h r List.mem_cons_self
    have hload : s.load r = .ok rb := by
      unfold load
      rw [hrb]
    rw [findBundle, hload, Outcome.ok_bind]
    split
    · exact ⟨_, rfl⟩
    · exact ih fun q hq => h q (List.mem_cons_of_mem r hq)

theorem removeFromContact_total (hqueued : QueuedLive s) (c : ContactPtr) (id : Nat) :
    ∃ found s', s.routerRemoveBundleFromContact c id = .ok (found, s') ∧ QueuedLive s' ∧
      ∀ r ∈ found, ∃ rb, s'.routed r = .live rb := by
  obtain ⟨x, hx⟩ := findBundle_total id (hqueued c)
  rcases hcase : s.routerRemoveBundleFromContact c id with e | ⟨found, s'⟩
  · unfold routerRemoveBundleFromContact at hcase
    rw [hx, Outcome.ok_bind] at hcase
    cases x <;> cases hcase
  · refine ⟨found, s', rfl, ?_⟩
    rcases removeFromContact_ok hcase with ⟨rfl, rfl, -⟩ | ⟨r, rb, front, back, rfl, rfl, -, hr, -⟩
    · exact ⟨hqueued, by simp⟩
    · refine ⟨fun d q hq => ?_, fun q hq => ⟨rb, Option.mem_some_iff.mp hq ▸ hr⟩⟩
      refine hqueued d q ?_
      by_cases hd : d = c
      · rw [hd] at hq ⊢
        simp only [setContact, Function.update_self] at hq
        exact List.mem_of_mem_erase hq
      · simpa only [setContact, Function.update_of_ne hd] using hq

theorem removeFromContacts_total (hqueued : QueuedLive s) (id : Nat)
    (contacts : List ContactPtr) (start : Option RbPtr)
    (hstart : ∀ r ∈ start, ∃ rb, s.routed r = .live rb) :
    ∃ found s', removeFromContacts id s start contacts = .ok (found, s') ∧
      ∀ r ∈ found, ∃ rb, s'.routed r = .live rb := by
  induction contacts generalizing s start with
  | nil => exact ⟨start, s, rfl, hstart⟩
  | cons c rest ih =>
    obtain ⟨tmp, s₁, hfirst, hqueued₁, htmp⟩ := removeFromContact_total hqueued c id
    have hrouted : s₁.routed = s.routed := by
      rcases removeFromContact_ok hfirst with ⟨-, rfl, -⟩ | ⟨r, rb, front, back, -, rfl, -⟩ <;> rfl
    have hfound : ∀ r ∈ tmp.or start, ∃ rb, s₁.routed r = .live rb := by
      cases tmp with
      | none => exact hrouted ▸ hstart
      | some q => exact htmp
    rw [removeFromContacts, hfirst, Outcome.ok_bind]
    exact ih hqueued₁ _ hfound

theorem removeFromRoute_total (hqueued : QueuedLive s) (contacts : List ContactPtr) (id : Nat) :
    ∃ s', s.routerRemoveBundleFromRoute contacts id true = .ok s' := by
  obtain ⟨found, s₁, hloop, hfound⟩ :=
    removeFromContacts_total hqueued id contacts none (by simp)
  rw [routerRemoveBundleFromRoute, hloop, Outcome.ok_bind]
  cases found with
  | none => exact ⟨s₁, rfl⟩
  | some r =>
    obtain ⟨rb, hrb⟩ := hfound r rfl
    refine ⟨s₁.drop r, ?_⟩
    show s₁.free r = _
    rw [free, load, hrb]
    rfl

/-- When no record is freed that is still on a list, the rollback returns. -/
theorem removeAll_total {after : List Added} (hfreed : FreedLast added) (hlive : QueuedLive s₀)
    (hno : ∀ y ∈ added, ∀ c ∈ y.contacts, NoEntry s₀ c y.id) (hadded : added = before ++ after)
    (hrolled : Rolled s₀ s N) (hlines : Lines added before N) (hqueued : QueuedLive s) :
    ∃ s', removeAll after s = .ok s' := by
  induction after generalizing before s N with
  | nil => exact ⟨s, rfl⟩
  | cons y rest ih =>
    obtain ⟨s₁, hfirst⟩ := removeFromRoute_total hqueued y.contacts y.id
    have hy : y ∈ added := by
      rw [hadded]
      exact List.mem_append_right _ List.mem_cons_self
    obtain ⟨N₁, hrolled₁, hrecord, hline⟩ := removeFromRoute_rolled hrolled hlive (hno y hy) hfirst
    rw [hlines.finds] at hrecord
    have hlines₁ := hlines.next hline
    rw [removeAll, List.foldlM_cons, hfirst, Outcome.ok_bind]
    refine ih (by rw [hadded, List.append_cons]) hrolled₁ hlines₁ fun d q hq => ?_
    rw [hrolled₁.contacts, Contact.contactBundles_extend] at hq
    rcases List.mem_append.mp hq with hold | hnew
    · obtain ⟨rb, hrb⟩ := hlive d q hold
      exact ⟨rb, (hrolled₁.before q (by rw [hrb]; simp)).trans hrb⟩
    · obtain ⟨x, hx, rfl⟩ := List.mem_map.mp hnew
      have hlisted : ∀ {e : ContactPtr} {z : Entry}, z ∈ N e → s.routed z.1 = .live z.2 := by
        intro e z hz
        obtain ⟨rb, hrb⟩ := hqueued e z.1 (by
          rw [hrolled.contacts, Contact.contactBundles_extend]
          exact List.mem_append_right _ (List.mem_map_of_mem hz))
        rw [hrb, hrolled.records e z hz rb hrb]
      have hself : x ∈ line x.2.id (N₁ d) := List.mem_filter.mpr ⟨hx, by simp⟩
      have hkept : x ∈ N d := by
        rw [hline] at hself
        exact List.mem_of_mem_filter (List.mem_of_mem_drop hself)
      refine ⟨x.2, ?_⟩
      rw [hrecord, if_neg, hlisted hkept]
      -- Were its record freed, it would not be on the contact any more.
      intro hlast
      have hmem := List.mem_of_getLast? hlast.symm
      rw [← hlines.finds] at hmem
      obtain ⟨e, z, hz, hrecords⟩ := mem_finds hmem
      obtain ⟨hz, hzid⟩ := List.mem_filter.mp hz
      have hsame := hlisted hz
      rw [hrecords, hlisted hkept] at hsame
      have hid : x.2.id = y.id := by
        rw [RbCell.live.inj hsame]
        simpa using hzid
      rw [hid] at hself
      refine hfreed before y rest hadded x.1 hlast.symm d ?_
      rw [← hlines₁ d y.id]
      exact List.mem_map_of_mem hself

/-- A freed record stays on its list. -/
theorem removeFromContact_stays {q : RbPtr} {d : ContactPtr} (hfreed : s.routed q = .freed)
    (hq : q ∈ (s.contacts d).contactBundles)
    (h : s.routerRemoveBundleFromContact c id = .ok (found, s')) :
    s'.routed q = .freed ∧ q ∈ (s'.contacts d).contactBundles := by
  rcases removeFromContact_ok h with ⟨-, rfl, -⟩ | ⟨r, rb, front, back, -, rfl, -, hr, -⟩
  · exact ⟨hfreed, hq⟩
  · refine ⟨hfreed, ?_⟩
    have hne : q ≠ r := by
      rintro rfl
      rw [hfreed] at hr
      cases hr
    by_cases hd : d = c
    · rw [hd] at hq ⊢
      simp only [setContact, Function.update_self]
      exact (List.mem_erase_of_ne hne).mpr hq
    · simpa only [setContact, Function.update_of_ne hd] using hq

theorem removeFromContacts_stays {q : RbPtr} {d : ContactPtr} {start : Option RbPtr}
    (hfreed : s.routed q = .freed) (hq : q ∈ (s.contacts d).contactBundles)
    (h : removeFromContacts id s start contacts = .ok (found, s')) :
    s'.routed q = .freed ∧ q ∈ (s'.contacts d).contactBundles := by
  induction contacts generalizing s start with
  | nil =>
    cases h
    exact ⟨hfreed, hq⟩
  | cons c rest ih =>
    rw [removeFromContacts] at h
    obtain ⟨⟨tmp, s₁⟩, hfirst, h⟩ := Outcome.bind_eq_ok h
    obtain ⟨hfreed₁, hq₁⟩ := removeFromContact_stays hfreed hq hfirst
    exact ih hfreed₁ hq₁ h

theorem removeAll_stays {q : RbPtr} {d : ContactPtr} (hfreed : s.routed q = .freed)
    (hq : q ∈ (s.contacts d).contactBundles) (h : removeAll added s = .ok s') :
    q ∈ (s'.contacts d).contactBundles := by
  induction added generalizing s with
  | nil =>
    cases h
    exact hq
  | cons y rest ih =>
    rw [removeAll, List.foldlM_cons] at h
    obtain ⟨s₁, hfirst, h⟩ := Outcome.bind_eq_ok h
    obtain ⟨found, s₂, hloop, hcontacts, hrecord⟩ := removeFromRoute_ok hfirst
    obtain ⟨hfreed₂, hq₂⟩ := removeFromContacts_stays hfreed hq hloop
    refine ih ?_ (hcontacts ▸ hq₂) h
    rw [hrecord, hfreed₂, ite_self]

/-- When the rollback returns and the contacts are as they were, no record was freed that
was still on a list. -/
theorem removeAll_freedLast {after : List Added} (hlive : QueuedLive s₀)
    (hno : ∀ y ∈ added, ∀ c ∈ y.contacts, NoEntry s₀ c y.id) (hadded : added = before ++ after)
    (hrolled : Rolled s₀ s N) (hlines : Lines added before N)
    (h : removeAll after s = .ok s') (hcontacts : s'.contacts = s₀.contacts)
    {middle rest : List Added} (hafter : after = middle ++ y :: rest) {r : RbPtr}
    (hr : r ∈ (foundBy added (before ++ middle) y).getLast?) (d : ContactPtr) :
    r ∉ (queuedUnder d y.id added).drop (asked d y.id (before ++ middle ++ [y])) := by
  induction middle generalizing before after s N with
  | nil =>
    rw [hafter, removeAll, List.nil_append, List.foldlM_cons] at h
    obtain ⟨s₁, hfirst, h⟩ := Outcome.bind_eq_ok h
    have hy : y ∈ added := by
      rw [hadded, hafter]
      simp
    obtain ⟨N₁, hrolled₁, hrecord, hline⟩ := removeFromRoute_rolled hrolled hlive (hno y hy) hfirst
    rw [List.append_nil] at hr ⊢
    rw [← hlines.next hline d y.id]
    intro hmem
    obtain ⟨x, hx, rfl⟩ := List.mem_map.mp hmem
    have hnew : x ∈ N₁ d := List.mem_of_mem_filter hx
    have hlisted : x.1 ∈ (s₁.contacts d).contactBundles := by
      rw [hrolled₁.contacts, Contact.contactBundles_extend]
      exact List.mem_append_right _ (List.mem_map_of_mem hnew)
    have hfreed : s₁.routed x.1 = .freed := by
      rw [hrecord, hlines.finds, if_pos (Option.mem_def.mp hr).symm]
    have hstays := removeAll_stays hfreed hlisted h
    rw [hcontacts] at hstays
    obtain ⟨rb, hrb⟩ := hlive d x.1 hstays
    rw [hrolled₁.added d x hnew] at hrb
    cases hrb
  | cons z middle ih =>
    rw [hafter, removeAll, List.cons_append, List.foldlM_cons] at h
    obtain ⟨s₁, hfirst, h⟩ := Outcome.bind_eq_ok h
    have hz : z ∈ added := by
      rw [hadded, hafter]
      simp
    obtain ⟨N₁, hrolled₁, -, hline⟩ := removeFromRoute_rolled hrolled hlive (hno z hz) hfirst
    have hsplit : before ++ z :: middle = before ++ [z] ++ middle := List.append_cons ..
    rw [hsplit] at hr ⊢
    exact ih (by rw [hadded, hafter, List.cons_append, List.append_cons]) hrolled₁
      (hlines.next hline) h rfl hr

end RoutingState

/-! ## An entry that was there before -/

namespace RoutingState

variable {s s' s₀ : RoutingState} {r : RbPtr} {rb : RoutedBundle} {c d : ContactPtr}
  {contacts : List ContactPtr} {id : Nat} {found : Option RbPtr} {added : List Added}

/-- The lists still begin with what is left of the entries of `s₀`. -/
structure Mixed (s₀ s : RoutingState) : Prop where
  queued : ∀ c, ∃ old new, (s.contacts c).contactBundles = old ++ new ∧
    old.Sublist (s₀.contacts c).contactBundles ∧ ∀ r ∈ new, s₀.routed r = .unused
  records : ∀ r rb rb', s.routed r = .live rb → s₀.routed r = .live rb' → rb = rb'

/-- How many of the entries are from before. -/
def oldEntries (s₀ s : RoutingState) (c : ContactPtr) : Nat :=
  (s.contacts c).contactBundles.countP fun r => s₀.routed r ≠ .unused

/-- An entry of the contact is gone. -/
def Lost (s₀ s : RoutingState) (c : ContactPtr) : Prop :=
  oldEntries s₀ s c < (s₀.contacts c).contactBundles.length

theorem oldEntries_self (hlive : QueuedLive s₀) (h : s.contacts c = s₀.contacts c) :
    oldEntries s₀ s c = (s₀.contacts c).contactBundles.length := by
  rw [oldEntries, h]
  refine List.countP_eq_length.mpr fun r hr => ?_
  obtain ⟨rb, hrb⟩ := hlive c r hr
  simp [hrb]

/-- A removal takes away one entry at most. -/
theorem removeFromContact_mixed (hmixed : Mixed s₀ s)
    (h : s.routerRemoveBundleFromContact c id = .ok (found, s')) :
    Mixed s₀ s' ∧ ∀ d, oldEntries s₀ s' d ≤ oldEntries s₀ s d := by
  rcases removeFromContact_ok h with ⟨-, rfl, -⟩ | ⟨r, rb, front, back, -, rfl, hsplit, -⟩
  · exact ⟨hmixed, fun d => Nat.le_refl _⟩
  · have hlist : ∀ d, ((s.setContact c ((s.contacts c).withdraw r rb)).contacts d).contactBundles =
        if d = c then (s.contacts d).contactBundles.erase r else (s.contacts d).contactBundles := by
      intro d
      by_cases hd : d = c
      · rw [if_pos hd, hd]
        simp only [setContact, Function.update_self]
        rfl
      · rw [if_neg hd]
        simp only [setContact, Function.update_of_ne hd]
    refine ⟨⟨fun d => ?_, hmixed.records⟩, fun d => ?_⟩
    · obtain ⟨old, new, hqueued, hold, hnew⟩ := hmixed.queued d
      rw [hlist d]
      split
      · rw [hqueued, List.erase_append]
        split
        · exact ⟨_, new, rfl, List.erase_sublist.trans hold, hnew⟩
        · exact ⟨old, _, rfl, hold, fun q hq => hnew q (List.mem_of_mem_erase hq)⟩
      · exact ⟨old, new, hqueued, hold, hnew⟩
    · rw [oldEntries, hlist d]
      split
      · exact List.Sublist.countP_le List.erase_sublist
      · exact Nat.le_refl _

/-- If an entry from before has the id, one is taken away. -/
theorem removeFromContact_lost (hmixed : Mixed s₀ s) (hentry : ¬ NoEntry s₀ c id)
    (h : s.routerRemoveBundleFromContact c id = .ok (found, s')) : Lost s₀ s' c := by
  have hle := (removeFromContact_mixed hmixed h).2 c
  by_cases hlost : Lost s₀ s c
  · exact Nat.lt_of_le_of_lt hle hlost
  -- The list still begins with all entries of `s₀`.
  obtain ⟨old, new, hqueued, hold, hnew⟩ := hmixed.queued c
  have hzero : new.countP (fun r => s₀.routed r ≠ .unused) = 0 :=
    List.countP_eq_zero.mpr fun r hr => by simp [hnew r hr]
  have hcount : oldEntries s₀ s c ≤ old.length := by
    rw [oldEntries, hqueued, List.countP_append, hzero]
    exact List.countP_le_length
  have hall : old = (s₀.contacts c).contactBundles :=
    hold.eq_of_length_le (Nat.le_trans (Nat.not_lt.mp hlost) hcount)
  unfold NoEntry at hentry
  push Not at hentry
  obtain ⟨q, hq, other, hother, hid⟩ := hentry
  have hwrong : ∀ rb, s.routed q = .live rb → rb.id ≠ id → False := fun rb hrb hne =>
    hne (hmixed.records q rb other hrb hother ▸ hid)
  rw [← hall] at hq
  rcases removeFromContact_ok h with
    ⟨-, rfl, hnone⟩ | ⟨r, rb, front, back, -, rfl, hsplit, hr, hrid, hfront⟩
  · obtain ⟨rb, hrb, hne⟩ := hnone q (by
      rw [hqueued]
      exact List.mem_append_left _ hq)
    exact absurd hne fun hne => hwrong rb hrb hne
  · have hqfront : q ∉ front := by
      intro hmem
      obtain ⟨rb, hrb, hne⟩ := hfront q hmem
      exact hwrong rb hrb hne
    have hrold : r ∈ old := by
      rw [hqueued] at hsplit
      rcases List.append_eq_append_iff.mp hsplit with ⟨middle, hfront, -⟩ | ⟨middle, hold, hback⟩
      · rw [hfront] at hqfront
        exact absurd (List.mem_append_left _ hq) hqfront
      · cases middle with
        | nil =>
          rw [List.append_nil] at hold
          exact absurd (hold ▸ hq) hqfront
        | cons y rest =>
          obtain ⟨rfl, -⟩ := List.cons.inj hback
          rw [hold]
          exact List.mem_append_right _ List.mem_cons_self
    have hlist : ((s.setContact c ((s.contacts c).withdraw r rb)).contacts c).contactBundles =
        old.erase r ++ new := by
      simp only [setContact, Function.update_self]
      show (s.contacts c).contactBundles.erase r = _
      rw [hqueued, List.erase_append_left _ hrold]
    rw [Lost, oldEntries, hlist, List.countP_append, hzero, ← hall, Nat.add_zero]
    refine Nat.lt_of_le_of_lt List.countP_le_length ?_
    rw [List.length_erase_of_mem hrold]
    exact Nat.sub_lt (List.length_pos_of_mem hrold) Nat.one_pos

theorem removeFromContacts_mixed {start : Option RbPtr} (hmixed : Mixed s₀ s)
    (h : removeFromContacts id s start contacts = .ok (found, s')) :
    Mixed s₀ s' ∧ ∀ d, oldEntries s₀ s' d ≤ oldEntries s₀ s d := by
  induction contacts generalizing s start with
  | nil =>
    cases h
    exact ⟨hmixed, fun d => Nat.le_refl _⟩
  | cons c rest ih =>
    rw [removeFromContacts] at h
    obtain ⟨⟨tmp, s₁⟩, hfirst, h⟩ := Outcome.bind_eq_ok h
    obtain ⟨hmixed₁, hle₁⟩ := removeFromContact_mixed hmixed hfirst
    obtain ⟨hmixed₂, hle₂⟩ := ih hmixed₁ h
    exact ⟨hmixed₂, fun d => Nat.le_trans (hle₂ d) (hle₁ d)⟩

theorem removeFromContacts_lost {start : Option RbPtr} (hmixed : Mixed s₀ s)
    (hc : c ∈ contacts) (hentry : ¬ NoEntry s₀ c id)
    (h : removeFromContacts id s start contacts = .ok (found, s')) : Lost s₀ s' c := by
  induction contacts generalizing s start with
  | nil => cases hc
  | cons d rest ih =>
    rw [removeFromContacts] at h
    obtain ⟨⟨tmp, s₁⟩, hfirst, hlater⟩ := Outcome.bind_eq_ok h
    obtain ⟨hmixed₁, -⟩ := removeFromContact_mixed hmixed hfirst
    rcases List.mem_cons.mp hc with rfl | hc
    · have hlost := removeFromContact_lost hmixed hentry hfirst
      exact Nat.lt_of_le_of_lt ((removeFromContacts_mixed hmixed₁ hlater).2 _) hlost
    · exact ih hmixed₁ hc hlater

theorem removeFromRoute_mixed (hmixed : Mixed s₀ s)
    (h : s.routerRemoveBundleFromRoute contacts id true = .ok s') :
    Mixed s₀ s' ∧ ∀ d, oldEntries s₀ s' d ≤ oldEntries s₀ s d := by
  obtain ⟨found, s₁, hloop, hcontacts, hrouted⟩ := removeFromRoute_ok h
  obtain ⟨hmixed₁, hle⟩ := removeFromContacts_mixed hmixed hloop
  refine ⟨⟨fun c => ?_, fun r rb rb' hr hr' => ?_⟩, fun d => ?_⟩
  · rw [hcontacts]
    exact hmixed₁.queued c
  · rw [hrouted] at hr
    split at hr
    · cases hr
    · exact hmixed₁.records r rb rb' hr hr'
  · rw [oldEntries, hcontacts]
    exact hle d

/-- The entry stays lost. -/
theorem removeAll_lost (hmixed : Mixed s₀ s) (hlost : Lost s₀ s c)
    (h : removeAll added s = .ok s') : Lost s₀ s' c := by
  induction added generalizing s with
  | nil =>
    cases h
    exact hlost
  | cons y rest ih =>
    rw [removeAll, List.foldlM_cons] at h
    obtain ⟨s₁, hfirst, h⟩ := Outcome.bind_eq_ok h
    obtain ⟨hmixed₁, hle⟩ := removeFromRoute_mixed hmixed hfirst
    exact ih hmixed₁ (Nat.lt_of_le_of_lt (hle c) hlost) h

/-- If an entry from before has one of the ids, the contacts are not as they were. -/
theorem removeAll_loses (hlive : QueuedLive s₀) (hmixed : Mixed s₀ s) {y : Added}
    (hy : y ∈ added) (hc : c ∈ y.contacts) (hentry : ¬ NoEntry s₀ c y.id)
    (h : removeAll added s = .ok s') : s'.contacts ≠ s₀.contacts := by
  have hlost : Lost s₀ s' c := by
    induction added generalizing s with
    | nil => cases hy
    | cons z rest ih =>
      rw [removeAll, List.foldlM_cons] at h
      obtain ⟨s₁, hfirst, hlater⟩ := Outcome.bind_eq_ok h
      obtain ⟨hmixed₁, -⟩ := removeFromRoute_mixed hmixed hfirst
      rcases List.mem_cons.mp hy with rfl | hy
      · obtain ⟨found, s₂, hloop, hcontacts, -⟩ := removeFromRoute_ok hfirst
        have hgone := removeFromContacts_lost hmixed hc hentry hloop
        refine removeAll_lost hmixed₁ ?_ hlater
        rwa [Lost, oldEntries, hcontacts]
      · exact ih hmixed₁ hy hlater
  intro heq
  have hsame := oldEntries_self hlive (congrFun heq c)
  rw [Lost, hsame] at hlost
  exact Nat.lt_irrefl _ hlost

theorem Rolled.mixed {N : ContactPtr → List Entry} (h : Rolled s₀ s N) : Mixed s₀ s where
  queued c := by
    refine ⟨_, (N c).map Prod.fst, by rw [h.contacts, Contact.contactBundles_extend],
      List.Sublist.refl _, fun r hr => ?_⟩
    obtain ⟨x, hx, rfl⟩ := List.mem_map.mp hr
    exact h.added c x hx
  records r rb rb' hr hr' := by
    have hsame := h.before r (by rw [hr']; simp)
    rw [hr, hr'] at hsame
    cases hsame
    rfl

/-- A rollback leaves the queues as they were if and only if no entry from before has one
of the ids, and no record is freed that is still on a list. -/
theorem removeAll_restores_iff {N : ContactPtr → List Entry} (hlive : QueuedLive s₀)
    (hrolled : Rolled s₀ s N) (hlines : Lines added [] N) (hqueued : QueuedLive s)
    (hplaced : ∀ y ∈ added, y.placed.Sublist y.contacts) :
    (∃ s', removeAll added s = .ok s' ∧ s'.contacts = s₀.contacts ∧
        ∀ r, s₀.routed r ≠ .unused → s'.routed r = s₀.routed r) ↔
      (∀ y ∈ added, ∀ c ∈ y.contacts, NoEntry s₀ c y.id) ∧ FreedLast added := by
  constructor
  · rintro ⟨s', h, hcontacts, -⟩
    have hno : ∀ y ∈ added, ∀ c ∈ y.contacts, NoEntry s₀ c y.id := fun y hy c hc => by
      by_contra hentry
      exact removeAll_loses hlive hrolled.mixed hy hc hentry h hcontacts
    exact ⟨hno, fun before y after hsplit r hr d =>
      removeAll_freedLast hlive hno rfl hrolled hlines h hcontacts hsplit hr d⟩
  · rintro ⟨hno, hfreed⟩
    obtain ⟨s', h⟩ := removeAll_total hfreed hlive hno rfl hrolled hlines hqueued
    refine ⟨s', h, removeAll_rolled hrolled hlive hno (fun d i => ?_) h⟩
    have hlength := congrArg List.length (hlines d i)
    rw [List.length_map, List.length_drop] at hlength
    have hle := length_queuedUnder_le d i hplaced
    omega

/-! ## Removals that take back what is their own -/

theorem mem_queuedUnder {d : ContactPtr} {i : Nat} (h : r ∈ queuedUnder d i added) :
    ∃ y ∈ added, y.id = i ∧ d ∈ y.placed ∧ y.record = r := by
  induction added with
  | nil => cases h
  | cons y rest ih =>
    rw [queuedUnder] at h
    rcases List.mem_append.mp h with h | h
    · split at h
      · rename_i hi
        obtain ⟨hcount, rfl⟩ := List.mem_replicate.mp h
        exact ⟨y, List.mem_cons_self, hi.symm, List.count_pos_iff.mp (Nat.pos_of_ne_zero hcount), rfl⟩
      · cases h
    · obtain ⟨z, hz, hrest⟩ := ih h
      exact ⟨z, List.mem_cons_of_mem y hz, hrest⟩

/-- Wherever the removal of `y` looks, `y` is queued itself if `z`, which has the same id, is. -/
def Added.Before (y z : Added) : Prop :=
  y.id = z.id → ∀ c ∈ y.contacts, c ∈ z.placed → y.placed.count c = y.contacts.count c

/-- Where something is left, the removals have found an entry each time. -/
theorem asked_eq_length {before after : List Added} (c : ContactPtr) (i : Nat)
    (hplaced : ∀ y ∈ before, y.placed.Sublist y.contacts)
    (hbefore : (before ++ after).Pairwise Added.Before) (hleft : queuedUnder c i after ≠ []) :
    asked c i before = (queuedUnder c i before).length := by
  induction before with
  | nil => rfl
  | cons y rest ih =>
    rw [List.cons_append, List.pairwise_cons] at hbefore
    have hrest := ih (fun z hz => hplaced z (List.mem_cons_of_mem y hz)) hbefore.2
    rw [asked, queuedUnder, List.length_append, hrest]
    congr 1
    split
    · rename_i hi
      rw [List.length_replicate]
      obtain ⟨r, hr⟩ := List.exists_mem_of_ne_nil _ hleft
      obtain ⟨z, hz, hid, hc, -⟩ := mem_queuedUnder hr
      by_cases hmem : c ∈ y.contacts
      · exact (hbefore.1 z (List.mem_append_right _ hz) (hi.symm.trans hid.symm) c hmem hc).symm
      · have hnot : c ∉ y.placed := fun h =>
          hmem ((hplaced y List.mem_cons_self).subset h)
        rw [List.count_eq_zero_of_not_mem hmem, List.count_eq_zero_of_not_mem hnot]
    · rfl

/-- Then each removal finds its own record, and frees it when its entries are gone. -/
theorem freedLast_of_before (hplaced : ∀ y ∈ added, y.placed.Sublist y.contacts)
    (hrecords : (added.map Added.record).Nodup) (hbefore : added.Pairwise Added.Before) :
    FreedLast added := by
  intro before y after hadded r hr d
  have hsplit : added = (before ++ [y]) ++ after := by rw [hadded, List.append_cons]
  have hsub : ∀ z ∈ before ++ [y], z.placed.Sublist z.contacts := fun z hz =>
    hplaced z (hsplit ▸ List.mem_append_left _ hz)
  have hown : r = y.record := by
    obtain ⟨⟨c, q⟩, hq, hfound⟩ := List.mem_filterMap.mp (List.mem_of_mem_getLast? hr)
    dsimp only at hfound
    have hget : y.contacts[q]? = some c := (List.mk_mem_zipIdx_iff_getElem?).mp hq
    obtain ⟨hlt, hc⟩ := List.getElem?_eq_some_iff.mp hget
    have hcount : (y.contacts.take q).count c < y.contacts.count c := by
      have hdrop : y.contacts.drop q = c :: y.contacts.drop (q + 1) := by
        rw [List.drop_eq_getElem_cons hlt, hc]
      have hsum := congrArg (List.count c) (List.take_append_drop q y.contacts)
      rw [List.count_append, hdrop, List.count_cons_self] at hsum
      omega
    have hlength := length_queuedUnder_le c y.id fun z hz => hsub z (List.mem_append_left _ hz)
    rw [hadded, queuedUnder_append, List.getElem?_append_right (by omega)] at hfound
    have hne : queuedUnder c y.id (y :: after) ≠ [] := by
      intro hnil
      rw [hnil] at hfound
      cases hfound
    rw [← asked_eq_length c y.id (fun z hz => hsub z (List.mem_append_left _ hz))
      (hadded ▸ hbefore) hne, Nat.add_sub_cancel_left, queuedUnder, if_pos rfl] at hfound
    by_cases hlater : queuedUnder c y.id after = []
    · rw [hlater, List.append_nil] at hfound
      exact List.eq_of_mem_replicate (List.mem_of_getElem? hfound)
    · have hall := asked_eq_length c y.id hsub (hsplit ▸ hbefore) hlater
      rw [asked_concat, if_pos rfl, queuedUnder_append, List.length_append,
        asked_eq_length c y.id (fun z hz => hsub z (List.mem_append_left _ hz))
          (hadded ▸ hbefore) hne, queuedUnder, queuedUnder, if_pos rfl, List.append_nil,
        List.length_replicate] at hall
      rw [List.getElem?_append_left (by rw [List.length_replicate]; omega)] at hfound
      exact List.eq_of_mem_replicate (List.mem_of_getElem? hfound)
  have hle := length_queuedUnder_le d y.id hsub
  rw [hsplit, queuedUnder_append, List.drop_append, List.drop_eq_nil_of_le hle, List.nil_append]
  intro hmem
  obtain ⟨z, hz, -, -, hrecord⟩ := mem_queuedUnder (List.mem_of_mem_drop hmem)
  rw [hadded, List.map_append, List.map_cons] at hrecords
  have hnot := (List.nodup_cons.mp (List.nodup_append.mp hrecords).2.1).1
  exact hnot (List.mem_map.mpr ⟨z, hz, hrecord.trans hown⟩)

end RoutingState

end Upcn.Queueing
