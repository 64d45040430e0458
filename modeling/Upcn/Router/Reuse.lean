import Upcn.Node.CurrentCapacity
import Upcn.Router.FragmentPlan

/-!
# The reuse of a cached route

`router_try_reuse` in `router.c` sizes the fragments of a cached route for another bundle.

* `reuseLoop` is the loop over the fragments.
* `Fits` says what a route is to be for a bundle, and `ReuseRight` what the function is for.
* `FillsAt` says at which entry of a cached route the payload is used up.
* `reuseLoop_cases` is what a run of the loop does, and `reuseRight_iff` for which cached routes
  it is right.
-/

namespace Upcn.Reuse

/-- `struct fragment_route`, as far as it takes part.  `contact_count` is the length of
`contacts`. -/
structure FragmentRoute where
  payloadSize : UInt32
  contacts : List Capacity.Contact

/-- `struct router_result`, as far as it takes part. -/
structure RouterResult where
  probability : Rat
  fragmentResults : Nat → FragmentRoute
  fragments : UInt8

/-- What the reuse asks of a bundle. -/
structure Bundle where
  mustNotFragment : Bool
  payloadLength : UInt32
  expirationTime : UInt64
  /-- `bundle_get_serialized_size`. -/
  serializedSize : Nat
  /-- `bundle_get_first_fragment_min_size`. -/
  firstFragmentMinSize : Nat
  /-- `bundle_get_mid_fragment_min_size`. -/
  midFragmentMinSize : Nat
  /-- `bundle_get_last_fragment_min_size`. -/
  lastFragmentMinSize : Nat

/-- The fields of `RC` that are read, and the current time. -/
structure Env where
  minProbability : Rat
  fragmentMinPayload : UInt16
  time : UInt64

namespace RouterResult

variable (route : RouterResult)

/-- The route with another `payload_size` of an entry. -/
def setPayload (index : Nat) (pay : UInt32) : RouterResult :=
  let entry := { route.fragmentResults index with payloadSize := pay }
  { route with fragmentResults := Function.update route.fragmentResults index entry }

/-- No route. -/
def cleared : RouterResult := { route with fragments := 0, probability := 0 }

theorem setPayload_contacts (index i : Nat) (pay : UInt32) :
    ((route.setPayload index pay).fragmentResults i).contacts =
      (route.fragmentResults i).contacts := by
  unfold setPayload
  dsimp only
  by_cases h : i = index
  · rw [h, Function.update_self]
  · rw [Function.update_of_ne h]

theorem setPayload_self (index : Nat) (pay : UInt32) :
    ((route.setPayload index pay).fragmentResults index).payloadSize = pay := by
  unfold setPayload
  dsimp only
  rw [Function.update_self]

theorem setPayload_of_ne {index i : Nat} (h : i ≠ index) (pay : UInt32) :
    (route.setPayload index pay).fragmentResults i = route.fragmentResults i :=
  Function.update_of_ne h _ _

end RouterResult

/-- The minimum size of the fragment with this index, of `count` ones. -/
def Bundle.minSize (bundle : Bundle) (count index : Nat) : Nat :=
  if index = 0 then bundle.firstFragmentMinSize
  else if index = count - 1 then bundle.lastFragmentMinSize
  else bundle.midFragmentMinSize

namespace Env

variable (env : Env) (bundle : Bundle)

/-- `ROUTER_CONTACT_CAPACITY`, with priority 0. -/
def capacity (contact : Capacity.Contact) : Int :=
  contact.contactGetCurRemainingCapacity .low env.time

/-- The check of a contact. -/
def usable (size : UInt32) (contact : Capacity.Contact) : Bool :=
  !(contact.toTime ≤ env.time || contact.toTime > bundle.expirationTime ||
    env.capacity contact < asInt32 size)

/-- `min_cap` behind the loop over the contacts. -/
def minCap (size : UInt32) (contacts : List Capacity.Contact) : UInt32 :=
  contacts.foldl (fun minCap contact => min minCap (asUInt32 (env.capacity contact) - size))
    0xffffffff

/-- The loop over the fragments from an index on, with so many of them left. -/
def reuseLoop (route : RouterResult) (remainingPay : UInt32) (index : Nat) : Nat → RouterResult
  | 0 => if remainingPay ≠ 0 then route.cleared else route
  | left + 1 =>
    let size := UInt32.ofNat (bundle.minSize route.fragments.toNat index)
    let contacts := (route.fragmentResults index).contacts
    if contacts.all (env.usable bundle (size + env.fragmentMinPayload.toUInt32)) then
      let pay := min remainingPay (env.minCap size contacts)
      let route := route.setPayload index pay
      if remainingPay - pay = 0 then { route with fragments := UInt8.ofNat index - 1 }
      else reuseLoop route (remainingPay - pay) (index + 1) left
    else route.cleared

/-- `router_try_reuse`. -/
def routerTryReuse (route : RouterResult) : RouterResult :=
  if route.fragments = 0 ∨ route.probability < env.minProbability then route
  else if bundle.mustNotFragment ∨ route.fragments = 1 then
    let size := UInt32.ofNat bundle.serializedSize
    let route := route.setPayload 0 bundle.payloadLength
    if (route.fragmentResults 0).contacts.all (env.usable bundle size) then route
    else route.cleared
  else env.reuseLoop bundle route bundle.payloadLength 0 route.fragments.toNat

/-! ## What is expected of the result -/

/-- The contact is not over, ends in time and has room for the size. -/
structure Carries (size : Nat) (contact : Capacity.Contact) : Prop where
  running : env.time < contact.toTime
  inTime : contact.toTime ≤ bundle.expirationTime
  capacity : (size : Int) ≤ env.capacity contact

/-- The route fits the bundle: its used entries take the payload, and the contacts of each carry
it with the headers.  A single entry is for the whole bundle. -/
structure Fits (route : RouterResult) : Prop where
  few : route.fragments.toNat ≤ routerMaxFragments
  sum : ((List.range route.fragments.toNat).map
    fun index => (route.fragmentResults index).payloadSize.toNat).sum = bundle.payloadLength.toNat
  carries : ∀ index < route.fragments.toNat, ∀ contact ∈ (route.fragmentResults index).contacts,
    env.Carries bundle (if route.fragments = 1 then bundle.serializedSize
      else bundle.minSize route.fragments.toNat index +
        (route.fragmentResults index).payloadSize.toNat) contact

/-- There is no route, or it fits. -/
def ReuseRight (route : RouterResult) : Prop := route.fragments = 0 ∨ env.Fits bundle route

/-! ## When it is right -/

variable (route : RouterResult)

/-- No contact of the entry is refused. -/
def AllUsable (index : Nat) : Prop :=
  (route.fragmentResults index).contacts.all (env.usable bundle
    (UInt32.ofNat (bundle.minSize route.fragments.toNat index) +
      env.fragmentMinPayload.toUInt32)) = true

/-- The payload that an entry has room for. -/
def room (index : Nat) : Nat :=
  (env.minCap (UInt32.ofNat (bundle.minSize route.fragments.toNat index))
    (route.fragmentResults index).contacts).toNat

/-- The payload that so many entries have room for. -/
def rooms (count : Nat) : Nat := ((List.range count).map (env.room bundle route)).sum

/-- The payload is used up with this entry, and no contact up to it is refused. -/
structure FillsAt (index : Nat) : Prop where
  used : index < route.fragments.toNat
  usable : ∀ i ≤ index, env.AllUsable bundle route i
  before : 0 < index → env.rooms bundle route index < bundle.payloadLength.toNat
  filled : bundle.payloadLength.toNat ≤ env.rooms bundle route (index + 1)

/-- A contact of the first entry is refused for the whole bundle. -/
def WholeRefused : Prop :=
  (route.fragmentResults 0).contacts.all (env.usable bundle
    (UInt32.ofNat bundle.serializedSize)) = false

/-- The condition on the cached route and the bundle.  A route that is returned as it is has to
fit already; one that takes the whole bundle has to be for a size of a signed integer, or of no
contact or a refused one; and one of several fragments has to be used up with the second one, if
at all. -/
def ReuseFits : Prop :=
  if route.probability < env.minProbability then env.Fits bundle route
  else if route.fragments = 1 then
    bundle.serializedSize < 2 ^ 31 ∨ (route.fragmentResults 0).contacts = [] ∨
      env.WholeRefused bundle route
  else if bundle.mustNotFragment then
    env.WholeRefused bundle route ∨ env.Fits bundle (route.setPayload 0 bundle.payloadLength)
  else ∀ index, env.FillsAt bundle route index → index = 1

theorem rooms_succ (index : Nat) : env.rooms bundle route (index + 1) =
    env.rooms bundle route index + env.room bundle route index := by
  rw [rooms, rooms, List.range_succ, List.map_append, List.sum_append, List.map_singleton,
    List.sum_singleton]

theorem rooms_mono : Monotone (env.rooms bundle route) :=
  monotone_nat_of_le_succ fun index => by
    rw [rooms_succ]
    exact Nat.le_add_right _ _

variable {env bundle route}

/-- There is at most one entry with which the payload is used up. -/
theorem FillsAt.unique {i j : Nat} (hi : env.FillsAt bundle route i)
    (hj : env.FillsAt bundle route j) : i = j := by
  have hle : ∀ {i j : Nat}, env.FillsAt bundle route i → env.FillsAt bundle route j → i ≤ j := by
    intro i j hi hj
    by_contra hlt
    have hbefore := hi.before (by omega)
    have hmono := rooms_mono env bundle route (show j + 1 ≤ i by omega)
    have hfilled := hj.filled
    omega
  exact Nat.le_antisymm (hle hi hj) (hle hj hi)

/-! ## The loop -/

variable (env bundle route) in
/-- The loop over the entries of the cached route has come to this one. -/
structure Looping (current : RouterResult) (remainingPay : UInt32) (index left : Nat) :
    Prop where
  contacts : ∀ i, (current.fragmentResults i).contacts = (route.fragmentResults i).contacts
  fragments : current.fragments = route.fragments
  count : index + left = route.fragments.toNat
  usable : ∀ i < index, env.AllUsable bundle route i
  pay : ∀ i < index, (current.fragmentResults i).payloadSize.toNat = env.room bundle route i
  sum : env.rooms bundle route index + remainingPay.toNat = bundle.payloadLength.toNat
  more : 0 < remainingPay.toNat ∨ index = 0 ∧ 0 < left

variable {current : RouterResult} {remainingPay : UInt32} {index left : Nat}

theorem toNat_min (a b : UInt32) : (min a b).toNat = min a.toNat b.toNat := by
  show (if a ≤ b then a else b).toNat = _
  split
  · rename_i hle
    exact (Nat.min_eq_left (UInt32.le_iff_toNat_le.mp hle)).symm
  · rename_i hnot
    have hlt := UInt32.lt_iff_toNat_lt.mp (UInt32.not_le.mp hnot)
    exact (Nat.min_eq_right (Nat.le_of_lt hlt)).symm

/-- The entries before are full, so the payload is not used up with one of them. -/
theorem Looping.not_fillsAt (h : env.Looping bundle route current remainingPay index left)
    (hmore : 0 < remainingPay.toNat) {i : Nat} (hi : i < index) :
    ¬env.FillsAt bundle route i := by
  intro hfills
  have hmono := rooms_mono env bundle route (show i + 1 ≤ index by omega)
  have hfilled := hfills.filled
  have hsum := h.sum
  omega

/-- A whole entry is filled and there is payload left. -/
theorem Looping.next (h : env.Looping bundle route current remainingPay index (left + 1))
    (husable : env.AllUsable bundle route index)
    (hless : env.room bundle route index < remainingPay.toNat) (pay : UInt32)
    (hpay : pay.toNat = env.room bundle route index) :
    env.Looping bundle route (current.setPayload index pay) (remainingPay - pay) (index + 1)
      left := by
  have hle : pay ≤ remainingPay := UInt32.le_iff_toNat_le.mpr (by omega)
  have hrest := UInt32.toNat_sub_of_le _ _ hle
  have hsum := h.sum
  have hcount := h.count
  refine ⟨fun i => ?_, h.fragments, by omega, fun i hi => ?_, fun i hi => ?_, ?_, .inl (by omega)⟩
  · rw [RouterResult.setPayload_contacts, h.contacts]
  · rcases Nat.lt_succ_iff_lt_or_eq.mp hi with hlt | rfl
    · exact h.usable i hlt
    · exact husable
  · rcases Nat.lt_succ_iff_lt_or_eq.mp hi with hlt | rfl
    · rw [RouterResult.setPayload_of_ne _ (Nat.ne_of_lt hlt), h.pay i hlt]
    · rw [RouterResult.setPayload_self, hpay]
  · rw [rooms_succ]
    omega

/-- The entry has room for what is left. -/
theorem Looping.fillsAt (h : env.Looping bundle route current remainingPay index (left + 1))
    (husable : env.AllUsable bundle route index)
    (hle : remainingPay.toNat ≤ env.room bundle route index) :
    env.FillsAt bundle route index := by
  have hsum := h.sum
  have hcount := h.count
  refine ⟨by omega, fun i hi => ?_, fun hpos => ?_, ?_⟩
  · rcases Nat.lt_or_eq_of_le hi with hlt | rfl
    · exact h.usable i hlt
    · exact husable
  · have hmore := h.more.resolve_right fun hnone => absurd hnone.1 (by omega)
    omega
  · rw [rooms_succ]
    omega

/-- The loop finds no route, or it ends at the entry with which the payload is used up, and the
entries before are full. -/
theorem reuseLoop_cases (h : env.Looping bundle route current remainingPay index left) :
    ((env.reuseLoop bundle current remainingPay index left).fragments = 0 ∧
        ∀ i, index ≤ i → ¬env.FillsAt bundle route i) ∨
      ∃ i, env.FillsAt bundle route i ∧
        (env.reuseLoop bundle current remainingPay index left).fragments = UInt8.ofNat i - 1 ∧
        ∀ j < i, ((env.reuseLoop bundle current remainingPay index left).fragmentResults
          j).payloadSize.toNat = env.room bundle route j := by
  induction left generalizing current remainingPay index with
  | zero =>
    have hpos : 0 < remainingPay.toNat := h.more.resolve_right fun hnone =>
      absurd hnone.2 (Nat.lt_irrefl 0)
    have hne : remainingPay ≠ 0 := by
      rintro rfl
      exact absurd hpos (Nat.lt_irrefl 0)
    rw [reuseLoop, if_pos hne]
    refine .inl ⟨rfl, fun i hi hfills => ?_⟩
    have hused := hfills.used
    have hcount := h.count
    omega
  | succ left ih =>
    rw [reuseLoop]
    dsimp only
    rw [h.contacts, h.fragments]
    split
    · rename_i husable
      have hall : env.AllUsable bundle route index := husable
      have hroom : (env.minCap (UInt32.ofNat (bundle.minSize route.fragments.toNat index))
          (route.fragmentResults index).contacts).toNat = env.room bundle route index := rfl
      generalize env.minCap (UInt32.ofNat (bundle.minSize route.fragments.toNat index))
        (route.fragmentResults index).contacts = minCap at hroom
      have hmin := toNat_min remainingPay minCap
      have hle : min remainingPay minCap ≤ remainingPay :=
        UInt32.le_iff_toNat_le.mpr (by omega)
      have hrest := UInt32.toNat_sub_of_le _ _ hle
      split
      · rename_i hdone
        have hzero : (remainingPay - min remainingPay minCap).toNat = 0 := by rw [hdone]; rfl
        refine .inr ⟨index, h.fillsAt hall (by omega), rfl, fun j hj => ?_⟩
        show ((current.setPayload index _).fragmentResults j).payloadSize.toNat = _
        rw [RouterResult.setPayload_of_ne _ (Nat.ne_of_lt hj), h.pay j hj]
      · rename_i hmore
        have hpos : (remainingPay - min remainingPay minCap).toNat ≠ 0 := fun hzero =>
          hmore (UInt32.toNat_inj.mp hzero)
        have hnext := h.next hall (by omega) (min remainingPay minCap) (by omega)
        refine (ih hnext).imp_left fun ⟨hnone, hlater⟩ => ⟨hnone, fun i hi => ?_⟩
        rcases Nat.lt_or_eq_of_le hi with hlt | rfl
        · exact hlater i hlt
        · exact hnext.not_fillsAt (Nat.pos_of_ne_zero hpos) (Nat.lt_succ_self _)
    · rename_i hrefused
      refine .inl ⟨rfl, fun i hi hfills => hrefused ?_⟩
      exact hfills.usable index hi

variable (env bundle) in
theorem looping_start (hpos : 0 < route.fragments.toNat) :
    env.Looping bundle route route bundle.payloadLength 0 route.fragments.toNat where
  contacts _ := rfl
  fragments := rfl
  count := Nat.zero_add _
  usable i hi := absurd hi (Nat.not_lt_zero i)
  pay i hi := absurd hi (Nat.not_lt_zero i)
  sum := Nat.zero_add _
  more := .inr ⟨rfl, hpos⟩

/-- The number of fragments that a loop that ends early leaves. -/
theorem toNat_early {i : Nat} (hpos : 0 < i) (hi : i < 256) :
    (UInt8.ofNat i - 1).toNat = i - 1 := by
  have hle : (1 : UInt8) ≤ UInt8.ofNat i := by
    rw [UInt8.le_iff_toNat_le, UInt8.toNat_ofNat_of_lt' hi]
    exact hpos
  rw [UInt8.toNat_sub_of_le _ _ hle, UInt8.toNat_ofNat_of_lt' hi]
  rfl

/-- With several fragments the result is right just when the payload is used up with the second
one, if at all: only then the loop leaves no fragment. -/
theorem loop_right_iff (hpos : 0 < route.fragments.toNat)
    (hfew : route.fragments.toNat ≤ routerMaxFragments) :
    env.ReuseRight bundle (env.reuseLoop bundle route bundle.payloadLength 0
        route.fragments.toNat) ↔
      ∀ index, env.FillsAt bundle route index → index = 1 := by
  have hten : routerMaxFragments = 10 := rfl
  rcases reuseLoop_cases (looping_start env bundle hpos) with
    ⟨hnone, hnever⟩ | ⟨i, hfills, hearly, hpay⟩
  · exact iff_of_true (.inl hnone) fun index hfills =>
      absurd hfills (hnever index (Nat.zero_le _))
  · have hused := hfills.used
    constructor
    · intro hright index hindex
      rw [hindex.unique hfills]
      by_contra hne
      rcases Nat.eq_zero_or_pos i with rfl | hlarge
      · rcases hright with hnone | hfits
        · rw [hearly] at hnone
          exact absurd hnone (by decide)
        · have hmany := hfits.few
          rw [hearly] at hmany
          exact absurd hmany (by decide)
      · have hcount := toNat_early hlarge (by omega)
        rcases hright with hnone | hfits
        · rw [hearly] at hnone
          rw [hnone] at hcount
          have hzero : i - 1 = 0 := hcount.symm
          omega
        · have hsum := hfits.sum
          rw [hearly, hcount] at hsum
          have hrooms : ((List.range (i - 1)).map fun index => ((env.reuseLoop bundle route
              bundle.payloadLength 0 route.fragments.toNat).fragmentResults
                index).payloadSize.toNat).sum = env.rooms bundle route (i - 1) :=
            congrArg List.sum (List.map_congr_left fun j hj =>
              hpay j (by have := List.mem_range.mp hj; omega))
          have hmono := rooms_mono env bundle route (Nat.sub_le i 1)
          have hbefore := hfills.before hlarge
          omega
    · intro hsecond
      obtain rfl := hsecond i hfills
      exact .inl hearly

/-! ## The whole bundle -/

theorem usable_iff {size : UInt32} {contact : Capacity.Contact} :
    env.usable bundle size contact = true ↔ env.time < contact.toTime ∧
      contact.toTime ≤ bundle.expirationTime ∧ asInt32 size ≤ env.capacity contact := by
  unfold usable
  simp [and_assoc]

variable (env) in
theorem capacity_lt {contact : Capacity.Contact} (h : contact.remainingCapacityP0 < 2 ^ 31) :
    env.capacity contact < 2 ^ 31 := by
  unfold capacity Capacity.Contact.contactGetCurRemainingCapacity
  split
  · decide
  · split
    · exact h
    · exact Int.lt_of_le_of_lt (Int.min_le_right _ _) h

variable (env bundle route) in
/-- The result for the whole bundle. -/
def wholeResult : RouterResult :=
  if (route.fragmentResults 0).contacts.all (env.usable bundle
      (UInt32.ofNat bundle.serializedSize)) then
    route.setPayload 0 bundle.payloadLength
  else (route.setPayload 0 bundle.payloadLength).cleared

/-- A route of which a contact is refused is not used. -/
theorem whole_refused (h : env.WholeRefused bundle route) :
    env.ReuseRight bundle (env.wholeResult bundle route) := by
  have hnot : ¬(route.fragmentResults 0).contacts.all (env.usable bundle
      (UInt32.ofNat bundle.serializedSize)) = true := by
    rw [show _ = false from h]
    exact Bool.false_ne_true
  unfold wholeResult
  rw [if_neg hnot]
  exact .inl rfl

/-- Otherwise it is used as it is, but for the payload of the first entry. -/
theorem whole_right_iff (hne : route.fragments ≠ 0) (h : ¬env.WholeRefused bundle route) :
    env.ReuseRight bundle (env.wholeResult bundle route) ↔
      env.Fits bundle (route.setPayload 0 bundle.payloadLength) := by
  have hall : (route.fragmentResults 0).contacts.all (env.usable bundle
      (UInt32.ofNat bundle.serializedSize)) = true := Bool.eq_true_of_not_eq_false h
  unfold wholeResult
  rw [if_pos hall]
  exact or_iff_right hne

/-- A single entry fits the whole bundle when its size is one of a signed integer. -/
theorem fits_single_iff (hone : route.fragments = 1) (h : ¬env.WholeRefused bundle route)
    (hcapacities : ∀ contact ∈ (route.fragmentResults 0).contacts,
      contact.remainingCapacityP0 < 2 ^ 31) :
    env.Fits bundle (route.setPayload 0 bundle.payloadLength) ↔
      bundle.serializedSize < 2 ^ 31 ∨ (route.fragmentResults 0).contacts = [] := by
  have hall : (route.fragmentResults 0).contacts.all (env.usable bundle
      (UInt32.ofNat bundle.serializedSize)) = true := Bool.eq_true_of_not_eq_false h
  have hcount : (route.setPayload 0 bundle.payloadLength).fragments = 1 := hone
  constructor
  · intro hfits
    by_contra hnot
    obtain ⟨hlarge, hsome⟩ := not_or.mp hnot
    obtain ⟨contact, hcontact⟩ := List.exists_mem_of_ne_nil _ hsome
    have hcarries := hfits.carries 0 (by rw [hcount]; decide) contact (by
      rwa [RouterResult.setPayload_contacts])
    rw [if_pos hcount] at hcarries
    have hcapacity := hcarries.capacity
    have hless := capacity_lt env (hcapacities contact hcontact)
    omega
  · intro hsize
    refine ⟨by rw [hcount]; decide, ?_, fun index hindex contact hcontact => ?_⟩
    · rw [hcount]
      show ((route.setPayload 0 bundle.payloadLength).fragmentResults 0).payloadSize.toNat + 0 = _
      rw [RouterResult.setPayload_self, Nat.add_zero]
    · have hzero : index = 0 := by
        rw [hcount] at hindex
        exact Nat.lt_one_iff.mp hindex
      rw [hzero, RouterResult.setPayload_contacts] at hcontact
      obtain ⟨hrunning, htime, hcapacity⟩ := usable_iff.mp (List.all_eq_true.mp hall _ hcontact)
      have hsmall : bundle.serializedSize < 2 ^ 31 :=
        hsize.resolve_right fun hnil => absurd hcontact (by simp [hnil])
      have hsigned : asInt32 (UInt32.ofNat bundle.serializedSize) = bundle.serializedSize := by
        have hsize : (UInt32.ofNat bundle.serializedSize).toNat = bundle.serializedSize :=
          UInt32.toNat_ofNat_of_lt' (show bundle.serializedSize < 2 ^ 32 by omega)
        rw [PlanInput.asInt32_of_lt (by rwa [hsize]), hsize]
      rw [hsigned] at hcapacity
      rw [if_pos hcount]
      exact ⟨hrunning, htime, hcapacity⟩

/-! ## The result -/

/-- For every cached route the result is right just when the condition holds. -/
theorem reuseRight_iff (env : Env) (bundle : Bundle) {route : RouterResult}
    (hne : route.fragments ≠ 0) (hfew : route.fragments.toNat ≤ routerMaxFragments)
    (hcapacities : ∀ contact ∈ (route.fragmentResults 0).contacts,
      contact.remainingCapacityP0 < 2 ^ 31) :
    env.ReuseRight bundle (env.routerTryReuse bundle route) ↔ env.ReuseFits bundle route := by
  have hpos : 0 < route.fragments.toNat := Nat.pos_of_ne_zero fun hzero =>
    hne (UInt8.toNat_inj.mp hzero)
  unfold ReuseFits routerTryReuse
  by_cases hlow : route.probability < env.minProbability
  · rw [if_pos (.inr hlow), if_pos hlow]
    exact or_iff_right hne
  · rw [if_neg (not_or.mpr ⟨hne, hlow⟩), if_neg hlow]
    have hwhole : (let size := UInt32.ofNat bundle.serializedSize
        let route := route.setPayload 0 bundle.payloadLength
        if (route.fragmentResults 0).contacts.all (env.usable bundle size) then route
        else route.cleared) = env.wholeResult bundle route := by
      dsimp only
      rw [RouterResult.setPayload_contacts]
      rfl
    rw [hwhole]
    by_cases hone : route.fragments = 1
    · rw [if_pos (.inr hone), if_pos hone]
      by_cases hrefused : env.WholeRefused bundle route
      · exact iff_of_true (whole_refused hrefused) (.inr (.inr hrefused))
      · rw [whole_right_iff hne hrefused, fits_single_iff hone hrefused hcapacities,
          or_iff_left hrefused (a := _ = _)]
    · rw [if_neg hone]
      by_cases hmust : bundle.mustNotFragment = true
      · rw [if_pos (.inl hmust), if_pos hmust]
        by_cases hrefused : env.WholeRefused bundle route
        · exact iff_of_true (whole_refused hrefused) (.inl hrefused)
        · rw [whole_right_iff hne hrefused, or_iff_right hrefused]
      · rw [if_neg (not_or.mpr ⟨hmust, hone⟩), if_neg hmust]
        exact loop_right_iff hpos hfew

end Env

/-- A cached route of two fragments over a contact of a thousand bytes. -/
def cachedRoute : RouterResult where
  probability := 1
  fragmentResults _ := ⟨500, [{ Capacity.contactCreate with
    toTime := 1000
    bitrate := 1
    totalCapacity := 1000
    remainingCapacityP0 := 1000
    remainingCapacityP1 := 1000
    remainingCapacityP2 := 1000 }]⟩
  fragments := 2

/-- A bundle with this payload. -/
def bundleOf (payloadLength : UInt32) : Bundle where
  mustNotFragment := false
  payloadLength := payloadLength
  expirationTime := 2000
  serializedSize := payloadLength.toNat + 100
  firstFragmentMinSize := 110
  midFragmentMinSize := 110
  lastFragmentMinSize := 110

/-- With a payload of both entries. -/
theorem reuseRight_iff_both :
    Env.ReuseRight ⟨1, 8, 0⟩ (bundleOf 1000)
        (Env.routerTryReuse ⟨1, 8, 0⟩ (bundleOf 1000) cachedRoute) ↔
      Env.ReuseFits ⟨1, 8, 0⟩ (bundleOf 1000) cachedRoute :=
  Env.reuseRight_iff _ _ (by decide) (by decide) (by simp [cachedRoute])

/-- With a payload that the first entry has room for there are 255 fragments. -/
theorem not_reuseRight_first :
    ¬Env.ReuseRight ⟨1, 8, 0⟩ (bundleOf 100)
      (Env.routerTryReuse ⟨1, 8, 0⟩ (bundleOf 100) cachedRoute) := by
  have hcount : (Env.routerTryReuse ⟨1, 8, 0⟩ (bundleOf 100) cachedRoute).fragments = 255 := by
    decide
  rintro (hnone | hfits)
  · rw [hcount] at hnone
    exact absurd hnone (by decide)
  · have hfew := hfits.few
    rw [hcount] at hfew
    exact absurd hfew (by decide)

end Upcn.Reuse
