import Upcn.Router.Task

/-!
# The sizes of the fragments of a route

`router_get_first_route_frag` in `router.c` plans the fragments of a bundle that is too
large for the contacts.  The plan mixes 32-bit quantities with and without sign.

* `planStep` is one iteration of the planning loop and `planLoop` the loop.
* `Exact` says that an iteration does not wrap, `PlanHolds` that a plan fits the bundle
  and the maximum size.
* `planHolds_iff` says for which sizes both are the case.
-/

namespace Upcn

/-- `ROUTER_MAX_FRAGMENTS`. -/
def routerMaxFragments : Nat := 10

/-- `RC.fragment_min_payload`.  It is `FRAGMENT_MIN_PAYLOAD` all the time: the only caller of
`router_update_config` changes `global_mbs`. -/
def fragmentMinPayload : UInt32 := 8

/-- The conversion of a `uint32_t` to an `int32_t`. -/
def asInt32 (n : UInt32) : Int := if n.toNat < 2 ^ 31 then n.toNat else n.toNat - 2 ^ 32

/-- The conversion of an `int32_t` to a `uint32_t`. -/
def asUInt32 (n : Int) : UInt32 := .ofNat (n % 2 ^ 32).toNat

/-- The variables of the planning loop, with the `payload_size` of each fragment so
far. -/
structure PlanState where
  remainingPay : UInt32
  nextFragSz : UInt32
  sizes : List UInt32
  deriving DecidableEq

/-- The condition of the planning loop. -/
def PlanState.Planning (s : PlanState) : Prop :=
  s.remainingPay ≠ 0 ∧ s.sizes.length < routerMaxFragments

instance (s : PlanState) : Decidable s.Planning := inferInstanceAs (Decidable (_ ∧ _))

/-- What the plan depends on. -/
structure PlanInput where
  payloadLength : UInt32
  maxFragSz : UInt32
  firstFragSz : UInt32
  midFragSz : UInt32
  lastFragSz : UInt32

namespace PlanInput

variable (x : PlanInput)

/-- The headers alone are larger than a fragment may be. -/
def HeadersTooLarge : Prop := x.maxFragSz < x.firstFragSz ∨ x.maxFragSz < x.lastFragSz

instance : Decidable x.HeadersTooLarge := inferInstanceAs (Decidable (_ ∨ _))

def start : PlanState := ⟨x.payloadLength, x.firstFragSz, []⟩

/-- `min_pay`. -/
def minPay (s : PlanState) : Int := asInt32 (min s.remainingPay fragmentMinPayload)

/-- `max_pay`, as it is computed first. -/
def maxPay (s : PlanState) : Int := asInt32 (x.maxFragSz - s.nextFragSz)

/-- `max_pay` of another fragment. -/
def anotherPay (s : PlanState) : Int := min (asInt32 s.remainingPay) (x.maxPay s)

/-- Another fragment with the payload `pay`. -/
def another (s : PlanState) (pay : UInt32) : PlanState where
  remainingPay := s.remainingPay - pay
  nextFragSz := x.midFragSz
  sizes := s.sizes ++ [pay]

/-- The last fragment. -/
def last (s : PlanState) : PlanState :=
  { s with remainingPay := 0, sizes := s.sizes ++ [s.remainingPay] }

/-- The body of the planning loop.  There is no next state after the `break`. -/
def planStep (s : PlanState) : Option PlanState :=
  if x.maxPay s < minPay s then
    none
  else if s.remainingPay ≤ x.maxFragSz - x.lastFragSz then
    some (last s)
  else
    some (x.another s (asUInt32 (x.anotherPay s)))

/-- Each iteration adds a fragment. -/
theorem planStep_adds {s s' : PlanState} (h : x.planStep s = some s') :
    s'.sizes.length = s.sizes.length + 1 := by
  simp only [planStep] at h
  split at h
  · cases h
  · split at h <;> cases h <;> simp [last, another]

/-- The planning loop. -/
def planLoop (s : PlanState) : PlanState :=
  if _h : s.Planning then
    match _hstep : x.planStep s with
    | none => s
    | some s' => planLoop s'
  else
    s
termination_by routerMaxFragments - s.sizes.length
decreasing_by
  have := x.planStep_adds _hstep
  have := _h.2
  omega

/-- The size of the headers of the fragment with this index. -/
def ownSize (count index : Nat) : UInt32 :=
  if index = 0 then x.firstFragSz
  else if index = count - 1 then x.lastFragSz
  else x.midFragSz

/-- `bundle_size` of each fragment. -/
def bundleSizes (sizes : List UInt32) : List UInt32 :=
  sizes.mapIdx fun index pay => pay + x.ownSize sizes.length index

/-- `router_get_first_route_frag`.  `calculate` is `router_calculate_fragment_route` for
the contacts: the contacts that it selects for a size behind an amount of data, and
whether they suffice. -/
def routerGetFirstRouteFrag (calculate : UInt32 → UInt32 → List Nat × Bool)
    (results : Nat → FragmentRoute) : RouterResult :=
  if x.HeadersTooLarge then
    ⟨0, results⟩
  else
    let plan := x.planLoop x.start
    if plan.remainingPay ≠ 0 then
      ⟨0, results⟩
    else
      let sizes := x.bundleSizes plan.sizes
      let route := fun index => calculate (sizes.getD index 0) ((sizes.take index).foldl (· + ·) 0)
      let success := (List.range plan.sizes.length).countP fun index => (route index).2
      { fragments := if success ≠ plan.sizes.length then 0 else .ofNat plan.sizes.length
        fragmentResults := fun index => ⟨(route index).1, (plan.sizes.getD index 0).toNat⟩ }

/-! ## What is expected of the plan -/

/-- The iteration from `s` does not wrap. -/
structure Exact (s : PlanState) : Prop where
  room : ((x.maxFragSz - s.nextFragSz).toNat : Int) =
    x.maxFragSz.toNat - s.nextFragSz.toNat
  maxPay : x.maxPay s = (x.maxFragSz - s.nextFragSz).toNat
  lastRoom : ((x.maxFragSz - x.lastFragSz).toNat : Int) =
    x.maxFragSz.toNat - x.lastFragSz.toNat
  another : minPay s ≤ x.maxPay s → x.maxFragSz - x.lastFragSz < s.remainingPay →
    asInt32 s.remainingPay = s.remainingPay.toNat ∧
      ((s.remainingPay - asUInt32 (x.anotherPay s)).toNat : Int) =
        s.remainingPay.toNat - x.anotherPay s

/-- An iteration of the loop. -/
def Iterates (s s' : PlanState) : Prop := s.Planning ∧ x.planStep s = some s'

/-- No iteration from `s` on wraps. -/
def NoWrap (s : PlanState) : Prop :=
  ∀ s', Relation.ReflTransGen x.Iterates s s' → s'.Planning → x.Exact s'

/-- The plan covers the payload, and each fragment has payload and is small enough. -/
structure PlanFits (r : RouterResult) : Prop where
  few : r.fragments.toNat ≤ routerMaxFragments
  positive : ∀ index < r.fragments.toNat, 0 < (r.fragmentResults index).payloadSize
  sum : ((List.range r.fragments.toNat).map
    fun index => (r.fragmentResults index).payloadSize).sum = x.payloadLength.toNat
  small : ∀ index < r.fragments.toNat,
    (x.ownSize r.fragments.toNat index).toNat + (r.fragmentResults index).payloadSize ≤
      x.maxFragSz.toNat

/-- The loop does not wrap, and if there is a plan at the end, it fits. -/
def PlanHolds (calculate : UInt32 → UInt32 → List Nat × Bool)
    (results : Nat → FragmentRoute) : Prop :=
  (¬ x.HeadersTooLarge → x.NoWrap x.start) ∧
    (0 < (x.routerGetFirstRouteFrag calculate results).fragments →
      x.PlanFits (x.routerGetFirstRouteFrag calculate results))

/-! ## The rooms for payload -/

def firstRoom : Nat := x.maxFragSz.toNat - x.firstFragSz.toNat
def midRoom : Nat := x.maxFragSz.toNat - x.midFragSz.toNat
def lastRoom : Nat := x.maxFragSz.toNat - x.lastFragSz.toNat

/-- With this payload and this number of fragments left, middle fragments are filled up
until the rest fits into one, but not into a last one. -/
def LastTooLarge (remaining left : Nat) : Prop :=
  remaining ≤ left * x.midRoom ∧ (remaining ≤ x.midRoom ∨ 8 ≤ x.midRoom) ∧
    x.lastRoom ≤ (remaining - 1) % x.midRoom

/-- The sizes for which the plan is right. -/
def Plannable : Prop :=
  x.HeadersTooLarge ∨ x.payloadLength = 0 ∨
    x.firstRoom < 2 ^ 31 ∧
      (x.firstRoom < min x.payloadLength.toNat 8 ∨
        if x.payloadLength.toNat ≤ x.lastRoom then
          x.payloadLength.toNat ≤ x.firstRoom
        else
          x.payloadLength.toNat < 2 ^ 31 ∧
            (x.payloadLength.toNat ≤ x.firstRoom ∨
              x.midFragSz ≤ x.maxFragSz ∧ x.midRoom < 2 ^ 31 ∧
                ¬ x.LastTooLarge (x.payloadLength.toNat - x.firstRoom) 9))

variable {x} {s s' : PlanState}

/-! ## The machine arithmetic -/

theorem asInt32_of_lt {n : UInt32} (h : n.toNat < 2 ^ 31) : asInt32 n = n.toNat := if_pos h

theorem asInt32_exact_iff {n : UInt32} : asInt32 n = n.toNat ↔ n.toNat < 2 ^ 31 := by
  unfold asInt32
  split <;> omega

theorem asUInt32_natCast (n : Nat) (h : n < 2 ^ 32) : (asUInt32 n).toNat = n := by
  have : ((n : Int) % 2 ^ 32).toNat = n := by omega
  rw [asUInt32, this, UInt32.toNat_ofNat']
  exact Nat.mod_eq_of_lt h

theorem toNat_sub_of_le {a b : UInt32} (h : b.toNat ≤ a.toNat) :
    (a - b).toNat = a.toNat - b.toNat :=
  UInt32.toNat_sub_of_le a b (UInt32.le_iff_toNat_le.mpr h)

/-- A difference does not wrap if and only if it is not negative. -/
theorem toNat_sub_exact_iff {a b : UInt32} :
    ((a - b).toNat : Int) = a.toNat - b.toNat ↔ b.toNat ≤ a.toNat := by
  constructor
  · intro h
    omega
  · intro h
    rw [toNat_sub_of_le h]
    exact Int.ofNat_sub h

theorem minPay_eq (s : PlanState) : minPay s = min s.remainingPay.toNat 8 := by
  have hmin : (min s.remainingPay fragmentMinPayload).toNat = min s.remainingPay.toNat 8 := by
    rw [show min s.remainingPay fragmentMinPayload =
      if s.remainingPay ≤ fragmentMinPayload then s.remainingPay else fragmentMinPayload from rfl]
    split
    · rename_i h
      rw [UInt32.le_iff_toNat_le] at h
      exact (Nat.min_eq_left h).symm
    · rename_i h
      rw [UInt32.le_iff_toNat_le] at h
      exact (Nat.min_eq_right (by change 8 ≤ _; change ¬ _ ≤ 8 at h; omega)).symm
  rw [minPay, asInt32_of_lt (by rw [hmin]; omega), hmin]

/-! ## One iteration -/

/-- The subtraction for the last fragment cannot wrap. -/
theorem toNat_lastRoom (hz : ¬ x.HeadersTooLarge) :
    (x.maxFragSz - x.lastFragSz).toNat = x.lastRoom := by
  simp only [HeadersTooLarge, UInt32.lt_iff_toNat_lt] at hz
  exact toNat_sub_of_le (by omega)

/-- What an iteration without a wrap requires. -/
theorem exact_iff (hz : ¬ x.HeadersTooLarge) :
    x.Exact s ↔ s.nextFragSz.toNat ≤ x.maxFragSz.toNat ∧
      x.maxFragSz.toNat - s.nextFragSz.toNat < 2 ^ 31 ∧
      (min s.remainingPay.toNat 8 ≤ x.maxFragSz.toNat - s.nextFragSz.toNat →
        x.lastRoom < s.remainingPay.toNat → s.remainingPay.toNat < 2 ^ 31) := by
  have hroom := toNat_lastRoom hz
  have hmin := minPay_eq s
  constructor
  · intro h
    have hle := toNat_sub_exact_iff.mp h.room
    have hlt := asInt32_exact_iff.mp h.maxPay
    rw [toNat_sub_of_le hle] at hlt
    refine ⟨hle, hlt, fun hfits hlast => ?_⟩
    refine asInt32_exact_iff.mp (h.another ?_ ?_).1
    · rw [h.maxPay, hmin, toNat_sub_of_le hle]
      omega
    · rw [UInt32.lt_iff_toNat_lt, hroom]
      exact hlast
  · rintro ⟨hle, hlt, hsigned⟩
    have hsub := toNat_sub_of_le hle
    have hmax : x.maxPay s = (x.maxFragSz - s.nextFragSz).toNat :=
      asInt32_of_lt (by rw [hsub]; exact hlt)
    refine ⟨toNat_sub_exact_iff.mpr hle, hmax, ?_, fun hfits hlast => ?_⟩
    · simp only [HeadersTooLarge, UInt32.lt_iff_toNat_lt] at hz
      exact toNat_sub_exact_iff.mpr (by omega)
    · rw [UInt32.lt_iff_toNat_lt, hroom] at hlast
      rw [hmin, hmax, hsub] at hfits
      have hrem := asInt32_of_lt (hsigned (by omega) hlast)
      refine ⟨hrem, ?_⟩
      have hpay : x.anotherPay s = (min s.remainingPay.toNat
          (x.maxFragSz.toNat - s.nextFragSz.toNat) : Nat) := by
        rw [anotherPay, hrem, hmax, hsub]
        omega
      have hlt := s.remainingPay.toNat_lt
      have hcast := asUInt32_natCast (min s.remainingPay.toNat
        (x.maxFragSz.toNat - s.nextFragSz.toNat)) (by omega)
      rw [hpay, toNat_sub_of_le (by rw [hcast]; omega), hcast]
      omega

/-- An iteration without a wrap. -/
theorem planStep_of_exact (hz : ¬ x.HeadersTooLarge) (h : x.Exact s) :
    x.planStep s =
      if x.maxFragSz.toNat - s.nextFragSz.toNat < min s.remainingPay.toNat 8 then none
      else if s.remainingPay.toNat ≤ x.lastRoom then some (last s)
      else some (x.another s (.ofNat (min s.remainingPay.toNat
        (x.maxFragSz.toNat - s.nextFragSz.toNat)))) := by
  have hmin := minPay_eq s
  have hmax := h.maxPay
  obtain ⟨hle, hlt, -⟩ := (exact_iff hz).mp h
  rw [toNat_sub_of_le hle] at hmax
  simp only [planStep, UInt32.le_iff_toNat_le, toNat_lastRoom hz]
  split_ifs with h1 h2 h3 h4 h5
  · rfl
  · omega
  · omega
  · omega
  · rfl
  · omega
  · have hrem := (h.another (by omega)
      (by rw [UInt32.lt_iff_toNat_lt, toNat_lastRoom hz]; omega)).1
    have hpay : (x.anotherPay s % 2 ^ 32).toNat = min s.remainingPay.toNat
        (x.maxFragSz.toNat - s.nextFragSz.toNat) := by
      rw [anotherPay, hrem, hmax]
      have := s.remainingPay.toNat_lt
      omega
    exact congrArg (fun pay => some (x.another s pay)) (congrArg UInt32.ofNat hpay)

/-! ## The loop -/

theorem planLoop_done (h : ¬ s.Planning) : x.planLoop s = s := by
  rw [planLoop, dif_neg h]

theorem planLoop_break (h : x.planStep s = none) : x.planLoop s = s := by
  rw [planLoop]
  split
  · rw [h]
  · rfl

theorem planLoop_next (h : x.Iterates s s') : x.planLoop s = x.planLoop s' := by
  rw [planLoop, dif_pos h.1, h.2]

theorem noWrap_done (h : ¬ s.Planning) : x.NoWrap s := by
  intro s' hrun hplanning
  rcases Relation.ReflTransGen.cases_head hrun with rfl | ⟨_, hstep, -⟩
  · exact absurd hplanning h
  · exact absurd hstep.1 h

theorem noWrap_break (hplanning : s.Planning) (h : x.planStep s = none) :
    x.NoWrap s ↔ x.Exact s := by
  constructor
  · intro hall
    exact hall s .refl hplanning
  · intro hexact s' hrun _
    rcases Relation.ReflTransGen.cases_head hrun with rfl | ⟨_, hstep, -⟩
    · exact hexact
    · rw [hstep.2] at h
      cases h

theorem noWrap_next (h : x.Iterates s s') : x.NoWrap s ↔ x.Exact s ∧ x.NoWrap s' := by
  constructor
  · intro hall
    exact ⟨hall s .refl h.1, fun t hrun => hall t (.head h hrun)⟩
  · rintro ⟨hexact, hnext⟩ t hrun ht
    rcases Relation.ReflTransGen.cases_head hrun with rfl | ⟨u, hstep, hrest⟩
    · exact hexact
    · obtain rfl : u = s' := by
        exact Option.some.inj (hstep.2.symm.trans h.2)
      exact hnext t hrest ht

/-- The sizes of a plan that covers the payload. -/
structure SizesFit (x : PlanInput) (sizes : List UInt32) : Prop where
  few : sizes.length ≤ routerMaxFragments
  positive : ∀ pay ∈ sizes, 0 < pay.toNat
  sum : (sizes.map UInt32.toNat).sum = x.payloadLength.toNat
  small : ∀ index (h : index < sizes.length),
    (x.ownSize sizes.length index).toNat + sizes[index].toNat ≤ x.maxFragSz.toNat

/-- What the loop establishes from `s` on. -/
def Sound (x : PlanInput) (s : PlanState) : Prop :=
  x.NoWrap s ∧ ((x.planLoop s).remainingPay = 0 → SizesFit x (x.planLoop s).sizes)

theorem sound_done (hs : s.remainingPay = 0) : Sound x s ↔ SizesFit x s.sizes := by
  have hnot : ¬ s.Planning := fun h => h.1 hs
  rw [Sound, planLoop_done hnot]
  constructor
  · intro h
    exact h.2 hs
  · intro h
    exact ⟨noWrap_done hnot, fun _ => h⟩

/-- Ten fragments were not enough. -/
theorem sound_full (hs : s.remainingPay ≠ 0) (hfull : routerMaxFragments ≤ s.sizes.length) :
    Sound x s := by
  have hnot : ¬ s.Planning := fun h => by
    have := h.2
    omega
  rw [Sound, planLoop_done hnot]
  exact ⟨noWrap_done hnot, fun h => absurd h hs⟩

theorem sound_break (hplanning : s.Planning) (h : x.planStep s = none) :
    Sound x s ↔ x.Exact s := by
  rw [Sound, planLoop_break h, noWrap_break hplanning h]
  constructor
  · intro hsound
    exact hsound.1
  · intro hexact
    exact ⟨hexact, fun hdone => absurd hdone hplanning.1⟩

theorem sound_next (h : x.Iterates s s') : Sound x s ↔ x.Exact s ∧ Sound x s' := by
  rw [Sound, Sound, planLoop_next h, noWrap_next h, and_assoc]

/-- Without an exact iteration the loop is not sound. -/
theorem exact_of_sound (hplanning : s.Planning) (h : Sound x s) : x.Exact s :=
  h.1 s .refl hplanning

/-! ## A plan that is not finished -/

/-- The plan so far, with the headers of fragments that are not the last. -/
structure Begun (x : PlanInput) (s : PlanState) : Prop where
  few : s.sizes.length ≤ routerMaxFragments
  positive : ∀ pay ∈ s.sizes, 0 < pay.toNat
  sum : (s.sizes.map UInt32.toNat).sum + s.remainingPay.toNat = x.payloadLength.toNat
  small : ∀ index (h : index < s.sizes.length),
    (if index = 0 then x.firstFragSz else x.midFragSz).toNat + s.sizes[index].toNat ≤
      x.maxFragSz.toNat
  next : s.nextFragSz = if s.sizes = [] then x.firstFragSz else x.midFragSz

theorem begun_start : Begun x x.start where
  few := Nat.zero_le _
  positive := fun _ h => by cases h
  sum := Nat.zero_add _
  small := fun _ h => by cases h
  next := rfl

/-- Another fragment that is not the last one. -/
theorem Begun.another (h : Begun x s) (hplanning : s.Planning) (pay : UInt32)
    (hpos : 0 < pay.toNat) (hle : pay.toNat ≤ s.remainingPay.toNat)
    (hroom : s.nextFragSz.toNat + pay.toNat ≤ x.maxFragSz.toNat) :
    Begun x (x.another s pay) where
  few := by
    have := hplanning.2
    simp only [PlanInput.another, List.length_append, List.length_singleton]
    omega
  positive := by
    intro q hq
    rcases List.mem_append.mp hq with hq | hq
    · exact h.positive q hq
    · rwa [List.mem_singleton.mp hq]
  sum := by
    have := h.sum
    simp only [PlanInput.another, List.map_append, List.sum_append, List.map_cons, List.map_nil,
      List.sum_cons, List.sum_nil, toNat_sub_of_le hle]
    omega
  small := by
    intro index hindex
    have hnext := h.next
    simp only [PlanInput.another, List.length_append, List.length_singleton] at hindex ⊢
    rcases Nat.lt_or_ge index s.sizes.length with hlt | hge
    · rw [List.getElem_append_left hlt]
      exact h.small index hlt
    · obtain rfl : index = s.sizes.length := by omega
      rw [List.getElem_append_right hge]
      simp only [List.length_eq_zero_iff, Nat.sub_self, List.getElem_cons_zero]
      rwa [← hnext]
  next := by
    simp [PlanInput.another]

/-- The final fragment is the first one or a last one. -/
theorem Begun.final_iff (h : Begun x s) (hplanning : s.Planning) {pay : UInt32}
    (hpay : pay = s.remainingPay) :
    SizesFit x (s.sizes ++ [pay]) ↔
      (if s.sizes = [] then x.firstFragSz else x.lastFragSz).toNat + pay.toNat ≤
        x.maxFragSz.toNat := by
  have hlen := hplanning.2
  have hpos : 0 < pay.toNat := by
    have := hplanning.1
    rw [hpay]
    exact Nat.pos_of_ne_zero fun h0 => this (UInt32.toNat_inj.mp h0)
  constructor
  · intro hfit
    have := hfit.small s.sizes.length (by simp)
    rw [List.getElem_concat_length rfl] at this
    simpa [PlanInput.ownSize] using this
  · intro hfinal
    refine ⟨?_, ?_, ?_, ?_⟩
    · rw [List.length_append, List.length_singleton]
      exact hlen
    · intro q hq
      rcases List.mem_append.mp hq with hq | hq
      · exact h.positive q hq
      · rwa [List.mem_singleton.mp hq]
    · have := h.sum
      rw [← hpay] at this
      simpa using this
    · intro index hindex
      rw [List.length_append, List.length_singleton] at hindex
      rcases Nat.lt_or_ge index s.sizes.length with hlt | hge
      · rw [List.getElem_append_left hlt]
        have hsmall := h.small index hlt
        have hne : index ≠ (s.sizes ++ [pay]).length - 1 := by
          rw [List.length_append, List.length_singleton]
          omega
        rw [PlanInput.ownSize, if_neg hne]
        exact hsmall
      · obtain rfl : index = s.sizes.length := by omega
        rw [List.getElem_concat_length rfl]
        simpa [PlanInput.ownSize] using hfinal

theorem toNat_pos_of_planning (h : s.Planning) : 0 < s.remainingPay.toNat :=
  Nat.pos_of_ne_zero fun h0 => h.1 (UInt32.toNat_inj.mp h0)

/-- The last fragment is sound if it is small enough. -/
theorem Begun.last_iff (h : Begun x s) (hplanning : s.Planning) :
    Sound x (last s) ↔
      (if s.sizes = [] then x.firstFragSz else x.lastFragSz).toNat + s.remainingPay.toNat ≤
        x.maxFragSz.toNat := by
  rw [sound_done rfl]
  exact h.final_iff hplanning rfl

/-- What one iteration decides. -/
theorem sound_iff (hz : ¬ x.HeadersTooLarge) (hplanning : s.Planning) :
    Sound x s ↔ s.nextFragSz.toNat ≤ x.maxFragSz.toNat ∧
      x.maxFragSz.toNat - s.nextFragSz.toNat < 2 ^ 31 ∧
      (x.maxFragSz.toNat - s.nextFragSz.toNat < min s.remainingPay.toNat 8 ∨
        if s.remainingPay.toNat ≤ x.lastRoom then Sound x (last s)
        else s.remainingPay.toNat < 2 ^ 31 ∧
          Sound x (x.another s (.ofNat (min s.remainingPay.toNat
            (x.maxFragSz.toNat - s.nextFragSz.toNat))))) := by
  have hexact := exact_iff (s := s) hz
  by_cases hx : x.Exact s
  · obtain ⟨hle, hroom, hsigned⟩ := hexact.mp hx
    have hstep := planStep_of_exact hz hx
    simp only [hle, hroom, true_and]
    split_ifs at hstep with h1 h2
    · rw [sound_break hplanning hstep]
      simp only [h1, true_or, hx]
    · rw [sound_next ⟨hplanning, hstep⟩, if_pos h2]
      simp only [h1, false_or, hx, true_and]
    · have hlt := hsigned (by omega) (by omega)
      rw [sound_next ⟨hplanning, hstep⟩, if_neg h2]
      simp only [h1, false_or, hx, true_and, hlt]
  · constructor
    · intro hsound
      exact absurd (exact_of_sound hplanning hsound) hx
    · rintro ⟨hle, hroom, hrest⟩
      refine absurd (hexact.mpr ⟨hle, hroom, fun hfits hlast => ?_⟩) hx
      rcases hrest with hrest | hrest
      · omega
      · rw [if_neg (by omega)] at hrest
        exact hrest.1

/-- Another fragment with all that is left is the final one. -/
theorem Begun.another_final_iff (h : Begun x s) (hplanning : s.Planning) {pay : UInt32}
    (hpay : pay = s.remainingPay) :
    Sound x (x.another s pay) ↔
      (if s.sizes = [] then x.firstFragSz else x.lastFragSz).toNat + s.remainingPay.toNat ≤
        x.maxFragSz.toNat := by
  subst hpay
  rw [sound_done (by simp [PlanInput.another])]
  exact h.final_iff hplanning rfl

/-- A fragment that is filled up, with payload left behind it. -/
theorem Begun.filled (h : Begun x s) (hplanning : s.Planning)
    (hroom : 0 < x.maxFragSz.toNat - s.nextFragSz.toNat)
    (hmore : x.maxFragSz.toNat - s.nextFragSz.toNat < s.remainingPay.toNat) :
    ∃ pay : UInt32,
      .ofNat (min s.remainingPay.toNat (x.maxFragSz.toNat - s.nextFragSz.toNat)) = pay ∧
      Begun x (x.another s pay) ∧
      (x.another s pay).remainingPay.toNat =
        s.remainingPay.toNat - (x.maxFragSz.toNat - s.nextFragSz.toNat) ∧
      (x.another s pay).remainingPay ≠ 0 := by
  have hlt := s.remainingPay.toNat_lt
  have hpay : (UInt32.ofNat (min s.remainingPay.toNat
      (x.maxFragSz.toNat - s.nextFragSz.toNat))).toNat =
        x.maxFragSz.toNat - s.nextFragSz.toNat := by
    rw [UInt32.toNat_ofNat_of_lt' (by simp only [UInt32.size]; omega)]
    omega
  refine ⟨_, rfl, h.another hplanning _ (by omega) (by omega) (by omega), ?_⟩
  have hrest := toNat_sub_of_le (a := s.remainingPay) (b := .ofNat (min s.remainingPay.toNat
    (x.maxFragSz.toNat - s.nextFragSz.toNat))) (by omega)
  rw [hpay] at hrest
  refine ⟨hrest, fun h0 => ?_⟩
  have hzero : s.remainingPay.toNat - (x.maxFragSz.toNat - s.nextFragSz.toNat) = 0 :=
    hrest.symm.trans (congrArg UInt32.toNat h0)
  omega

/-- The middle fragments and the last one. -/
theorem Begun.sound_mid_iff (hz : ¬ x.HeadersTooLarge) (h : Begun x s) (hs : s.sizes ≠ [])
    (hplanning : s.Planning) (hr : s.remainingPay.toNat < 2 ^ 31) :
    Sound x s ↔ x.midFragSz.toNat ≤ x.maxFragSz.toNat ∧ x.midRoom < 2 ^ 31 ∧
      ¬ x.LastTooLarge s.remainingPay.toNat (routerMaxFragments - s.sizes.length) := by
  -- By induction on the number of fragments that are left.
  induction hn : routerMaxFragments - s.sizes.length generalizing s with
  | zero =>
    have := hplanning.2
    omega
  | succ left ih =>
    have hpos := toNat_pos_of_planning hplanning
    have hnext : s.nextFragSz = x.midFragSz := by rw [h.next, if_neg hs]
    have hroom : x.maxFragSz.toNat - s.nextFragSz.toNat = x.midRoom := by
      rw [hnext, midRoom]
    have hlast := h.last_iff hplanning
    rw [if_neg hs] at hlast
    have hzle : x.lastFragSz.toNat ≤ x.maxFragSz.toNat := by
      simp only [HeadersTooLarge, UInt32.lt_iff_toNat_lt] at hz
      omega
    rw [PlanInput.sound_iff hz hplanning, hnext, ← midRoom]
    refine and_congr_right fun hle => and_congr_right fun hlt => ?_
    rcases Nat.lt_or_ge x.midRoom (min s.remainingPay.toNat 8) with hbreak | hfits
    · simp only [hbreak, true_or, true_iff]
      rintro ⟨-, hfew, -⟩
      omega
    · simp only [Nat.not_lt.mpr hfits, false_or]
      by_cases hr0 : s.remainingPay.toNat ≤ x.lastRoom
      · rw [if_pos hr0, hlast]
        refine iff_of_true (by rw [lastRoom] at hr0; omega) ?_
        rintro ⟨-, -, hmod⟩
        have := Nat.mod_le (s.remainingPay.toNat - 1) x.midRoom
        omega
      · rw [if_neg hr0]
        simp only [hr, true_and]
        rcases Nat.lt_or_ge x.midRoom s.remainingPay.toNat with hmore | hfinal
        · -- The middle fragment is filled up.
          obtain ⟨pay, hpay, hbegun, hrest, hne⟩ := h.filled hplanning (by omega) (by omega)
          rw [hroom] at hpay hrest
          rw [hpay]
          have hlen : (x.another s pay).sizes.length = s.sizes.length + 1 := by
            simp [PlanInput.another]
          have hmod : (s.remainingPay.toNat - x.midRoom - 1) % x.midRoom =
              (s.remainingPay.toNat - 1) % x.midRoom := by
            rw [Nat.sub_right_comm]
            exact (Nat.mod_eq_sub_mod (by omega)).symm
          rcases Nat.eq_zero_or_pos left with rfl | hleft
          · refine iff_of_true (sound_full hne (by omega)) ?_
            rintro ⟨hfew, -⟩
            omega
          · rw [ih hbegun (by simp [PlanInput.another]) ⟨hne, by omega⟩ (by omega) (by omega),
              hrest]
            simp only [LastTooLarge, hle, hlt, true_and, hmod, Nat.succ_mul]
            refine not_congr (and_congr (by omega) (and_congr_left fun _ => by omega))
        · -- All that is left goes into a middle fragment, which is the final one.
          have hpay : UInt32.ofNat (min s.remainingPay.toNat x.midRoom) = s.remainingPay := by
            rw [Nat.min_eq_left hfinal]
            exact UInt32.ofNat_toNat
          rw [h.another_final_iff hplanning hpay, if_neg hs]
          refine iff_of_false (by rw [lastRoom] at hr0; omega) ?_
          rw [not_not, LastTooLarge, Nat.succ_mul, Nat.mod_eq_of_lt (by omega)]
          omega

/-- The whole loop. -/
theorem sound_start_iff (hz : ¬ x.HeadersTooLarge) (hpay : x.payloadLength ≠ 0) :
    Sound x x.start ↔ x.Plannable := by
  have hempty : x.start.sizes = [] := rfl
  have hplanning : x.start.Planning := ⟨hpay, by rw [hempty]; decide⟩
  have hbegun := begun_start (x := x)
  have hle : x.firstFragSz.toNat ≤ x.maxFragSz.toNat := by
    simp only [HeadersTooLarge, UInt32.lt_iff_toNat_lt] at hz
    omega
  have hpos := toNat_pos_of_planning hplanning
  have hlast := hbegun.last_iff hplanning
  rw [if_pos hempty] at hlast
  rw [PlanInput.sound_iff hz hplanning, Plannable]
  simp only [hz, hpay, false_or]
  change 0 < x.payloadLength.toNat at hpos
  change _ ↔ x.firstFragSz.toNat + x.payloadLength.toNat ≤ _ at hlast
  change x.firstFragSz.toNat ≤ _ ∧ x.firstRoom < 2 ^ 31 ∧
    (x.firstRoom < min x.payloadLength.toNat 8 ∨
      if x.payloadLength.toNat ≤ x.lastRoom then _ else
        x.payloadLength.toNat < 2 ^ 31 ∧
          Sound x (x.another x.start (.ofNat (min x.payloadLength.toNat x.firstRoom)))) ↔ _
  simp only [hle, true_and]
  refine and_congr_right fun hroom => or_congr_right' fun hfits => ?_
  split
  · rw [hlast, firstRoom]
    omega
  · refine and_congr_right fun hsigned => ?_
    rcases Nat.lt_or_ge x.firstRoom x.payloadLength.toNat with hmore | hfinal
    · -- The first fragment is filled up.
      obtain ⟨pay, hpay, hanother, hrest, hne⟩ :=
        hbegun.filled hplanning (by change 0 < x.firstRoom; omega) hmore
      change UInt32.ofNat (min x.payloadLength.toNat x.firstRoom) = pay at hpay
      change _ = x.payloadLength.toNat - x.firstRoom at hrest
      rw [hpay]
      rw [hanother.sound_mid_iff hz (by simp [PlanInput.another])
        ⟨hne, by change 1 < routerMaxFragments; decide⟩ (by omega),
        hrest, UInt32.le_iff_toNat_le]
      simp only [Nat.not_le.mpr hmore, false_or]
      rfl
    · have hall : UInt32.ofNat (min x.payloadLength.toNat x.firstRoom) = x.payloadLength := by
        rw [Nat.min_eq_left hfinal]
        exact UInt32.ofNat_toNat
      rw [hbegun.another_final_iff hplanning hall, if_pos hempty]
      refine iff_of_true ?_ (.inl hfinal)
      change x.firstFragSz.toNat + x.payloadLength.toNat ≤ _
      rw [firstRoom] at hfinal
      omega

/-! ## The result -/

/-- The loop only adds fragments, and not too many. -/
theorem planLoop_length (s : PlanState) (h : s.sizes.length ≤ routerMaxFragments) :
    (x.planLoop s).sizes.length ≤ routerMaxFragments ∧
      (x.planLoop s = s ∨ (x.planLoop s).sizes ≠ []) := by
  induction s using planLoop.induct x with
  | case1 s hplanning hstep =>
    rw [planLoop_break hstep]
    exact ⟨h, .inl rfl⟩
  | case2 s hplanning s' hstep ih =>
    have hadds := x.planStep_adds hstep
    have hlt := hplanning.2
    rw [planLoop_next ⟨hplanning, hstep⟩]
    obtain ⟨hfew, hlonger⟩ := ih (by omega)
    refine ⟨hfew, .inr ?_⟩
    rcases hlonger with hsame | hlonger
    · rw [hsame]
      exact List.ne_nil_of_length_pos (by omega)
    · exact hlonger
  | case3 s hdone =>
    rw [planLoop_done hdone]
    exact ⟨h, .inl rfl⟩

/-- The result with all fragments of the plan. -/
theorem planFits_iff (sizes : List UInt32) (hfew : sizes.length ≤ routerMaxFragments)
    (contacts : Nat → List Nat) :
    x.PlanFits ⟨.ofNat sizes.length, fun index => ⟨contacts index, (sizes.getD index 0).toNat⟩⟩ ↔
      SizesFit x sizes := by
  have hcount : (UInt8.ofNat sizes.length).toNat = sizes.length :=
    UInt8.toNat_ofNat_of_lt' (by simp only [routerMaxFragments, UInt8.size] at *; omega)
  have hget : ∀ index (h : index < sizes.length), sizes.getD index 0 = sizes[index] :=
    fun index h => (List.getElem_eq_getD 0).symm
  have hsum : (List.range sizes.length).map (fun index => (sizes.getD index 0).toNat) =
      sizes.map UInt32.toNat := by
    refine List.ext_getElem (by simp) fun index h _ => ?_
    rw [List.getElem_map, List.getElem_map, List.getElem_range, hget index (by simpa using h)]
  constructor
  · intro h
    have hpositive := h.positive
    have hcovers := h.sum
    have hsmall := h.small
    simp only [hcount, hsum] at hpositive hcovers hsmall
    refine ⟨hfew, fun pay hpay => ?_, hcovers, fun index hindex => ?_⟩
    · obtain ⟨index, hindex, rfl⟩ := List.getElem_of_mem hpay
      rw [← hget index hindex]
      exact hpositive index hindex
    · rw [← hget index hindex]
      exact hsmall index hindex
  · intro h
    refine ⟨?_, ?_, ?_, ?_⟩
    · simp only [hcount]
      exact hfew
    · intro index hindex
      simp only [hcount] at hindex ⊢
      rw [hget index hindex]
      exact h.positive _ (List.getElem_mem hindex)
    · simp only [hcount, hsum]
      exact h.sum
    · intro index hindex
      simp only [hcount] at hindex ⊢
      rw [hget index hindex]
      exact h.small index hindex

/-- A sound loop leads to a plan that fits, whatever the contacts are. -/
theorem planHolds_of_sound (hz : ¬ x.HeadersTooLarge) (h : Sound x x.start)
    (calculate : UInt32 → UInt32 → List Nat × Bool) (results : Nat → FragmentRoute) :
    x.PlanHolds calculate results := by
  refine ⟨fun _ => h.1, fun hplan => ?_⟩
  obtain ⟨hfew, -⟩ := x.planLoop_length x.start (Nat.zero_le _)
  by_cases hdone : (x.planLoop x.start).remainingPay = 0
  · simp only [routerGetFirstRouteFrag, if_neg hz, hdone, ne_eq, not_true, if_false] at hplan ⊢
    split at hplan
    · cases hplan
    · rename_i hsuccess
      rw [if_neg hsuccess]
      exact (planFits_iff _ hfew _).mpr (h.2 hdone)
  · simp only [routerGetFirstRouteFrag, if_neg hz, ne_eq, hdone, not_false_iff, if_true] at hplan
    cases hplan

/-- With contacts that suffice for every fragment, the plan is the result. -/
theorem sound_of_planHolds (hz : ¬ x.HeadersTooLarge) (hpay : x.payloadLength ≠ 0)
    (h : x.PlanHolds (fun _ _ => ([], true)) fun _ => ⟨[], 0⟩) : Sound x x.start := by
  obtain ⟨hwrap, hplan⟩ := h
  refine ⟨hwrap hz, fun hdone => ?_⟩
  obtain ⟨hfew, hsame | hsome⟩ := x.planLoop_length x.start (Nat.zero_le _)
  · rw [hsame] at hdone
    exact absurd hdone hpay
  · simp only [routerGetFirstRouteFrag, if_neg hz, hdone, ne_eq, not_true, if_false,
      List.countP_true, List.length_range] at hplan
    refine (planFits_iff _ hfew fun _ => []).mp (hplan ?_)
    have := List.length_pos_iff.mpr hsome
    rw [UInt8.lt_iff_toNat_lt, UInt8.toNat_ofNat_of_lt' (by
      simp only [routerMaxFragments, UInt8.size] at *; omega)]
    exact this

/-- The plan is right for all contacts if and only if the sizes are as `Plannable` says. -/
theorem planHolds_iff :
    (∀ calculate results, x.PlanHolds calculate results) ↔ x.Plannable := by
  by_cases hz : x.HeadersTooLarge
  · refine iff_of_true (fun calculate results => ⟨fun hnot => absurd hz hnot, ?_⟩) (.inl hz)
    rw [routerGetFirstRouteFrag, if_pos hz]
    exact fun hplan => absurd hplan (Nat.not_lt_zero 0)
  · by_cases hpay : x.payloadLength = 0
    · refine iff_of_true (fun calculate results => ?_) (.inr (.inl hpay))
      have hnot : ¬ x.start.Planning := fun h => h.1 hpay
      refine ⟨fun _ => noWrap_done hnot, fun hplan => ?_⟩
      have hnone : (x.planLoop x.start).remainingPay = 0 := by rw [planLoop_done hnot]; exact hpay
      have hempty : (x.planLoop x.start).sizes = [] := by rw [planLoop_done hnot]; rfl
      simp only [routerGetFirstRouteFrag, if_neg hz, hnone, ne_eq, not_true, if_false,
        hempty] at hplan
      cases hplan
    · rw [← sound_start_iff hz hpay]
      constructor
      · intro h
        exact sound_of_planHolds hz hpay (h _ _)
      · intro h calculate results
        exact planHolds_of_sound hz h calculate results

/-- The headers of the first fragment are much larger than those of the last. -/
def largeFirst : PlanInput where
  payloadLength := 50
  maxFragSz := 100
  firstFragSz := 90
  midFragSz := 20
  lastFragSz := 20

/-- The payload would fit into a last fragment, so it is planned as a single fragment of
140 bytes. -/
theorem largeFirst_not_planHolds :
    ¬ largeFirst.PlanHolds (fun _ _ => ([], true)) fun _ => ⟨[], 0⟩ := by
  rintro ⟨-, hplan⟩
  have hloop : largeFirst.planLoop largeFirst.start = ⟨0, 90, [50]⟩ := by
    have hstep : largeFirst.Iterates largeFirst.start ⟨0, 90, [50]⟩ := ⟨by decide, by decide⟩
    rw [planLoop_next hstep, planLoop_done (by decide)]
  have hresult : largeFirst.routerGetFirstRouteFrag (fun _ _ => ([], true)) (fun _ => ⟨[], 0⟩) =
      ⟨1, fun index => ⟨[], ([50].getD index 0 : UInt32).toNat⟩⟩ := by
    rw [routerGetFirstRouteFrag, if_neg (by decide), hloop]
    rfl
  rw [hresult] at hplan
  exact absurd ((hplan (by decide)).small 0 (by decide)) (by decide)

end PlanInput
end Upcn
