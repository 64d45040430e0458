import Mathlib.Tactic.FinCases
import Upcn.Tcpclv3.Connections

/-!
# The connection table

Every entry of `param_htab` leads to the parameters of a connection with that
EID, as long as a connection in the table does not announce another EID than the
one it is there under.  `cla_tcpclv3_perform_handshake` replaces the EID of the
connection and leaves the table as it is: the entry of the contact plan then has
another EID than the parameters, and it stays when they are freed.

* `Tidy` is the invariant.  It says of the entries also that their task has not
  come to the end.
* `Keeps` is what most of the code does: the table stays, and so does the EID of
  every connection.
* `Announces` is the condition on a step.
-/

namespace Upcn.Tcpclv3

open Outcome

namespace Tcpclv3Config

variable {hash : List Char → Nat} {s s' : Tcpclv3Config} {p q : ParamPtr} {eid : Eid}
  {c : ContactParameters} {f : ContactParameters → ContactParameters}

/-! ## What is asked for -/

/-- The entries lead to parameters with their EID, no EID is there twice, and
nothing leads to the parameters of a task that has ended. -/
structure Consistent (s : Tcpclv3Config) : Prop where
  live : ∀ e ∈ s.paramHtab.entries,
    ∃ c, s.params e.value = some c ∧ c.eid = some e.key
  once : (s.paramHtab.entries.map HtabEntry.key).Nodup
  ended : ∀ p, (∀ c, s.params p = some c → c.point = .freeing) →
    ∀ e ∈ s.paramHtab.entries, e.value ≠ p

/-- A connection that the table has under some EID announces no other one. -/
def Announces (hash : List Char → Nat) (s : Tcpclv3Config) : ConnectionEvent → Prop
  | .advance p found => ∀ c c', s.params p = some c → c.point = .handshake →
      performHandshake c found = some c' →
      ∀ eid, s.paramHtab.htabGet hash eid = some p → c'.eid = some eid
  | _ => True

/-! ## The invariant -/

/-- Parameters with this EID, whose task has not come to the end. -/
def Stays (eid : Eid) (c : ContactParameters) : Prop :=
  c.eid = some eid ∧ c.point ≠ .freeing

/-- The entries lead to parameters with their EID. -/
structure Tidy (hash : List Char → Nat) (s : Tcpclv3Config) : Prop where
  wellFormed : s.paramHtab.WellFormed hash
  entry : ∀ eid p, s.paramHtab.htabGet hash eid = some p →
    ∃ c, s.params p = some c ∧ Stays eid c

theorem Tidy.consistent (h : s.Tidy hash) : s.Consistent where
  live := by
    intro e he
    obtain ⟨c, hc, heid, _⟩ := h.entry e.key e.value (h.wellFormed.htabGet_iff.mpr he)
    exact ⟨c, hc, heid⟩
  once := h.wellFormed.nodup_keys
  ended := by
    intro p hp e he hvalue
    obtain ⟨c, hc, _, hpoint⟩ :=
      h.entry e.key e.value (h.wellFormed.htabGet_iff.mpr he)
    rw [hvalue] at hc
    exact hpoint (hp c hc)

/-- An entry of `p` is under the EID of the parameters. -/
theorem Tidy.eid_of_get (h : s.Tidy hash) (hc : s.params p = some c)
    (hget : s.paramHtab.htabGet hash eid = some p) : c.eid = some eid := by
  obtain ⟨c', hc', heid, _⟩ := h.entry eid p hget
  have hsame := Option.some.inj (hc'.symm.trans hc)
  rw [← hsame]
  exact heid

/-- Nothing leads to memory that is not in use. -/
theorem Tidy.get_ne (h : s.Tidy hash) (hp : s.params p = none) (eid : Eid) :
    s.paramHtab.htabGet hash eid ≠ some p := by
  intro hget
  obtain ⟨c, hc, _⟩ := h.entry eid p hget
  rw [hp] at hc
  cases hc

theorem params_setParams_self (x : Option ContactParameters) :
    (s.setParams p x).params p = x := if_pos rfl

theorem params_setParams_of_ne (h : q ≠ p) (x : Option ContactParameters) :
    (s.setParams p x).params q = s.params q := if_neg h

/-- The parameters at `p` are written, or freed. -/
theorem Tidy.setParams (h : s.Tidy hash) {x : Option ContactParameters}
    (hx : ∀ eid, s.paramHtab.htabGet hash eid = some p → ∃ c, x = some c ∧ Stays eid c) :
    (s.setParams p x).Tidy hash where
  wellFormed := h.wellFormed
  entry := by
    intro eid q hget
    by_cases hq : q = p
    · subst hq
      rw [params_setParams_self]
      exact hx eid hget
    · rw [params_setParams_of_ne hq]
      exact h.entry eid q hget

/-- The table has less entries. -/
theorem Tidy.of_fewer (h : s.Tidy hash) (hparams : s'.params = s.params)
    (hwf : s'.paramHtab.WellFormed hash)
    (hget : ∀ eid p, s'.paramHtab.htabGet hash eid = some p →
      s.paramHtab.htabGet hash eid = some p) : s'.Tidy hash where
  wellFormed := hwf
  entry := by
    intro eid p hp
    rw [hparams]
    exact h.entry eid p (hget eid p hp)

theorem Tidy.removeEntry (h : s.Tidy hash) (eid : Eid) :
    (s.removeEntry hash eid).Tidy hash := by
  refine h.of_fewer rfl h.wellFormed.htabRemove fun eid' p hget => ?_
  rw [Tcpclv3Config.removeEntry, h.wellFormed.htabGet_htabRemove] at hget
  by_cases heid : eid' = eid
  · rw [if_pos heid] at hget
    cases hget
  · rw [if_neg heid] at hget
    exact hget

/-- An entry is added for parameters with its EID. -/
theorem Tidy.addEntry (h : s.Tidy hash) (hc : s.params p = some c) (hs : Stays eid c) :
    (s.addEntry hash eid p).Tidy hash where
  wellFormed := h.wellFormed.htabAdd
  entry := by
    intro eid' q hget
    rw [Tcpclv3Config.addEntry, Htab.htabGet_htabAdd] at hget
    by_cases heid : eid' = eid
    · rw [if_pos heid] at hget
      subst heid
      cases hold : s.paramHtab.htabGet hash eid' with
      | none =>
        rw [hold, Option.getD_none] at hget
        obtain rfl := Option.some.inj hget
        exact ⟨c, hc, hs⟩
      | some q' =>
        rw [hold, Option.getD_some] at hget
        rw [hget] at hold
        exact h.entry eid' q hold
    · rw [if_neg heid] at hget
      exact h.entry eid' q hget

/-! ## Steps that leave the table as it is -/

/-- The table stays, and every connection keeps its EID and goes on. -/
structure Keeps (s s' : Tcpclv3Config) : Prop where
  htab : s'.paramHtab = s.paramHtab
  params : ∀ q c, s.params q = some c → ∃ c', s'.params q = some c' ∧
    ∀ eid, Stays eid c → Stays eid c'

theorem Keeps.trans {s'' : Tcpclv3Config} (h : Keeps s s') (h' : Keeps s' s'') :
    Keeps s s'' where
  htab := h'.htab.trans h.htab
  params := by
    intro q c hc
    obtain ⟨c', hc', hstays⟩ := h.params q c hc
    obtain ⟨c'', hc'', hstays'⟩ := h'.params q c' hc'
    exact ⟨c'', hc'', fun eid hs => hstays' eid (hstays eid hs)⟩

theorem Keeps.refl (s : Tcpclv3Config) : Keeps s s :=
  ⟨rfl, fun _ c hc => ⟨c, hc, fun _ hs => hs⟩⟩

theorem Tidy.of_keeps (h : s.Tidy hash) (hk : Keeps s s') : s'.Tidy hash where
  wellFormed := by
    rw [hk.htab]
    exact h.wellFormed
  entry := by
    intro eid p hget
    rw [hk.htab] at hget
    obtain ⟨c, hc, hs⟩ := h.entry eid p hget
    obtain ⟨c', hc', hstays⟩ := hk.params p c hc
    exact ⟨c', hc', hstays eid hs⟩

theorem load_ok (h : s.load p = .ok c) : s.params p = some c := by
  unfold load at h
  split at h
  · cases h
  · next c' hc' =>
    rw [hc']
    exact congrArg some (Except.ok.inj h)

theorem modify_keeps (h : s.modify p f = .ok s')
    (hf : ∀ eid c, Stays eid c → Stays eid (f c)) : Keeps s s' := by
  obtain ⟨c, hload, hret⟩ := bind_eq_ok h
  have hc := load_ok hload
  obtain rfl := Except.ok.inj hret
  refine ⟨rfl, fun q c' hc' => ?_⟩
  by_cases hq : q = p
  · subst hq
    obtain rfl := Option.some.inj (hc.symm.trans hc')
    exact ⟨f c, params_setParams_self _, fun eid => hf eid c⟩
  · exact ⟨c', (params_setParams_of_ne hq _).trans hc', fun _ hs => hs⟩

theorem goTo_keeps {point : MgmtPoint} (hpoint : point ≠ .freeing)
    (h : s.goTo p point = .ok s') : Keeps s s' :=
  modify_keeps h fun _ _ hs => ⟨hs.1, hpoint⟩

theorem moveAddrIfNone_keeps (h : s.moveAddrIfNone p q = .ok s') : Keeps s s' := by
  obtain ⟨taker, _, h⟩ := bind_eq_ok h
  split at h
  · obtain ⟨giver, _, h⟩ := bind_eq_ok h
    obtain ⟨s₁, htaker, hgiver⟩ := bind_eq_ok h
    have hfirst := modify_keeps htaker fun _ _ hs => hs
    exact hfirst.trans (modify_keeps hgiver fun _ _ hs => hs)
  · obtain rfl := Except.ok.inj h
    exact Keeps.refl s

/-- The planned status goes from one connection to another. -/
theorem opportunistic_keeps {p₁ p₂ : ParamPtr} {x₁ x₂ : Bool}
    (h : (s.modify p₁ (fun c => { c with opportunistic := x₁ }) >>= fun s =>
      s.modify p₂ (fun c => { c with opportunistic := x₂ }) >>= fun s =>
        s.moveAddrIfNone p q) = .ok s') : Keeps s s' := by
  obtain ⟨s₁, hfirst, h⟩ := bind_eq_ok h
  obtain ⟨s₂, hsecond, haddr⟩ := bind_eq_ok h
  have h₁ := modify_keeps hfirst fun _ _ hs => hs
  have h₂ := modify_keeps hsecond fun _ _ hs => hs
  exact (h₁.trans h₂).trans (moveAddrIfNone_keeps haddr)

theorem takeOver_keeps (h : s.takeOver p q = .ok s') : Keeps s s' :=
  opportunistic_keeps h

theorem giveOver_keeps (h : s.giveOver p q = .ok s') : Keeps s s' :=
  opportunistic_keeps h

/-! ## The steps of a management task -/

/-- The other connection keeps its entry, or loses it. -/
theorem meetOther_spec (h : s.meetOther hash p eid = .ok s') :
    Keeps s s' ∨ Keeps (s.removeEntry hash eid) s' := by
  unfold meetOther at h
  split at h
  · obtain rfl := Except.ok.inj h
    exact .inl (Keeps.refl s)
  · obtain ⟨other, _, h⟩ := bind_eq_ok h
    split at h
    · split at h
      · obtain rfl := Except.ok.inj h
        exact .inr (Keeps.refl _)
      · exact .inr (takeOver_keeps h)
    · obtain ⟨own, _, h⟩ := bind_eq_ok h
      split at h
      · obtain rfl := Except.ok.inj h
        exact .inl (Keeps.refl s)
      · exact .inl (giveOver_keeps h)

theorem Tidy.handleEstablishedConnection (h : s.Tidy hash) (hc : s.params p = some c)
    (hpoint : c.point = .handle)
    (hstep : s.handleEstablishedConnection hash p = .ok s') : s'.Tidy hash := by
  obtain ⟨c', hload, hstep⟩ := bind_eq_ok hstep
  obtain rfl := Option.some.inj ((load_ok hload).symm.trans hc)
  split at hstep
  · cases hstep
  · next eid heid =>
    obtain ⟨s₁, hmeet, hmodify⟩ := bind_eq_ok hstep
    have hstays : Stays eid c' := ⟨heid, by rw [hpoint]; decide⟩
    have hmet : s₁.Tidy hash ∧ ∃ c₁, s₁.params p = some c₁ ∧ Stays eid c₁ := by
      rcases meetOther_spec hmeet with hk | hk
      · obtain ⟨c₁, hc₁, hkeeps⟩ := hk.params p c' hc
        exact ⟨h.of_keeps hk, c₁, hc₁, hkeeps eid hstays⟩
      · obtain ⟨c₁, hc₁, hkeeps⟩ := hk.params p c' hc
        exact ⟨(h.removeEntry eid).of_keeps hk, c₁, hc₁, hkeeps eid hstays⟩
    obtain ⟨htidy, c₁, hc₁, hstays₁⟩ := hmet
    refine (htidy.addEntry hc₁ hstays₁).of_keeps (modify_keeps hmodify ?_)
    intro eid' c₂ hs
    exact ⟨hs.1, by simp⟩

/-- Behind the loop nothing is left that leads to the parameters. -/
theorem Tidy.removeOwnEntry (h : s.Tidy hash) (hc : s.params p = some c) :
    (s.removeOwnEntry hash p c).Tidy hash ∧
      ∀ eid, (s.removeOwnEntry hash p c).paramHtab.htabGet hash eid ≠ some p := by
  unfold Tcpclv3Config.removeOwnEntry
  split
  · next heid =>
    refine ⟨h, fun eid hget => ?_⟩
    have hown := h.eid_of_get hc hget
    rw [heid] at hown
    cases hown
  · next eid heid =>
    have hunder : ∀ eid', s.paramHtab.htabGet hash eid' = some p → eid' = eid := by
      intro eid' hget
      have hown := h.eid_of_get hc hget
      exact Option.some.inj (hown.symm.trans heid)
    split
    · refine ⟨h.removeEntry eid, fun eid' hget => ?_⟩
      rw [Tcpclv3Config.removeEntry, h.wellFormed.htabGet_htabRemove] at hget
      by_cases hsame : eid' = eid
      · rw [if_pos hsame] at hget
        cases hget
      · rw [if_neg hsame] at hget
        exact hsame (hunder eid' hget)
    · next hother =>
      refine ⟨h, fun eid' hget => hother ?_⟩
      rw [← hunder eid' hget]
      exact hget

theorem Tidy.leave (h : s.Tidy hash) (hc : s.params p = some c)
    (hstep : (s.removeOwnEntry hash p c).goTo p .freeing = .ok s') : s'.Tidy hash := by
  obtain ⟨htidy, hnone⟩ := h.removeOwnEntry hc
  obtain ⟨c', _, hret⟩ := bind_eq_ok hstep
  obtain rfl := Except.ok.inj hret
  exact htidy.setParams fun eid hget => absurd hget (hnone eid)

theorem Tidy.handshake {c' : ContactParameters} (h : s.Tidy hash)
    (hannounces : ∀ eid, s.paramHtab.htabGet hash eid = some p → c'.eid = some eid) :
    (s.setParams p (some { c' with point := .handle })).Tidy hash := by
  refine h.setParams fun eid hget => ⟨_, rfl, hannounces eid hget, ?_⟩
  simp

/-- Nothing leads to parameters that are about to be freed. -/
theorem Tidy.free (h : s.Tidy hash) (hc : s.params p = some c)
    (hpoint : c.point = .freeing) : (s.setParams p none).Tidy hash := by
  refine h.setParams fun eid hget => ?_
  obtain ⟨c', hc', _, hnot⟩ := h.entry eid p hget
  obtain rfl := Option.some.inj (hc.symm.trans hc')
  exact absurd hpoint hnot

theorem Tidy.advance {found : Found} (h : s.Tidy hash)
    (hannounces : s.Announces hash (.advance p found))
    (hstep : s.advance hash p found = .ok s') : s'.Tidy hash := by
  obtain ⟨c, hload, hstep⟩ := bind_eq_ok hstep
  have hc := load_ok hload
  split at hstep
  · -- at the top of the loop
    split at hstep
    · split at hstep
      · exact h.of_keeps (goTo_keeps (by decide) hstep)
      · exact h.of_keeps (goTo_keeps (by decide) hstep)
    · split at hstep
      · exact h.of_keeps (goTo_keeps (by decide) hstep)
      · cases hstep
    · cases hstep
  · split at hstep
    · refine h.of_keeps (modify_keeps hstep fun _ c' hs => ⟨hs.1, ?_⟩)
      by_cases hretry : maxRetryAttempts < c'.connectAttempt + 1
      · simp [hretry]
      · simp [hretry]
    · exact h.of_keeps (modify_keeps hstep fun _ _ hs => ⟨hs.1, by simp⟩)
  · next hpoint =>
    split at hstep
    · exact h.of_keeps (goTo_keeps (by decide) hstep)
    · next c' hperform =>
      obtain rfl := Except.ok.inj hstep
      exact h.handshake (hannounces c c' hc hpoint hperform)
  · next hpoint => exact h.handleEstablishedConnection hc hpoint hstep
  · split at hstep
    · exact h.of_keeps (modify_keeps hstep fun _ _ hs => ⟨hs.1, by simp⟩)
    · exact h.of_keeps (modify_keeps hstep fun _ _ hs => ⟨hs.1, by simp⟩)
  · split at hstep
    · cases hstep
    · exact h.of_keeps (modify_keeps hstep fun _ _ hs => ⟨hs.1, by simp⟩)
  · split at hstep
    · exact h.of_keeps (goTo_keeps (by decide) hstep)
    · exact h.of_keeps (modify_keeps hstep fun _ _ hs => ⟨hs.1, by simp⟩)
  · exact h.leave hc hstep
  · next hpoint =>
    obtain rfl := Except.ok.inj hstep
    exact h.free hc hpoint

/-! ## New connections -/

/-- The entry of a planned connection goes with its parameters. -/
theorem Tidy.createTask {found : Launch} (h : s.Tidy hash) (hfree : s.params p = none)
    (hc : Stays eid c)
    (hstep : (s.addEntry hash eid p).createTask hash p c found = .ok s') :
    s'.Tidy hash := by
  unfold Tcpclv3Config.createTask at hstep
  split at hstep
  · obtain rfl := Except.ok.inj hstep
    have hset : (s.setParams p (some c)).Tidy hash :=
      h.setParams fun eid hget => absurd hget (h.get_ne hfree eid)
    exact hset.addEntry (params_setParams_self _) hc
  · rw [hc.1] at hstep
    dsimp only at hstep
    split at hstep
    · obtain rfl := Except.ok.inj hstep
      have hwf : (s.addEntry hash eid p).paramHtab.WellFormed hash :=
        h.wellFormed.htabAdd
      refine h.of_fewer rfl hwf.htabRemove fun eid' q hget => ?_
      rw [Tcpclv3Config.removeEntry, hwf.htabGet_htabRemove] at hget
      by_cases heid : eid' = eid
      · rw [if_pos heid] at hget
        cases hget
      · rw [if_neg heid, Tcpclv3Config.addEntry, Htab.htabGet_htabAdd,
          if_neg heid] at hget
        exact hget
    · cases hstep

/-- The point where a new task stands. -/
theorem initialParameters_point {sock : Int} {planned : Option Eid} {found : Launch}
    (h : initialParameters sock planned found = some c) : c.point = .loop := by
  unfold initialParameters at h
  split at h
  · split at h
    · cases h
    · obtain rfl := Option.some.inj h
      rfl
  · obtain rfl := Option.some.inj h
    rfl

/-- The parameters are new, and the table has them under their EID or not at
all. -/
theorem Tidy.launch {sock : Int} {planned : Option Eid} {found : Launch}
    (h : s.Tidy hash) (hmemory : ∀ p, found.memory = some p → s.params p = none)
    (hstep : s.launch hash sock planned found = .ok s') : s'.Tidy hash := by
  unfold Tcpclv3Config.launch at hstep
  split at hstep
  · next p c hp hc =>
    have hfree := hmemory p hp
    have hpoint := initialParameters_point hc
    split at hstep
    · split at hstep
      · next heid =>
        unfold Tcpclv3Config.createTask at hstep
        split at hstep
        · obtain rfl := Except.ok.inj hstep
          exact h.setParams fun eid hget => absurd hget (h.get_ne hfree eid)
        · rw [heid] at hstep
          obtain rfl := Except.ok.inj hstep
          exact h
      · next eid heid =>
        split at hstep
        · obtain rfl := Except.ok.inj hstep
          exact h
        · refine h.createTask hfree ⟨heid, ?_⟩ hstep
          rw [hpoint]
          decide
    · obtain rfl := Except.ok.inj hstep
      exact h
  · obtain rfl := Except.ok.inj hstep
    exact h

/-! ## Runs -/

theorem tidy_initial : (initial : Tcpclv3Config).Tidy hash where
  wellFormed := Htab.wellFormed_htabInit (by decide)
  entry := by
    intro eid p hget
    cases hget

theorem Tidy.handle {e : ConnectionEvent} (h : s.Tidy hash) (hmemory : s.Allocates e)
    (hannounces : s.Announces hash e) (hstep : s.handle hash e = .ok s') :
    s'.Tidy hash := by
  cases e with
  | startContact eid found =>
    change s.startScheduledContact hash eid found = .ok s' at hstep
    unfold startScheduledContact at hstep
    split at hstep
    · exact h.of_keeps (modify_keeps hstep fun _ _ hs => hs)
    · exact h.launch hmemory hstep
  | endContact eid =>
    change s.endScheduledContact hash eid = .ok s' at hstep
    unfold endScheduledContact at hstep
    split at hstep
    · obtain rfl := Except.ok.inj hstep
      exact h
    · exact h.of_keeps (modify_keeps hstep fun _ _ hs => hs)
  | accept sock found => exact h.launch hmemory hstep
  | advance p found => exact h.advance hannounces hstep
  | linkLost p => exact h.of_keeps (modify_keeps hstep fun _ _ hs => hs)

theorem Run.tidy (h : Run hash (Announces hash) s) : s.Tidy hash := by
  induction h with
  | start => exact tidy_initial
  | step _ hmemory hcond hstep ih => exact ih.handle hmemory hcond hstep

/-- In every run whose connections announce the EID they are in the table under,
the table is consistent. -/
theorem connections_consistent (hash : List Char → Nat) {s : Tcpclv3Config}
    (h : Run hash (Announces hash) s) : s.Consistent :=
  h.tidy.consistent

/-- Several events, each of which may happen at any time. -/
theorem Run.all {cond : Tcpclv3Config → ConnectionEvent → Prop}
    (events : List ConnectionEvent) {s s' : Tcpclv3Config} (h : Run hash cond s)
    (hall : ∀ e ∈ events, ∀ s : Tcpclv3Config, s.Allocates e ∧ cond s e)
    (hrun : events.foldlM (Tcpclv3Config.handle hash) s = .ok s') :
    Run hash cond s' := by
  induction events generalizing s with
  | nil =>
    obtain rfl := Except.ok.inj hrun
    exact h
  | cons e rest ih =>
    rw [List.foldlM_cons] at hrun
    obtain ⟨s₁, hstep, hrest⟩ := bind_eq_ok hrun
    obtain ⟨hmemory, hcond⟩ := hall e List.mem_cons_self s
    refine ih (h.step hmemory hcond hstep) (fun e' he' => ?_) hrest
    exact hall e' (List.mem_cons_of_mem e he')

/-- An EID by its last character. -/
def dtnEid (c : Char) : Eid := ['d', 't', 'n', ':', c]

/-- A contact with `dtn:a` is started, at address 0. -/
def startA : ConnectionEvent :=
  .startContact (dtnEid 'a') ⟨some 0, true, some [], true, true, false⟩

/-- The connection of this contact goes on.  Sockets are opened, the peer may
announce an EID, and links cannot be created. -/
def goOn (peerEid : Option Eid) : ConnectionEvent := .advance 0 ⟨1, peerEid, false⟩

theorem announces_goOn_none (s : Tcpclv3Config) : s.Announces hash (goOn none) := by
  intro c c' _ _ hperform
  cases hperform

/-- The connection is made, and the peer has announced the EID of the contact. -/
theorem connections_consistent_announced : ∃ s : Tcpclv3Config,
    s.paramHtab.htabGet List.length (dtnEid 'a') = some 0 ∧
      (s.params 0).map ContactParameters.point = some .handle ∧ s.Consistent := by
  have hstart : Run List.length (Announces List.length) _ :=
    Run.start.step (e := startA) (fun _ _ => rfl) trivial rfl
  have hconnected : Run List.length (Announces List.length) _ :=
    hstart.all [goOn none, goOn none, goOn none] (by
      intro e he s
      fin_cases he <;> exact ⟨trivial, announces_goOn_none s⟩) rfl
  have hannounced : Run List.length (Announces List.length) _ :=
    hconnected.step (e := goOn (some (dtnEid 'a'))) trivial (by
      intro c c' hc _ hperform eid hget
      rw [← hconnected.tidy.eid_of_get hc hget]
      cases hc
      cases hperform
      rfl) rfl
  exact ⟨_, rfl, rfl, connections_consistent List.length hannounced⟩

/-- A connection whose EID is new to the table. -/
theorem advance_handle_alone {found : Found} (hc : s.params p = some c)
    (hpoint : c.point = .handle) (heid : c.eid = some eid)
    (hget : s.paramHtab.htabGet hash eid = none) :
    s.advance hash p found = .ok ((s.addEntry hash eid p).setParams p
      (some { c with state := .established, point := .linkInit })) := by
  have hload : s.load p = .ok c := by rw [load, hc]
  have hadded : (s.addEntry hash eid p).load p = .ok c := hload
  have hmeet : s.meetOther hash p eid = .ok s := by rw [meetOther, hget]
  rw [Tcpclv3Config.advance, hload, ok_bind, hpoint]
  dsimp only
  rw [Tcpclv3Config.handleEstablishedConnection, hload, ok_bind, heid]
  dsimp only
  rw [hmeet, ok_bind, modify, hadded, ok_bind, heid]
  rfl

/-- The entry of a connection that leaves. -/
theorem advance_leaving_own {found : Found} (hc : s.params p = some c)
    (hpoint : c.point = .leaving) (heid : c.eid = some eid)
    (hget : s.paramHtab.htabGet hash eid = some p) :
    s.advance hash p found = .ok ((s.removeEntry hash eid).setParams p
      (some { c with point := .freeing })) := by
  have hload : s.load p = .ok c := by rw [load, hc]
  have hown : s.removeOwnEntry hash p c = s.removeEntry hash eid := by
    rw [Tcpclv3Config.removeOwnEntry, heid]
    exact if_pos hget
  have hremoved : (s.removeEntry hash eid).load p = .ok c := hload
  rw [Tcpclv3Config.advance, hload, ok_bind, hpoint]
  dsimp only
  rw [hown, goTo, modify, hremoved]
  rfl

theorem endScheduledContact_found (hget : s.paramHtab.htabGet hash eid = some p)
    (hc : s.params p = some c) :
    s.endScheduledContact hash eid
      = .ok (s.setParams p (some { c with opportunistic := true })) := by
  rw [endScheduledContact, hget]
  dsimp only
  rw [modify, load, hc]
  rfl

theorem endScheduledContact_freed (hget : s.paramHtab.htabGet hash eid = some p)
    (hp : s.params p = none) : s.endScheduledContact hash eid = .error .wildPointer := by
  rw [endScheduledContact, hget]
  dsimp only
  rw [modify, load, hp]
  rfl

/-- The table with the entry of the contact plan. -/
def plannedHtab (hash : List Char → Nat) : Htab ParamPtr :=
  ((Htab.htabInit paramHtabSlotCount).htabAdd hash (dtnEid 'a') 0).2

/-- The table with the entry of the peer too. -/
def announcedHtab (hash : List Char → Nat) : Htab ParamPtr :=
  ((plannedHtab hash).htabAdd hash (dtnEid 'b') 0).2

theorem plannedHtab_get (hash : List Char → Nat) :
    (plannedHtab hash).htabGet hash (dtnEid 'a') = some 0 ∧
      (plannedHtab hash).htabGet hash (dtnEid 'b') = none := by
  rw [plannedHtab, Htab.htabGet_htabAdd, Htab.htabGet_htabAdd, if_pos rfl,
    if_neg (by decide)]
  exact ⟨rfl, rfl⟩

theorem announcedHtab_get (hash : List Char → Nat) :
    (announcedHtab hash).htabGet hash (dtnEid 'a') = some 0 ∧
      (announcedHtab hash).htabGet hash (dtnEid 'b') = some 0 := by
  obtain ⟨ha, hb⟩ := plannedHtab_get hash
  rw [announcedHtab, Htab.htabGet_htabAdd, Htab.htabGet_htabAdd,
    if_neg (by decide), if_pos rfl, ha, hb]
  exact ⟨rfl, rfl⟩

theorem leftHtab_get (hash : List Char → Nat) :
    ((announcedHtab hash).htabRemove hash (dtnEid 'b')).2.htabGet hash (dtnEid 'a')
      = some 0 := by
  have hwf : (announcedHtab hash).WellFormed hash :=
    (Htab.wellFormed_htabInit (by decide)).htabAdd.htabAdd
  rw [hwf.htabGet_htabRemove, if_neg (by decide), (announcedHtab_get hash).1]

/-- The peer of a planned connection announces another EID than that of the
contact: when the connection has ended, the table still leads to it, whatever the
hash function is. -/
theorem freed_connection_found : dtnEid 'b' ≠ dtnEid 'a' ∧
    ∀ hash : List Char → Nat, ∃ s : Tcpclv3Config,
      Run hash (fun _ _ => True) s ∧
        s.paramHtab.htabGet hash (dtnEid 'a') = some 0 ∧ s.params 0 = none ∧
        s.endScheduledContact hash (dtnEid 'a') = .error .wildPointer := by
  refine ⟨by decide, fun hash => ?_⟩
  have hstart : Run hash (fun _ _ => True) _ :=
    Run.start.step (e := startA) (fun _ _ => rfl) trivial rfl
  have hopen : Run hash (fun _ _ => True) _ :=
    hstart.all [goOn none, goOn none, goOn none, goOn (some (dtnEid 'b'))] (by
      intro e he s
      fin_cases he <;> exact ⟨trivial, trivial⟩) rfl
  have hhandled : Run hash (fun _ _ => True) _ :=
    hopen.step (e := goOn none) trivial trivial
      (advance_handle_alone rfl rfl rfl (plannedHtab_get hash).2)
  have hlost : Run hash (fun _ _ => True) _ :=
    hhandled.step (e := goOn none) trivial trivial rfl
  have hcontact : Run hash (fun _ _ => True) _ :=
    hlost.step (e := .endContact (dtnEid 'a')) trivial trivial
      (endScheduledContact_found (announcedHtab_get hash).1 rfl)
  have hleaving : Run hash (fun _ _ => True) _ :=
    hcontact.step (e := goOn none) trivial trivial rfl
  have hfreeing : Run hash (fun _ _ => True) _ :=
    hleaving.step (e := goOn none) trivial trivial
      (advance_leaving_own rfl rfl rfl (announcedHtab_get hash).2)
  have hfreed : Run hash (fun _ _ => True) _ :=
    hfreeing.step (e := goOn none) trivial trivial rfl
  exact ⟨_, hfreed, leftHtab_get hash, rfl,
    endScheduledContact_freed (leftHtab_get hash) rfl⟩

end Tcpclv3Config

end Upcn.Tcpclv3
