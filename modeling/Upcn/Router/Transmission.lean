import Mathlib.Data.List.Basic
import Upcn.Lib.Outcome

/-!
# The outcome of a transmission

A bundle that is routed over several contacts has one `struct routed_bundle`
in the lists of all of them.  The transmit task of each contact counts the
bundle in that record and pushes a signal to the router task, which frees the
record and informs the bundle processor when it finds all contacts counted.
This module is that protocol: the steps of `cla_contact_tx_task` on the
record, the two transmission cases of `process_signal`, and the runs of any
interleaving of them.

* `TxState.step` is one atomic step.  An access to the freed record is the
  fault `useAfterFree`, after which there is no next state.
* `Live` and `Broken` are the two kinds of states with signals outstanding:
  the record is there and its counters are right, or it is gone already.
* `transmission_reported_once_iff` says which runs report the outcome once.
-/

namespace Upcn.Router

open Outcome

/-- How far a transmit task has come with the bundle. -/
inductive TxPhase where
  /-- The bundle waits in the list of the contact. -/
  | queued
  /-- `cur->data->serialized++` is done. -/
  | serialized
  /-- The result `s` is known. -/
  | sent (ok : Bool)
  /-- `cur->data->transmitted++` is done. -/
  | counted
  /-- The signal is pushed. -/
  | reported (ok : Bool)
  deriving DecidableEq, Repr

/-- The signals of a transmit task to the router task. -/
inductive RouterSignal where
  | transmissionSuccess
  | transmissionFailure
  deriving DecidableEq, Repr

/-- The signals of the router task to the bundle processor. -/
inductive BpSignal where
  | transmissionSuccess
  | transmissionFailure
  deriving DecidableEq, Repr

/-- The fields of `struct routed_bundle` that take part. -/
structure RoutedBundle where
  id : Nat
  contactCount : Nat
  serialized : Nat
  transmitted : Nat
  deriving DecidableEq, Repr

/-- Why there is no next state. -/
inductive Stuck where
  /-- The step is not one that its task can take now. -/
  | disabled
  /-- The step reads or writes the freed record. -/
  | useAfterFree
  deriving DecidableEq, Repr

/-- `rb` is `none` once the record is freed. -/
structure TxState where
  rb : Option RoutedBundle
  tasks : List TxPhase
  queue : List RouterSignal
  informed : List (BpSignal × Nat)
  freed : Nat
  deriving DecidableEq, Repr

/-- One atomic step: of the transmit task of a contact, or of the router
task. -/
inductive TxStep where
  /-- `cur->data->serialized++`, in the loop or when the link is closed. -/
  | serialize (task : Nat)
  /-- The look-up of the bundle and its serialization, with the result. -/
  | send (task : Nat) (ok : Bool)
  /-- The link is closed, so nothing is sent. -/
  | drain (task : Nat)
  /-- `cur->data->transmitted++`. -/
  | count (task : Nat)
  /-- `report_bundle`. -/
  | report (task : Nat) (ok : Bool)
  /-- The router task handles its next signal. -/
  | handle
  deriving DecidableEq, Repr

/-- `++` on a `uint8_t`. -/
def succ8 (n : Nat) : Nat := (n + 1) % 256

namespace TxState

/-- The bundle is in the lists of `k` contacts. -/
def initial (id k : Nat) : TxState :=
  ⟨some ⟨id, k, 0, 0⟩, List.replicate k .queued, [], [], 0⟩

/-- An access to the record. -/
def deref (s : TxState) : Except Stuck RoutedBundle :=
  match s.rb with
  | some rb => .ok rb
  | none => .error .useAfterFree

/-- A task goes on from one phase to the next. -/
def advance (s : TxState) (task : Nat) (old new : TxPhase) :
    Except Stuck TxState :=
  if s.tasks[task]? = some old then
    .ok { s with tasks := s.tasks.set task new }
  else .error .disabled

/-- The transmission cases of `process_signal`. -/
def processSignal (s : TxState) : Except Stuck TxState := do
  let rb ← s.deref
  if rb.serialized = rb.contactCount then
    let outcome := if rb.serialized = rb.transmitted
      then BpSignal.transmissionSuccess else .transmissionFailure
    return { s with
      rb := none
      informed := s.informed ++ [(outcome, rb.id)]
      freed := s.freed + 1 }
  else return s

/-- One atomic step. -/
def step (s : TxState) : TxStep → Except Stuck TxState
  | .serialize task => do
    let s ← s.advance task .queued .serialized
    let rb ← s.deref
    return { s with rb := some { rb with serialized := succ8 rb.serialized } }
  | .send task ok => do
    let s ← s.advance task .serialized (.sent ok)
    let _ ← s.deref
    return s
  | .drain task => s.advance task .serialized (.sent false)
  | .count task => do
    let s ← s.advance task (.sent true) .counted
    let rb ← s.deref
    return { s with
      rb := some { rb with transmitted := succ8 rb.transmitted } }
  | .report task true => do
    let s ← s.advance task .counted (.reported true)
    return { s with queue := s.queue ++ [.transmissionSuccess] }
  | .report task false => do
    let s ← s.advance task (.sent false) (.reported false)
    return { s with queue := s.queue ++ [.transmissionFailure] }
  | .handle =>
    match s.queue with
    | [] => .error .disabled
    | _ :: rest => processSignal { s with queue := rest }

/-- An interleaving of steps. -/
def run (s : TxState) : List TxStep → Except Stuck TxState
  | [] => .ok s
  | a :: rest => do
    let s ← s.step a
    s.run rest

end TxState

/-! ## What the claims about runs mention -/

def TxPhase.isReported : TxPhase → Bool
  | .reported _ => true
  | _ => false

def TxPhase.isQueued : TxPhase → Bool
  | .queued => true
  | _ => false

/-- The contact's transmission has been counted as successful. -/
def TxPhase.isCounted : TxPhase → Bool
  | .counted => true
  | .reported ok => ok
  | _ => false

/-- The contacts that have been counted in `serialized`. -/
def startedCount (tasks : List TxPhase) : Nat :=
  tasks.countP fun p => !p.isQueued

/-- The contacts that have been counted in `transmitted`. -/
def transmittedCount (tasks : List TxPhase) : Nat :=
  tasks.countP TxPhase.isCounted

/-- The contacts whose task has yet to push its signal. -/
def pendingCount (tasks : List TxPhase) : Nat :=
  tasks.countP fun p => !p.isReported

namespace TxState

/-- The signals that the router task has yet to handle, pushed or not. -/
def outstanding (s : TxState) : Nat :=
  pendingCount s.tasks + s.queue.length

/-- The record counts every contact, so a signal frees it. -/
def full (s : TxState) : Bool :=
  match s.rb with
  | some rb => rb.serialized = rb.contactCount
  | none => false

/-- The signal that frees the record is the last one: no step of the run
handles a signal of a full record while another one is outstanding. -/
def LastSignalFrees (s : TxState) : List TxStep → Prop
  | [] => True
  | a :: rest =>
    (a = .handle → s.full = true → s.outstanding = 1) ∧
      ∀ s', s.step a = .ok s' → s'.LastSignalFrees rest

/-- At most one report, one release for it, and a success only when every
contact has transmitted the bundle. -/
def Sound (s : TxState) (id : Nat) : Prop :=
  s.freed ≤ 1 ∧ s.informed.length = s.freed ∧
    ∀ signal ∈ s.informed, signal.2 = id ∧
      (signal.1 = .transmissionSuccess →
        ∀ p ∈ s.tasks, p = .reported true)

end TxState

/-- The run is over: every task has reported and every signal is handled,
or it came to a fault. -/
def Finished : Except Stuck TxState → Prop
  | .ok s => s.outstanding = 0
  | .error e => e = .useAfterFree

/-- The bundle processor is informed once and the record is freed once. -/
def ReportedOnce (id : Nat) : Except Stuck TxState → Prop
  | .ok s => s.Sound id ∧ s.freed = 1
  | .error _ => False

/-! ## Counting tasks -/

section Count

variable {tasks : List TxPhase} {task : Nat} {old new : TxPhase}

/-- One task that goes on changes a count by its own part. -/
theorem countP_set (f : TxPhase → Bool) (h : tasks[task]? = some old) :
    (tasks.set task new).countP f + (f old).toNat
      = tasks.countP f + (f new).toNat := by
  induction tasks generalizing task with
  | nil => simp at h
  | cons p rest ih =>
    cases task with
    | zero =>
      obtain rfl : p = old := by simpa using h
      rw [List.set_cons_zero, List.countP_cons, List.countP_cons]
      cases f p <;> cases f new <;> simp
    | succ task =>
      have htask : rest[task]? = some old := by simpa using h
      have hrec := ih htask
      rw [List.set_cons_succ, List.countP_cons, List.countP_cons]
      omega

theorem startedCount_set (new : TxPhase) (h : tasks[task]? = some old) :
    startedCount (tasks.set task new) + (!old.isQueued).toNat
      = startedCount tasks + (!new.isQueued).toNat :=
  countP_set _ h

theorem transmittedCount_set (new : TxPhase)
    (h : tasks[task]? = some old) :
    transmittedCount (tasks.set task new) + old.isCounted.toNat
      = transmittedCount tasks + new.isCounted.toNat :=
  countP_set _ h

theorem pendingCount_set (new : TxPhase) (h : tasks[task]? = some old) :
    pendingCount (tasks.set task new) + (!old.isReported).toNat
      = pendingCount tasks + (!new.isReported).toNat :=
  countP_set _ h

theorem countP_lt_of_not {f : TxPhase → Bool} (h : tasks[task]? = some old)
    (hf : f old = false) : tasks.countP f < tasks.length := by
  refine Nat.lt_of_le_of_ne List.countP_le_length fun he => ?_
  have hall := List.countP_eq_length.1 he old (List.mem_of_getElem? h)
  rw [hf] at hall
  exact absurd hall (by simp)

end Count

/-! ## The kinds of states -/

/-- Signals are outstanding, and the record counts the tasks. -/
structure Live (id k : Nat) (s : TxState) : Prop where
  length : s.tasks.length = k
  rb : s.rb = some ⟨id, k, startedCount s.tasks, transmittedCount s.tasks⟩
  informed : s.informed = []
  freed : s.freed = 0
  outstanding : 0 < s.outstanding

/-- Signals are outstanding, and the record is gone. -/
structure Broken (s : TxState) : Prop where
  rb : s.rb = none
  outstanding : 0 < s.outstanding

/-- Every signal is handled, and the outcome is reported once. -/
structure Done (id : Nat) (s : TxState) : Prop where
  rb : s.rb = none
  sound : s.Sound id
  freed : s.freed = 1
  outstanding : s.outstanding = 0

theorem Live.sound {id k : Nat} {s : TxState} (h : Live id k s) :
    s.Sound id := by
  refine ⟨?_, ?_, ?_⟩
  · rw [h.freed]
    exact Nat.zero_le 1
  · rw [h.informed, h.freed]
    rfl
  · rw [h.informed]
    simp

theorem live_initial (id : Nat) {k : Nat} (hk : 1 ≤ k) :
    Live id k (TxState.initial id k) := by
  refine ⟨by simp [TxState.initial], ?_, rfl, rfl, ?_⟩
  · simp [TxState.initial, startedCount, transmittedCount,
      TxPhase.isQueued, TxPhase.isCounted, List.countP_replicate]
  · simp [TxState.initial, TxState.outstanding, pendingCount,
      List.countP_replicate, TxPhase.isReported]
    omega

theorem advance_cases (s : TxState) (task : Nat) (old new : TxPhase) :
    s.advance task old new = .error .disabled ∨
      s.tasks[task]? = some old ∧ s.advance task old new
        = .ok { s with tasks := s.tasks.set task new } := by
  unfold TxState.advance
  by_cases h : s.tasks[task]? = some old
  · exact Or.inr ⟨h, if_pos h⟩
  · exact Or.inl (if_neg h)

/-! ## One step -/

theorem succ8_of_lt {n : Nat} (h : n < 255) : succ8 n = n + 1 :=
  Nat.mod_eq_of_lt (by omega)

/-- A task goes on, the record follows, and its signal is still
outstanding. -/
theorem Live.advance {id k : Nat} {s : TxState} {task : Nat}
    {old new : TxPhase} {started sent : Nat} (h : Live id k s)
    (signals : List RouterSignal) (ht : s.tasks[task]? = some old)
    (hout : (!old.isReported).toNat = (!new.isReported).toNat
      + signals.length)
    (hs : startedCount (s.tasks.set task new) = started)
    (hc : transmittedCount (s.tasks.set task new) = sent) :
    Live id k { s with
      tasks := s.tasks.set task new
      queue := s.queue ++ signals
      rb := some ⟨id, k, started, sent⟩ } := by
  refine ⟨?_, by rw [hs, hc], h.informed, h.freed, ?_⟩
  · rw [List.length_set, h.length]
  · have hp := pendingCount_set new ht
    have hpos := h.outstanding
    simp only [TxState.outstanding, List.length_append] at hpos ⊢
    omega

/-- What a step of a task may come to while signals are outstanding. -/
theorem Live.task_step {id k : Nat} {s : TxState} (h : Live id k s)
    (hk : k ≤ 255) {a : TxStep} (ha : a ≠ .handle) :
    match s.step a with
    | .ok s' => Live id k s'
    | .error e => e = .disabled := by
  have hlen := h.length
  have hrb := h.rb
  cases a with
  | handle => exact absurd rfl ha
  | serialize task =>
    rcases advance_cases s task .queued .serialized with hs | ⟨ht, hs⟩
    · simp only [TxState.step, hs]
      rfl
    · have hlt : startedCount s.tasks < _ := countP_lt_of_not ht rfl
      have hq := startedCount_set .serialized ht
      have hc := transmittedCount_set .serialized ht
      simp [TxPhase.isQueued, TxPhase.isCounted] at hq hc
      have hsucc := succ8_of_lt (n := startedCount s.tasks) (by omega)
      have hl := h.advance [] ht rfl (hq.trans hsucc.symm) hc
      rw [List.append_nil] at hl
      simp only [TxState.step, hs, TxState.deref, hrb]
      exact hl
  | send task ok =>
    rcases advance_cases s task .serialized (.sent ok) with hs | ⟨ht, hs⟩
    · simp only [TxState.step, hs]
      rfl
    · have hq := startedCount_set (.sent ok) ht
      have hc := transmittedCount_set (.sent ok) ht
      simp [TxPhase.isQueued, TxPhase.isCounted] at hq hc
      have hl := h.advance [] ht rfl hq hc
      rw [List.append_nil, ← hrb] at hl
      simp only [TxState.step, hs, TxState.deref, hrb]
      rw [hrb] at hl
      exact hl
  | drain task =>
    rcases advance_cases s task .serialized (.sent false) with hs | ⟨ht, hs⟩
    · simp only [TxState.step, hs]
    · have hq := startedCount_set (.sent false) ht
      have hc := transmittedCount_set (.sent false) ht
      simp [TxPhase.isQueued, TxPhase.isCounted] at hq hc
      have hl := h.advance [] ht rfl hq hc
      rw [List.append_nil, ← hrb] at hl
      simp only [TxState.step, hs]
      exact hl
  | count task =>
    rcases advance_cases s task (.sent true) .counted with hs | ⟨ht, hs⟩
    · simp only [TxState.step, hs]
      rfl
    · have hlt : transmittedCount s.tasks < _ := countP_lt_of_not ht rfl
      have hq := startedCount_set .counted ht
      have hc := transmittedCount_set .counted ht
      simp [TxPhase.isQueued, TxPhase.isCounted] at hq hc
      have hsucc := succ8_of_lt (n := transmittedCount s.tasks) (by omega)
      have hl := h.advance [] ht rfl hq (hc.trans hsucc.symm)
      rw [List.append_nil] at hl
      simp only [TxState.step, hs, TxState.deref, hrb]
      exact hl
  | report task ok =>
    cases ok with
    | true =>
      rcases advance_cases s task .counted (.reported true) with hs | ⟨ht, hs⟩
      · simp only [TxState.step, hs]
        rfl
      · have hq := startedCount_set (.reported true) ht
        have hc := transmittedCount_set (.reported true) ht
        simp [TxPhase.isQueued, TxPhase.isCounted] at hq hc
        have hl := h.advance [.transmissionSuccess] ht rfl hq hc
        rw [← hrb] at hl
        simp only [TxState.step, hs]
        exact hl
    | false =>
      rcases advance_cases s task (.sent false) (.reported false) with
        hs | ⟨ht, hs⟩
      · simp only [TxState.step, hs]
        rfl
      · have hq := startedCount_set (.reported false) ht
        have hc := transmittedCount_set (.reported false) ht
        simp [TxPhase.isQueued, TxPhase.isCounted] at hq hc
        have hl := h.advance [.transmissionFailure] ht rfl hq hc
        rw [← hrb] at hl
        simp only [TxState.step, hs]
        exact hl

/-- When every task has reported, every task is counted. -/
theorem startedCount_of_pendingCount {tasks : List TxPhase}
    (h : pendingCount tasks = 0) : startedCount tasks = tasks.length := by
  rw [pendingCount, List.countP_eq_zero] at h
  rw [startedCount, List.countP_eq_length]
  intro p hp
  have hrep := h p hp
  cases p <;> simp_all [TxPhase.isReported, TxPhase.isQueued]

/-- When every task has reported, the second counter reaches the first one
exactly if no transmission failed. -/
theorem all_transmitted {tasks : List TxPhase} (h : pendingCount tasks = 0)
    (hall : transmittedCount tasks = tasks.length) :
    ∀ p ∈ tasks, p = .reported true := by
  rw [pendingCount, List.countP_eq_zero] at h
  rw [transmittedCount, List.countP_eq_length] at hall
  intro p hp
  have hrep := h p hp
  have hc := hall p hp
  cases p <;> simp_all [TxPhase.isReported, TxPhase.isCounted]

/-- The router task handles a signal before the last one, with a record
that does not count every contact yet. -/
theorem Live.handle_early {id k : Nat} {s : TxState} (h : Live id k s)
    (hfull : s.full = false) (hq : s.queue ≠ []) :
    ∃ s', s.step .handle = .ok s' ∧ Live id k s' := by
  have hrb := h.rb
  have hne : startedCount s.tasks ≠ k := by
    rw [TxState.full, hrb] at hfull
    simpa using hfull
  cases hqueue : s.queue with
  | nil => exact absurd hqueue hq
  | cons signal rest =>
    refine ⟨{ s with queue := rest }, ?_, ?_⟩
    · simp only [TxState.step, hqueue, TxState.processSignal, TxState.deref,
        hrb, ok_bind, if_neg hne]
      rfl
    · refine ⟨h.length, hrb, h.informed, h.freed, ?_⟩
      -- Some task has yet to be counted, so it has yet to report.
      by_contra hzero
      simp only [TxState.outstanding, Nat.not_lt, Nat.le_zero,
        Nat.add_eq_zero_iff] at hzero
      exact hne ((startedCount_of_pendingCount hzero.1).trans h.length)

/-- A signal that the router task handles with a full record frees it. -/
theorem Live.handle_full {id k : Nat} {s : TxState} (h : Live id k s)
    (hfull : s.full = true) {signal : RouterSignal}
    {rest : List RouterSignal} (hqueue : s.queue = signal :: rest) :
    s.step .handle = .ok { s with
      queue := rest
      rb := none
      informed := [(if k = transmittedCount s.tasks
        then .transmissionSuccess else .transmissionFailure, id)]
      freed := 1 } := by
  have hrb := h.rb
  have he : startedCount s.tasks = k := by
    rw [TxState.full, hrb] at hfull
    simpa using hfull
  simp only [TxState.step, hqueue, TxState.processSignal, TxState.deref, hrb,
    ok_bind, he, if_true, h.informed, h.freed, List.nil_append]
  rfl

/-- The last signal of all reports the outcome. -/
theorem Live.handle_last {id k : Nat} {s : TxState} (h : Live id k s)
    (hlast : s.outstanding = 1) (hq : s.queue ≠ []) :
    ∃ s', s.step .handle = .ok s' ∧ Done id s' := by
  cases hqueue : s.queue with
  | nil => exact absurd hqueue hq
  | cons signal rest =>
    rw [TxState.outstanding, hqueue, List.length_cons] at hlast
    have hpending : pendingCount s.tasks = 0 := by omega
    have hrest : rest.length = 0 := by omega
    have hstarted := startedCount_of_pendingCount hpending
    have hfull : s.full = true := by
      rw [TxState.full, h.rb]
      simp only [decide_eq_true_eq]
      rw [hstarted, h.length]
    refine ⟨_, h.handle_full hfull hqueue, rfl, ⟨?_, ?_, ?_⟩, rfl, ?_⟩
    · exact Nat.le_refl 1
    · rfl
    · intro x hx
      obtain rfl := List.mem_singleton.1 hx
      refine ⟨rfl, fun hsuccess => ?_⟩
      by_cases hall : k = transmittedCount s.tasks
      · exact all_transmitted hpending (hall.symm.trans h.length.symm)
      · simp only [if_neg hall] at hsuccess
        exact absurd hsuccess (by simp)
    · simp only [TxState.outstanding]
      omega

/-- A signal that frees the record before the last one leaves the others
without it. -/
theorem Live.handle_broken {id k : Nat} {s s' : TxState} (h : Live id k s)
    (hfull : s.full = true) (hout : s.outstanding ≠ 1)
    (hstep : s.step .handle = .ok s') : Broken s' := by
  cases hqueue : s.queue with
  | nil =>
    simp only [TxState.step, hqueue] at hstep
    exact absurd hstep (by simp)
  | cons signal rest =>
    rw [h.handle_full hfull hqueue] at hstep
    obtain rfl := Except.ok.inj hstep
    refine ⟨rfl, ?_⟩
    have hpos := h.outstanding
    simp only [TxState.outstanding, hqueue, List.length_cons] at hout hpos ⊢
    omega

/-- One step of a run that frees the record with the last signal only. -/
theorem Live.step {id k : Nat} {s : TxState} (h : Live id k s)
    (hk : k ≤ 255) {a : TxStep}
    (ha : a = .handle → s.full = true → s.outstanding = 1) :
    match s.step a with
    | .ok s' => Live id k s' ∨ Done id s'
    | .error e => e = .disabled := by
  by_cases hhandle : a = .handle
  swap
  · have hstep := h.task_step hk hhandle
    cases hs : s.step a with
    | error e =>
      rw [hs] at hstep
      exact hstep
    | ok s' =>
      rw [hs] at hstep
      exact Or.inl hstep
  subst hhandle
  by_cases hqueue : s.queue = []
  · simp only [TxState.step, hqueue]
  cases hfull : s.full with
  | false =>
    obtain ⟨s', hs, hlive⟩ := h.handle_early hfull hqueue
    rw [hs]
    exact Or.inl hlive
  | true =>
    obtain ⟨s', hs, hdone⟩ := h.handle_last (ha rfl hfull) hqueue
    rw [hs]
    exact Or.inr hdone

/-- Nothing is left to do when every signal is handled. -/
theorem Done.step {id : Nat} {s : TxState} (h : Done id s) (a : TxStep) :
    s.step a = .error .disabled := by
  have hout := h.outstanding
  simp only [TxState.outstanding, Nat.add_eq_zero_iff,
    List.length_eq_zero_iff] at hout
  obtain ⟨hpending, hqueue⟩ := hout
  rw [pendingCount, List.countP_eq_zero] at hpending
  have hadv : ∀ task old new, old.isReported = false →
      s.advance task old new = .error .disabled := by
    intro task old new hold
    rcases advance_cases s task old new with hs | ⟨ht, -⟩
    · exact hs
    · have hrep := hpending old (List.mem_of_getElem? ht)
      simp [hold] at hrep
  cases a with
  | handle => simp only [TxState.step, hqueue]
  | drain task => exact hadv task .serialized _ rfl
  | serialize task =>
    rw [TxState.step, hadv task .queued _ rfl, error_bind]
  | send task ok =>
    rw [TxState.step, hadv task .serialized _ rfl, error_bind]
  | count task =>
    rw [TxState.step, hadv task (.sent true) _ rfl, error_bind]
  | report task ok =>
    cases ok with
    | true => rw [TxState.step, hadv task .counted _ rfl, error_bind]
    | false => rw [TxState.step, hadv task (.sent false) _ rfl, error_bind]

/-- What any step of a task does to the signals that are outstanding. -/
theorem task_step_cases {s s' : TxState} {a : TxStep} (ha : a ≠ .handle)
    (h : s.step a = .ok s') :
    ∃ task old new signals rb, s.tasks[task]? = some old ∧
      (!old.isReported).toNat = (!new.isReported).toNat + signals.length ∧
      (s.rb = none → rb = none) ∧
      s' = { s with
        tasks := s.tasks.set task new
        queue := s.queue ++ signals
        rb := rb } := by
  have hderef : ∀ (t : TxState) (f : RoutedBundle → TxState),
      (t.deref >>= fun rb => pure (f rb)) = .ok s' →
        ∃ rb, t.rb = some rb ∧ s' = f rb := by
    intro t f hf
    cases hrb : t.rb with
    | none =>
      simp only [TxState.deref, hrb, error_bind] at hf
      exact absurd hf (by simp)
    | some rb =>
      simp only [TxState.deref, hrb, ok_bind] at hf
      exact ⟨rb, rfl, (Except.ok.inj hf).symm⟩
  cases a with
  | handle => exact absurd rfl ha
  | drain task =>
    rcases advance_cases s task .serialized (.sent false) with hs | ⟨ht, hs⟩ <;>
      rw [TxState.step, hs] at h
    · exact absurd h (by simp)
    · obtain rfl := Except.ok.inj h
      exact ⟨task, _, .sent false, [], s.rb, ht, rfl, id, by simp⟩
  | serialize task =>
    rcases advance_cases s task .queued .serialized with hs | ⟨ht, hs⟩ <;>
      rw [TxState.step, hs] at h
    · exact absurd h (by simp [error_bind])
    · obtain ⟨rb, hrb, rfl⟩ := hderef _ _ h
      exact ⟨task, _, .serialized, [], _, ht, rfl,
        fun hn => absurd (hrb.symm.trans hn) (by simp), by simp; rfl⟩
  | send task ok =>
    rcases advance_cases s task .serialized (.sent ok) with hs | ⟨ht, hs⟩ <;>
      rw [TxState.step, hs] at h
    · exact absurd h (by simp [error_bind])
    · obtain ⟨rb, hrb, rfl⟩ := hderef _ _ h
      exact ⟨task, _, .sent ok, [], s.rb, ht, rfl, id, by simp⟩
  | count task =>
    rcases advance_cases s task (.sent true) .counted with hs | ⟨ht, hs⟩ <;>
      rw [TxState.step, hs] at h
    · exact absurd h (by simp [error_bind])
    · obtain ⟨rb, hrb, rfl⟩ := hderef _ _ h
      exact ⟨task, _, .counted, [], _, ht, rfl,
        fun hn => absurd (hrb.symm.trans hn) (by simp), by simp; rfl⟩
  | report task ok =>
    cases ok with
    | true =>
      rcases advance_cases s task .counted (.reported true) with
        hs | ⟨ht, hs⟩ <;> rw [TxState.step, hs] at h
      · exact absurd h (by simp)
      · obtain rfl := Except.ok.inj h
        exact ⟨task, _, .reported true, [_], s.rb, ht, rfl, id, rfl⟩
    | false =>
      rcases advance_cases s task (.sent false) (.reported false) with
        hs | ⟨ht, hs⟩ <;> rw [TxState.step, hs] at h
      · exact absurd h (by simp)
      · obtain rfl := Except.ok.inj h
        exact ⟨task, _, .reported false, [_], s.rb, ht, rfl, id, rfl⟩

/-- No step of a task changes how many signals are outstanding. -/
theorem outstanding_task_step {s s' : TxState} {a : TxStep}
    (ha : a ≠ .handle) (h : s.step a = .ok s') :
    s'.outstanding = s.outstanding := by
  obtain ⟨task, old, new, signals, rb, ht, hout, -, rfl⟩ :=
    task_step_cases ha h
  have hp := pendingCount_set new ht
  simp only [TxState.outstanding, List.length_append]
  omega

/-- Once the record is gone too early, no signal is handled any more. -/
theorem Broken.step {s s' : TxState} {a : TxStep} (h : Broken s)
    (hstep : s.step a = .ok s') : Broken s' := by
  have hrb := h.rb
  by_cases ha : a = .handle
  · subst ha
    cases hqueue : s.queue with
    | nil =>
      simp only [TxState.step, hqueue] at hstep
      exact absurd hstep (by simp)
    | cons signal rest =>
      simp only [TxState.step, hqueue, TxState.processSignal, TxState.deref,
        hrb, error_bind] at hstep
      exact absurd hstep (by simp)
  · have hout := outstanding_task_step ha hstep
    obtain ⟨task, old, new, signals, rb, -, -, hnone, rfl⟩ :=
      task_step_cases ha hstep
    exact ⟨hnone hrb, hout ▸ h.outstanding⟩

/-! ## Runs -/

theorem Done.run {id : Nat} {s : TxState} (h : Done id s)
    (steps : List TxStep) :
    match s.run steps with
    | .ok s' => Done id s'
    | .error e => e = .disabled := by
  cases steps with
  | nil => exact h
  | cons a rest =>
    rw [TxState.run, h.step a, error_bind]

/-- A run in which only last signals free the record is never at fault. -/
theorem Live.run {id k : Nat} {s : TxState} (h : Live id k s)
    (hk : k ≤ 255) {steps : List TxStep} (hlast : s.LastSignalFrees steps) :
    match s.run steps with
    | .ok s' => Live id k s' ∨ Done id s'
    | .error e => e = .disabled := by
  induction steps generalizing s with
  | nil => exact Or.inl h
  | cons a rest ih =>
    obtain ⟨ha, hrest⟩ := hlast
    have hstep := h.step hk ha
    rw [TxState.run]
    cases hs : s.step a with
    | error e =>
      rw [hs] at hstep
      exact hstep
    | ok s1 =>
      rw [hs] at hstep
      rw [ok_bind]
      rcases hstep with hlive | hdone
      · exact ih hlive (hrest s1 hs)
      · have hrun := hdone.run rest
        cases hr : s1.run rest with
        | error e =>
          rw [hr] at hrun
          exact hrun
        | ok s2 =>
          rw [hr] at hrun
          exact Or.inr hrun

theorem Broken.run {s s' : TxState} (h : Broken s) {steps : List TxStep}
    (hrun : s.run steps = .ok s') : Broken s' := by
  induction steps generalizing s with
  | nil =>
    obtain rfl := Except.ok.inj hrun
    exact h
  | cons a rest ih =>
    rw [TxState.run] at hrun
    cases hs : s.step a with
    | error e =>
      rw [hs, error_bind] at hrun
      exact absurd hrun (by simp)
    | ok s1 =>
      rw [hs, ok_bind] at hrun
      exact ih (h.step hs) hrun

/-- A run that frees the record before the last signal leaves signals
unhandled. -/
theorem Live.run_broken {id k : Nat} {s s' : TxState} (h : Live id k s)
    (hk : k ≤ 255) {steps : List TxStep}
    (hlast : ¬ s.LastSignalFrees steps) (hrun : s.run steps = .ok s') :
    Broken s' := by
  induction steps generalizing s with
  | nil => exact absurd trivial hlast
  | cons a rest ih =>
    rw [TxState.run] at hrun
    cases hs : s.step a with
    | error e =>
      rw [hs, error_bind] at hrun
      exact absurd hrun (by simp)
    | ok s1 =>
      rw [hs, ok_bind] at hrun
      by_cases ha : a = .handle → s.full = true → s.outstanding = 1
      · have hstep := h.step hk ha
        rw [hs] at hstep
        have hrest : ¬ s1.LastSignalFrees rest := by
          intro hl
          refine hlast ⟨ha, fun s2 hs2 => ?_⟩
          rw [hs] at hs2
          exact Except.ok.inj hs2 ▸ hl
        rcases hstep with hlive | hdone
        · exact ih hlive hrest hrun
        · cases rest with
          | nil => exact absurd trivial hrest
          | cons b rest =>
            rw [TxState.run, hdone.step b, error_bind] at hrun
            exact absurd hrun (by simp)
      · simp only [Classical.not_imp] at ha
        obtain ⟨rfl, hfull, hout⟩ := ha
        exact (h.handle_broken hfull hout hs).run hrun

/-- The outcome of a transmission over `k` contacts is reported once if and
only if the signal that frees the record is the last one.  The first part
is about every run, however far it has come: as long as the condition
holds, there is no access to a freed record, at most one report, and none of
success unless every transmission succeeded. -/
theorem transmission_reported_once_iff (id : Nat) {k : Nat} (hk : 1 ≤ k)
    (hk' : k ≤ 255) (steps : List TxStep) :
    ((TxState.initial id k).LastSignalFrees steps →
      match (TxState.initial id k).run steps with
      | .ok s => s.Sound id
      | .error e => e = .disabled) ∧
    (Finished ((TxState.initial id k).run steps) →
      (ReportedOnce id ((TxState.initial id k).run steps) ↔
        (TxState.initial id k).LastSignalFrees steps)) := by
  have hlive := live_initial id hk
  constructor
  · intro hlast
    have hrun := hlive.run hk' hlast
    cases hr : (TxState.initial id k).run steps with
    | error e =>
      rw [hr] at hrun
      exact hrun
    | ok s =>
      rw [hr] at hrun
      rcases hrun with hl | hd
      · exact hl.sound
      · exact hd.sound
  · intro hfin
    constructor
    · intro honce
      by_contra hlast
      cases hr : (TxState.initial id k).run steps with
      | error e =>
        rw [hr] at honce
        exact honce
      | ok s =>
        rw [hr] at hfin
        have hpos := (hlive.run_broken hk' hlast hr).outstanding
        have hzero : s.outstanding = 0 := hfin
        omega
    · intro hlast
      have hrun := hlive.run hk' hlast
      cases hr : (TxState.initial id k).run steps with
      | error e =>
        rw [hr] at hrun hfin
        have he : e = .disabled := hrun
        have he' : e = .useAfterFree := hfin
        rw [he] at he'
        exact absurd he' (by simp)
      | ok s =>
        rw [hr] at hrun hfin
        rcases hrun with hl | hd
        · have hpos := hl.outstanding
          have hzero : s.outstanding = 0 := hfin
          omega
        · exact ⟨hd.sound, hd.freed⟩

/-- Two contacts that take turns. -/
theorem transmission_reported_once_turns :
    ReportedOnce 7 ((TxState.initial 7 2).run
      [.serialize 0, .send 0 true, .count 0, .report 0 true, .handle,
        .serialize 1, .send 1 false, .report 1 false, .handle]) ↔
      (TxState.initial 7 2).LastSignalFrees
        [.serialize 0, .send 0 true, .count 0, .report 0 true, .handle,
          .serialize 1, .send 1 false, .report 1 false, .handle] :=
  (transmission_reported_once_iff 7 (k := 2) (by decide) (by decide) _).2 rfl

/-- Two contacts that both transmit the bundle before the router task looks
at the first signal: it frees the record for the first signal and reads it
again for the second one. -/
theorem transmission_two_contacts_use_after_free :
    Finished ((TxState.initial 7 2).run
      [.serialize 0, .serialize 1, .send 0 true, .send 1 true, .count 0,
        .count 1, .report 0 true, .report 1 true, .handle, .handle]) ∧
    ¬ ReportedOnce 7 ((TxState.initial 7 2).run
      [.serialize 0, .serialize 1, .send 0 true, .send 1 true, .count 0,
        .count 1, .report 0 true, .report 1 true, .handle, .handle]) := by
  have hrun : (TxState.initial 7 2).run
      [.serialize 0, .serialize 1, .send 0 true, .send 1 true, .count 0,
        .count 1, .report 0 true, .report 1 true, .handle, .handle]
      = .error .useAfterFree := rfl
  rw [hrun]
  exact ⟨rfl, id⟩

/-- The router task takes one signal off. -/
theorem outstanding_handle {s s' : TxState}
    (h : s.step .handle = .ok s') : s'.outstanding + 1 = s.outstanding := by
  cases hqueue : s.queue with
  | nil =>
    simp only [TxState.step, hqueue] at h
    exact absurd h (by simp)
  | cons signal rest =>
    simp only [TxState.step, hqueue, TxState.processSignal] at h
    cases hrb : s.rb with
    | none =>
      simp only [TxState.deref, hrb, error_bind] at h
      exact absurd h (by simp)
    | some rb =>
      simp only [TxState.deref, hrb, ok_bind] at h
      split at h <;> obtain rfl := Except.ok.inj h <;>
        simp only [TxState.outstanding, hqueue, List.length_cons] <;> omega

/-- With one contact, the only signal is the last one. -/
theorem Live.lastSignalFrees {id : Nat} {s : TxState} (h : Live id 1 s)
    (hone : s.outstanding = 1) (steps : List TxStep) :
    s.LastSignalFrees steps := by
  induction steps generalizing s with
  | nil => trivial
  | cons a rest ih =>
    refine ⟨fun _ _ => hone, fun s' hs => ?_⟩
    have hstep := h.step (a := a) (by decide) fun _ _ => hone
    rw [hs] at hstep
    rcases hstep with hlive | hdone
    · refine ih hlive ?_
      by_cases ha : a = .handle
      · subst ha
        have hout := outstanding_handle hs
        have hpos := hlive.outstanding
        omega
      · rw [outstanding_task_step ha hs, hone]
    · cases rest with
      | nil => trivial
      | cons b rest =>
        refine ⟨fun _ hfull => ?_, fun s2 hs2 => ?_⟩
        · rw [TxState.full, hdone.rb] at hfull
          exact absurd hfull (by simp)
        · rw [hdone.step b] at hs2
          exact absurd hs2 (by simp)

/-- A bundle on one contact is always reported once. -/
theorem lastSignalFrees_single (id : Nat) (steps : List TxStep) :
    (TxState.initial id 1).LastSignalFrees steps :=
  (live_initial id (Nat.le_refl 1)).lastSignalFrees rfl steps

end Upcn.Router
