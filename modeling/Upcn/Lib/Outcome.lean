import Mathlib.Algebra.GroupWithZero.Nat
import Mathlib.Algebra.Ring.Int.Defs
import Mathlib.Tactic.Common

/-!
# Programs that may fail

Rules for programs in `Except`: how a bind goes on after a result and after
a failure, and two judgements about a program.

* `Ends E m Q`: the result of `m` has `Q`, its failure is one of `E`.
* `Continues E m R f`: `m` fails with one of `E`, or it goes on as `f` from
  a state that has `R`.  This one keeps the rest of the program, so nothing
  is lost that the rest may do.
-/

namespace Outcome

variable {ε α β σ : Type}

/-- A bind after a result. -/
theorem ok_bind (a : α) (f : α → Except ε β) :
    (Except.ok a >>= f) = f a := rfl

/-- A bind after a failure. -/
theorem error_bind (e : ε) (f : α → Except ε β) :
    ((Except.error e : Except ε α) >>= f) = .error e := rfl

/-- What a bind with a result is made of. -/
theorem bind_eq_ok {m : Except ε α} {f : α → Except ε β} {b : β}
    (h : (m >>= f) = .ok b) : ∃ a, m = .ok a ∧ f a = .ok b := by
  cases m with
  | error e => exact absurd h (by simp [error_bind])
  | ok a => exact ⟨a, rfl, h⟩

theorem mapError_eq_ok {ε' : Type} {f : ε → ε'} {m : Except ε α} {a : α}
    (h : Except.mapError f m = .ok a) : m = .ok a := by
  cases m with
  | error e => cases h
  | ok a' => exact congrArg Except.ok (Except.ok.inj h)

/-! ## Ends -/

/-- The result of `m` has `Q`, and its failure is one of `E`. -/
def Ends (E : ε → Prop) (m : Except ε α) (Q : α → Prop) : Prop :=
  match m with
  | .ok a => Q a
  | .error e => E e

variable {E E' : ε → Prop} {m : Except ε α} {Q Q' : α → Prop}

theorem ends_ok {a : α} (h : Q a) : Ends E (.ok a) Q := h

theorem ends_error {e : ε} (h : E e) : Ends E (.error e : Except ε α) Q := h

theorem Ends.ok (h : Ends E m Q) {a : α} (hm : m = .ok a) : Q a := by
  rw [hm] at h
  exact h

theorem Ends.error (h : Ends E m Q) {e : ε} (hm : m = .error e) : E e := by
  rw [hm] at h
  exact h

theorem Ends.mono (h : Ends E m Q) (hE : ∀ e, E e → E' e)
    (hQ : ∀ a, Q a → Q' a) : Ends E' m Q' := by
  cases m with
  | ok a => exact hQ a h
  | error e => exact hE e h

theorem Ends.imp (h : Ends E m Q) (hQ : ∀ a, Q a → Q' a) : Ends E m Q' :=
  h.mono (fun _ he => he) hQ

theorem Ends.bind {f : α → Except ε β} {R : β → Prop} (h : Ends E m Q)
    (hf : ∀ a, Q a → Ends E (f a) R) : Ends E (m >>= f) R := by
  cases m with
  | ok a => exact hf a h
  | error e => exact h

/-! ## Continues -/

/-- `m` fails with one of `E`, or goes on as `f` from a state that has
`R`. -/
def Continues (E : ε → Prop) (m : Except ε α) (R : σ → Prop)
    (f : σ → Except ε α) : Prop :=
  (∃ e, m = .error e ∧ E e) ∨ ∃ s, R s ∧ m = f s

variable {R R' : σ → Prop} {f : σ → Except ε α}

theorem Ends.continues {m : Except ε σ} (h : Ends E m R) :
    Continues E (m >>= f) R f := by
  cases m with
  | ok s => exact .inr ⟨s, h, rfl⟩
  | error e => exact .inl ⟨e, rfl, h⟩

theorem continues_of_eq {s : σ} (hs : R s) (h : m = f s) :
    Continues E m R f :=
  .inr ⟨s, hs, h⟩

theorem Continues.trans {τ : Type} {S : τ → Prop} {g : τ → Except ε α}
    (h : Continues E m R f) (hf : ∀ s, R s → Continues E (f s) S g) :
    Continues E m S g := by
  rcases h with ⟨e, he, hE⟩ | ⟨s, hs, he⟩
  · exact .inl ⟨e, he, hE⟩
  · rw [he]
    exact hf s hs

theorem Continues.imp (h : Continues E m R f) (hR : ∀ s, R s → R' s) :
    Continues E m R' f := by
  rcases h with h | ⟨s, hs, he⟩
  · exact .inl h
  · exact .inr ⟨s, hR s hs, he⟩

theorem Continues.ends (h : Continues E m R f) (hE : ∀ e, E e → E' e)
    (hf : ∀ s, R s → Ends E' (f s) Q) : Ends E' m Q := by
  rcases h with ⟨e, he, hEe⟩ | ⟨s, hs, he⟩
  · rw [he]
    exact hE e hEe
  · rw [he]
    exact hf s hs

/-! ## Loops over a list -/

/-- The invariant of a loop in `Option`, which may speak of the elements that
are still to come. -/
theorem foldlM_some_induction {motive : List α → β → Prop} {g : β → α → Option β}
    (step : ∀ x rest s s', motive (x :: rest) s → g s x = some s' →
      motive rest s')
    {xs : List α} {s s' : β} (h : xs.foldlM g s = some s') (hs : motive xs s) :
    motive [] s' := by
  induction xs generalizing s with
  | nil =>
    obtain rfl : s = s' := Option.some.inj h
    exact hs
  | cons x rest ih =>
    rw [List.foldlM_cons] at h
    obtain ⟨r, hr, hrest⟩ := Option.bind_eq_some_iff.mp h
    exact ih hrest (step x rest s r hs hr)

/-- A loop in `Option` whose turns all return, by an invariant. -/
theorem foldlM_some_total {motive : List α → β → Prop} {g : β → α → Option β}
    (step : ∀ x rest s, motive (x :: rest) s → ∃ s', g s x = some s' ∧ motive rest s')
    {l : List α} {s : β} (hs : motive l s) :
    ∃ s', l.foldlM g s = some s' ∧ motive [] s' := by
  induction l generalizing s with
  | nil => exact ⟨s, rfl, hs⟩
  | cons x rest ih =>
    obtain ⟨r, hr, hrest⟩ := step x rest s hs
    obtain ⟨s', hs', hlast⟩ := ih hrest
    refine ⟨s', ?_, hlast⟩
    rw [List.foldlM_cons, hr]
    exact hs'

end Outcome
