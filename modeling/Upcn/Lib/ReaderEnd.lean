import Upcn.Lib.Reader

/-!
# A reader that comes to an end

`Through R valid s input t`: from `s` the reader goes through the input, and comes to its end `t`
with the last item.  A call with any piece of what lies before the reader, which may reach beyond
that end, is a part of this way (`Through.read`), and so is a bulk (`Through.fill`).
-/

namespace Upcn.Reader

open Machine

variable {σ β : Type} {R : Reader σ β} {valid : σ → Prop} {s s' t : σ}
  {input left more piece rest after : List β} {n : Nat}

/-- The reader goes through the input, and does not go on behind it. -/
structure Through (R : Reader σ β) (valid : σ → Prop) (s : σ) (input : List β) (t : σ) :
    Prop where
  valid : valid s
  good : R.good s = true
  steps : Steps R.step (s, input) (t, [])
  ends : R.good t = false

/-! ## What a run takes -/

/-- What a run leaves is the end of its input, and what it takes is all that it looks at. -/
theorem steps_front {x : σ × List β} (h : Steps R.step x (t, more)) :
    ∃ front, x.2 = front ++ more ∧ Steps R.step (x.1, front) (t, []) := by
  -- By induction on the run, from its end on.
  induction h using Relation.ReflTransGen.head_induction_on with
  | refl => exact ⟨[], rfl, .refl⟩
  | @head x y hstep _ ih =>
    obtain ⟨front, hy, hsteps⟩ := ih
    obtain ⟨s, input⟩ := x
    obtain ⟨s', input'⟩ := y
    obtain rfl : input' = front ++ more := hy
    obtain ⟨hgood, ⟨n, hpending, hn, rfl, hdrop⟩ | ⟨b, hpending, rfl, rfl⟩⟩ := step_cases hstep
    · refine ⟨input.take n ++ front, ?_, .head ?_ hsteps⟩
      · show input = _
        rw [List.append_assoc, hdrop, List.take_append_drop]
      · have hlength : (input.take n).length = n := by
          rw [List.length_take]
          omega
        have hle : n ≤ (input.take n ++ front).length := by
          rw [List.length_append]
          omega
        have hfill := step_of_pending hgood hpending hle
        rw [List.take_left' hlength, List.drop_left' hlength] at hfill
        exact hfill
    · exact ⟨b :: front, rfl, .head (step_item hgood hpending) hsteps⟩

theorem Steps.front (h : Steps R.step (s, input ++ more) (t, more)) :
    Steps R.step (s, input) (t, []) := by
  obtain ⟨front, heq, hsteps⟩ := steps_front h
  rwa [List.append_cancel_right heq]

/-- The end is where every run from here leads. -/
theorem step_end (h : R.good t = false) (input : List β) : R.step (t, input) = none := by
  rw [step_eq_none_iff]
  intro hgood
  rw [h] at hgood
  cases hgood

namespace Through

/-- Without a bulk, there is an item to come. -/
theorem ne_nil (h : R.Through valid s input t) (hpending : R.pending s = none) : input ≠ [] := by
  rintro rfl
  have hstep : R.step (s, []) = none := by
    rw [step_eq_none_iff]
    exact fun _ => ⟨fun _ => rfl, fun n hn => by rw [hpending] at hn; cases hn⟩
  have hsame : (t, []) = (s, []) := h.steps.unique (step_end h.ends []) .refl hstep |>.symm
  have hgood := h.good
  rw [← (Prod.mk.inj hsame).1, h.ends] at hgood
  cases hgood

/-! ## A call and a bulk -/

/-- A call takes an item at least. -/
theorem length_read (hgood : R.good s = true) (hpending : R.pending s = none)
    (hpiece : piece ≠ []) : (R.read s piece).2.length < piece.length := by
  cases piece with
  | nil => exact absurd rfl hpiece
  | cons b piece =>
    have hread : R.read s (b :: piece) =
        iterate R.callStep (2 * (b :: piece).length + 1) (R.item s b, piece) := by
      show iterate R.callStep (2 * (b :: piece).length + 1 + 1) (s, b :: piece) = _
      rw [iterate, show R.callStep (s, b :: piece) = some (R.item s b, piece) from
        step_item hgood hpending]
    have hsteps : Steps R.callStep (R.item s b, piece) (R.read s (b :: piece)) := by
      rw [hread]
      exact steps_iterate _ _
    have hsteps' : Steps R.step (R.item s b, piece) (R.read s (b :: piece)) :=
      hsteps.lift id fun _ _ => step_of_callStep
    generalize R.read s (b :: piece) = result at hsteps' ⊢
    obtain ⟨front, hfront, -⟩ := steps_front (show Steps R.step _ (result.1, result.2) from hsteps')
    have hlength : piece.length = (front ++ result.2).length := congrArg List.length hfront
    rw [List.length_append] at hlength
    rw [List.length_cons]
    omega

/-- A call with a piece of what lies before the reader. -/
theorem read (hR : R.Lawful valid) (h : R.Through valid s input t) (hpending : R.pending s = none)
    (hpiece : piece ≠ []) (heq : piece ++ rest = input ++ after) :
    ∃ k, 0 < k ∧ k ≤ piece.length ∧ k ≤ input.length ∧ (R.read s piece).2 = piece.drop k ∧
      ((R.read s piece).1 = t ∧ k = input.length ∨
        R.Through valid (R.read s piece).1 (input.drop k) t ∧
          (∀ n, R.pending (R.read s piece).1 = some n → piece.length < k + n ∨ k = piece.length) ∧
          (R.pending (R.read s piece).1 = none → k = piece.length)) := by
  obtain ⟨hend, hvalid⟩ := read_ends hR h.valid piece
  have hshort := length_read h.good hpending hpiece
  have hsteps : Steps R.step (s, piece) (R.read s piece) := steps_read s piece
  generalize R.read s piece = result at hend hvalid hshort hsteps ⊢
  obtain ⟨s', left⟩ := result
  dsimp only at hshort hvalid ⊢
  obtain ⟨taken, htaken, -⟩ := steps_front hsteps
  dsimp only at htaken
  -- the call is the beginning of the run to the end
  have hcall := steps_append hsteps rest
  have hrun := steps_append h.steps after
  dsimp only at hcall hrun
  rw [heq] at hcall
  have hafter : Steps R.step (s', left ++ rest) (t, [] ++ after) :=
    hrun.to_end (step_end h.ends _) hcall
  obtain ⟨front, hfront, hlater⟩ := steps_front hafter
  dsimp only at hfront hlater
  have hinput : input = taken ++ front := by
    rw [htaken, List.append_assoc, hfront, ← List.append_assoc] at heq
    exact (List.append_cancel_right heq).symm
  have hlength := congrArg List.length htaken
  rw [List.length_append] at hlength
  refine ⟨taken.length, by omega, by omega, ?_, ?_, ?_⟩
  · rw [hinput, List.length_append]
    exact Nat.le_add_right _ _
  · rw [htaken, List.drop_left]
  cases hgood : R.good s' with
  | false =>
    left
    have hsame : (s', front) = (t, []) :=
      (Steps.unique hlater (step_end h.ends []) .refl (step_end hgood front))
    obtain ⟨rfl, rfl⟩ := Prod.mk.inj hsame
    exact ⟨rfl, by rw [hinput, List.append_nil]⟩
  | true =>
    right
    refine ⟨⟨hvalid, hgood, ?_, h.ends⟩, fun n hn => ?_, fun hnone => ?_⟩
    · rw [hinput, List.drop_left]
      exact hlater
    · cases left with
      | nil => exact .inr (by rw [List.length_nil] at hlength; omega)
      | cons b left =>
        have hlong := (step_eq_none_iff.mp (show R.step (s', b :: left) = none from hend) hgood).2
          n hn
        exact .inl (by omega)
    · cases left with
      | nil => rw [List.length_nil] at hlength; omega
      | cons b left =>
        have hempty := (step_eq_none_iff.mp (show R.step (s', b :: left) = none from hend) hgood).1
          hnone
        cases hempty

/-- A bulk that the reader requests. -/
theorem fill (hR : R.Lawful valid) (h : R.Through valid s input t)
    (hpending : R.pending s = some n) :
    n ≤ input.length ∧
      (R.fill s (input.take n) = t ∧ n = input.length ∨
        R.Through valid (R.fill s (input.take n)) (input.drop n) t ∧
          R.pending (R.fill s (input.take n)) = none) := by
  rcases Relation.ReflTransGen.cases_head h.steps with hsame | ⟨⟨s', left⟩, hstep, hsteps⟩
  · have hgood := h.good
    rw [(Prod.mk.inj hsame).1, h.ends] at hgood
    cases hgood
  obtain ⟨-, ⟨k, hk, hn, rfl, rfl⟩ | ⟨b, hnone, -⟩⟩ := step_cases hstep
  swap
  · rw [hpending] at hnone
    cases hnone
  obtain rfl : n = k := Option.some.inj (hpending.symm.trans hk)
  obtain ⟨hvalid, hnone⟩ := hR.fill s (input.take n) n h.valid h.good hpending
  refine ⟨hn, ?_⟩
  cases hgood : R.good (R.fill s (input.take n)) with
  | false =>
    left
    have hsame := Steps.unique hsteps (step_end h.ends []) .refl (step_end hgood _)
    obtain ⟨hfill, hdrop⟩ := Prod.mk.inj hsame
    have hlength := congrArg List.length hdrop
    rw [List.length_drop, List.length_nil] at hlength
    exact ⟨hfill, by omega⟩
  | true => exact .inr ⟨⟨hvalid, hgood, hsteps, h.ends⟩, hnone⟩

end Through

end Upcn.Reader
