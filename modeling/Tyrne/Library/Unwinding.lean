import Tyrne.Library.Run

/-!
# Noninterference by unwinding

An observer owns some of the events of a transition system and sees a part of its state.
When the events of the others leave what the observer sees as it is, and an own event that
is possible in one of two states that look alike is possible in the other, then the events
of the others can be deleted from a run: the observer's own events still happen, with the
same outcomes, and lead to a state that looks the same.
-/

variable {σ ε : Type*}

/-- The conditions on single steps. `view s t` says that the observer cannot tell `s` from
`t`, and `inv` is an invariant that the conditions may rest on. -/
structure Unwinding (step : σ → ε → σ → Prop) (own : ε → Prop) (inv : σ → Prop)
    (view : σ → σ → Prop) : Prop where
  trans : ∀ r s t, view r s → view s t → view r t
  symm : ∀ s t, view s t → view t s
  keeps : ∀ s e s', inv s → step s e s' → inv s'
  /-- The steps of the others are not seen. -/
  respects : ∀ s e s', inv s → ¬ own e → step s e s' → view s s'
  /-- The own steps depend on what is seen only. -/
  consistent : ∀ s t e s', inv s → inv t → own e → view s t → step s e s' →
    ∃ t', step t e t' ∧ view s' t'

namespace Unwinding

variable {step : σ → ε → σ → Prop} {own : ε → Prop} {inv : σ → Prop} {view : σ → σ → Prop}
  {s s' t : σ} {es : List ε}

/-- The events of the others can be deleted from a run. -/
theorem purge [DecidablePred own] (h : Unwinding step own inv view) (hrun : Run step s es s')
    (hs : inv s) (ht : inv t) (hview : view s t) :
    ∃ t', Run step t (es.filter fun e => own e) t' ∧ view s' t' := by
  induction hrun generalizing t with
  | nil s => exact ⟨t, .nil t, hview⟩
  | @cons s s₁ s' e es hstep _ ih =>
    have hs₁ := h.keeps s e s₁ hs hstep
    by_cases hown : own e
    · obtain ⟨t₁, hstep', hview₁⟩ := h.consistent s t e s₁ hs ht hown hview hstep
      obtain ⟨t', hrest, hview'⟩ := ih hs₁ (h.keeps t e t₁ ht hstep') hview₁
      refine ⟨t', ?_, hview'⟩
      rw [List.filter_cons_of_pos (by simpa using hown)]
      exact .cons hstep' hrest
    · have hsame := h.symm _ _ (h.respects s e s₁ hs hown hstep)
      obtain ⟨t', hrest, hview'⟩ := ih hs₁ ht (h.trans _ _ _ hsame hview)
      refine ⟨t', ?_, hview'⟩
      rw [List.filter_cons_of_neg (by simpa using hown)]
      exact hrest

end Unwinding
