import Tyrne.Library.Prog

/-!
# Programs that return

The outcome of a program on a state, step by step.
-/

namespace Prog

universe u
variable {σ ε ε' τ α β : Type u} {m : Prog σ ε α} {f : α → Prog σ ε β} {s s₁ s₂ : σ} {a : α} {b : β}

/-- The program returns `a` and leaves the state `s'`. -/
def Returns (m : Prog σ ε α) (s : σ) (a : α) (s' : σ) : Prop := m.run s = .ok a s'

namespace Returns

theorem bind (hm : Returns m s a s₁) (hf : Returns (f a) s₁ b s₂) : Returns (m >>= f) s b s₂ :=
  (Prog.bind_ok hm).trans hf

theorem pure (a : α) : Returns (Pure.pure a : Prog σ ε α) s a s := rfl

theorem get : Returns (Prog.get : Prog σ ε σ) s s s := rfl

theorem modify (g : σ → σ) : Returns (Prog.modify g : Prog σ ε PUnit) s ⟨⟩ (g s) := rfl

theorem zoom {view : τ → σ} {update : σ → τ → τ} {mapErr : ε → ε'} {t : τ}
    (h : Returns m (view t) a s) : Returns (Prog.zoom view update mapErr m) t a (update s t) :=
  Prog.zoom_ok h

theorem expect (h : Returns m s a s₁) (message : String) :
    Returns (Prog.expect m message : Prog σ ε' α) s a s₁ := Prog.expect_ok h message

theorem attempt (h : Returns m s a s₁) :
    Returns (Prog.attempt m : Prog σ ε' (Except ε α)) s (.ok a) s₁ := Prog.attempt_ok h

end Returns

end Prog
