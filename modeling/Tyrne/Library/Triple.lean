import Tyrne.Library.Prog

/-!
# Pre- and postconditions of programs

`Triple P m Q E` says that from every state of `P` the program `m` returns with `Q`, fails
with `E`, or panics. The rules follow the combinators of `Prog`; an invariant is the case
in which all three conditions are the same.
-/

universe u

namespace Prog

variable {σ τ ε ε' α β : Type u} {P P' : σ → Prop} {Q Q' : α → σ → Prop} {E E' : ε → σ → Prop}
  {R : β → σ → Prop} {m : Prog σ ε α} {f : α → Prog σ ε β}

/-- From `P`, the program returns with `Q` or fails with `E`, unless it panics. -/
def Triple (P : σ → Prop) (m : Prog σ ε α) (Q : α → σ → Prop) (E : ε → σ → Prop) : Prop :=
  ∀ s, P s → (∀ a s', m.run s = .ok a s' → Q a s') ∧ ∀ e s', m.run s = .err e s' → E e s'

/-- The program keeps the invariant `I`, however it ends. -/
def Preserves (I : σ → Prop) (m : Prog σ ε α) : Prop := Triple I m (fun _ => I) fun _ => I

namespace Triple

theorem post (h : Triple P m Q E) (hQ : ∀ a s, Q a s → Q' a s) (hE : ∀ e s, E e s → E' e s) :
    Triple P m Q' E' := by
  intro s hs
  obtain ⟨hok, herr⟩ := h s hs
  exact ⟨fun a s' hrun => hQ a s' (hok a s' hrun), fun e s' hrun => hE e s' (herr e s' hrun)⟩

theorem pre (h : Triple P m Q E) (hP : ∀ s, P' s → P s) : Triple P' m Q E :=
  fun s hs => h s (hP s hs)

/-- What every program does. -/
theorem any : Triple P m (fun _ _ => True) fun _ _ => True :=
  fun _ _ => ⟨fun _ _ _ => trivial, fun _ _ _ => trivial⟩

/-- The three ends of a program, told apart. -/
theorem of_ends (h : ∀ s, P s → (∃ a s', m.run s = .ok a s' ∧ Q a s') ∨
    (∃ e s', m.run s = .err e s' ∧ E e s') ∨ ∃ p, m.run s = .panic p) : Triple P m Q E := by
  intro s hs
  rcases h s hs with ⟨a, s₁, hrun, hQ⟩ | ⟨e, s₁, hrun, hE⟩ | ⟨p, hrun⟩
  all_goals
    rw [hrun]
    refine ⟨fun a' s' hend => ?_, fun e' s' hend => ?_⟩
    all_goals cases hend
  · exact hQ
  · exact hE

/-- A program that returns. -/
theorem of_ok (h : ∀ s, P s → ∃ a s', m.run s = .ok a s' ∧ Q a s') : Triple P m Q E :=
  of_ends fun s hs => Or.inl (h s hs)

theorem pure {a : α} (h : ∀ s, P s → Q a s) : Triple P (Pure.pure a : Prog σ ε α) Q E := by
  intro s hs
  refine ⟨fun a' s' hrun => ?_, fun e s' hrun => ?_⟩
  · cases hrun
    exact h s hs
  · cases hrun

theorem fail {e : ε} (h : ∀ s, P s → E e s) : Triple P (Prog.fail e : Prog σ ε α) Q E := by
  intro s hs
  refine ⟨fun a s' hrun => ?_, fun e' s' hrun => ?_⟩
  · cases hrun
  · cases hrun
    exact h s hs

theorem panic {p : Panic} : Triple P (Prog.panic p : Prog σ ε α) Q E := by
  intro s _
  exact ⟨fun _ _ hend => (nomatch hend), fun _ _ hend => (nomatch hend)⟩

/-- The state read is the state of the precondition. -/
theorem get_bind {g : σ → Prog σ ε β} (h : ∀ s, P s → Triple (fun t => t = s) (g s) R E) :
    Triple P ((Prog.get : Prog σ ε σ) >>= g) R E := by
  intro s hs
  exact h s hs s rfl

theorem modify {g : σ → σ} {Q : PUnit → σ → Prop} (h : ∀ s, P s → Q ⟨⟩ (g s)) :
    Triple P (Prog.modify g : Prog σ ε PUnit) Q E := by
  intro s hs
  refine ⟨fun a s' hrun => ?_, fun e s' hrun => ?_⟩
  · cases hrun
    exact h s hs
  · cases hrun

theorem bind (hm : Triple P m Q E) (hf : ∀ a, Triple (Q a) (f a) R E) :
    Triple P (m >>= f) R E := by
  intro s hs
  obtain ⟨hok, herr⟩ := hm s hs
  cases hrun : m.run s with
  | ok a s₁ =>
    rw [bind_ok hrun]
    exact hf a s₁ (hok a s₁ hrun)
  | err e s₁ =>
    rw [bind_err hrun]
    refine ⟨fun b s' hend => ?_, fun e' s' hend => ?_⟩
    · cases hend
    · cases hend
      exact herr e s₁ hrun
  | panic p =>
    rw [bind_panic hrun]
    exact ⟨fun _ _ hend => (nomatch hend), fun _ _ hend => (nomatch hend)⟩

theorem okOr {o : Option α} {e : ε} (hsome : ∀ a s, o = some a → P s → Q a s)
    (hnone : ∀ s, o = none → P s → E e s) : Triple P (Prog.okOr o e) Q E := by
  cases o with
  | some a => exact pure fun s hs => hsome a s rfl hs
  | none => exact fail fun s hs => hnone s rfl hs

theorem require {c : Prop} [Decidable c] {e : ε} {Q : PUnit → σ → Prop}
    (hpos : ∀ s, c → P s → Q ⟨⟩ s) (hneg : ∀ s, ¬ c → P s → E e s) :
    Triple P (Prog.require c e) Q E := by
  by_cases hc : c
  · rw [require_pos hc]
    exact pure fun s hs => hpos s hc hs
  · rw [require_neg hc]
    exact fail fun s hs => hneg s hc hs

theorem ite {c : Prop} [Decidable c] {m' : Prog σ ε α} (hpos : c → Triple P m Q E)
    (hneg : ¬ c → Triple P m' Q E) : Triple P (if c then m else m') Q E := by
  split
  · next hc => exact hpos hc
  · next hc => exact hneg hc

/-- A program on a component: the conditions are read off the component. -/
theorem zoom {view : τ → σ} {update : σ → τ → τ} {mapErr : ε → ε'} {P' : τ → Prop}
    {Q' : α → τ → Prop} {E' : ε' → τ → Prop} (h : Triple P m Q E) (hP : ∀ t, P' t → P (view t))
    (hQ : ∀ a t s, P' t → Q a s → Q' a (update s t))
    (hE : ∀ e t s, P' t → E e s → E' (mapErr e) (update s t)) :
    Triple P' (Prog.zoom view update mapErr m) Q' E' := by
  intro t ht
  obtain ⟨hok, herr⟩ := h (view t) (hP t ht)
  cases hrun : m.run (view t) with
  | ok a s =>
    rw [zoom_ok hrun]
    refine ⟨fun a' t' hend => ?_, fun e t' hend => ?_⟩
    · cases hend
      exact hQ a t s ht (hok a s hrun)
    · cases hend
  | err e s =>
    rw [zoom_err hrun]
    refine ⟨fun a' t' hend => ?_, fun e' t' hend => ?_⟩
    · cases hend
    · cases hend
      exact hE e t s ht (herr e s hrun)
  | panic p =>
    rw [zoom_panic hrun]
    exact ⟨fun _ _ hend => (nomatch hend), fun _ _ hend => (nomatch hend)⟩

/-- Where an error panics, only the normal end is left. -/
theorem expect {message : String} {E' : ε' → σ → Prop} (h : Triple P m Q E) :
    Triple P (Prog.expect m message : Prog σ ε' α) Q E' := by
  intro s hs
  obtain ⟨hok, -⟩ := h s hs
  refine ⟨fun a s' hend => ?_, fun e s' hend => ?_⟩
  · apply hok a s'
    cases hrun : m.run s <;> simp [Prog.expect, hrun] at hend ⊢
    exact hend
  · cases hrun : m.run s <;> simp [Prog.expect, hrun] at hend

theorem attempt {Q' : Except ε α → σ → Prop} {E' : ε' → σ → Prop} (h : Triple P m Q E)
    (hok : ∀ a s, Q a s → Q' (.ok a) s) (herr : ∀ e s, E e s → Q' (.error e) s) :
    Triple P (Prog.attempt m : Prog σ ε' (Except ε α)) Q' E' := by
  intro s hs
  obtain ⟨hret, hfail⟩ := h s hs
  cases hrun : m.run s with
  | ok a s₁ =>
    rw [attempt_ok hrun]
    refine ⟨fun r s' hend => ?_, fun e s' hend => ?_⟩
    · cases hend
      exact hok a s₁ (hret a s₁ hrun)
    · cases hend
  | err e s₁ =>
    rw [attempt_err hrun]
    refine ⟨fun r s' hend => ?_, fun e' s' hend => ?_⟩
    · cases hend
      exact herr e s₁ (hfail e s₁ hrun)
    · cases hend
  | panic p =>
    rw [attempt_panic hrun]
    exact ⟨fun _ _ hend => (nomatch hend), fun _ _ hend => (nomatch hend)⟩

/-- A loop whose turn `i` takes the invariant from `i` to `i + 1`, or fails. -/
theorem forRange {I : ℕ → σ → Prop} {turn : ℕ → Prog σ ε PUnit} {lo n : ℕ}
    (hturn : ∀ i, lo ≤ i → i < lo + n → Triple (I i) (turn i) (fun _ => I (i + 1)) E) :
    Triple (I lo) (Prog.forRange turn lo n) (fun _ => I (lo + n)) E := by
  induction n generalizing lo with
  | zero => exact pure fun s hs => hs
  | succ n ih =>
    refine (hturn lo (Nat.le_refl lo) (by omega)).bind fun _ => ?_
    have hrest : Triple (I (lo + 1)) (Prog.forRange turn (lo + 1) n) (fun _ => I (lo + 1 + n)) E :=
      ih fun i hle hlt => hturn i (by omega) (by omega)
    rw [Nat.add_assoc, Nat.add_comm 1 n] at hrest
    exact hrest

/-- A loop that goes down from `n`. -/
theorem forRev {I : ℕ → σ → Prop} {turn : ℕ → Prog σ ε PUnit} {n : ℕ}
    (hturn : ∀ i < n, Triple (I (i + 1)) (turn i) (fun _ => I i) E) :
    Triple (I n) (Prog.forRev turn n) (fun _ => I 0) E := by
  induction n with
  | zero => exact pure fun s hs => hs
  | succ n ih =>
    refine (hturn n (Nat.lt_succ_self n)).bind fun _ => ?_
    exact ih fun i hi => hturn i (Nat.lt_succ_of_lt hi)

end Triple

end Prog
