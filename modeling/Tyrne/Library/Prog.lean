import Mathlib.Tactic.Common

/-!
# Programs with errors, state and panics

A call of a fallible, state-changing function ends in one of three ways: it
returns a value, it returns an error, or it panics. A returned error keeps the
state the call has reached, so a partial update before an early exit stays
visible; a panic ends the run and has no state.

`Prog σ ε` is the monad of such calls. The rules below execute a program step by
step by rewriting (`bind_ok`, `bind_err`) and read a finished run backwards
(`bind_eq_ok`).
-/

universe u

/-- What stops a run for good. -/
inductive Panic
  | indexOutOfBounds
  | assertion (message : String)
  | explicit (message : String)
  | unreachable (message : String)
  /-- A loop without a bound of its own did not stop within the steps a
  terminating run can take. -/
  | nontermination
  deriving DecidableEq, Repr

/-- How a call ends. -/
inductive Result (σ ε α : Type u)
  | ok (value : α) (state : σ)
  | err (error : ε) (state : σ)
  | panic (cause : Panic)
  deriving DecidableEq, Repr

/-- The state a call has left, unless it panicked. -/
def Result.state {σ ε α : Type u} : Result σ ε α → Option σ
  | .ok _ s => some s
  | .err _ s => some s
  | .panic _ => none

/-- The error of a call that failed. -/
def Result.failure {σ ε α : Type u} : Result σ ε α → Option ε
  | .err e _ => some e
  | _ => none

theorem Result.exists_of_failure {σ ε α : Type u} {r : Result σ ε α} {e : ε}
    (h : r.failure = some e) : ∃ s, r = .err e s := by
  cases r with
  | ok => cases h
  | err e' s =>
    cases h
    exact ⟨s, rfl⟩
  | panic => cases h

/-- The end of a call that returned `r` in state `s`. -/
def Result.returned {σ ε α : Type u} (r : Except ε α) (s : σ) : Result σ ε α :=
  match r with
  | .ok a => .ok a s
  | .error e => .err e s

theorem Result.returned_inj {σ ε α : Type u} {r r' : Except ε α} {s s' : σ} :
    Result.returned r s = Result.returned r' s' ↔ r = r' ∧ s = s' := by
  cases r <;> cases r' <;> simp [Result.returned]

/-- A program over the state `σ` with errors in `ε`. -/
structure Prog (σ ε α : Type u) where
  run : σ → Result σ ε α

namespace Prog

variable {σ ε α β : Type u}

instance : Monad (Prog σ ε) where
  pure a := ⟨fun s => .ok a s⟩
  bind m f := ⟨fun s =>
    match m.run s with
    | .ok a s' => (f a).run s'
    | .err e s' => .err e s'
    | .panic p => .panic p⟩

/-- Return the error `e`, keeping the state. -/
def fail (e : ε) : Prog σ ε α := ⟨fun s => .err e s⟩

/-- Stop with a panic. -/
def panic (p : Panic) : Prog σ ε α := ⟨fun _ => .panic p⟩

def get : Prog σ ε σ := ⟨fun s => .ok s s⟩

def set (s : σ) : Prog σ ε PUnit := ⟨fun _ => .ok ⟨⟩ s⟩

def modify (f : σ → σ) : Prog σ ε PUnit := ⟨fun s => .ok ⟨⟩ (f s)⟩

/-- The value of an option, or the error `e` when there is none. -/
def okOr (o : Option α) (e : ε) : Prog σ ε α :=
  match o with
  | some a => pure a
  | none => fail e

/-- Fail with `e` unless `c` holds. -/
def require (c : Prop) [Decidable c] (e : ε) : Prog σ ε PUnit :=
  if c then pure ⟨⟩ else fail e

/-- Panic instead of failing. -/
def expect {ε' : Type u} (m : Prog σ ε α) (message : String) : Prog σ ε' α := ⟨fun s =>
  match m.run s with
  | .ok a s' => .ok a s'
  | .err _ _ => .panic (.explicit message)
  | .panic p => .panic p⟩

/-- Return the error as a value. -/
def attempt {ε' : Type u} (m : Prog σ ε α) : Prog σ ε' (Except ε α) := ⟨fun s =>
  match m.run s with
  | .ok a s' => .ok (.ok a) s'
  | .err e s' => .ok (.error e) s'
  | .panic p => .panic p⟩

/-- Run a program on the component of a larger state that `view` reads and `update`
writes, translating its error. -/
def zoom {τ ε' : Type u} (view : τ → σ) (update : σ → τ → τ) (mapErr : ε → ε')
    (m : Prog σ ε α) : Prog τ ε' α := ⟨fun t =>
  match m.run (view t) with
  | .ok a s => .ok a (update s t)
  | .err e s => .err (mapErr e) (update s t)
  | .panic p => .panic p⟩

/-- `while c a { a = step a }`, for at most `fuel` tests of the condition. -/
def loop (c : α → Prop) [DecidablePred c] (step : α → Prog σ ε α) : ℕ → α → Prog σ ε α
  | 0, _ => panic .nontermination
  | fuel + 1, a => if c a then step a >>= loop c step fuel else pure a

/-- `for i in lo..lo + n { turn i }`. -/
def forRange (turn : ℕ → Prog σ ε PUnit) (lo : ℕ) : ℕ → Prog σ ε PUnit
  | 0 => pure ⟨⟩
  | n + 1 => turn lo >>= fun _ => forRange turn (lo + 1) n

/-- `for i in (0..n).rev() { turn i }`. -/
def forRev (turn : ℕ → Prog σ ε PUnit) : ℕ → Prog σ ε PUnit
  | 0 => pure ⟨⟩
  | n + 1 => turn n >>= fun _ => forRev turn n

/-! ## Execution rules -/

section Run

variable {s s' : σ}

@[simp] theorem pure_run (a : α) : (pure a : Prog σ ε α).run s = .ok a s := rfl

@[simp] theorem fail_run (e : ε) : (fail e : Prog σ ε α).run s = .err e s := rfl

@[simp] theorem panic_run (p : Panic) : (panic p : Prog σ ε α).run s = .panic p := rfl

@[simp] theorem get_run : (get : Prog σ ε σ).run s = .ok s s := rfl

@[simp] theorem set_run : (set s' : Prog σ ε PUnit).run s = .ok ⟨⟩ s' := rfl

@[simp] theorem modify_run (f : σ → σ) : (modify f : Prog σ ε PUnit).run s = .ok ⟨⟩ (f s) := rfl

@[simp] theorem okOr_some (a : α) (e : ε) : (okOr (some a) e : Prog σ ε α) = pure a := rfl

@[simp] theorem okOr_none (e : ε) : (okOr none e : Prog σ ε α) = fail e := rfl

theorem require_pos {c : Prop} [Decidable c] (hc : c) (e : ε) :
    (require c e : Prog σ ε PUnit) = pure ⟨⟩ := if_pos hc

theorem require_neg {c : Prop} [Decidable c] (hc : ¬ c) (e : ε) :
    (require c e : Prog σ ε PUnit) = fail e := if_neg hc

end Run

section Bind

variable {m : Prog σ ε α} {f : α → Prog σ ε β} {s s' : σ}

theorem bind_run : (m >>= f).run s =
    match m.run s with
    | .ok a s' => (f a).run s'
    | .err e s' => .err e s'
    | .panic p => .panic p := rfl

theorem bind_ok {a : α} (h : m.run s = .ok a s') : (m >>= f).run s = (f a).run s' := by
  rw [bind_run, h]

theorem bind_err {e : ε} (h : m.run s = .err e s') : (m >>= f).run s = .err e s' := by
  rw [bind_run, h]

theorem bind_panic {p : Panic} (h : m.run s = .panic p) : (m >>= f).run s = .panic p := by
  rw [bind_run, h]

@[simp] theorem pure_bind_run (a : α) : ((pure a : Prog σ ε α) >>= f).run s = (f a).run s := rfl

@[simp] theorem fail_bind_run (e : ε) : ((fail e : Prog σ ε α) >>= f).run s = .err e s := rfl

@[simp] theorem panic_bind_run (p : Panic) :
    ((panic p : Prog σ ε α) >>= f).run s = .panic p := rfl

@[simp] theorem get_bind_run {g : σ → Prog σ ε β} :
    ((get : Prog σ ε σ) >>= g).run s = (g s).run s := rfl

@[simp] theorem set_bind_run {g : PUnit → Prog σ ε β} :
    ((set s' : Prog σ ε PUnit) >>= g).run s = (g ⟨⟩).run s' := rfl

@[simp] theorem modify_bind_run {g : PUnit → Prog σ ε β} {h : σ → σ} :
    ((modify h : Prog σ ε PUnit) >>= g).run s = (g ⟨⟩).run (h s) := rfl

theorem bind_eq_ok {b : β} :
    (m >>= f).run s = .ok b s' ↔ ∃ a s₁, m.run s = .ok a s₁ ∧ (f a).run s₁ = .ok b s' := by
  rw [bind_run]
  cases m.run s <;> simp

theorem bind_assoc {γ : Type u} (m : Prog σ ε α) (f : α → Prog σ ε β) (g : β → Prog σ ε γ) :
    (m >>= f) >>= g = m >>= fun a => f a >>= g := by
  show Prog.mk _ = Prog.mk _
  congr 1
  funext s
  rw [bind_run]
  cases m.run s <;> rfl

end Bind

section Zoom

variable {τ ε' : Type u} {view : τ → σ} {update : σ → τ → τ} {mapErr : ε → ε'}
  {m : Prog σ ε α} {t : τ} {s : σ}

theorem zoom_ok {a : α} (h : m.run (view t) = .ok a s) :
    (zoom view update mapErr m).run t = .ok a (update s t) := by
  simp [zoom, h]

theorem zoom_eq_ok {a : α} {t' : τ} : (zoom view update mapErr m).run t = .ok a t' ↔
    ∃ s, m.run (view t) = .ok a s ∧ t' = update s t := by
  cases hrun : m.run (view t) with
  | ok b s =>
    rw [zoom_ok hrun]
    simp [eq_comm]
  | err e s => simp [zoom, hrun]
  | panic p => simp [zoom, hrun]

theorem zoom_err {e : ε} (h : m.run (view t) = .err e s) :
    (zoom view update mapErr m).run t = .err (mapErr e) (update s t) := by
  simp [zoom, h]

theorem zoom_panic {p : Panic} (h : m.run (view t) = .panic p) :
    (zoom view update mapErr m).run t = .panic p := by
  simp [zoom, h]

theorem expect_ok {a : α} {m : Prog σ ε α} {s' s : σ} (h : m.run s = .ok a s')
    (message : String) : (expect m message : Prog σ ε' α).run s = .ok a s' := by
  simp [expect, h]

theorem attempt_ok {a : α} {m : Prog σ ε α} {s' s : σ} (h : m.run s = .ok a s') :
    (attempt m : Prog σ ε' (Except ε α)).run s = .ok (.ok a) s' := by
  simp [attempt, h]

theorem attempt_err {e : ε} {m : Prog σ ε α} {s' s : σ} (h : m.run s = .err e s') :
    (attempt m : Prog σ ε' (Except ε α)).run s = .ok (.error e) s' := by
  simp [attempt, h]

theorem attempt_panic {p : Panic} {m : Prog σ ε α} {s : σ} (h : m.run s = .panic p) :
    (attempt m : Prog σ ε' (Except ε α)).run s = .panic p := by
  simp [attempt, h]

end Zoom

/-! ## Loops -/

section Loop

variable {c : α → Prop} [DecidablePred c] {step : α → Prog σ ε α} {I : α → σ → Prop}
  {E : ε → σ → Prop} {μ : α → ℕ} {fuel : ℕ} {a : α} {s : σ}

/-- A loop whose steps keep `I` and decrease `μ`, or fail with `E`, ends with `I` and the
condition false, or fails with `E`. -/
theorem loop_cases
    (hstep : ∀ a s, I a s → c a →
      (∃ a' s', (step a).run s = .ok a' s' ∧ μ a' < μ a ∧ I a' s') ∨
        ∃ e s', (step a).run s = .err e s' ∧ E e s')
    (hstart : I a s) (hfuel : μ a < fuel) :
    (∃ a' s', (loop c step fuel a).run s = .ok a' s' ∧ I a' s' ∧ ¬ c a') ∨
      ∃ e s', (loop c step fuel a).run s = .err e s' ∧ E e s' := by
  induction fuel generalizing a s with
  | zero => cases hfuel
  | succ fuel ih =>
    unfold loop
    by_cases hc : c a
    · rw [if_pos hc]
      rcases hstep a s hstart hc with ⟨a₁, s₁, hrun, hlt, hnext⟩ | ⟨e, s₁, hrun, he⟩
      · rw [bind_ok hrun]
        exact ih hnext (by omega)
      · exact Or.inr ⟨e, s₁, bind_err hrun, he⟩
    · rw [if_neg hc]
      exact Or.inl ⟨a, s, rfl, hstart, hc⟩

/-- A loop whose steps keep `I` and decrease `μ` ends with `I` and the condition false. -/
theorem loop_ok
    (hstep : ∀ a s, I a s → c a →
      ∃ a' s', (step a).run s = .ok a' s' ∧ μ a' < μ a ∧ I a' s')
    (hstart : I a s) (hfuel : μ a < fuel) :
    ∃ a' s', (loop c step fuel a).run s = .ok a' s' ∧ I a' s' ∧ ¬ c a' := by
  have hnever := loop_cases (E := fun _ _ => False) (fun a s hi hc => Or.inl (hstep a s hi hc))
    hstart hfuel
  rcases hnever with hok | ⟨_, _, _, hcon⟩
  · exact hok
  · exact hcon.elim

/-- A loop that has returned, whose steps keep `I` where they return, has ended with `I` and the
condition false. -/
theorem loop_holds {a' : α} {s' : σ}
    (hstep : ∀ a s a' s', I a s → c a → (step a).run s = .ok a' s' → I a' s')
    (hstart : I a s) (hrun : (loop c step fuel a).run s = .ok a' s') : I a' s' ∧ ¬ c a' := by
  induction fuel generalizing a s with
  | zero => cases hrun
  | succ fuel ih =>
    unfold loop at hrun
    by_cases hc : c a
    · rw [if_pos hc, bind_eq_ok] at hrun
      obtain ⟨a₁, s₁, hfirst, hrest⟩ := hrun
      exact ih (hstep a s a₁ s₁ hstart hc hfirst) hrest
    · rw [if_neg hc] at hrun
      cases hrun
      exact ⟨hstart, hc⟩

/-- A loop whose turn `i` takes `I` from `i` to `i + 1` ends with `I` after its last turn. -/
theorem forRange_ok {I : ℕ → σ → Prop} {turn : ℕ → Prog σ ε PUnit} {lo n : ℕ}
    (hturn : ∀ i s, lo ≤ i → i < lo + n → I i s → ∃ s', (turn i).run s = .ok ⟨⟩ s' ∧ I (i + 1) s')
    (hstart : I lo s) : ∃ s', (forRange turn lo n).run s = .ok ⟨⟩ s' ∧ I (lo + n) s' := by
  induction n generalizing lo s with
  | zero => exact ⟨s, rfl, hstart⟩
  | succ n ih =>
    obtain ⟨s₁, hrun, hnext⟩ := hturn lo s (Nat.le_refl lo) (by omega) hstart
    obtain ⟨s', hrest, hend⟩ :=
      ih (fun i s hle hlt => hturn i s (by omega) (by omega)) hnext
    refine ⟨s', (bind_ok hrun).trans hrest, ?_⟩
    rw [Nat.add_assoc, Nat.add_comm 1 n] at hend
    exact hend

end Loop

/-! ## Frames -/

section Keeps

variable {τ ε' : Type u} {π : Type*} {view : σ → π} {m : Prog σ ε α} {f : α → Prog σ ε β}

/-- However the program ends, what `view` sees of the state is as before. -/
def Keeps (view : σ → π) (m : Prog σ ε α) : Prop :=
  ∀ s s', (m.run s).state = some s' → view s' = view s

theorem keeps_pure (a : α) : (pure a : Prog σ ε α).Keeps view := by
  intro s s' hs
  cases hs
  rfl

theorem keeps_fail (e : ε) : (fail e : Prog σ ε α).Keeps view := by
  intro s s' hs
  cases hs
  rfl

theorem keeps_panic (p : Panic) : (panic p : Prog σ ε α).Keeps view := by
  intro s s' hs
  cases hs

theorem keeps_get : (get : Prog σ ε σ).Keeps view := by
  intro s s' hs
  cases hs
  rfl

theorem keeps_modify {h : σ → σ} (hkeep : ∀ s, view (h s) = view s) :
    (modify h : Prog σ ε PUnit).Keeps view := by
  intro s s' hs
  cases hs
  exact hkeep s

theorem keeps_okOr (o : Option α) (e : ε) : (okOr o e : Prog σ ε α).Keeps view := by
  cases o with
  | none => exact keeps_fail e
  | some a => exact keeps_pure a

theorem keeps_require (c : Prop) [Decidable c] (e : ε) :
    (require c e : Prog σ ε PUnit).Keeps view := by
  unfold require
  split
  · exact keeps_pure _
  · exact keeps_fail e

theorem Keeps.bind (hm : m.Keeps view) (hf : ∀ a, (f a).Keeps view) : (m >>= f).Keeps view := by
  intro s s' hs
  rw [bind_run] at hs
  cases hr : m.run s with
  | ok a s₁ =>
    rw [hr] at hs
    have hfirst := hm s s₁ (by rw [hr]; rfl)
    exact (hf a s₁ s' hs).trans hfirst
  | err e s₁ =>
    rw [hr] at hs
    cases hs
    exact hm s _ (by rw [hr]; rfl)
  | panic p =>
    rw [hr] at hs
    cases hs

theorem Keeps.ite {c : Prop} [Decidable c] {m' : Prog σ ε α} (hm : m.Keeps view)
    (hm' : m'.Keeps view) : (if c then m else m').Keeps view := by
  split
  · exact hm
  · exact hm'

theorem Keeps.attempt (hm : m.Keeps view) :
    (attempt m : Prog σ ε' (Except ε α)).Keeps view := by
  intro s s' hs
  cases hr : m.run s with
  | ok a s₁ =>
    simp only [Prog.attempt, hr] at hs
    cases hs
    exact hm s _ (by rw [hr]; rfl)
  | err e s₁ =>
    simp only [Prog.attempt, hr] at hs
    cases hs
    exact hm s _ (by rw [hr]; rfl)
  | panic p =>
    simp only [Prog.attempt, hr] at hs
    cases hs

/-- A program on a component keeps every view that does not see the component. -/
theorem keeps_zoom {part : τ → σ} {update : σ → τ → τ} {mapErr : ε → ε'} {view : τ → π}
    (hkeep : ∀ s t, view (update s t) = view t) (m : Prog σ ε α) :
    (zoom part update mapErr m).Keeps view := by
  intro t t' ht
  cases hr : m.run (part t) with
  | ok a s =>
    rw [zoom_ok hr] at ht
    cases ht
    exact hkeep s t
  | err e s =>
    rw [zoom_err hr] at ht
    cases ht
    exact hkeep s t
  | panic p =>
    rw [zoom_panic hr] at ht
    cases ht

theorem Keeps.loop {c : α → Prop} [DecidablePred c] {step : α → Prog σ ε α}
    (hstep : ∀ a, (step a).Keeps view) (fuel : ℕ) (a : α) : (loop c step fuel a).Keeps view := by
  induction fuel generalizing a with
  | zero => exact keeps_panic _
  | succ fuel ih =>
    unfold Prog.loop
    apply Keeps.ite
    · exact (hstep a).bind fun a' => ih a'
    · exact keeps_pure a

/-- A program that keeps the whole state keeps every view of it. -/
theorem Keeps.of_all (hm : m.Keeps id) (view : σ → π) : m.Keeps view := by
  intro s s' hs
  exact congrArg view (hm s s' hs)

theorem Keeps.zoom {part : τ → σ} {update : σ → τ → τ} {mapErr : ε → ε'} (hm : m.Keeps id)
    (hsame : ∀ t, update (part t) t = t) : (zoom part update mapErr m).Keeps id := by
  intro t t' ht
  cases hr : m.run (part t) with
  | ok a s =>
    rw [zoom_ok hr] at ht
    cases ht
    have hs : s = part t := hm (part t) s (by rw [hr]; rfl)
    rw [hs]
    exact hsame t
  | err e s =>
    rw [zoom_err hr] at ht
    cases ht
    have hs : s = part t := hm (part t) s (by rw [hr]; rfl)
    rw [hs]
    exact hsame t
  | panic p =>
    rw [zoom_panic hr] at ht
    cases ht

end Keeps

end Prog
