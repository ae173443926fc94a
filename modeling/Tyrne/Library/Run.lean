import Mathlib.Algebra.BigOperators.Group.List.Basic
import Mathlib.Tactic.Common

/-!
# Runs of a labelled transition system

`Run step s es s'` says that the events `es`, taken in order from `s`, reach `s'`.
The rules are the ones every safety argument uses once: an invariant of one step is
an invariant of a run, a property of state and history is carried along by appending
one event, and a quantity that each event changes by its own cost changes by the sum.
-/

variable {σ ε : Type*} {step : σ → ε → σ → Prop}

/-- The events `es`, taken in order from `s`, reach `s'`. -/
inductive Run (step : σ → ε → σ → Prop) : σ → List ε → σ → Prop
  | nil (s : σ) : Run step s [] s
  | cons {s s₁ s' : σ} {e : ε} {es : List ε} :
      step s e s₁ → Run step s₁ es s' → Run step s (e :: es) s'

namespace Run

variable {s s₁ s' : σ} {e : ε} {es es' : List ε}

theorem single (h : step s e s') : Run step s [e] s' := cons h (nil s')

theorem append (h : Run step s es s₁) (h' : Run step s₁ es' s') :
    Run step s (es ++ es') s' := by
  induction h with
  | nil => exact h'
  | cons hstep _ ih => exact cons hstep (ih h')

theorem snoc (h : Run step s es s₁) (hstep : step s₁ e s') : Run step s (es ++ [e]) s' :=
  h.append (single hstep)

/-- A run over a concatenation passes through a middle state. -/
theorem split (h : Run step s (es ++ es') s') :
    ∃ s₁, Run step s es s₁ ∧ Run step s₁ es' s' := by
  induction es generalizing s with
  | nil => exact ⟨s, nil s, h⟩
  | cons e es ih =>
    cases h with
    | cons hstep hrest =>
      obtain ⟨s₁, h₁, h₂⟩ := ih hrest
      exact ⟨s₁, cons hstep h₁, h₂⟩

/-- A run of steps is a run of any steps they are. -/
theorem mono {step' : σ → ε → σ → Prop} (hstep : ∀ s e s', step s e s' → step' s e s')
    (h : Run step s es s') : Run step' s es s' := by
  induction h with
  | nil => exact nil _
  | cons hone _ ih => exact cons (hstep _ _ _ hone) ih

/-- An invariant of every step is an invariant of every run. -/
theorem invariant {I : σ → Prop} (hstep : ∀ s e s', I s → step s e s' → I s')
    (h : Run step s es s') (hs : I s) : I s' := by
  induction h with
  | nil => exact hs
  | cons hone _ ih => exact ih (hstep _ _ _ hs hone)

/-- The steps of a run start from states of the invariant. -/
theorem with_invariant {I : σ → Prop} (hstep : ∀ s e s', I s → step s e s' → I s')
    (h : Run step s es s') (hs : I s) : Run (fun s e s' => I s ∧ step s e s') s es s' := by
  induction h with
  | nil => exact nil _
  | cons hone _ ih => exact cons ⟨hs, hone⟩ (ih (hstep _ _ _ hs hone))

/-- A condition on all events of a run is a condition on its steps. -/
theorem with_events {P : ε → Prop} (h : Run step s es s') (hall : ∀ e ∈ es, P e) :
    Run (fun s e s' => P e ∧ step s e s') s es s' := by
  induction h with
  | nil => exact nil _
  | cons hone _ ih =>
    have hrest := ih fun e he => hall e (List.mem_cons_of_mem _ he)
    exact cons ⟨hall _ List.mem_cons_self, hone⟩ hrest

/-- A property of the history and the state it led to, carried along by one event. -/
theorem history {I : List ε → σ → Prop} (hs : I [] s)
    (hstep : ∀ es s e s', I es s → step s e s' → I (es ++ [e]) s')
    (h : Run step s es s') : I es s' := by
  suffices hgen : ∀ past, I past s → I (past ++ es) s' by simpa using hgen [] hs
  clear hs
  induction h with
  | nil => intro past hpast; simpa using hpast
  | @cons s s₁ s' e es hone _ ih =>
    intro past hpast
    have hrun := ih _ (hstep past s e s₁ hpast hone)
    simpa using hrun

/-- A quantity that every event increases by its cost increases by the sum of the
costs. -/
theorem sum_cost {M : Type*} [AddMonoid M] (μ : σ → M) (cost : ε → M)
    (hstep : ∀ s e s', step s e s' → μ s' = μ s + cost e) (h : Run step s es s') :
    μ s' = μ s + (es.map cost).sum := by
  induction h with
  | nil => simp
  | cons hone _ ih => rw [ih, hstep _ _ _ hone, List.map_cons, List.sum_cons, add_assoc]

/-- A ledger: when every event moves what it takes in behind what is held, and gives out
from the front, then over a run what was held and what came in is what went out and what
is held now, in order. -/
theorem ledger {α : Type*} (held : σ → List α) (taken given : ε → List α)
    (hstep : ∀ s e s', step s e s' → held s ++ taken e = given e ++ held s')
    (h : Run step s es s') :
    held s ++ es.flatMap taken = es.flatMap given ++ held s' := by
  induction h with
  | nil => simp
  | cons hone _ ih =>
    rw [List.flatMap_cons, List.flatMap_cons, ← List.append_assoc, hstep _ _ _ hone,
      List.append_assoc, ih, List.append_assoc]

/-- Every event of a run is a step between two states of the run. -/
theorem exists_step (h : Run step s es s') (he : e ∈ es) :
    ∃ s₁ s₂ past rest, Run step s past s₁ ∧ step s₁ e s₂ ∧ Run step s₂ rest s' ∧
      es = past ++ e :: rest := by
  obtain ⟨past, rest, rfl⟩ := List.append_of_mem he
  obtain ⟨s₁, hpast, hrest⟩ := h.split
  cases hrest with
  | cons hstep hrest => exact ⟨s₁, _, past, rest, hpast, hstep, hrest, rfl⟩

/-! ## Runs of given operations -/

section Trace

variable {ο : Type*} (event : σ → ο → Option ε) (after : ε → σ)

/-- The events of the operations, up to the first that has none. -/
def trace (s : σ) : List ο → List ε
  | [] => []
  | op :: ops =>
    match event s op with
    | some e => e :: trace (after e) ops
    | none => []

def afterTrace (s : σ) : List ο → σ
  | [] => s
  | op :: ops =>
    match event s op with
    | some e => afterTrace (after e) ops
    | none => s

theorem trace_run (hevent : ∀ s op e, event s op = some e → step s e (after e)) (s : σ)
    (ops : List ο) : Run step s (trace event after s ops) (afterTrace event after s ops) := by
  induction ops generalizing s with
  | nil => exact nil s
  | cons op ops ih =>
    unfold trace afterTrace
    cases hop : event s op with
    | none => exact nil s
    | some e => exact cons (hevent s op e hop) (ih (after e))

end Trace

end Run
