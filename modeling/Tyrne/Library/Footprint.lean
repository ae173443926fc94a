import Tyrne.Library.Prog

/-!
# Footprints

A footprint is a part of the state. A program stays within it when its outcome depends on
that part only and nothing else is changed: started in two states that agree inside, it
ends the same way, in two states that still agree inside, and each start is left as it was
outside. The rules follow the program's own structure.
-/

universe u

variable {σ τ ε ε' α β : Type u}

/-- A part of the state: when two states agree inside it, and what stays as it was when
only that part changes. -/
structure Footprint (σ : Type u) where
  inside : σ → σ → Prop
  outside : σ → σ → Prop
  refl : ∀ s, outside s s
  trans : ∀ r s t, outside r s → outside s t → outside r t

namespace Footprint

variable {F : Footprint σ} {P : α → Prop} {Q : β → Prop} {s t s' t' : σ}

/-- The whole state. -/
def whole (σ : Type u) : Footprint σ where
  inside s t := s = t
  outside _ _ := True
  refl _ := trivial
  trans _ _ _ _ _ := trivial

/-- The two calls, begun in `s` and `t`, end alike; a value they return satisfies `P`. -/
inductive Alike (F : Footprint σ) (P : α → Prop) (s t : σ) :
    Result σ ε α → Result σ ε α → Prop
  | ok {a : α} {s' t' : σ} : P a → F.inside s' t' → F.outside s s' → F.outside t t' →
      Alike F P s t (.ok a s') (.ok a t')
  | err {e : ε} {s' t' : σ} : F.inside s' t' → F.outside s s' → F.outside t t' →
      Alike F P s t (.err e s') (.err e t')
  | panic {p : Panic} : Alike F P s t (.panic p) (.panic p)

/-- The program stays within the footprint. -/
def Within (F : Footprint σ) (P : α → Prop) (m : Prog σ ε α) : Prop :=
  ∀ s t, F.inside s t → F.Alike P s t (m.run s) (m.run t)

/-! ## Two calls -/

theorem Alike.weaken {P' : α → Prop} {r r' : Result σ ε α} (h : F.Alike P s t r r')
    (hP : ∀ a, P a → P' a) : F.Alike P' s t r r' := by
  cases h with
  | ok ha hin hs ht => exact .ok (hP _ ha) hin hs ht
  | err hin hs ht => exact .err hin hs ht
  | panic => exact .panic

/-- Two calls that both return come back with the same reply. -/
theorem Alike.returned {r : Except ε α} {q : Result σ ε α}
    (h : F.Alike P s t (.returned r s') q) :
    ∃ t', q = .returned r t' ∧ F.inside s' t' ∧ F.outside s s' ∧ F.outside t t' := by
  cases r with
  | ok a =>
    cases h with
    | ok _ hin hs ht => exact ⟨_, rfl, hin, hs, ht⟩
  | error e =>
    cases h with
    | err hin hs ht => exact ⟨_, rfl, hin, hs, ht⟩

theorem Alike.bind {m : Prog σ ε α} {f : α → Prog σ ε β}
    (hm : F.Alike P s t (m.run s) (m.run t)) (hf : ∀ a, P a → F.Within Q (f a)) :
    F.Alike Q s t ((m >>= f).run s) ((m >>= f).run t) := by
  rw [Prog.bind_run, Prog.bind_run]
  generalize m.run s = r at hm
  generalize m.run t = r' at hm
  cases hm with
  | @ok a s₁ t₁ ha hin hs ht =>
    have hrest := hf a ha s₁ t₁ hin
    dsimp only
    generalize (f a).run s₁ = r at hrest
    generalize (f a).run t₁ = r' at hrest
    cases hrest with
    | ok hb hin' hs' ht' => exact .ok hb hin' (F.trans _ _ _ hs hs') (F.trans _ _ _ ht ht')
    | err hin' hs' ht' => exact .err hin' (F.trans _ _ _ hs hs') (F.trans _ _ _ ht ht')
    | panic => exact .panic
  | err hin hs ht => exact .err hin hs ht
  | panic => exact .panic

/-- A program on a component, when what the component's footprint leaves alone the larger
one does not change either. -/
theorem Alike.zoom {G : Footprint τ} {view : σ → τ} {update : τ → σ → σ} {mapErr : ε → ε'}
    {m : Prog τ ε α} (hm : G.Alike P (view s) (view t) (m.run (view s)) (m.run (view t)))
    (hin : ∀ u v, G.inside u v → G.outside (view s) u → G.outside (view t) v →
      F.inside (update u s) (update v t))
    (hs : ∀ u, G.outside (view s) u → F.outside s (update u s))
    (ht : ∀ u, G.outside (view t) u → F.outside t (update u t)) :
    F.Alike P s t ((Prog.zoom view update mapErr m).run s)
      ((Prog.zoom view update mapErr m).run t) := by
  generalize hr : m.run (view s) = r at hm
  generalize hr' : m.run (view t) = r' at hm
  cases hm with
  | ok ha hu hus hut =>
    rw [Prog.zoom_ok hr, Prog.zoom_ok hr']
    exact .ok ha (hin _ _ hu hus hut) (hs _ hus) (ht _ hut)
  | err hu hus hut =>
    rw [Prog.zoom_err hr, Prog.zoom_err hr']
    exact .err (hin _ _ hu hus hut) (hs _ hus) (ht _ hut)
  | panic =>
    rw [Prog.zoom_panic hr, Prog.zoom_panic hr']
    exact .panic

/-! ## Programs -/

theorem within_whole (m : Prog σ ε α) : (whole σ).Within (fun _ => True) m := by
  rintro s _ rfl
  cases m.run s with
  | ok a s' => exact .ok trivial rfl trivial trivial
  | err e s' => exact .err rfl trivial trivial
  | panic p => exact .panic

theorem Within.bind {m : Prog σ ε α} {f : α → Prog σ ε β} (hm : F.Within P m)
    (hf : ∀ a, P a → F.Within Q (f a)) : F.Within Q (m >>= f) :=
  fun s t hin => (hm s t hin).bind hf

theorem Within.weaken {P' : α → Prop} {m : Prog σ ε α} (hm : F.Within P m)
    (hP : ∀ a, P a → P' a) : F.Within P' m :=
  fun s t hin => (hm s t hin).weaken hP

theorem within_pure {a : α} (ha : P a) : F.Within P (pure a : Prog σ ε α) :=
  fun s t hin => .ok ha hin (F.refl s) (F.refl t)

theorem within_fail (e : ε) : F.Within P (Prog.fail e : Prog σ ε α) :=
  fun s t hin => .err hin (F.refl s) (F.refl t)

theorem within_panic (p : Panic) : F.Within P (Prog.panic p : Prog σ ε α) :=
  fun _ _ _ => .panic

theorem within_require (c : Prop) [Decidable c] (e : ε) :
    F.Within (fun _ => c) (Prog.require c e : Prog σ ε PUnit) := by
  by_cases hc : c
  · rw [Prog.require_pos hc]
    exact within_pure hc
  · rw [Prog.require_neg hc]
    exact within_fail e

theorem Within.ite {c : Prop} [Decidable c] {m m' : Prog σ ε α} (hm : F.Within P m)
    (hm' : F.Within P m') : F.Within P (if c then m else m') := by
  split
  · exact hm
  · exact hm'

/-- Reading the state, when what follows uses only what is inside. -/
theorem within_get {f : σ → Prog σ ε α} (hsame : ∀ s t, F.inside s t → f t = f s)
    (hf : ∀ s, F.Within P (f s)) : F.Within P (Prog.get >>= f) := by
  intro s t hin
  rw [Prog.get_bind_run, Prog.get_bind_run, hsame s t hin]
  exact hf s s t hin

end Footprint
