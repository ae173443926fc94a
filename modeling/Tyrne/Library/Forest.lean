import Mathlib.Logic.Relation
import Mathlib.Data.List.Nodup
import Mathlib.Tactic.Common

/-!
# Forests given by a parent function

A forest on `ι` is a partial function `parent`. `Below parent p d` says that `d` is a
strict descendant of `p`.

`Frontier` is the invariant of the breadth-first worklist that collects the strict
descendants of one node: the worklist `ds` has no duplicates, the children of every
node before position `scan` have been queued, and nothing else has.
-/

namespace Forest

variable {ι : Type*} {parent parent' : ι → Option ι} {src p d c : ι}

/-- `d` is a strict descendant of `p`. -/
def Below (parent : ι → Option ι) : ι → ι → Prop :=
  Relation.TransGen fun p c => parent c = some p

theorem Below.child (h : parent c = some p) : Below parent p c := .single h

theorem Below.tail (h : Below parent p d) (hc : parent c = some d) : Below parent p c :=
  Relation.TransGen.tail h hc

theorem below_iff :
    Below parent p d ↔ parent d = some p ∨ ∃ q, parent d = some q ∧ Below parent p q := by
  constructor
  · intro h
    cases h with
    | single h => exact Or.inl h
    | tail h hd => exact Or.inr ⟨_, hd, h⟩
  · rintro (h | ⟨q, hd, h⟩)
    · exact .child h
    · exact h.tail hd

/-- A strict descendant has a parent. -/
theorem Below.parent_ne_none (h : Below parent p d) : parent d ≠ none := by
  rcases below_iff.mp h with h | ⟨q, h, -⟩ <;> simp [h]

/-- A rank that grows from parent to child grows along every path. -/
theorem Below.rank_lt {rank : ι → ℕ} (hrank : ∀ c p, parent c = some p → rank p < rank c)
    (h : Below parent p d) : rank p < rank d := by
  induction h with
  | single h => exact hrank _ _ h
  | tail _ h ih => exact Nat.lt_trans ih (hrank _ _ h)

/-! ## The worklist -/

/-- The worklist `ds` of the strict descendants of `src`, with the children of the
first `scan` entries already queued. -/
structure Frontier (parent : ι → Option ι) (src : ι) (scan : ℕ) (ds : List ι) : Prop where
  nodup : ds.Nodup
  below : ∀ d ∈ ds, Below parent src d
  seeded : ∀ c, parent c = some src → c ∈ ds
  expanded : ∀ j < scan, ∀ p, ds[j]? = some p → ∀ c, parent c = some p → c ∈ ds
  queued : ∀ c ∈ ds, parent c = some src ∨
    ∃ j < scan, ∃ p, ds[j]? = some p ∧ parent c = some p

namespace Frontier

variable {scan : ℕ} {ds kids : List ι}

/-- The direct children of `src` start the worklist. -/
theorem start (hnodup : kids.Nodup) (hkids : ∀ c, c ∈ kids ↔ parent c = some src) :
    Frontier parent src 0 kids where
  nodup := hnodup
  below c hc := .child ((hkids c).mp hc)
  seeded c hc := (hkids c).mpr hc
  expanded j hj := absurd hj (Nat.not_lt_zero j)
  queued c hc := Or.inl ((hkids c).mp hc)

/-- Queueing the children of the next entry. No child is already queued: its parent
would be an earlier entry, or `src`, which is not below itself. -/
theorem step {i : ι} (h : Frontier parent src scan ds) (hi : ds[scan]? = some i)
    (hsrc : ¬ Below parent src src) (hnodup : kids.Nodup)
    (hkids : ∀ c, c ∈ kids ↔ parent c = some i) :
    Frontier parent src (scan + 1) (ds ++ kids) := by
  have hiBelow : Below parent src i := h.below i (List.mem_of_getElem? hi)
  have hold : ∀ {j : ℕ} {p : ι}, ds[j]? = some p → (ds ++ kids)[j]? = some p := by
    intro j p hj
    rw [List.getElem?_append_left (List.getElem?_eq_some_iff.mp hj).1, hj]
  have hnew : ∀ c ∈ kids, c ∉ ds := by
    intro c hc hcds
    have hparent := (hkids c).mp hc
    rcases h.queued c hcds with hs | ⟨j, hj, p, hp, hcp⟩
    · obtain rfl : i = src := Option.some.inj (hparent.symm.trans hs)
      exact hsrc hiBelow
    · obtain rfl : p = i := Option.some.inj (hcp.symm.trans hparent)
      have hlt := (List.getElem?_eq_some_iff.mp hp).1
      have := (List.getElem?_inj hlt h.nodup).mp (hp.trans hi.symm)
      omega
  refine ⟨?_, ?_, ?_, ?_, ?_⟩
  · exact List.nodup_append.mpr
      ⟨h.nodup, hnodup, fun a ha b hb hab => hnew b hb (hab ▸ ha)⟩
  · intro d hd
    rcases List.mem_append.mp hd with hd | hd
    · exact h.below d hd
    · exact hiBelow.tail ((hkids d).mp hd)
  · exact fun c hc => List.mem_append_left _ (h.seeded c hc)
  · intro j hj p hp c hc
    have hlt : scan < ds.length := (List.getElem?_eq_some_iff.mp hi).1
    rw [List.getElem?_append_left (by omega)] at hp
    rcases Nat.lt_or_eq_of_le (Nat.le_of_lt_succ hj) with hj | rfl
    · exact List.mem_append_left _ (h.expanded j hj p hp c hc)
    · obtain rfl : p = i := Option.some.inj (hp.symm.trans hi)
      exact List.mem_append_right _ ((hkids c).mpr hc)
  · intro c hc
    rcases List.mem_append.mp hc with hc | hc
    · rcases h.queued c hc with hs | ⟨j, hj, p, hp, hcp⟩
      · exact Or.inl hs
      · exact Or.inr ⟨j, by omega, p, hold hp, hcp⟩
    · exact Or.inr ⟨scan, by omega, i, hold hi, (hkids c).mp hc⟩

/-- When every entry has been scanned, the worklist is the set of strict descendants. -/
theorem complete (h : Frontier parent src scan ds) (hscan : ds.length ≤ scan) (d : ι) :
    d ∈ ds ↔ Below parent src d := by
  refine ⟨h.below d, fun hd => ?_⟩
  induction hd with
  | single hc => exact h.seeded _ hc
  | tail _ hc ih =>
    obtain ⟨j, hj, hp⟩ := List.getElem_of_mem ih
    exact h.expanded j (by omega) _ (by rw [List.getElem?_eq_getElem hj, hp]) _ hc

end Frontier

end Forest
