import Mathlib.Data.Nat.ModEq
import Mathlib.Tactic.Common

/-!
# Ring buffers

`Holds N buf i l`: an array `buf` of `N` cells holds the list `l` from position `i` on,
positions taken modulo `N`. Appending writes one cell past the end, removing steps past
the first cell; both leave the other cells of the list alone as long as the list is not
longer than the ring.
-/

namespace Ring

variable {α : Type*} {N i : ℕ} {buf : ℕ → Option α} {x : α} {l : List α}

/-- The cells from position `i` on, modulo `N`, hold the list `l`. -/
def Holds (N : ℕ) (buf : ℕ → Option α) (i : ℕ) (l : List α) : Prop :=
  ∀ k y, l[k]? = some y → buf ((i + k) % N) = some y

/-- Two offsets less than `N` apart lie in different cells. -/
theorem mod_ne {j k : ℕ} (hjk : j < k) (hk : k < j + N) : (i + j) % N ≠ (i + k) % N := by
  intro heq
  have hmod : j ≡ k [MOD N] := Nat.ModEq.add_left_cancel' i heq
  have hdvd : N ∣ k - j := (Nat.modEq_iff_dvd' hjk.le).mp hmod
  have hle := Nat.le_of_dvd (by omega) hdvd
  omega

theorem holds_nil : Holds N buf i [] := by
  intro k y hy
  simp at hy

theorem Holds.wrap (h : Holds N buf i l) : Holds N buf (i % N) l := by
  intro k y hy
  rw [Nat.mod_add_mod]
  exact h k y hy

theorem Holds.head (h : Holds N buf i (x :: l)) : buf (i % N) = some x := h 0 x rfl

theorem Holds.tail (h : Holds N buf i (x :: l)) : Holds N buf (i + 1) l := by
  intro k y hy
  rw [Nat.add_right_comm, Nat.add_assoc]
  exact h (k + 1) y hy

theorem Holds.push (h : Holds N buf i l) (hroom : l.length < N) :
    Holds N (Function.update buf ((i + l.length) % N) (some x)) i (l ++ [x]) := by
  intro k y hy
  rcases Nat.lt_trichotomy k l.length with hk | hk | hk
  · rw [List.getElem?_append_left hk] at hy
    rw [Function.update_of_ne (mod_ne hk (by omega))]
    exact h k y hy
  · subst hk
    rw [List.getElem?_concat_length] at hy
    rw [Function.update_self, hy]
  · have hlen : (l ++ [x]).length ≤ k := by
      rw [List.length_append, List.length_singleton]
      omega
    rw [List.getElem?_eq_none hlen] at hy
    cases hy

/-- The cell before the list does not matter. -/
theorem Holds.update_before (h : Holds N buf (i + 1) l) (hroom : l.length < N)
    (o : Option α) : Holds N (Function.update buf (i % N) o) (i + 1) l := by
  intro k y hy
  have hk : k < l.length := (List.getElem?_eq_some_iff.mp hy).1
  have hne : (i + 0) % N ≠ (i + (k + 1)) % N := mod_ne (by omega) (by omega)
  rw [Nat.add_zero] at hne
  have hindex : i + 1 + k = i + (k + 1) := by omega
  rw [hindex, Function.update_of_ne hne.symm, ← hindex]
  exact h k y hy

/-- Two lists of one length that a ring holds from one position are the same. -/
theorem Holds.unique {l' : List α} (h : Holds N buf i l) (h' : Holds N buf i l')
    (hlen : l.length = l'.length) : l = l' := by
  apply List.ext_getElem hlen
  intro k hk hk'
  have hcell := h k _ (List.getElem?_eq_getElem hk)
  rw [h' k _ (List.getElem?_eq_getElem hk')] at hcell
  exact (Option.some.inj hcell).symm

end Ring
