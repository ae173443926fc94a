import Mathlib.Logic.Function.Basic
import Mathlib.Tactic.Common

/-!
# Sets of numbers in an array of bytes

The number `i` is a member when the bit `i % 8` of the byte `i / 8` is set. Setting and
clearing a bit insert and remove one number, and the scan for the first clear bit from a
position on finds the least number that is not a member.
-/

namespace Bitmap

/-- The bytes of a bitmap. -/
abbrev Bytes := ℕ → BitVec 8

variable {b : Bytes} {i j lo n : ℕ}

/-- The bit `i` is set. -/
def test (b : Bytes) (i : ℕ) : Bool := b (i / 8) >>> (i % 8) &&& 1 = 1

def insert (b : Bytes) (i : ℕ) : Bytes :=
  Function.update b (i / 8) (b (i / 8) ||| 1#8 <<< (i % 8))

def erase (b : Bytes) (i : ℕ) : Bytes :=
  Function.update b (i / 8) (b (i / 8) &&& ~~~(1#8 <<< (i % 8)))

/-- The first clear bit among the `n` bits from `lo` on. -/
def firstClear (b : Bytes) (lo : ℕ) : ℕ → Option ℕ
  | 0 => none
  | n + 1 => if test b lo then firstClear b (lo + 1) n else some lo

/-! ## Members -/

theorem test_eq : test b i = (b (i / 8)).getLsbD (i % 8) := by
  unfold test
  have hlow : (b (i / 8) >>> (i % 8)).getLsbD 0 = (b (i / 8)).getLsbD (i % 8) := by simp
  have hand := BitVec.and_one_eq_setWidth_ofBool_getLsbD (x := b (i / 8) >>> (i % 8))
  rw [hlow] at hand
  have hone : (b (i / 8) >>> (i % 8) &&& 1) = _ := hand
  rw [hone]
  cases (b (i / 8)).getLsbD (i % 8) <;> decide

theorem test_empty : test (fun _ => 0) i = false := by
  rw [test_eq]
  simp

/-- The bit `k` of the mask for the bit `m` of a byte. -/
theorem mask_getLsbD {k m : ℕ} (hm : m < 8) :
    (1#8 <<< m).getLsbD k = decide (k = m) := by
  rw [BitVec.getLsbD_shiftLeft, BitVec.getLsbD_one]
  by_cases hkm : k = m
  · simp [hkm, hm]
  · have hbits : k < m ∨ k - m ≠ 0 := by omega
    rcases hbits with hlt | hne
    · simp [hkm, hlt]
    · simp [hkm, hne]

theorem test_insert : test (insert b i) j = (decide (j = i) || test b j) := by
  rw [test_eq, test_eq]
  unfold insert
  by_cases hbyte : j / 8 = i / 8
  · have hbit : j % 8 = i % 8 ↔ j = i := by omega
    rw [hbyte, Function.update_self, BitVec.getLsbD_or,
      mask_getLsbD (Nat.mod_lt i (by decide)), Bool.or_comm]
    simp only [hbit]
  · have hne : j ≠ i := fun heq => hbyte (by rw [heq])
    rw [Function.update_of_ne hbyte]
    simp [hne]

theorem test_erase : test (erase b i) j = (decide (j ≠ i) && test b j) := by
  rw [test_eq, test_eq]
  unfold erase
  by_cases hbyte : j / 8 = i / 8
  · have hbit : j % 8 = i % 8 ↔ j = i := by omega
    have hlt : j % 8 < 8 := Nat.mod_lt j (by decide)
    rw [hbyte, Function.update_self, BitVec.getLsbD_and, BitVec.getLsbD_not,
      mask_getLsbD (Nat.mod_lt i (by decide)), Bool.and_comm]
    simp [hbit, hlt]
  · have hne : j ≠ i := fun heq => hbyte (by rw [heq])
    rw [Function.update_of_ne hbyte]
    simp [hne]

/-! ## The scan -/

theorem firstClear_eq_some : firstClear b lo n = some i ↔
    lo ≤ i ∧ i < lo + n ∧ test b i = false ∧ ∀ j, lo ≤ j → j < i → test b j = true := by
  induction n generalizing lo with
  | zero =>
    simp only [firstClear, reduceCtorEq, false_iff]
    intro hbounds
    omega
  | succ n ih =>
    unfold firstClear
    cases hbit : test b lo with
    | true =>
      rw [if_pos rfl, ih]
      constructor
      · intro hfirst
        obtain ⟨hlo, hhi, hclear, hset⟩ := hfirst
        refine ⟨by omega, by omega, hclear, fun j hj hji => ?_⟩
        by_cases heq : j = lo
        · rw [heq, hbit]
        · exact hset j (by omega) hji
      · intro hfirst
        obtain ⟨hlo, hhi, hclear, hset⟩ := hfirst
        have hne : i ≠ lo := fun heq => by rw [heq, hbit] at hclear; cases hclear
        exact ⟨by omega, by omega, hclear, fun j hj => hset j (by omega)⟩
    | false =>
      simp only [Bool.false_eq_true, if_false, Option.some.injEq]
      constructor
      · intro heq
        subst heq
        exact ⟨(Nat.le_refl _), by omega, hbit, fun j hj hji => by omega⟩
      · intro hfirst
        obtain ⟨hlo, _, _, hset⟩ := hfirst
        by_contra hne
        have hcon := hset lo (Nat.le_refl _) (by omega)
        rw [hbit] at hcon
        cases hcon

theorem firstClear_eq_none :
    firstClear b lo n = none ↔ ∀ j, lo ≤ j → j < lo + n → test b j = true := by
  induction n generalizing lo with
  | zero =>
    simp only [firstClear, true_iff]
    intro j hlo hhi
    omega
  | succ n ih =>
    unfold firstClear
    cases hbit : test b lo with
    | true =>
      rw [if_pos rfl, ih]
      constructor
      · intro hset j hlo hhi
        by_cases heq : j = lo
        · rw [heq, hbit]
        · exact hset j (by omega) (by omega)
      · intro hset j hlo hhi
        exact hset j (by omega) (by omega)
    | false =>
      simp only [Bool.false_eq_true, if_false, reduceCtorEq, false_iff]
      intro hset
      have hcon := hset lo (Nat.le_refl _) (by omega)
      rw [hbit] at hcon
      cases hcon

/-- A scan that starts past bits that are set finds what the whole scan finds. -/
theorem firstClear_skip (hset : ∀ j < lo, test b j = true) (hle : lo ≤ n) :
    firstClear b lo (n - lo) = firstClear b 0 n := by
  cases hfirst : firstClear b lo (n - lo) with
  | none =>
    have hall := firstClear_eq_none.mp hfirst
    refine (firstClear_eq_none.mpr fun j _ hj => ?_).symm
    by_cases hlow : j < lo
    · exact hset j hlow
    · exact hall j (by omega) (by omega)
  | some i =>
    obtain ⟨hlo, hhi, hclear, hbefore⟩ := firstClear_eq_some.mp hfirst
    refine (firstClear_eq_some.mpr ⟨Nat.zero_le i, by omega, hclear, fun j _ hj => ?_⟩).symm
    by_cases hlow : j < lo
    · exact hset j hlow
    · exact hbefore j (by omega) hj

end Bitmap
