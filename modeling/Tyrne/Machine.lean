import Mathlib.Algebra.BigOperators.Group.Finset.Basic
import Mathlib.Data.List.Nodup
import Mathlib.Data.List.Perm.Subperm
import Mathlib.Tactic.Abel
import Tyrne.Library.Chain
import Tyrne.Library.Prog

/-!
# What every kernel module shares

The slot index and generation types of the kernel's arenas, and the build profile:
`debug_assert!` panics on a false condition in a build with debug assertions and is
compiled out otherwise. Every function of the model is parametric in the profile.
-/

namespace Tyrne

/-- `type Index = u16`. -/
abbrev Index := BitVec 16

/-- `type Generation = u32`. -/
abbrev Generation := BitVec 32

/-- Distinct indices into an array of `n` cells are at most `n`. -/
theorem length_le_of_nodup {n : ℕ} {l : List Index} (hnodup : l.Nodup)
    (hbound : ∀ i ∈ l, i.toNat < n) : l.length ≤ n := by
  have hmap : (l.map BitVec.toNat).Nodup :=
    hnodup.map fun _ _ hij => BitVec.eq_of_toNat_eq hij
  have hsub : l.map BitVec.toNat ⊆ List.range n := by
    intro k hk
    obtain ⟨i, hi, rfl⟩ := List.mem_map.mp hk
    exact List.mem_range.mpr (hbound i hi)
  simpa using (List.subperm_of_subset hmap hsub).length_le

/-- The indices of an array of `n` cells. -/
def cells (n : ℕ) : Finset Index := (Finset.range n).image (BitVec.ofNat 16)

theorem mem_cells {n : ℕ} (hn : n < 65536) {i : Index} : i ∈ cells n ↔ i.toNat < n := by
  unfold cells
  rw [Finset.mem_image]
  constructor
  · rintro ⟨k, hk, rfl⟩
    have hlt := Finset.mem_range.mp hk
    rwa [BitVec.toNat_ofNat, Nat.mod_eq_of_lt (by omega)]
  · intro hi
    exact ⟨i.toNat, Finset.mem_range.mpr hi, BitVec.ofNat_toNat ..⟩

theorem card_cells {n : ℕ} (hn : n < 65536) : (cells n).card = n := by
  unfold cells
  rw [Finset.card_image_of_injOn, Finset.card_range]
  intro i hi j hj hij
  have hi := Finset.mem_range.mp (Finset.mem_coe.mp hi)
  have hj := Finset.mem_range.mp (Finset.mem_coe.mp hj)
  have hij : i % 2 ^ 16 = j % 2 ^ 16 := congrArg BitVec.toNat hij
  omega

/-- Two families that differ in one member: their sums differ by that member. -/
theorem sum_exchange {ι M : Type*} [DecidableEq ι] [AddCommMonoid M] {s : Finset ι}
    {f f' : ι → M} {a : ι} (ha : a ∈ s) (hoff : ∀ i, i ≠ a → f' i = f i) :
    ∑ i ∈ s, f' i + f a = ∑ i ∈ s, f i + f' a := by
  have herase : ∑ i ∈ s.erase a, f' i = ∑ i ∈ s.erase a, f i :=
    Finset.sum_congr rfl fun i hi => hoff i (Finset.ne_of_mem_erase hi)
  rw [← Finset.add_sum_erase s f' ha, ← Finset.add_sum_erase s f ha, herase]
  abel

/-- The links of a fresh array of `n` cells: every cell links to the next. -/
def freshLink (n : ℕ) (i : Index) : Option Index :=
  if i.toNat + 1 < n then some (i + 1) else none

theorem toNat_ofNat_index {k : ℕ} (hk : k < 65536) : (BitVec.ofNat 16 k).toNat = k :=
  Nat.mod_eq_of_lt hk

/-- The free list of a fresh array from cell `k` on. -/
theorem freshLink_chain {n k m : ℕ} (hn : n < 65536) (hkm : k + m = n) :
    Chain.IsChain (freshLink n) (if k < n then some (BitVec.ofNat 16 k) else none)
      ((List.range' k m).map (BitVec.ofNat 16)) := by
  induction m generalizing k with
  | zero => simp [show ¬ k < n by omega]
  | succ m ih =>
    rw [if_pos (by omega), List.range'_succ, List.map_cons]
    refine ⟨rfl, ?_⟩
    have hnext : freshLink n (BitVec.ofNat 16 k) =
        if k + 1 < n then some (BitVec.ofNat 16 (k + 1)) else none := by
      unfold freshLink
      rw [toNat_ofNat_index (by omega), BitVec.ofNat_add]
      rfl
    rw [hnext]
    exact ih (by omega)

/-- A fresh array threads all its cells into the free list. -/
theorem freshLink_lists {n : ℕ} (hn : n < 65536) :
    Chain.Lists (freshLink n) (if 0 < n then some 0 else none) fun i => i.toNat < n := by
  refine (freshLink_chain hn (Nat.zero_add n)).lists fun i => ?_
  rw [List.mem_map]
  constructor
  · rintro ⟨k, hk, rfl⟩
    have := List.mem_range'_1.mp hk
    rw [toNat_ofNat_index (by omega)]
    omega
  · intro hi
    exact ⟨i.toNat, List.mem_range'_1.mpr (by omega), BitVec.ofNat_toNat ..⟩

/-- The build profile. -/
class Build where
  /-- `cfg!(debug_assertions)`. -/
  debugAssertions : Bool

/-- A build with debug assertions. -/
@[reducible] def debugBuild : Build := ⟨true⟩

/-- `debug_assert!(c, message)`. -/
def debugAssert [Build] {σ ε : Type} (c : Prop) [Decidable c] (message : String) :
    Prog σ ε Unit :=
  if Build.debugAssertions ∧ ¬ c then .panic (.assertion message) else pure ()

section

variable [Build] {σ ε : Type} {c : Prop} [Decidable c]

@[simp] theorem debugAssert_pos (hc : c) (message : String) :
    (debugAssert c message : Prog σ ε Unit) = pure () := by
  simp [debugAssert, hc]

/-- The assertion holds, or is not made. -/
theorem debugAssert_of (hc : Build.debugAssertions = true → c) (message : String) :
    (debugAssert c message : Prog σ ε Unit) = pure () := by
  unfold debugAssert
  rw [if_neg]
  rintro ⟨hbuild, hnot⟩
  exact hnot (hc hbuild)

theorem debugAssert_neg (hbuild : Build.debugAssertions = true) (hc : ¬ c) (message : String) :
    (debugAssert c message : Prog σ ε Unit) = .panic (.assertion message) := by
  simp [debugAssert, hbuild, hc]

end

/-- Read the cell `i` of an array of `n` cells; an index past the end panics. -/
def readCell {σ ε α : Type} (n : ℕ) (cells : σ → Index → α) (i : Index) : Prog σ ε α :=
  ⟨fun s => if i.toNat < n then .ok (cells s i) s else .panic .indexOutOfBounds⟩

/-- Rewrite the cell `i` of an array of `n` cells; an index past the end panics. -/
def writeCell {σ ε α : Type} (n : ℕ) (cells : σ → Index → α) (store : (Index → α) → σ → σ)
    (i : Index) (f : α → α) : Prog σ ε Unit :=
  ⟨fun s => if i.toNat < n then .ok () (store (Function.update (cells s) i (f (cells s i))) s)
    else .panic .indexOutOfBounds⟩

end Tyrne
