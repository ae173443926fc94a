import Mathlib.Algebra.BigOperators.Group.Finset.Piecewise
import Mathlib.Algebra.Order.BigOperators.Group.Finset
import Mathlib.Order.Interval.Finset.Nat
import Tyrne.Library.Radix

/-!
# Radix trees over a set of keys

A tree `Spans` a set of keys when it has a table just where the path of one of them runs. Its
size is then that of the set: for every level, the number of different keys above the set.
Adding the path of one more key takes as many tables as the path lacks, and for an interval of
keys the size has a closed form.
-/

namespace Radix.Tree

variable {α β ν : Type*} {B D : ℕ} {t t' : Tree B D α β ν} {K : Finset ℕ} {k l q : ℕ} {as : List α}

/-- Below the root there is a node just where the path of a key of `K` runs. -/
def Spans (t : Tree B D α β ν) (K : Finset ℕ) : Prop :=
  ∀ l < D, ∀ q, t.node (l + 1) q ≠ none ↔ ∃ k ∈ K, up B D (l + 1) k = q

/-- How many tables below the root the paths of `K` have. -/
def spanSize (B D : ℕ) (K : Finset ℕ) : ℕ :=
  ∑ l ∈ Finset.range D, (K.image (up B D (l + 1))).card

theorem spans_empty {root : α} : (empty B D β ν root).Spans ∅ := by
  intro l _ q
  rw [empty_node_succ]
  simp

theorem Spans.setLeaf {o : Option ν} {hparent : ∃ p, t.node D (k / B) = some (.table p)}
    (h : t.Spans K) : (t.setLeaf k o hparent).Spans K := h

/-- With the whole path of `k` added the tree spans `k` too. -/
theorem Spans.grows (h : t.Spans K) (hgrows : Grows k t as t')
    (hfull : ∀ l < D, t'.node (l + 1) (up B D (l + 1) k) ≠ none) : t'.Spans (insert k K) := by
  intro l hl q
  constructor
  · intro hnode
    cases hold : t.node (l + 1) q with
    | some n =>
      obtain ⟨j, hj, heq⟩ := (h l hl q).mp (hold ▸ Option.some_ne_none n)
      exact ⟨j, Finset.mem_insert_of_mem hj, heq⟩
    | none =>
      obtain ⟨n, hn⟩ := Option.ne_none_iff_exists'.mp hnode
      obtain ⟨_, _, _, heq⟩ := hgrows.node_new hold hn
      exact ⟨k, Finset.mem_insert_self k K, heq.symm⟩
  · intro hkey
    obtain ⟨j, hj, rfl⟩ := hkey
    rcases Finset.mem_insert.mp hj with rfl | hj
    · exact hfull l hl
    · obtain ⟨n, hn⟩ := Option.ne_none_iff_exists'.mp ((h l hl _).mpr ⟨j, hj, rfl⟩)
      rw [hgrows.keeps hn]
      exact Option.some_ne_none n

/-- What the path of `k` lacks is what `k` adds to the size. -/
theorem Spans.missing (h : t.Spans K) :
    spanSize B D (insert k K) = spanSize B D K + t.missing k := by
  unfold spanSize Tree.missing
  rw [Finset.card_filter, ← Finset.sum_add_distrib]
  apply Finset.sum_congr rfl
  intro l hl
  have hlevel := h l (Finset.mem_range.mp hl) (up B D (l + 1) k)
  rw [Finset.image_insert]
  by_cases hnone : t.node (l + 1) (up B D (l + 1) k) = none
  · rw [if_pos hnone, Finset.card_insert_of_notMem]
    intro hmem
    exact hlevel.mpr (Finset.mem_image.mp hmem) hnone
  · rw [if_neg hnone, Finset.insert_eq_of_mem (Finset.mem_image.mpr (hlevel.mp hnone))]
    rfl

theorem spanSize_mono {K' : Finset ℕ} (hsub : K ⊆ K') : spanSize B D K ≤ spanSize B D K' :=
  Finset.sum_le_sum fun _ _ => Finset.card_le_card (Finset.image_subset_image hsub)

/-- A key adds at most one table a level. -/
theorem spanSize_le (K : Finset ℕ) : spanSize B D K ≤ D * K.card := by
  have hlevel : ∀ l ∈ Finset.range D, (K.image (up B D (l + 1))).card ≤ K.card :=
    fun _ _ => Finset.card_image_le
  have hsum := Finset.sum_le_card_nsmul (Finset.range D) _ K.card hlevel
  rw [Finset.card_range] at hsum
  exact hsum

/-- The keys above an interval are an interval. -/
theorem image_up_Ico {a b : ℕ} (hab : a < b) (hB : 0 < B) :
    (Finset.Ico a b).image (up B D l) = Finset.Icc (up B D l a) (up B D l (b - 1)) := by
  unfold up
  have hM : 0 < B ^ (D + 1 - l) := Nat.pow_pos hB
  generalize B ^ (D + 1 - l) = M at hM
  ext q
  rw [Finset.mem_image, Finset.mem_Icc]
  constructor
  · intro hq
    obtain ⟨k, hk, rfl⟩ := hq
    have hk := Finset.mem_Ico.mp hk
    exact ⟨Nat.div_le_div_right hk.1, Nat.div_le_div_right (by omega)⟩
  · intro hq
    obtain ⟨hlow, hhigh⟩ := hq
    -- the first key of `q` that is not before the interval
    refine ⟨max a (q * M), Finset.mem_Ico.mpr ⟨le_max_left _ _, ?_⟩, ?_⟩
    · have hmul := (Nat.le_div_iff_mul_le hM).mp hhigh
      omega
    · rcases le_total (q * M) a with hle | hle
      · rw [max_eq_left hle]
        exact le_antisymm hlow ((Nat.le_div_iff_mul_le hM).mpr hle)
      · rw [max_eq_right hle, Nat.mul_div_cancel q hM]

theorem spanSize_Ico {a b : ℕ} (hab : a < b) (hB : 0 < B) :
    spanSize B D (Finset.Ico a b) =
      ∑ l ∈ Finset.range D, (up B D (l + 1) (b - 1) + 1 - up B D (l + 1) a) := by
  unfold spanSize
  apply Finset.sum_congr rfl
  intro l _
  rw [image_up_Ico hab hB, Nat.card_Icc]

end Radix.Tree
