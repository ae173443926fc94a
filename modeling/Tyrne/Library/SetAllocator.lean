import Mathlib.Data.Finset.Card
import Mathlib.Data.Finset.Max
import Mathlib.Order.Bounds.Basic
import Tyrne.Library.Run

/-!
# Allocators of sets

The abstract allocator over a linear order: a set of elements it may hand out, and the
part of them that is outstanding. An allocation hands out the least element that is not
outstanding, and a release takes back an outstanding one.

What such an allocator can hand out in the future does not depend on what is outstanding
now: every element it may hand out is handed out by some continuation.
-/

/-- `usable` may be handed out, `outstanding` is. -/
structure SetAllocator (α : Type*) where
  usable : Finset α
  outstanding : Finset α
  outstanding_subset : outstanding ⊆ usable

namespace SetAllocator

inductive Op (α : Type*)
  | alloc
  | free (a : α)

inductive Reply (α : Type*)
  | allocated (a : Option α)
  | freed
  | refused

variable {α : Type*} [LinearOrder α] {A A' : SetAllocator α} {a b : α}
  {es : List (Op α × Reply α)}

/-- What an allocation can hand out. -/
def available (A : SetAllocator α) : Finset α := A.usable \ A.outstanding

def take (A : SetAllocator α) (a : α) (ha : a ∈ A.usable) : SetAllocator α where
  usable := A.usable
  outstanding := insert a A.outstanding
  outstanding_subset := Finset.insert_subset ha A.outstanding_subset

def release (A : SetAllocator α) (a : α) : SetAllocator α where
  usable := A.usable
  outstanding := A.outstanding.erase a
  outstanding_subset := (Finset.erase_subset a A.outstanding).trans A.outstanding_subset

theorem mem_available : a ∈ A.available ↔ a ∈ A.usable ∧ a ∉ A.outstanding := Finset.mem_sdiff

theorem card_available (A : SetAllocator α) :
    A.available.card + A.outstanding.card = A.usable.card :=
  Finset.card_sdiff_add_card_eq_card A.outstanding_subset

theorem available_take {ha : a ∈ A.usable} : (A.take a ha).available = A.available.erase a := by
  ext b
  simp only [mem_available, take, Finset.mem_insert, Finset.mem_erase]
  tauto

theorem available_release (ha : a ∈ A.usable) :
    (A.release a).available = insert a A.available := by
  ext b
  simp only [mem_available, release, Finset.mem_erase, Finset.mem_insert]
  by_cases hab : b = a
  · simp [hab, ha]
  · simp [hab]

/-- An operation, its reply and the allocator after it. -/
inductive Step (A : SetAllocator α) : Op α × Reply α → SetAllocator α → Prop
  | alloc {a : α} (ha : a ∈ A.usable) : IsLeast (A.available : Set α) a →
      Step A (.alloc, .allocated (some a)) (A.take a ha)
  | exhausted : A.available = ∅ → Step A (.alloc, .allocated none) A
  | free {a : α} : a ∈ A.outstanding → Step A (.free a, .freed) (A.release a)
  | refused {a : α} : a ∉ A.outstanding → Step A (.free a, .refused) A

/-- An operation has one effect. -/
theorem Step.unique {op : Op α} {r r' : Reply α} {A₁ A₂ : SetAllocator α}
    (h₁ : Step A (op, r) A₁) (h₂ : Step A (op, r') A₂) : A₁ = A₂ := by
  cases h₁ with
  | alloc _ hleast => cases h₂ with
    | alloc _ hleast' =>
      obtain rfl := hleast.unique hleast'
      rfl
    | exhausted hempty =>
      have hmem : _ ∈ A.available := hleast.1
      rw [hempty] at hmem
      exact absurd hmem (Finset.notMem_empty _)
  | exhausted hempty => cases h₂ with
    | alloc _ hleast =>
      have hmem : _ ∈ A.available := hleast.1
      rw [hempty] at hmem
      exact absurd hmem (Finset.notMem_empty _)
    | exhausted => rfl
  | free hout => cases h₂ with
    | free => rfl
    | refused hnot => exact absurd hout hnot
  | refused hnot => cases h₂ with
    | free hout => exact absurd hout hnot
    | refused => rfl

/-! ## What one client has taken -/

/-- Beyond what was outstanding in `A₀`, exactly the elements of the list are in `A`. -/
structure Beyond (A₀ A : SetAllocator α) (taken : List α) : Prop where
  nodup : taken.Nodup
  fresh : ∀ a ∈ taken, a ∉ A₀.outstanding
  outstanding : ∀ a, a ∈ A.outstanding ↔ a ∈ A₀.outstanding ∨ a ∈ taken

section Beyond

variable {A₀ : SetAllocator α} {taken taken' more : List α}

omit [LinearOrder α] in
theorem Beyond.refl (A : SetAllocator α) : Beyond A A [] where
  nodup := List.nodup_nil
  fresh _ ha := absurd ha List.not_mem_nil
  outstanding _ := by simp

omit [LinearOrder α] in
theorem Beyond.perm (h : Beyond A₀ A taken) (hperm : taken.Perm taken') :
    Beyond A₀ A taken' where
  nodup := hperm.nodup_iff.mp h.nodup
  fresh a ha := h.fresh a (hperm.mem_iff.mpr ha)
  outstanding a := by rw [h.outstanding, hperm.mem_iff]

omit [LinearOrder α] in
theorem Beyond.trans (h : Beyond A₀ A taken) (hmore : Beyond A A' more) :
    Beyond A₀ A' (taken ++ more) where
  nodup := by
    refine List.nodup_append.mpr ⟨h.nodup, hmore.nodup, fun a ha b hb heq => ?_⟩
    rw [← heq] at hb
    exact hmore.fresh a hb ((h.outstanding a).mpr (Or.inr ha))
  fresh a ha := by
    rcases List.mem_append.mp ha with hold | hnew
    · exact h.fresh a hold
    · exact fun hcon => hmore.fresh a hnew ((h.outstanding a).mpr (Or.inl hcon))
  outstanding a := by rw [hmore.outstanding, h.outstanding, List.mem_append, or_assoc]

theorem Beyond.of_take {ha : a ∈ A.usable} (hnot : a ∉ A.outstanding) :
    Beyond A (A.take a ha) [a] where
  nodup := List.nodup_singleton a
  fresh b hb := by
    rw [List.mem_singleton.mp hb]
    exact hnot
  outstanding b := by
    rw [List.mem_singleton, or_comm]
    exact Finset.mem_insert

/-- The last element taken is given back. -/
theorem Beyond.release (h : Beyond A₀ A (taken ++ [a])) : Beyond A₀ (A.release a) taken where
  nodup := h.nodup.of_append_left
  fresh b hb := h.fresh b (List.mem_append_left _ hb)
  outstanding b := by
    have hlast : a ∉ taken := fun hmem =>
      (List.nodup_append.mp h.nodup).2.2 a hmem a (List.mem_singleton_self a) rfl
    have hnot : a ∉ A₀.outstanding := h.fresh a (by simp)
    show b ∈ A.outstanding.erase a ↔ _
    rw [Finset.mem_erase, h.outstanding, List.mem_append, List.mem_singleton]
    constructor
    · rintro ⟨hne, hold | hmem | heq⟩
      · exact Or.inl hold
      · exact Or.inr hmem
      · exact absurd heq hne
    · rintro (hold | hmem)
      · exact ⟨fun heq => hnot (heq ▸ hold), Or.inl hold⟩
      · exact ⟨fun heq => hlast (heq ▸ hmem), Or.inr (Or.inl hmem)⟩

/-- What is available has shrunk by what was taken. -/
theorem Beyond.available (h : Beyond A₀ A taken) (husable : A.usable = A₀.usable) :
    A.available = A₀.available \ taken.toFinset := by
  ext b
  rw [Finset.mem_sdiff, mem_available, mem_available, husable, h.outstanding, List.mem_toFinset,
    not_or, and_assoc]

theorem Beyond.card (h : Beyond A₀ A taken) :
    A.outstanding.card = A₀.outstanding.card + taken.length := by
  have hunion : A.outstanding = A₀.outstanding ∪ taken.toFinset := by
    ext b
    rw [Finset.mem_union, List.mem_toFinset, h.outstanding]
  rw [hunion, Finset.card_union_of_disjoint, List.toFinset_card_of_nodup h.nodup]
  rw [Finset.disjoint_right]
  exact fun b hb => h.fresh b (List.mem_toFinset.mp hb)

end Beyond

/-! ## Exclusive ownership -/

/-- What is outstanding stays so until it is freed. -/
theorem Step.outstanding_stays {e : Op α × Reply α} (hstep : Step A e A')
    (ha : a ∈ A.outstanding) (hnot : e ≠ (.free a, .freed)) : a ∈ A'.outstanding := by
  cases hstep with
  | alloc => exact Finset.mem_insert_of_mem ha
  | exhausted => exact ha
  | @free b =>
    have hab : a ≠ b := fun heq => hnot (by rw [heq])
    exact Finset.mem_erase.mpr ⟨hab, ha⟩
  | refused => exact ha

theorem Run.outstanding_stays (hrun : Run Step A es A') (ha : a ∈ A.outstanding)
    (hnot : (.free a, .freed) ∉ es) : a ∈ A'.outstanding := by
  have hevents := hrun.with_events fun e he => (fun heq => hnot (heq ▸ he) : e ≠ (.free a, .freed))
  exact hevents.invariant (I := fun B => a ∈ B.outstanding)
    (fun _ _ _ hB hstep => hstep.2.outstanding_stays hB hstep.1) ha

/-- Between two allocations of one element there is a release of it. -/
theorem Run.freed_between {A₁ A₂ A₃ : SetAllocator α}
    (hfirst : Step A (.alloc, .allocated (some a)) A₁) (hrun : Run Step A₁ es A₂)
    (hagain : Step A₂ (.alloc, .allocated (some a)) A₃) : (.free a, .freed) ∈ es := by
  by_contra hnot
  have hout : a ∈ A₁.outstanding := by
    cases hfirst
    exact Finset.mem_insert_self a A.outstanding
  have hstill := Run.outstanding_stays hrun hout hnot
  cases hagain with
  | alloc _ hleast => exact (mem_available.mp hleast.1).2 hstill

/-! ## What the future can bring -/

/-- An available element is handed out after the ones below it. -/
theorem exists_run_of_available (ha : a ∈ A.available) :
    ∃ es A', Run Step A es A' ∧ IsLeast (A'.available : Set α) a := by
  induction hn : (A.available.filter (· < a)).card generalizing A with
  | zero =>
    refine ⟨[], A, .nil A, ha, fun b hb => ?_⟩
    by_contra hlt
    have hempty := Finset.card_eq_zero.mp hn
    have hmem : b ∈ A.available.filter (· < a) := Finset.mem_filter.mpr ⟨hb, not_le.mp hlt⟩
    rw [hempty] at hmem
    exact Finset.notMem_empty b hmem
  | succ n ih =>
    have hbelow : (A.available.filter (· < a)).Nonempty := by
      rw [← Finset.card_pos, hn]
      exact Nat.succ_pos n
    obtain ⟨c, hc⟩ := hbelow
    obtain ⟨hc, hca⟩ := Finset.mem_filter.mp hc
    let b := A.available.min' ⟨a, ha⟩
    have hleast : IsLeast (A.available : Set α) b := Finset.isLeast_min' _ _
    have hba : b < a := (hleast.2 hc).trans_lt hca
    have hb := (mem_available.mp hleast.1).1
    have hstep : Step A (.alloc, .allocated (some b)) (A.take b hb) := .alloc hb hleast
    have hmem : a ∈ (A.take b hb).available := by
      rw [available_take]
      exact Finset.mem_erase.mpr ⟨hba.ne', ha⟩
    have hcard : ((A.take b hb).available.filter (· < a)).card = n := by
      rw [available_take, Finset.filter_erase, Finset.card_erase_of_mem, hn, Nat.add_sub_cancel]
      exact Finset.mem_filter.mpr ⟨hleast.1, hba⟩
    obtain ⟨es, A', hrun, hlast⟩ := ih hmem hcard
    exact ⟨_, A', .cons hstep hrun, hlast⟩

/-- Every usable element is handed out by some continuation. -/
theorem exists_run_of_usable (ha : a ∈ A.usable) :
    ∃ es A', Run Step A es A' ∧ IsLeast (A'.available : Set α) a := by
  by_cases hout : a ∈ A.outstanding
  · have hmem : a ∈ (A.release a).available := by
      rw [available_release ha]
      exact Finset.mem_insert_self a A.available
    obtain ⟨es, A', hrun, hleast⟩ := exists_run_of_available hmem
    exact ⟨_, A', .cons (.free hout) hrun, hleast⟩
  · exact exists_run_of_available (mem_available.mpr ⟨ha, hout⟩)

end SetAllocator
