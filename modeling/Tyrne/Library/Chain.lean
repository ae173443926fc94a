import Mathlib.Data.List.Nodup
import Mathlib.Tactic.Common

/-!
# Intrusive singly linked lists

An intrusive list stores its links inside the elements: a link function
`next : ι → Option ι` and a head. `IsChain next head l` says that following the
links from `head` visits exactly `l` and stops. Because the links are a function,
a chain that stops cannot visit an element twice (`IsChain.nodup`).

`Lists next head S` is the form used in invariants: the chain from `head` stops and
visits exactly the elements of `S`, each once. The rules of the second half say how
it changes when a link or the head is rewritten.
-/

namespace Chain

variable {ι : Type*} {next next' : ι → Option ι}

/-- Following `next` from `head` visits exactly `l`, in this order, and stops. -/
def IsChain (next : ι → Option ι) : Option ι → List ι → Prop
  | head, [] => head = none
  | head, i :: l => head = some i ∧ IsChain next (next i) l

@[simp] theorem isChain_nil {head : Option ι} : IsChain next head [] ↔ head = none := Iff.rfl

@[simp] theorem isChain_cons {head : Option ι} {i : ι} {l : List ι} :
    IsChain next head (i :: l) ↔ head = some i ∧ IsChain next (next i) l := Iff.rfl

namespace IsChain

theorem unique {head : Option ι} {l l' : List ι} (h : IsChain next head l)
    (h' : IsChain next head l') : l = l' := by
  induction l generalizing head l' with
  | nil =>
    cases l' with
    | nil => rfl
    | cons i' l' => simp_all
  | cons i l ih =>
    cases l' with
    | nil => simp_all
    | cons i' l' =>
      obtain ⟨hi, hl⟩ := h
      obtain ⟨hi', hl'⟩ := h'
      obtain rfl : i = i' := Option.some.inj (hi.symm.trans hi')
      rw [ih hl hl']

/-- The chain of a suffix starts at the element that follows the prefix. -/
theorem suffix {head : Option ι} {l₁ l₂ : List ι} {i : ι}
    (h : IsChain next head (l₁ ++ i :: l₂)) : IsChain next (some i) (i :: l₂) := by
  induction l₁ generalizing head with
  | nil => exact ⟨rfl, h.2⟩
  | cons j l₁ ih => exact ih h.2

/-- A chain that stops visits no element twice: the second visit would have to be
followed by the same elements as the first. -/
theorem nodup {head : Option ι} {l : List ι} (h : IsChain next head l) : l.Nodup := by
  induction l generalizing head with
  | nil => exact List.nodup_nil
  | cons i l ih =>
    refine List.nodup_cons.mpr ⟨fun hi => ?_, ih h.2⟩
    obtain ⟨l₁, l₂, rfl⟩ := List.append_of_mem hi
    have hchain : IsChain next (some i) (i :: (l₁ ++ i :: l₂)) := ⟨rfl, h.2⟩
    have hEq : i :: (l₁ ++ i :: l₂) = i :: l₂ := hchain.unique (suffix h.2)
    have := congrArg List.length hEq
    simp at this
    omega

theorem congr {head : Option ι} {l : List ι} (hnext : ∀ i ∈ l, next' i = next i)
    (h : IsChain next head l) : IsChain next' head l := by
  induction l generalizing head with
  | nil => exact h
  | cons i l ih =>
    refine ⟨h.1, ?_⟩
    rw [hnext i List.mem_cons_self]
    exact ih (fun j hj => hnext j (List.mem_cons_of_mem _ hj)) h.2

theorem push {head : Option ι} {l : List ι} {i : ι} (h : IsChain next head l) (hi : i ∉ l)
    (hlink : next' i = head) (hnext : ∀ j, j ≠ i → next' j = next j) :
    IsChain next' (some i) (i :: l) := by
  refine ⟨rfl, ?_⟩
  rw [hlink]
  apply h.congr
  intro j hj
  exact hnext j fun hji => hi (hji ▸ hj)

/-- Bypass the element after `c`: when `c` takes over the link of its successor `i`,
the chain visits the same elements without `i`. -/
theorem bypass {head : Option ι} {l₁ l₂ : List ι} {c i : ι}
    (h : IsChain next head (l₁ ++ c :: i :: l₂)) (hc : next' c = next i)
    (hnext : ∀ j ∈ l₁ ++ c :: i :: l₂, j ≠ c → next' j = next j) :
    IsChain next' head (l₁ ++ c :: l₂) := by
  induction l₁ generalizing head with
  | nil =>
    have hnodup := h.nodup
    obtain ⟨hhead, -, htail⟩ := h
    refine ⟨hhead, ?_⟩
    rw [hc]
    refine htail.congr fun j hj => hnext j (by simp [hj]) ?_
    rintro rfl
    simp [hj] at hnodup
  | cons j l₁ ih =>
    refine ⟨h.1, ?_⟩
    have hjc : j ≠ c := by
      rintro rfl
      have hnodup := h.nodup
      simp at hnodup
    rw [hnext j (by simp) hjc]
    exact ih h.2 (fun k hk hkc => hnext k (by simp at hk ⊢; tauto) hkc)

end IsChain

/-! ## Chains that list a set -/

/-- The chain from `head` is acyclic and visits exactly the elements of `S`, each once. -/
def Lists (next : ι → Option ι) (head : Option ι) (S : ι → Prop) : Prop :=
  ∃ l, IsChain next head l ∧ l.Nodup ∧ ∀ i, i ∈ l ↔ S i

variable {head : Option ι} {S S' : ι → Prop}

theorem IsChain.lists {l : List ι} (h : IsChain next head l) (hS : ∀ i, i ∈ l ↔ S i) :
    Lists next head S := ⟨l, h, h.nodup, hS⟩

namespace Lists

theorem congr (h : Lists next head S) (hnext : ∀ i, S i → next' i = next i)
    (hS : ∀ i, S i ↔ S' i) : Lists next' head S' := by
  obtain ⟨l, hl, -, hmem⟩ := h
  exact (hl.congr fun i hi => hnext i ((hmem i).mp hi)).lists fun i => (hmem i).trans (hS i)

theorem head_none_iff (h : Lists next head S) : head = none ↔ ∀ i, ¬ S i := by
  obtain ⟨l, hl, -, hmem⟩ := h
  cases l with
  | nil => exact ⟨fun _ i hi => by simpa using (hmem i).mpr hi, fun _ => hl⟩
  | cons i l =>
    constructor
    · intro hnone
      simp [hl.1] at hnone
    · intro hall
      exact absurd ((hmem i).mp List.mem_cons_self) (hall i)

theorem head_mem {i : ι} (h : Lists next (some i) S) : S i := by
  obtain ⟨l, hl, -, hmem⟩ := h
  cases l with
  | nil => simp at hl
  | cons j l =>
    obtain rfl : i = j := Option.some.inj hl.1
    exact (hmem i).mp List.mem_cons_self

/-- Taking the head off leaves the chain of the other elements. -/
theorem pop {i : ι} (h : Lists next (some i) S) :
    Lists next (next i) (fun j => S j ∧ j ≠ i) := by
  obtain ⟨l, hl, hnodup, hmem⟩ := h
  cases l with
  | nil => simp at hl
  | cons j l =>
    obtain rfl : i = j := Option.some.inj hl.1
    refine hl.2.lists fun k => ?_
    have hi := (List.nodup_cons.mp hnodup).1
    rw [← hmem k, List.mem_cons]
    constructor
    · intro hk
      exact ⟨Or.inr hk, fun hki => hi (hki ▸ hk)⟩
    · rintro ⟨hk | hk, hne⟩
      · exact absurd hk hne
      · exact hk

/-- A new element in front, whose link is the former head. -/
theorem push {i : ι} (h : Lists next head S) (hi : ¬ S i) (hlink : next' i = head)
    (hnext : ∀ j, j ≠ i → next' j = next j) :
    Lists next' (some i) (fun j => j = i ∨ S j) := by
  obtain ⟨l, hl, -, hmem⟩ := h
  have hil : i ∉ l := fun hil => hi ((hmem i).mp hil)
  exact (hl.push hil hlink hnext).lists fun j => by rw [List.mem_cons, hmem j]

/-- Removing a listed element `i` from the middle: its predecessor takes over its link. -/
theorem unlink {c i : ι} (h : Lists next head S) (hc : S c) (hci : next c = some i)
    (hlink : next' c = next i) (hnext : ∀ j, S j → j ≠ c → next' j = next j) :
    Lists next' head (fun j => S j ∧ j ≠ i) := by
  obtain ⟨l, hl, hnodup, hmem⟩ := h
  obtain ⟨l₁, l₂, rfl⟩ := List.append_of_mem ((hmem c).mpr hc)
  obtain ⟨l₃, rfl⟩ : ∃ l₃, l₂ = i :: l₃ := by
    have htail := hl.suffix.2
    cases l₂ with
    | nil => simp [hci] at htail
    | cons j l₃ => exact ⟨l₃, by rw [Option.some.inj (htail.1.symm.trans hci)]⟩
  have hchain := hl.bypass hlink fun j hj hjc => hnext j ((hmem j).mp hj) hjc
  refine hchain.lists fun j => ?_
  rw [← hmem j]
  simp only [List.nodup_append, List.nodup_cons, List.mem_append, List.mem_cons] at hnodup ⊢
  grind

end Lists

end Chain
