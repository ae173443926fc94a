import Mathlib.Algebra.Group.Nat.Defs
import Mathlib.Data.Finset.Card
import Mathlib.Order.Interval.Finset.Nat
import Mathlib.Tactic.Common

/-!
# Radix trees in a store

A radix tree of fan-out `B` has tables at the levels `0` to `D` and leaves below the last.
It is given by positions: a level and a key, where the position above `(l + 1, k)` is
`(l, k / B)` and the slot of `k` in the table there is `k % B`. In place of a table there
may be a block, which ends the path. No two tables have one address.

`Stores read t` says that the tables, read slot by slot, are those of `t`. Adding an empty
table changes what is found at no key; writing a leaf changes it at one.
-/

namespace Radix

/-- What is at a position. -/
inductive Node (α β : Type*)
  | table (a : α)
  | block (b : β)

/-- What a slot of a table holds. -/
inductive Slot (α β ν : Type*)
  | empty
  | table (a : α)
  | block (b : β)
  | leaf (v : ν)

variable {α β ν : Type*}

def Slot.ofNode : Option (Node α β) → Slot α β ν
  | some (.table a) => .table a
  | some (.block b) => .block b
  | none => .empty

def Slot.ofLeaf : Option ν → Slot α β ν
  | some v => .leaf v
  | none => .empty

theorem Slot.ofNode_injective :
    Function.Injective (Slot.ofNode : Option (Node α β) → Slot α β ν) := by
  intro n n' h
  rcases n with - | a | b <;> rcases n' with - | a' | b' <;> cases h <;> rfl

theorem Slot.ofLeaf_injective :
    Function.Injective (Slot.ofLeaf : Option ν → Slot α β ν) := by
  intro o o' h
  cases o <;> cases o' <;> cases h <;> rfl

structure Tree (B D : ℕ) (α β ν : Type*) where
  root : α
  node : ℕ → ℕ → Option (Node α β)
  leaf : ℕ → Option ν
  node_root : node 0 0 = some (.table root)
  node_zero : ∀ k, k ≠ 0 → node 0 k = none
  node_parent : ∀ l k, node (l + 1) k ≠ none → ∃ a, node l (k / B) = some (.table a)
  node_deep : ∀ l k, D < l → node l k = none
  leaf_parent : ∀ k, leaf k ≠ none → ∃ a, node D (k / B) = some (.table a)
  node_inj : ∀ l k l' k' a, node l k = some (.table a) → node l' k' = some (.table a) →
    l = l' ∧ k = k'

namespace Tree

variable {B D : ℕ} {t t' t'' : Tree B D α β ν} {l k i n : ℕ} {a b : α} {v : ν}

/-- Some table of the tree is at the address `a`. -/
def IsTable (t : Tree B D α β ν) (a : α) : Prop := ∃ l k, t.node l k = some (.table a)

theorem isTable_root (t : Tree B D α β ν) : t.IsTable t.root := ⟨0, 0, t.node_root⟩

/-- A root without anything below it. -/
def empty (B D : ℕ) (β ν : Type*) (root : α) : Tree B D α β ν where
  root := root
  node l k := if l = 0 ∧ k = 0 then some (.table root) else none
  leaf _ := none
  node_root := if_pos ⟨rfl, rfl⟩
  node_zero k hk := if_neg fun hcon => hk hcon.2
  node_parent l k hnode := absurd (if_neg fun hcon => Nat.succ_ne_zero l hcon.1) hnode
  node_deep l k hl := if_neg fun hcon => by omega
  leaf_parent k hleaf := absurd rfl hleaf
  node_inj l k l' k' a h h' := by
    have hzero := (Option.ite_none_right_eq_some.mp h).1
    have hzero' := (Option.ite_none_right_eq_some.mp h').1
    omega

theorem empty_node_succ {root : α} : (empty B D β ν root).node (l + 1) k = none := by
  have hne : ¬ (l + 1 = 0 ∧ k = 0) := fun hcon => Nat.succ_ne_zero l hcon.1
  show (if l + 1 = 0 ∧ k = 0 then some (.table root) else none) = (none : Option (Node α β))
  rw [if_neg hne]

theorem isTable_empty {root : α} : (empty B D β ν root).IsTable a ↔ a = root := by
  constructor
  · intro htable
    obtain ⟨l, k, hnode⟩ := htable
    have heq := (Option.ite_none_right_eq_some.mp hnode).2
    cases heq
    rfl
  · intro heq
    rw [heq]
    exact isTable_root _

/-! ## What a table holds -/

/-- What the slot of the key `k` holds, in a table of level `l`. -/
def slot (t : Tree B D α β ν) (l k : ℕ) : Slot α β ν :=
  if l < D then .ofNode (t.node (l + 1) k) else .ofLeaf (t.leaf k)

theorem slot_node (hl : l < D) : t.slot l k = .ofNode (t.node (l + 1) k) := if_pos hl

theorem slot_leaf : t.slot D k = .ofLeaf (t.leaf k) := if_neg (Nat.lt_irrefl D)

/-- The tables, read slot by slot, are those of the tree. -/
def Stores (read : ℕ → α → ℕ → Slot α β ν) (t : Tree B D α β ν) : Prop :=
  ∀ l k a, t.node l k = some (.table a) → ∀ i < B, read l a i = t.slot l (k * B + i)

/-- The slot of a key in the table above it. -/
theorem Stores.at_key {read : ℕ → α → ℕ → Slot α β ν} (hstores : Stores read t) (hB : 0 < B)
    (hnode : t.node l (k / B) = some (.table a)) : read l a (k % B) = t.slot l k := by
  rw [hstores l (k / B) a hnode (k % B) (Nat.mod_lt k hB), Nat.div_add_mod']

/-- A store that agrees on the tables stores the tree as well. -/
theorem Stores.congr {read read' : ℕ → α → ℕ → Slot α β ν} (hstores : Stores read t)
    (hsame : ∀ l a i, t.IsTable a → i < B → read' l a i = read l a i) : Stores read' t := by
  intro l k a hnode i hi
  rw [hsame l a i ⟨l, k, hnode⟩ hi]
  exact hstores l k a hnode i hi

/-! ## Adding a table -/

/-- The tree with an empty table at an empty position below a table. -/
def graft (t : Tree B D α β ν) (l k : ℕ) (a : α) (hl : l < D)
    (hparent : ∃ p, t.node l (k / B) = some (.table p)) (hempty : t.node (l + 1) k = none)
    (hfresh : ¬ t.IsTable a) : Tree B D α β ν where
  root := t.root
  node l' k' := if l' = l + 1 ∧ k' = k then some (.table a) else t.node l' k'
  leaf := t.leaf
  node_root := by rw [if_neg (by omega), t.node_root]
  node_zero k' hk' := by rw [if_neg (by omega), t.node_zero k' hk']
  node_parent l' k' hnode := by
    by_cases hnew : l' + 1 = l + 1 ∧ k' = k
    · obtain ⟨hl', rfl⟩ := hnew
      rw [if_neg (by omega), Nat.succ_injective hl']
      exact hparent
    · rw [if_neg hnew] at hnode
      split
      · exact ⟨a, rfl⟩
      · exact t.node_parent l' k' hnode
  node_deep l' k' hl' := by rw [if_neg (by omega), t.node_deep l' k' hl']
  leaf_parent k' hleaf := by
    split
    · exact ⟨a, rfl⟩
    · exact t.leaf_parent k' hleaf
  node_inj l₁ k₁ l₂ k₂ b h₁ h₂ := by
    split at h₁
    · next hnew₁ =>
      cases h₁
      split at h₂
      · next hnew₂ => exact ⟨hnew₁.1.trans hnew₂.1.symm, hnew₁.2.trans hnew₂.2.symm⟩
      · exact absurd ⟨l₂, k₂, h₂⟩ hfresh
    · split at h₂
      · cases h₂
        exact absurd ⟨l₁, k₁, h₁⟩ hfresh
      · exact t.node_inj l₁ k₁ l₂ k₂ b h₁ h₂

section Graft

variable {hl : l < D} {hparent : ∃ p, t.node l (k / B) = some (.table p)}
  {hempty : t.node (l + 1) k = none} {hfresh : ¬ t.IsTable a}

theorem graft_node_self :
    (t.graft l k a hl hparent hempty hfresh).node (l + 1) k = some (.table a) :=
  if_pos ⟨rfl, rfl⟩

theorem graft_node_of_ne {l' k' : ℕ} (hne : ¬ (l' = l + 1 ∧ k' = k)) :
    (t.graft l k a hl hparent hempty hfresh).node l' k' = t.node l' k' := if_neg hne

theorem isTable_graft :
    (t.graft l k a hl hparent hempty hfresh).IsTable b ↔ t.IsTable b ∨ b = a := by
  constructor
  · intro htable
    obtain ⟨l', k', hnode⟩ := htable
    by_cases hnew : l' = l + 1 ∧ k' = k
    · obtain ⟨rfl, rfl⟩ := hnew
      rw [graft_node_self] at hnode
      cases hnode
      exact Or.inr rfl
    · rw [graft_node_of_ne hnew] at hnode
      exact Or.inl ⟨l', k', hnode⟩
  · intro hor
    rcases hor with ⟨l', k', hnode⟩ | rfl
    · refine ⟨l', k', ?_⟩
      rw [graft_node_of_ne]
      · exact hnode
      · intro hnew
        obtain ⟨rfl, rfl⟩ := hnew
        rw [hempty] at hnode
        cases hnode
    · exact ⟨l + 1, k, graft_node_self⟩

end Graft

/-- Nothing is below a position that is not a table. -/
theorem slot_below_empty (hl : l ≤ D) (hnone : t.node l k = none) (hi : i < B) :
    t.slot l (k * B + i) = .empty := by
  have hup : (k * B + i) / B = k := by
    rw [Nat.mul_comm, Nat.mul_add_div (by omega), Nat.div_eq_of_lt hi, Nat.add_zero]
  rcases hl.lt_or_eq with hlt | rfl
  · rw [slot_node hlt]
    cases hbelow : t.node (l + 1) (k * B + i) with
    | none => rfl
    | some node =>
      obtain ⟨p, hp⟩ := t.node_parent l (k * B + i) (hbelow ▸ Option.some_ne_none node)
      rw [hup, hnone] at hp
      cases hp
  · rw [slot_leaf]
    cases hbelow : t.leaf (k * B + i) with
    | none => rfl
    | some v =>
      obtain ⟨p, hp⟩ := t.leaf_parent (k * B + i) (hbelow ▸ Option.some_ne_none v)
      rw [hup, hnone] at hp
      cases hp

theorem slot_of_node {p : α} (hnode : t.node (l + 1) k = some (.table p)) (hl : l < D) :
    t.slot l k = .table p := by
  rw [slot_node hl, hnode]
  rfl

/-- A slot of a table belongs to one key. -/
theorem key_of_slot {q i : ℕ} (hi : i < B) (hkey : q * B + i = k) : q = k / B ∧ i = k % B := by
  subst hkey
  constructor
  · rw [Nat.mul_comm, Nat.mul_add_div (by omega), Nat.div_eq_of_lt hi, Nat.add_zero]
  · rw [Nat.mul_comm, Nat.mul_add_mod, Nat.mod_eq_of_lt hi]

/-- Linking an empty table in the empty slot of its parent stores the tree with it. -/
theorem stores_graft {read read' : ℕ → α → ℕ → Slot α β ν} {p : α} {hl : l < D}
    {hparent : ∃ p, t.node l (k / B) = some (.table p)} {hempty : t.node (l + 1) k = none}
    {hfresh : ¬ t.IsTable a} (hstores : Stores read t)
    (hp : t.node l (k / B) = some (.table p)) (hlink : read' l p (k % B) = .table a)
    (hnew : ∀ l' i, i < B → read' l' a i = .empty)
    (hsame : ∀ l' b i, t.IsTable b → i < B → ¬ (b = p ∧ i = k % B) →
      read' l' b i = read l' b i) :
    Stores read' (t.graft l k a hl hparent hempty hfresh) := by
  intro l' k' b hnode i hi
  by_cases hself : l' = l + 1 ∧ k' = k
  · obtain ⟨rfl, rfl⟩ := hself
    rw [graft_node_self] at hnode
    cases hnode
    rw [hnew (l + 1) i hi]
    have hbelow := slot_below_empty hl hempty hi
    unfold slot at hbelow ⊢
    rw [graft_node_of_ne (by omega)]
    exact hbelow.symm
  · rw [graft_node_of_ne hself] at hnode
    by_cases hslot : b = p ∧ i = k % B
    · obtain ⟨rfl, rfl⟩ := hslot
      obtain ⟨rfl, rfl⟩ := t.node_inj _ _ _ _ _ hnode hp
      rw [hlink, Nat.div_add_mod', slot_of_node graft_node_self hl]
    · rw [hsame l' b i ⟨l', k', hnode⟩ hi hslot, hstores l' k' b hnode i hi]
      unfold slot
      rw [graft_node_of_ne]
      · rfl
      · rintro ⟨hl', hk'⟩
        obtain rfl : l' = l := by omega
        obtain ⟨rfl, rfl⟩ := key_of_slot hi hk'
        rw [hp] at hnode
        cases hnode
        exact hslot ⟨rfl, rfl⟩

/-! ## Writing a leaf -/

/-- The tree with the leaf `k` written or cleared. -/
def setLeaf (t : Tree B D α β ν) (k : ℕ) (v : Option ν)
    (hparent : ∃ p, t.node D (k / B) = some (.table p)) : Tree B D α β ν where
  root := t.root
  node := t.node
  leaf k' := if k' = k then v else t.leaf k'
  node_root := t.node_root
  node_zero := t.node_zero
  node_parent := t.node_parent
  node_deep := t.node_deep
  leaf_parent k' hleaf := by
    by_cases hk : k' = k
    · rw [hk]
      exact hparent
    · rw [if_neg hk] at hleaf
      exact t.leaf_parent k' hleaf
  node_inj := t.node_inj

section SetLeaf

variable {o : Option ν} {hparent : ∃ p, t.node D (k / B) = some (.table p)}

theorem setLeaf_leaf_self : (t.setLeaf k o hparent).leaf k = o := if_pos rfl

theorem setLeaf_leaf_of_ne {k' : ℕ} (hne : k' ≠ k) :
    (t.setLeaf k o hparent).leaf k' = t.leaf k' := if_neg hne

/-- Writing the slot of a leaf stores the tree with that leaf. -/
theorem stores_setLeaf {read read' : ℕ → α → ℕ → Slot α β ν} {p : α}
    (hstores : Stores read t) (hp : t.node D (k / B) = some (.table p))
    (hwritten : read' D p (k % B) = .ofLeaf o)
    (hsame : ∀ l' b i, t.IsTable b → i < B → ¬ (b = p ∧ i = k % B) →
      read' l' b i = read l' b i) :
    Stores read' (t.setLeaf k o hparent) := by
  intro l' k' b hnode i hi
  have hkept : t.node l' k' = some (.table b) := hnode
  by_cases hslot : b = p ∧ i = k % B
  · obtain ⟨rfl, rfl⟩ := hslot
    obtain ⟨rfl, rfl⟩ := t.node_inj _ _ _ _ _ hkept hp
    rw [hwritten, Nat.div_add_mod', slot_leaf, setLeaf_leaf_self]
  · rw [hsame l' b i ⟨l', k', hkept⟩ hi hslot, hstores l' k' b hkept i hi]
    by_cases hl' : l' < D
    · rw [slot_node hl', slot_node hl']
      rfl
    · obtain rfl : l' = D := by
        by_contra hne
        rw [t.node_deep l' k' (by omega)] at hkept
        cases hkept
      rw [slot_leaf, slot_leaf, setLeaf_leaf_of_ne]
      intro hk'
      obtain ⟨rfl, rfl⟩ := key_of_slot hi hk'
      rw [hp] at hkept
      cases hkept
      exact hslot ⟨rfl, rfl⟩

end SetLeaf

/-! ## The path of a key -/

/-- The key above `k` at the level `l`, for a leaf `k`. -/
def up (B D l k : ℕ) : ℕ := k / B ^ (D + 1 - l)

theorem up_succ (hl : l ≤ D) : up B D (l + 1) k / B = up B D l k := by
  unfold up
  rw [Nat.div_div_eq_div_mul, ← Nat.pow_succ]
  congr 2
  omega

theorem up_last : up B D D k = k / B := by
  unfold up
  rw [Nat.add_sub_cancel_left, Nat.pow_one]

/-- A block is on the path of `k`. -/
def Blocked (t : Tree B D α β ν) (k : ℕ) : Prop := ∃ l b, t.node l (up B D l k) = some (.block b)

theorem parent_on_path {n : Node α β} (hl : l ≤ D)
    (hnode : t.node (l + 1) (up B D (l + 1) k) = some n) :
    ∃ a, t.node l (up B D l k) = some (.table a) := by
  obtain ⟨a, ha⟩ := t.node_parent l _ (hnode ▸ Option.some_ne_none n)
  rw [up_succ hl] at ha
  exact ⟨a, ha⟩

/-- Above a node of the path there are tables. -/
theorem tables_above {n : Node α β} {j : ℕ} (hnode : t.node l (up B D l k) = some n) (hj : j < l) :
    ∃ a, t.node j (up B D j k) = some (.table a) := by
  induction l generalizing n with
  | zero => cases hj
  | succ l ih =>
    have hl : l ≤ D := by
      by_contra hdeep
      rw [t.node_deep (l + 1) _ (by omega)] at hnode
      cases hnode
    obtain ⟨a, ha⟩ := parent_on_path hl hnode
    rcases Nat.lt_succ_iff_lt_or_eq.mp hj with hlt | rfl
    · exact ih ha hlt
    · exact ⟨a, ha⟩

/-- The path of a leaf has all its tables. -/
theorem tables_of_leaf (hleaf : t.leaf k = some v) (hl : l ≤ D) :
    ∃ a, t.node l (up B D l k) = some (.table a) := by
  obtain ⟨a, ha⟩ := t.leaf_parent k (hleaf ▸ Option.some_ne_none v)
  have hlast : t.node D (up B D D k) = some (.table a) := by rw [up_last, ha]
  rcases hl.lt_or_eq with hlt | heq
  · exact tables_above hlast hlt
  · exact ⟨a, by rw [heq, hlast]⟩

/-- A path that ends in an empty slot has no block and no leaf. -/
theorem open_end (htable : t.node l (up B D l k) = some (.table a))
    (hnone : t.node (l + 1) (up B D (l + 1) k) = none) (hl : l < D) :
    ¬ t.Blocked k ∧ t.leaf k = none := by
  constructor
  · intro hblocked
    obtain ⟨j, b, hb⟩ := hblocked
    rcases lt_trichotomy j l with hlt | rfl | hgt
    · obtain ⟨c, hc⟩ := tables_above htable hlt
      rw [hb] at hc
      cases hc
    · rw [hb] at htable
      cases htable
    · rcases Nat.lt_or_ge (l + 1) j with hlt | hge
      · obtain ⟨c, hc⟩ := tables_above hb hlt
        rw [hnone] at hc
        cases hc
      · obtain rfl : j = l + 1 := by omega
        rw [hnone] at hb
        cases hb
  · by_contra hleaf
    obtain ⟨v, hv⟩ := Option.ne_none_iff_exists'.mp hleaf
    obtain ⟨c, hc⟩ := tables_of_leaf hv hl
    rw [hnone] at hc
    cases hc

/-- A path with a table at the last level has no block. -/
theorem not_blocked_of_last (htable : t.node D (up B D D k) = some (.table a)) :
    ¬ t.Blocked k := by
  intro hblocked
  obtain ⟨j, b, hb⟩ := hblocked
  rcases lt_trichotomy j D with hlt | rfl | hgt
  · obtain ⟨c, hc⟩ := tables_above htable hlt
    rw [hb] at hc
    cases hc
  · rw [hb] at htable
    cases htable
  · rw [t.node_deep j _ hgt] at hb
    cases hb

/-- How many tables the path of `k` lacks below the root. -/
def missing (t : Tree B D α β ν) (k : ℕ) : ℕ :=
  ((Finset.range D).filter fun l => t.node (l + 1) (up B D (l + 1) k) = none).card

theorem leaf_of_blocked (hblocked : t.Blocked k) : t.leaf k = none := by
  by_contra hleaf
  obtain ⟨v, hv⟩ := Option.ne_none_iff_exists'.mp hleaf
  obtain ⟨a, ha⟩ := tables_of_leaf hv le_rfl
  exact not_blocked_of_last ha hblocked

theorem missing_pos (hl : l < D) (hnone : t.node (l + 1) (up B D (l + 1) k) = none) :
    0 < t.missing k :=
  Finset.card_pos.mpr ⟨l, Finset.mem_filter.mpr ⟨Finset.mem_range.mpr hl, hnone⟩⟩

theorem missing_eq_zero (htable : t.node D (up B D D k) = some (.table a)) : t.missing k = 0 := by
  unfold missing
  rw [Finset.card_eq_zero, Finset.filter_eq_empty_iff]
  intro l hl hnone
  rcases Nat.lt_or_ge (l + 1) D with hlt | hge
  · obtain ⟨c, hc⟩ := tables_above htable hlt
    rw [hnone] at hc
    cases hc
  · obtain rfl : l + 1 = D := by
      have := Finset.mem_range.mp hl
      omega
    rw [hnone] at htable
    cases htable

/-- A path that ends in an empty slot lacks all the tables below. -/
theorem missing_of_end (htable : t.node l (up B D l k) = some (.table a))
    (hnone : t.node (l + 1) (up B D (l + 1) k) = none) : t.missing k = D - l := by
  have hlacks : (Finset.range D).filter (fun j => t.node (j + 1) (up B D (j + 1) k) = none) =
      Finset.Ico l D := by
    ext j
    rw [Finset.mem_filter, Finset.mem_range, Finset.mem_Ico]
    constructor
    · rintro ⟨hj, hempty⟩
      refine ⟨?_, hj⟩
      by_contra hlt
      rcases Nat.lt_or_ge (j + 1) l with hdeep | hge
      · obtain ⟨c, hc⟩ := tables_above htable hdeep
        rw [hempty] at hc
        cases hc
      · obtain rfl : l = j + 1 := by omega
        rw [hempty] at htable
        cases htable
    · rintro ⟨hle, hj⟩
      refine ⟨hj, ?_⟩
      by_contra hsome
      obtain ⟨n, hn⟩ := Option.ne_none_iff_exists'.mp hsome
      rcases hle.lt_or_eq with hlt | rfl
      · obtain ⟨c, hc⟩ := tables_above hn (Nat.succ_lt_succ hlt)
        rw [hnone] at hc
        cases hc
      · rw [hnone] at hn
        cases hn
  unfold missing
  rw [hlacks, Nat.card_Ico]

/-- The tables `as` are added one below the other on the path of `k`. -/
inductive Grows (k : ℕ) : Tree B D α β ν → List α → Tree B D α β ν → Prop
  | refl (t : Tree B D α β ν) : Grows k t [] t
  | graft {t t' : Tree B D α β ν} {l : ℕ} {a : α} {as : List α} (hl : l < D)
      (hparent : ∃ p, t.node l (up B D (l + 1) k / B) = some (.table p))
      (hempty : t.node (l + 1) (up B D (l + 1) k) = none) (hfresh : ¬ t.IsTable a)
      (hrest : Grows k (t.graft l (up B D (l + 1) k) a hl hparent hempty hfresh) as t') :
      Grows k t (a :: as) t'

namespace Grows

variable {as bs : List α}

theorem trans (h : Grows k t as t') (h' : Grows k t' bs t'') : Grows k t (as ++ bs) t'' := by
  induction h with
  | refl t => exact h'
  | graft hl hparent hempty hfresh _ ih => exact .graft hl hparent hempty hfresh (ih h')

theorem root (h : Grows k t as t') : t'.root = t.root := by
  induction h with
  | refl t => rfl
  | graft _ _ _ _ _ ih => exact ih

theorem leaf (h : Grows k t as t') : t'.leaf = t.leaf := by
  induction h with
  | refl t => rfl
  | graft _ _ _ _ _ ih => exact ih

/-- What is there stays. -/
theorem keeps (h : Grows k t as t') {n : Node α β} {l' k' : ℕ} (hn : t.node l' k' = some n) :
    t'.node l' k' = some n := by
  induction h with
  | refl t => exact hn
  | graft _ _ hempty _ _ ih =>
    apply ih
    rw [graft_node_of_ne, hn]
    intro hnew
    obtain ⟨rfl, rfl⟩ := hnew
    rw [hempty] at hn
    cases hn

/-- What is new is an added table on the path. -/
theorem node_new (h : Grows k t as t') {n : Node α β} {l' k' : ℕ} (hnone : t.node l' k' = none)
    (hn : t'.node l' k' = some n) :
    (∃ a ∈ as, n = .table a) ∧ 0 < l' ∧ l' ≤ D ∧ k' = up B D l' k := by
  induction h with
  | refl t =>
    rw [hnone] at hn
    cases hn
  | @graft t t' l a as hl hparent hempty hfresh hrest ih =>
    by_cases hnew : l' = l + 1 ∧ k' = up B D (l + 1) k
    · obtain ⟨rfl, rfl⟩ := hnew
      have hkept := hrest.keeps graft_node_self
      rw [hkept] at hn
      cases hn
      exact ⟨⟨a, List.mem_cons_self, rfl⟩, Nat.succ_pos l, hl, rfl⟩
    · obtain ⟨⟨b, hb, heq⟩, hpos⟩ := ih (by rw [graft_node_of_ne hnew, hnone]) hn
      exact ⟨⟨b, List.mem_cons_of_mem a hb, heq⟩, hpos⟩

theorem isTable (h : Grows k t as t') : t'.IsTable b ↔ t.IsTable b ∨ b ∈ as := by
  induction h with
  | refl t => simp
  | graft _ _ _ _ _ ih =>
    rw [ih, isTable_graft, List.mem_cons, or_assoc]

/-- The added tables are new, and no two are the same. -/
theorem fresh (h : Grows k t as t') : as.Nodup ∧ ∀ a ∈ as, ¬ t.IsTable a := by
  induction h with
  | refl t => exact ⟨List.nodup_nil, fun a ha => (nomatch ha)⟩
  | @graft t t' l a as hl hparent hempty hfresh _ ih =>
    obtain ⟨hnodup, hnew⟩ := ih
    refine ⟨List.nodup_cons.mpr ⟨fun ha => ?_, hnodup⟩, fun b hb => ?_⟩
    · exact hnew a ha (isTable_graft.mpr (Or.inr rfl))
    · rcases List.mem_cons.mp hb with rfl | hb
      · exact hfresh
      · exact fun hold => hnew b hb (isTable_graft.mpr (Or.inl hold))

theorem blocked (h : Grows k t as t') {q : ℕ} : t'.Blocked q ↔ t.Blocked q := by
  constructor
  · intro hblocked
    obtain ⟨l, b, hb⟩ := hblocked
    cases hold : t.node l (up B D l q) with
    | some n =>
      have hkept := h.keeps hold
      rw [hkept] at hb
      exact ⟨l, b, by rw [hold, hb]⟩
    | none =>
      obtain ⟨⟨a, _, heq⟩, _⟩ := h.node_new hold hb
      cases heq
  · intro hblocked
    obtain ⟨l, b, hb⟩ := hblocked
    exact ⟨l, b, h.keeps hb⟩

/-- Each added table is one that the path lacked. -/
theorem missing (h : Grows k t as t') : t.missing k = t'.missing k + as.length := by
  induction h with
  | refl t => rfl
  | @graft t t' l a as hl hparent hempty hfresh _ ih =>
    rw [List.length_cons, ← Nat.add_assoc, ← ih]
    unfold Tree.missing
    have hmem : l ∈ (Finset.range D).filter fun l' =>
        t.node (l' + 1) (up B D (l' + 1) k) = none :=
      Finset.mem_filter.mpr ⟨Finset.mem_range.mpr hl, hempty⟩
    rw [← Finset.card_erase_add_one hmem]
    congr 2
    ext l'
    rw [Finset.mem_erase, Finset.mem_filter, Finset.mem_filter]
    by_cases hl' : l' = l
    · subst hl'
      rw [graft_node_self]
      simp
    · rw [graft_node_of_ne (by omega)]
      simp [hl']

end Grows

end Tree

end Radix
