import Tyrne.Hal.Mmu

/-!
# Frame providers

A provider hands out frames of the physical memory, and may write to memory while it
does.
-/

namespace Tyrne

/-- `usize::saturating_mul`. -/
def saturatingMul (a b : ℕ) : ℕ := min (a * b) (2 ^ 64 - 1)

theorem saturatingMul_eq {a b : ℕ} (hlt : a * b < 2 ^ 64) : saturatingMul a b = a * b :=
  min_eq_left (Nat.le_sub_one_of_lt hlt)

theorem saturatingMul_le (a b : ℕ) : saturatingMul a b ≤ a * b := min_le_left _ _

theorem saturatingAdd_eq {a b : ℕ} (hlt : a + b < 2 ^ 64) : saturatingAdd a b = a + b :=
  min_eq_left (Nat.le_sub_one_of_lt hlt)

theorem PhysFrame.ext_val {f g : PhysFrame} (h : f.addr.val = g.addr.val) : f = g := by
  obtain ⟨⟨a⟩, ha⟩ := f
  obtain ⟨⟨b⟩, hb⟩ := g
  dsimp only at h
  subst h
  rfl

theorem PhysFrame.fromAligned_eq {a : ℕ} (h : a % pageSize = 0) :
    PhysFrame.fromAligned ⟨a⟩ = some ⟨⟨a⟩, h⟩ :=
  dif_pos h

/-- The address `a` lies in the frame at `base`. -/
def InFrame (base a : ℕ) : Prop := base ≤ a ∧ a < base + pageSize

instance (base a : ℕ) : Decidable (InFrame base a) := inferInstanceAs (Decidable (_ ∧ _))

/-- Two frames do not overlap. -/
theorem not_inFrame_of_ne {a b x : ℕ} (ha : a % pageSize = 0) (hb : b % pageSize = 0) (hne : a ≠ b)
    (hx : InFrame a x) : ¬ InFrame b x := by
  unfold InFrame pageSize at *
  omega

/-- `write_bytes(base, 0, PAGE_SIZE)`. -/
def Memory.zeroFrame (m : Memory) (base : ℕ) : Memory := fun a => if InFrame base a then 0 else m a

def Memory.readBytes (m : Memory) (pa n : ℕ) : List (BitVec 8) :=
  (List.range n).map fun j => m (pa + j)

theorem length_readBytes {m : Memory} (pa n : ℕ) : (m.readBytes pa n).length = n := by
  simp [Memory.readBytes]

theorem getElem_readBytes {m : Memory} {pa n j : ℕ} (hj : j < (m.readBytes pa n).length) :
    (m.readBytes pa n)[j] = m (pa + j) := by
  simp [Memory.readBytes]

def Memory.writeBytes (m : Memory) (pa : ℕ) (bytes : List (BitVec 8)) : Memory :=
  fun a => if pa ≤ a then (bytes[a - pa]?).getD (m a) else m a

/-- A frame provider, and the physical memory. -/
structure Supply (P : Type) where
  frames : P
  memory : Memory

end Tyrne
