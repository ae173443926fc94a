import Tyrne.Library.Prog

/-!
# Bounded first-in first-out queues

The queue is a list of at most `capacity` values, appended to at the back and removed from at
the front. An implementation refines it when every operation answers as the list does and
leaves a state that represents the list after it; then it does so over any sequence of
operations.
-/

namespace Fifo

variable {α σ : Type} {capacity : ℕ} {l : List α} {s : σ}

inductive Op (α : Type)
  | enqueue (x : α)
  | dequeue
  | len
  | isEmpty

inductive Reply (α : Type)
  | enqueued
  /-- The queue is full and gives the value back. -/
  | refused (x : α)
  | dequeued (x : Option α)
  | len (n : ℕ)
  | isEmpty (b : Bool)
  deriving DecidableEq

/-- The answer of the list `l`. -/
def reply (capacity : ℕ) (l : List α) : Op α → Reply α
  | .enqueue x => if l.length = capacity then .refused x else .enqueued
  | .dequeue => .dequeued l.head?
  | .len => .len l.length
  | .isEmpty => .isEmpty l.isEmpty

/-- The list after an operation. -/
def next (capacity : ℕ) (l : List α) : Op α → List α
  | .enqueue x => if l.length = capacity then l else l ++ [x]
  | .dequeue => l.tail
  | .len => l
  | .isEmpty => l

/-- The answers to a sequence of operations. -/
def replies (capacity : ℕ) (l : List α) : List (Op α) → List (Reply α)
  | [] => []
  | op :: ops => reply capacity l op :: replies capacity (next capacity l op) ops

/-- The list after a sequence of operations. -/
def contents (capacity : ℕ) (l : List α) (ops : List (Op α)) : List α :=
  ops.foldl (next capacity) l

/-- The operations of an implementation, one after the other. -/
def execAll {β : Type} (exec : Op α → Prog σ Empty β) : List (Op α) → Prog σ Empty (List β)
  | [] => return []
  | op :: ops => do
    let r ← exec op
    return r :: (← execAll exec ops)

/-- An operation of an implementation answers as the list and represents what follows. -/
def Simulates (capacity : ℕ) (R : σ → List α → Prop) (exec : Op α → Prog σ Empty (Reply α)) :
    Prop :=
  ∀ s l op, R s l → ∃ s', (exec op).run s = .ok (reply capacity l op) s' ∧ R s' (next capacity l op)

/-- So does a sequence of operations. -/
theorem Simulates.run {R : σ → List α → Prop} {exec : Op α → Prog σ Empty (Reply α)}
    (hsim : Simulates capacity R exec) (ops : List (Op α)) (hs : R s l) :
    ∃ s', (execAll exec ops).run s = .ok (replies capacity l ops) s' ∧
      R s' (contents capacity l ops) := by
  induction ops generalizing s l with
  | nil => exact ⟨s, rfl, hs⟩
  | cons op ops ih =>
    obtain ⟨s₁, hone, hs₁⟩ := hsim s l op hs
    obtain ⟨s', hrest, hs'⟩ := ih hs₁
    refine ⟨s', ?_, hs'⟩
    unfold execAll
    rw [Prog.bind_ok hone, Prog.bind_ok hrest]
    rfl

end Fifo
