import Tyrne.Hal.Mmu
import Tyrne.Library.Ring
import Tyrne.Obj.Kinds

/-!
# The ready queue

A bounded FIFO of task handles in a ring buffer. `Represents q l` says that the buffer,
read from its head, is the list `l`; the operations append at the back and remove at the
front of that list.
-/

namespace Tyrne

/-- `struct SchedQueue<N>`; the cells of `buf` are those below `N`. -/
structure SchedQueue (N : ℕ) where
  buf : ℕ → Option TaskHandle
  head : ℕ
  len : ℕ

namespace SchedQueue

variable {N : ℕ} {ε : Type}

def new : SchedQueue N where
  buf _ := none
  head := 0
  len := 0

/-- Push `handle` to the back of the queue; a full queue gives it back. -/
def enqueue (handle : TaskHandle) : Prog (SchedQueue N) TaskHandle Unit := do
  let self ← Prog.get
  if self.len = N then
    Prog.fail handle
  else
    let tail := wrappingAdd self.head self.len % N
    if tail < N then
      Prog.set { self with
        buf := Function.update self.buf tail (some handle)
        len := wrappingAdd self.len 1 }
    else
      Prog.panic .indexOutOfBounds

/-- Pop the front handle from the queue, or `none` if empty. -/
def dequeue : Prog (SchedQueue N) ε (Option TaskHandle) := do
  let self ← Prog.get
  if self.len = 0 then
    return none
  else if self.head < N then
    Prog.set { buf := Function.update self.buf self.head none
               head := wrappingAdd self.head 1 % N
               len := wrappingSub self.len 1 }
    return self.buf self.head
  else
    Prog.panic .indexOutOfBounds

def isEmpty (self : SchedQueue N) : Bool := self.len = 0

/-! ## The list in the buffer -/

/-- The queue, read from its head, is the list `l`. -/
structure Represents (q : SchedQueue N) (l : List TaskHandle) : Prop where
  head_lt : q.head < N
  len_eq : q.len = l.length
  fits : l.length ≤ N
  holds : Ring.Holds N q.buf q.head l

variable {q : SchedQueue N} {l : List TaskHandle} {x : TaskHandle}

theorem Represents.unique {l' : List TaskHandle} (h : q.Represents l) (h' : q.Represents l') :
    l = l' :=
  h.holds.unique h'.holds (h.len_eq.symm.trans h'.len_eq)

theorem new_represents (hN : 0 < N) : (new : SchedQueue N).Represents [] where
  head_lt := hN
  len_eq := rfl
  fits := Nat.zero_le N
  holds := Ring.holds_nil

/-- A full queue refuses the handle and is left as it is. -/
theorem Represents.enqueue_full (h : q.Represents l) (hfull : l.length = N)
    (handle : TaskHandle) : (enqueue handle).run q = .err handle q := by
  have hlen : q.len = N := by rw [h.len_eq, hfull]
  unfold enqueue
  rw [Prog.get_bind_run, if_pos hlen]
  rfl

theorem Represents.enqueue_run (h : q.Represents l) (hroom : l.length < N)
    (hN : 2 * N ≤ 2 ^ 64) (handle : TaskHandle) :
    ∃ q', (enqueue handle).run q = .ok () q' ∧ q'.Represents (l ++ [handle]) := by
  have hhead := h.head_lt
  have hlen := h.len_eq
  have htail : wrappingAdd q.head q.len = q.head + l.length := by
    rw [wrappingAdd_eq (by omega), hlen]
  have hinc : wrappingAdd q.len 1 = l.length + 1 := by
    rw [wrappingAdd_eq (by omega), hlen]
  have hbound : (q.head + l.length) % N < N := Nat.mod_lt _ (by omega)
  unfold enqueue
  rw [Prog.get_bind_run, if_neg (by omega)]
  dsimp only
  rw [htail, hinc, if_pos hbound]
  refine ⟨_, rfl, ⟨hhead, ?_, ?_, h.holds.push hroom⟩⟩
  · simp
  · rw [List.length_append, List.length_singleton]
    omega

theorem Represents.dequeue_nil (h : q.Represents []) :
    (dequeue : Prog _ ε _).run q = .ok none q := by
  have hlen : q.len = 0 := h.len_eq
  unfold dequeue
  rw [Prog.get_bind_run, if_pos hlen]
  rfl

theorem Represents.dequeue_cons (h : q.Represents (x :: l)) (hN : 2 * N ≤ 2 ^ 64) :
    ∃ q', (dequeue : Prog _ ε _).run q = .ok (some x) q' ∧ q'.Represents l := by
  have hhead := h.head_lt
  have hlen : q.len = l.length + 1 := h.len_eq
  have hfits : l.length + 1 ≤ N := h.fits
  have hfront : q.buf q.head = some x := by
    have hcell := h.holds.head
    rwa [Nat.mod_eq_of_lt hhead] at hcell
  have hnext : wrappingAdd q.head 1 = q.head + 1 := wrappingAdd_eq (by omega)
  have hdec : wrappingSub q.len 1 = l.length := by
    rw [wrappingSub_eq (by omega) (by omega), hlen, Nat.add_sub_cancel]
  have hwrap : (q.head + 1) % N < N := Nat.mod_lt _ (by omega)
  have hrest : Ring.Holds N (Function.update q.buf q.head none) (q.head + 1) l := by
    have hskip := h.holds.tail.update_before (by omega) none
    rwa [Nat.mod_eq_of_lt hhead] at hskip
  unfold dequeue
  rw [Prog.get_bind_run, if_neg (by omega), if_pos hhead, Prog.set_bind_run, hnext, hdec]
  exact ⟨_, by rw [hfront]; rfl, ⟨hwrap, rfl, by omega, hrest.wrap⟩⟩

theorem Represents.isEmpty_iff (h : q.Represents l) : q.isEmpty ↔ l = [] := by
  unfold isEmpty
  rw [h.len_eq]
  simp

end SchedQueue

end Tyrne
