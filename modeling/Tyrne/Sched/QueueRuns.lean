import Tyrne.Library.Fifo
import Tyrne.Sched.Queue

/-!
# The ready queue as a bounded list

Any sequence of calls on a queue of any capacity whose buffer fits in the address space. The
head goes round the buffer as often as it likes: the calls answer as those of a list do, and
none leaves the buffer.
-/

namespace Tyrne.SchedQueue

variable {N : ℕ}

/-- A call of the queue. -/
def exec : Fifo.Op TaskHandle → Prog (SchedQueue N) Empty (Fifo.Reply TaskHandle)
  | .enqueue handle => do
    match ← (enqueue handle).attempt with
    | .ok () => return .enqueued
    | .error handle => return .refused handle
  | .dequeue => do return .dequeued (← dequeue)
  | .len => do return .len (← Prog.get).len
  | .isEmpty => do return .isEmpty (← Prog.get).isEmpty

/-- The cells in use, from the head on. -/
def cellsInUse (q : SchedQueue N) : List (Option TaskHandle) :=
  (List.range q.len).map fun k => q.buf ((q.head + k) % N)

variable {q : SchedQueue N} {l : List TaskHandle}

theorem Represents.cellsInUse_eq (h : q.Represents l) : q.cellsInUse = l.map some := by
  unfold cellsInUse
  rw [h.len_eq]
  apply List.ext_getElem
  · simp
  · intro k hk hk'
    have hlt : k < l.length := by simpa using hk'
    have hcell := h.holds k l[k] (List.getElem?_eq_getElem hlt)
    simpa using hcell

/-- Each call answers as the list. -/
theorem simulates (hfits : 2 * N ≤ 2 ^ 64) :
    Fifo.Simulates N (Represents (N := N)) exec := by
  intro q l op h
  cases op with
  | enqueue handle =>
    unfold Fifo.reply Fifo.next
    by_cases hfull : l.length = N
    · refine ⟨q, ?_, ?_⟩
      · unfold exec
        rw [Prog.bind_ok (Prog.attempt_err (h.enqueue_full hfull handle))]
        dsimp only
        rw [if_pos hfull]
        rfl
      · dsimp only
        rw [if_pos hfull]
        exact h
    · obtain ⟨q', hrun, hq'⟩ := h.enqueue_run (by have := h.fits; omega) hfits handle
      refine ⟨q', ?_, ?_⟩
      · unfold exec
        rw [Prog.bind_ok (Prog.attempt_ok hrun)]
        dsimp only
        rw [if_neg hfull]
        rfl
      · dsimp only
        rw [if_neg hfull]
        exact hq'
  | dequeue =>
    cases l with
    | nil => exact ⟨q, Prog.bind_ok h.dequeue_nil, h⟩
    | cons x l =>
      obtain ⟨q', hrun, hq'⟩ := h.dequeue_cons hfits
      exact ⟨q', Prog.bind_ok hrun, hq'⟩
  | len =>
    refine ⟨q, ?_, h⟩
    show Result.ok (Fifo.Reply.len q.len) q = _
    rw [h.len_eq]
    rfl
  | isEmpty =>
    refine ⟨q, ?_, h⟩
    show Result.ok (Fifo.Reply.isEmpty q.isEmpty) q = _
    have hempty : q.isEmpty = l.isEmpty := by
      rw [Bool.eq_iff_iff, h.isEmpty_iff, List.isEmpty_iff]
    rw [hempty]
    rfl

/-- For every capacity whose buffer, of at least two bytes a cell, fits in the address space
and every sequence of calls on a new queue: all of them return, with the answers of the
bounded list; the buffer read from the head is that list; and a further `enqueue` fails, and
then changes nothing, exactly when the list is full. -/
theorem refines_fifo (hN : 0 < N) (hfits : 2 * N ≤ 2 ^ 64) (ops : List (Fifo.Op TaskHandle)) :
    ∃ q : SchedQueue N, (Fifo.execAll exec ops).run new = .ok (Fifo.replies N [] ops) q ∧
      q.cellsInUse = (Fifo.contents N [] ops).map some ∧ q.head < N ∧ q.len ≤ N ∧
      ∀ handle, ((∃ q', (enqueue handle).run q = .err handle q') ↔
          (Fifo.contents N [] ops).length = N) ∧
        (∀ err q', (enqueue handle).run q = .err err q' → q' = q) := by
  obtain ⟨q, hrun, h⟩ := (simulates hfits).run ops (new_represents hN)
  have hlen : q.len ≤ N := by
    rw [h.len_eq]
    exact h.fits
  refine ⟨q, hrun, h.cellsInUse_eq, h.head_lt, hlen, fun handle => ?_⟩
  by_cases hfull : (Fifo.contents N [] ops).length = N
  · have herr := h.enqueue_full hfull handle
    refine ⟨⟨fun _ => hfull, fun _ => ⟨q, herr⟩⟩, fun err q' hq' => ?_⟩
    rw [herr] at hq'
    cases hq'
    rfl
  · obtain ⟨q₁, hok, -⟩ := h.enqueue_run (Nat.lt_of_le_of_ne h.fits hfull) hfits handle
    refine ⟨⟨fun hfails => ?_, fun heq => absurd heq hfull⟩, fun err q' hq' => ?_⟩
    · obtain ⟨q', hq'⟩ := hfails
      rw [hok] at hq'
      cases hq'
    · rw [hok] at hq'
      cases hq'

/-- A queue of two cells goes round its buffer. -/
theorem refines_fifo_wraps : ∃ q : SchedQueue 2,
    (Fifo.execAll exec [.enqueue ⟨⟨0, 0⟩⟩, .enqueue ⟨⟨1, 0⟩⟩, .enqueue ⟨⟨2, 0⟩⟩, .dequeue,
      .enqueue ⟨⟨2, 0⟩⟩, .len]).run new =
        .ok [.enqueued, .enqueued, .refused ⟨⟨2, 0⟩⟩, .dequeued (some ⟨⟨0, 0⟩⟩), .enqueued,
          .len 2] q ∧
      q.cellsInUse = [some ⟨⟨1, 0⟩⟩, some ⟨⟨2, 0⟩⟩] := by
  obtain ⟨q, hrun, hcells, -⟩ := refines_fifo (N := 2) (by decide) (by decide)
    [.enqueue ⟨⟨0, 0⟩⟩, .enqueue ⟨⟨1, 0⟩⟩, .enqueue ⟨⟨2, 0⟩⟩, .dequeue, .enqueue ⟨⟨2, 0⟩⟩, .len]
  exact ⟨q, hrun, hcells⟩

end Tyrne.SchedQueue
