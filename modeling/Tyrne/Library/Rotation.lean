import Tyrne.Library.Run

/-!
# A desk with a waiting line

One is served at a time. Whoever comes joins at the back of the line, the head of the line
is called next, and a stand-in is called when nobody waits; nobody is called twice in a
row. The label of a step is who was called, if anybody.

So the line is called in its order: whoever is at position `i` is the `i + 1`-th to be
called, whatever the ones before do and whoever joins in the meantime.
-/

namespace Rotation

variable {α : Type*}

structure Desk (α : Type*) where
  line : List α
  served : Option α
  standIn : Option α

inductive Step : Desk α → Option α → Desk α → Prop
  /-- Nobody is called; some join, and the stand-in may be appointed. -/
  | joins {line joined : List α} {served standIn standIn' : Option α} :
      Step ⟨line, served, standIn⟩ none ⟨line ++ joined, served, standIn'⟩
  /-- The head of the line is called, after some have joined. -/
  | calls {line joined rest : List α} {served standIn : Option α} {n : α} :
      line ++ joined = n :: rest → served ≠ some n → standIn ≠ some n →
      Step ⟨line, served, standIn⟩ (some n) ⟨rest, some n, standIn⟩
  | standsIn {served standIn : Option α} {n : α} : standIn = some n → served ≠ some n →
      Step ⟨[], served, standIn⟩ (some n) ⟨[], some n, standIn⟩

/-- Who was called, in order. -/
def called (es : List (Option α)) : List α := es.reduceOption

variable {s s' : Desk α} {e : Option α} {es : List (Option α)} {line joined : List α}
  {served standIn : Option α} {a n : α} {i : ℕ}

@[simp] theorem called_some : called (some n :: es) = n :: called es := rfl

/-- Who joins at the start of a step joins in it. -/
theorem Step.after_joins (h : Step ⟨line ++ joined, served, standIn⟩ e s') :
    Step ⟨line, served, standIn⟩ e s' := by
  generalize hs : (⟨line ++ joined, served, standIn⟩ : Desk α) = s at h
  cases h with
  | joins =>
    cases hs
    rw [List.append_assoc]
    exact .joins
  | calls hline hserved hstand =>
    cases hs
    rw [List.append_assoc] at hline
    exact .calls hline hserved hstand
  | standsIn hstand hserved =>
    obtain ⟨hnil, rfl, rfl⟩ := Desk.mk.inj hs
    obtain ⟨rfl, -⟩ := List.append_eq_nil_iff.mp hnil
    exact .standsIn hstand hserved

/-- The label says whether somebody else is served now, and who. -/
theorem Step.served_iff (h : Step s e s') :
    (e = none → s'.served = s.served) ∧
      ∀ n, e = some n → s'.served = some n ∧ s.served ≠ some n := by
  cases h with
  | joins => exact ⟨fun _ => rfl, fun _ hcon => (nomatch hcon)⟩
  | calls _ hserved _ =>
    refine ⟨fun hcon => (nomatch hcon), fun m hm => ?_⟩
    cases hm
    exact ⟨rfl, hserved⟩
  | standsIn _ hserved =>
    refine ⟨fun hcon => (nomatch hcon), fun m hm => ?_⟩
    cases hm
    exact ⟨rfl, hserved⟩

/-- The stand-in is called only when nobody waits. -/
theorem Step.standIn_last (h : Step s (some n) s') (hstand : s.standIn = some n) :
    s.line = [] ∧ s'.line = [] := by
  cases h with
  | calls _ _ hne => exact absurd hstand hne
  | standsIn => exact ⟨rfl, rfl⟩

/-- Whoever waits at position `i` moves up one position with each call, and is the one that
the call number `i` calls. -/
theorem position_of_run (h : Run Step s es s') (hi : s.line[i]? = some a) :
    ((called es).length ≤ i → s'.line[i - (called es).length]? = some a) ∧
      (i < (called es).length → (called es)[i]? = some a) := by
  induction h generalizing i with
  | nil s => exact ⟨fun _ => hi, fun hcon => absurd hcon (Nat.not_lt_zero i)⟩
  | cons hstep _ ih =>
    cases hstep with
    | @joins waiting joined =>
      have hi : waiting[i]? = some a := hi
      have hlt : i < waiting.length := (List.getElem?_eq_some_iff.mp hi).1
      apply ih
      show (waiting ++ joined)[i]? = some a
      rwa [List.getElem?_append_left hlt]
    | @calls waiting joined rest _ _ n hline =>
      have hi : waiting[i]? = some a := hi
      have hlt : i < waiting.length := (List.getElem?_eq_some_iff.mp hi).1
      have hi : (n :: rest)[i]? = some a := by
        rw [← hline, List.getElem?_append_left hlt]
        exact hi
      rw [called_some, List.length_cons]
      cases i with
      | zero => exact ⟨fun hcon => absurd hcon (Nat.not_succ_le_zero _), fun _ => hi⟩
      | succ i =>
        obtain ⟨hwaits, hcalled⟩ := ih hi
        rw [Nat.add_sub_add_right]
        exact ⟨fun hle => hwaits (Nat.le_of_succ_le_succ hle),
          fun hlt => hcalled (Nat.lt_of_succ_lt_succ hlt)⟩
    | standsIn => exact nomatch hi

/-- Nobody who did not wait at the start is called before somebody who did. -/
theorem no_overtaking (h : Run Step s es s') (hi : s.line[i]? = some a) (hnew : n ∉ s.line)
    {j : ℕ} (hj : (called es)[j]? = some n) : i < j := by
  by_contra hnot
  have hlt : j < s.line.length :=
    Nat.lt_of_le_of_lt (Nat.le_of_not_lt hnot) (List.getElem?_eq_some_iff.mp hi).1
  have hcall : j < (called es).length := (List.getElem?_eq_some_iff.mp hj).1
  have hahead := (position_of_run h (List.getElem?_eq_getElem hlt)).2 hcall
  have hsame : n = s.line[j] := Option.some.inj (hj.symm.trans hahead)
  exact hnew (hsame ▸ List.getElem_mem hlt)

end Rotation
