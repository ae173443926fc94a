import Mathlib.Data.BitVec
import Mathlib.Data.List.Basic
import Mathlib.Order.Basic
import Mathlib.Tactic.Common

/-!
# An interrupt controller

A controller of the GICv2 kind for one processor: a distributor that enables lines and gives
them priorities and targets, and a processor interface that hands the line of the highest
priority to the processor and keeps it active until the end of the interrupt is signalled.
The lines are level-sensitive; software-generated interrupts have no line. A register access
outside the registers described here has no result.
-/

namespace Gic

/-- Identifiers of lines are below this one. -/
def lineLimit : ℕ := 1020

/-- The identifier that is read when no line is to be handled. -/
def spurious : ℕ := 1023

/-- Lines from this one on are shared; the ones below belong to the processor. -/
def firstShared : ℕ := 32

/-- Identifiers below this one are software-generated. -/
def firstLine : ℕ := 16

structure Device where
  distributor : BitVec 32
  typer : BitVec 32
  enabled : ℕ → Bool
  active : ℕ → Bool
  priority : ℕ → BitVec 8
  targets : ℕ → BitVec 8
  interface : BitVec 32
  mask : BitVec 8

namespace Device

/-- The number of identifiers that the controller has, a multiple of 32. -/
def lineCount (d : Device) : ℕ := 32 * ((d.typer &&& 0x1f).toNat + 1)

def Implements (d : Device) (n : ℕ) : Prop := n < d.lineCount ∧ n < lineLimit

instance (d : Device) (n : ℕ) : Decidable (d.Implements n) := inferInstanceAs (Decidable (_ ∧ _))

/-- Whether bit `n % 32` is set in a word that covers the identifier `n`. -/
def covers (register n : ℕ) (value : BitVec 32) : Bool :=
  n / 32 = register && value.getLsbD (n % 32)

/-- The byte of a word that belongs to the identifier `n`. -/
def byteOf (n : ℕ) (value : BitVec 32) : BitVec 8 := value.extractLsb' (8 * (n % 4)) 8

/-! ## Register accesses -/

def readDistributor (d : Device) (offset : ℕ) : Option (BitVec 32) :=
  if offset = 0x000 then some d.distributor
  else if offset = 0x004 then some d.typer
  else none

def writeDistributor (d : Device) (offset : ℕ) (value : BitVec 32) : Option Device :=
  if offset = 0x000 then some { d with distributor := value }
  else if offset % 4 ≠ 0 then none
  else if 0x100 ≤ offset ∧ offset < 0x180 then
    some { d with
      enabled := fun n =>
        d.enabled n || (covers ((offset - 0x100) / 4) n value && d.Implements n) }
  else if 0x180 ≤ offset ∧ offset < 0x200 then
    some { d with
      enabled := fun n =>
        d.enabled n && !(covers ((offset - 0x180) / 4) n value && d.Implements n) }
  else if 0x400 ≤ offset ∧ offset < 0x800 then
    some { d with
      priority := fun n =>
        if n / 4 = (offset - 0x400) / 4 ∧ d.Implements n then byteOf n value
        else d.priority n }
  else if 0x800 ≤ offset ∧ offset < 0xc00 then
    some { d with
      targets := fun n =>
        -- the targets of the processor's own lines are read-only
        if n / 4 = (offset - 0x800) / 4 ∧ firstShared ≤ n ∧ d.Implements n then byteOf n value
        else d.targets n }
  else none

/-- Whether the processor may be given the line: it is asserted, enabled and not active
already, targets the processor, and has a higher priority than the mask and than every line
being handled. -/
def Candidate (d : Device) (pins : ℕ → Bool) (n : ℕ) : Prop :=
  firstLine ≤ n ∧ d.Implements n ∧ pins n = true ∧ d.enabled n = true ∧
    (firstShared ≤ n → (d.targets n).getLsbD 0 = true) ∧ d.priority n < d.mask ∧
    ∀ m < lineLimit, d.active m = true → d.priority n < d.priority m

instance (d : Device) (pins : ℕ → Bool) (n : ℕ) : Decidable (d.Candidate pins n) :=
  inferInstanceAs (Decidable (_ ∧ _))

/-- Of two lines the one with the higher priority, or else the lower identifier. -/
def better (d : Device) (best : Option ℕ) (n : ℕ) : Option ℕ :=
  match best with
  | none => some n
  | some m => if d.priority n < d.priority m then some n else some m

/-- The line to hand to the processor, if both halves forward. -/
def highest (d : Device) (pins : ℕ → Bool) : Option ℕ :=
  if d.distributor.getLsbD 0 && d.interface.getLsbD 0 then
    ((List.range lineLimit).filter fun n => d.Candidate pins n).foldl d.better none
  else none

/-- A read of the acknowledge register activates the line it returns. -/
def acknowledge (d : Device) (pins : ℕ → Bool) : BitVec 32 × Device :=
  match d.highest pins with
  | some n => (BitVec.ofNat 32 n, { d with active := Function.update d.active n true })
  | none => (BitVec.ofNat 32 spurious, d)

def readInterface (d : Device) (pins : ℕ → Bool) (offset : ℕ) : Option (BitVec 32 × Device) :=
  if offset = 0x000 then some (d.interface, d)
  else if offset = 0x00c then some (d.acknowledge pins)
  else none

def writeInterface (d : Device) (offset : ℕ) (value : BitVec 32) : Option Device :=
  if offset = 0x000 then some { d with interface := value }
  else if offset = 0x004 then some { d with mask := value.setWidth 8 }
  else if offset = 0x010 then
    some { d with active := Function.update d.active (value &&& 0x3ff).toNat false }
  else none

/-- Whether the controller asks for the processor's attention. -/
def signals (d : Device) (pins : ℕ → Bool) : Bool := (d.highest pins).isSome

/-! ## Which line is handed over -/

variable {d : Device} {pins : ℕ → Bool}

theorem foldl_better_mem {l : List ℕ} {best : Option ℕ} {n : ℕ}
    (h : l.foldl d.better best = some n) : n ∈ l ∨ best = some n := by
  induction l generalizing best with
  | nil => exact Or.inr h
  | cons k l ih =>
    rcases ih h with hmem | hbest
    · exact Or.inl (List.mem_cons_of_mem _ hmem)
    · cases best with
      | none =>
        obtain rfl : k = n := by simpa [better] using hbest
        exact Or.inl List.mem_cons_self
      | some m =>
        unfold better at hbest
        dsimp only at hbest
        split at hbest
        · cases hbest
          exact Or.inl List.mem_cons_self
        · exact Or.inr hbest

theorem foldl_better_isSome {l : List ℕ} {best : Option ℕ} (h : best.isSome ∨ l ≠ []) :
    (l.foldl d.better best).isSome := by
  induction l generalizing best with
  | nil =>
    rcases h with h | h
    · exact h
    · exact absurd rfl h
  | cons k l ih =>
    refine ih (Or.inl ?_)
    cases best with
    | none => rfl
    | some m =>
      unfold better
      dsimp only
      split <;> rfl

/-- The line handed over is a candidate. -/
theorem candidate_of_highest {n : ℕ} (h : d.highest pins = some n) : d.Candidate pins n := by
  unfold highest at h
  split at h
  · rcases foldl_better_mem h with hmem | hnone
    · simpa using (List.mem_filter.mp hmem).2
    · cases hnone
  · cases h

/-- There is one exactly when there is a candidate. -/
theorem signals_iff (hdistributor : d.distributor.getLsbD 0 = true)
    (hinterface : d.interface.getLsbD 0 = true) :
    d.signals pins = true ↔ ∃ n, d.Candidate pins n := by
  constructor
  · intro h
    obtain ⟨n, hn⟩ := Option.isSome_iff_exists.mp h
    exact ⟨n, candidate_of_highest hn⟩
  · rintro ⟨n, hn⟩
    unfold signals highest
    rw [hdistributor, hinterface]
    refine foldl_better_isSome (Or.inr fun hnil => ?_)
    have hmem : n ∈ (List.range lineLimit).filter fun n => d.Candidate pins n :=
      List.mem_filter.mpr ⟨List.mem_range.mpr hn.2.1.2, by simpa using hn⟩
    rw [hnil] at hmem
    cases hmem

/-- With a single candidate, that one is handed over. -/
theorem highest_eq_some {n : ℕ} (hdistributor : d.distributor.getLsbD 0 = true)
    (hinterface : d.interface.getLsbD 0 = true) (hn : d.Candidate pins n)
    (hunique : ∀ m, d.Candidate pins m → m = n) : d.highest pins = some n := by
  have hsome := (signals_iff hdistributor hinterface).mpr ⟨n, hn⟩
  obtain ⟨m, hm⟩ := Option.isSome_iff_exists.mp hsome
  rw [hm, hunique m (candidate_of_highest hm)]

theorem highest_eq_none (h : ∀ n, ¬ d.Candidate pins n) : d.highest pins = none := by
  cases hhighest : d.highest pins with
  | none => rfl
  | some n => exact absurd (candidate_of_highest hhighest) (h n)

end Device

end Gic
