import Mathlib.Tactic.Common

/-!
# Rights

The rights bitfield of a capability. `contains` is the only test the table makes: a
new capability's rights must be contained in its source's.
-/

namespace Tyrne

/-- `struct CapRights(u32)`. -/
structure CapRights where
  bits : BitVec 32
  deriving DecidableEq, Repr

namespace CapRights

def empty : CapRights := ⟨0⟩
def duplicate : CapRights := ⟨1 <<< 0⟩
def derive : CapRights := ⟨1 <<< 1⟩
def revoke : CapRights := ⟨1 <<< 2⟩
def transfer : CapRights := ⟨1 <<< 3⟩
def send : CapRights := ⟨1 <<< 4⟩
def recv : CapRights := ⟨1 <<< 5⟩
def notify : CapRights := ⟨1 <<< 6⟩
def consoleWrite : CapRights := ⟨1 <<< 7⟩

/-- Every flag of `other` is set in `self`. -/
def contains (self other : CapRights) : Prop := self.bits &&& other.bits = other.bits

instance (self other : CapRights) : Decidable (self.contains other) :=
  inferInstanceAs (Decidable (_ = _))

def union (self other : CapRights) : CapRights := ⟨self.bits ||| other.bits⟩

variable {r s t : CapRights}

theorem contains_refl (r : CapRights) : r.contains r := BitVec.and_self

theorem contains_trans (hrs : r.contains s) (hst : s.contains t) : r.contains t := by
  unfold contains at *
  rw [← hst, ← BitVec.and_assoc, hrs]

end CapRights

end Tyrne
