import Tyrne.Library.Rate
import Tyrne.Machine

/-!
# Timer conversions

Nanoseconds since boot against the ticks of a counter of known frequency. The products are
taken in 128 bits, where an overflow panics in every build profile, and the results saturate.
-/

namespace Tyrne

variable {σ ε : Type}

/-- `assert!(c, message)`. -/
def assertThat (c : Prop) [Decidable c] (message : String) : Prog σ ε Unit :=
  if c then pure () else .panic (.assertion message)

/-- `u128` multiplication. -/
def mulU128 (a b : BitVec 128) : Prog σ ε (BitVec 128) :=
  if a.toNat * b.toNat < 2 ^ 128 then pure (a * b)
  else .panic (.explicit "attempt to multiply with overflow")

/-- `u128::div_ceil`. -/
def divCeilU128 (a b : BitVec 128) : BitVec 128 := if a % b = 0 then a / b else a / b + 1

def nanosPerSecond : BitVec 64 := 1000000000

/-- `u64::MAX`. -/
def u64Max : BitVec 64 := BitVec.allOnes 64

def ticksToNs (count frequencyHz : BitVec 64) : Prog σ ε (BitVec 64) := do
  assertThat (frequencyHz ≠ 0)
    "ticks_to_ns: frequency_hz must be > 0 (BSP must validate CNTFRQ_EL0 / equivalent at boot)"
  let intermediate ← mulU128 (count.setWidth 128) (nanosPerSecond.setWidth 128)
  let ns := intermediate / frequencyHz.setWidth 128
  pure (if ns > u64Max.setWidth 128 then u64Max else ns.setWidth 64)

def nsToTicks (ns frequencyHz : BitVec 64) : Prog σ ε (BitVec 64) := do
  assertThat (frequencyHz ≠ 0)
    "ns_to_ticks: frequency_hz must be > 0 (BSP must validate CNTFRQ_EL0 / equivalent at boot)"
  let intermediate ← mulU128 (ns.setWidth 128) (frequencyHz.setWidth 128)
  let nanos := nanosPerSecond.setWidth 128
  let ticks := divCeilU128 intermediate nanos
  pure (if ticks > u64Max.setWidth 128 then u64Max else ticks.setWidth 64)

/-! ## The arithmetic in 128 bits -/

theorem toNat_setWidth_u128 (a : BitVec 64) : (a.setWidth 128).toNat = a.toNat := by
  rw [BitVec.toNat_setWidth]
  exact Nat.mod_eq_of_lt (lt_trans a.isLt (by decide))

/-- A product of two 64-bit values fits in 128 bits. -/
theorem mul_lt_u128 (a b : BitVec 64) : a.toNat * b.toNat < 2 ^ 128 := by
  calc a.toNat * b.toNat < 2 ^ 64 * 2 ^ 64 := Nat.mul_lt_mul'' a.isLt b.isLt
    _ = 2 ^ 128 := by rw [← pow_add]

theorem mulU128_eq (a b : BitVec 64) :
    (mulU128 (a.setWidth 128) (b.setWidth 128) : Prog σ ε (BitVec 128)) =
      pure (BitVec.ofNat 128 (a.toNat * b.toNat)) := by
  unfold mulU128
  rw [toNat_setWidth_u128, toNat_setWidth_u128, if_pos (mul_lt_u128 a b)]
  apply congrArg
  apply BitVec.eq_of_toNat_eq
  rw [BitVec.toNat_mul, toNat_setWidth_u128, toNat_setWidth_u128, BitVec.toNat_ofNat]

theorem divCeilU128_toNat {a b : BitVec 128} (hb : 1 < b.toNat) :
    (divCeilU128 a b).toNat = a.toNat ⌈/⌉ b.toNat := by
  have hdiv : a.toNat / b.toNat < 2 ^ 127 := by
    apply Nat.div_lt_of_lt_mul
    have := a.isLt
    calc a.toNat < 2 * 2 ^ 127 := by omega
      _ ≤ b.toNat * 2 ^ 127 := Nat.mul_le_mul_right _ hb
  have hmod : a % b = 0 ↔ a.toNat % b.toNat = 0 := by
    rw [← BitVec.toNat_inj, BitVec.toNat_umod]
    rfl
  rw [Nat.ceilDiv_eq_add_pred_div]
  unfold divCeilU128
  by_cases hz : a.toNat % b.toNat = 0
  · rw [if_pos (hmod.mpr hz), BitVec.toNat_udiv]
    obtain ⟨k, hk⟩ := Nat.dvd_of_mod_eq_zero hz
    rw [hk, Nat.mul_div_cancel_left k (by omega), Nat.add_sub_assoc (by omega),
      Nat.mul_add_div (by omega), Nat.div_eq_of_lt (by omega), add_zero]
  · rw [if_neg (fun h => hz (hmod.mp h)), BitVec.toNat_add, BitVec.toNat_udiv]
    have hsplit : a.toNat + b.toNat - 1 = b.toNat * (a.toNat / b.toNat + 1) +
        (a.toNat % b.toNat - 1) := by
      have := Nat.div_add_mod a.toNat b.toNat
      rw [Nat.mul_add, mul_one]
      omega
    have hlt : a.toNat % b.toNat - 1 < b.toNat := by
      have := Nat.mod_lt a.toNat (Nat.zero_lt_of_lt hb)
      omega
    rw [hsplit, Nat.mul_add_div (by omega), Nat.div_eq_of_lt hlt]
    exact Nat.mod_eq_of_lt (by show a.toNat / b.toNat + 1 < 2 ^ 128; omega)

/-- The saturating cast to 64 bits. -/
theorem saturate_toNat (a : BitVec 128) :
    (if a > u64Max.setWidth 128 then u64Max else a.setWidth 64).toNat =
      min a.toNat (2 ^ 64 - 1) := by
  have hmax : (u64Max.setWidth 128).toNat = 2 ^ 64 - 1 := rfl
  split
  · rename_i hgt
    have hgt : 2 ^ 64 - 1 < a.toNat := hmax ▸ hgt
    exact (min_eq_right hgt.le).symm
  · rename_i hle
    have hle : a.toNat ≤ 2 ^ 64 - 1 := hmax ▸ Nat.le_of_not_lt hle
    rw [min_eq_left hle, BitVec.toNat_setWidth]
    exact Nat.mod_eq_of_lt (by omega)

/-! ## The conversions -/

theorem frequency_pos {f : BitVec 64} (hf : f ≠ 0) : 0 < f.toNat := by
  apply Nat.pos_of_ne_zero
  intro h
  exact hf (BitVec.eq_of_toNat_eq h)

/-- Nanoseconds to ticks of a counter of frequency `f`. -/
def tickRate (f : BitVec 64) (hf : f ≠ 0) : Rate :=
  ⟨f.toNat, nanosPerSecond.toNat, frequency_pos hf, by decide⟩

variable {f : BitVec 64}

/-- The time at a count of ticks, in nanoseconds. -/
def nsOf (f count : BitVec 64) : BitVec 64 :=
  BitVec.ofNat 64 (min (nanosPerSecond.toNat * count.toNat / f.toNat) (2 ^ 64 - 1))

/-- The count of ticks for a time in nanoseconds. -/
def ticksOf (f ns : BitVec 64) : BitVec 64 :=
  BitVec.ofNat 64 (min ((f.toNat * ns.toNat) ⌈/⌉ nanosPerSecond.toNat) (2 ^ 64 - 1))

theorem toNat_ofNat_min (a : ℕ) : (BitVec.ofNat 64 (min a (2 ^ 64 - 1))).toNat =
    min a (2 ^ 64 - 1) := by
  rw [BitVec.toNat_ofNat]
  exact Nat.mod_eq_of_lt (by have := min_le_right a (2 ^ 64 - 1); omega)

theorem nsOf_toNat (hf : f ≠ 0) (count : BitVec 64) :
    (nsOf f count).toNat = (tickRate f hf).downTo (2 ^ 64 - 1) count.toNat :=
  toNat_ofNat_min _

theorem ticksOf_toNat (hf : f ≠ 0) (ns : BitVec 64) :
    (ticksOf f ns).toNat = (tickRate f hf).upTo (2 ^ 64 - 1) ns.toNat :=
  toNat_ofNat_min _

theorem assertThat_pos {c : Prop} [Decidable c] (hc : c) (message : String) :
    (assertThat c message : Prog σ ε Unit) = pure () := if_pos hc

/-- The program is total for a frequency other than zero. -/
theorem ticksToNs_eq (hf : f ≠ 0) (count : BitVec 64) :
    (ticksToNs count f : Prog σ ε (BitVec 64)) = pure (nsOf f count) := by
  unfold ticksToNs
  rw [assertThat_pos hf, mulU128_eq]
  show pure _ = pure _
  apply congrArg
  apply BitVec.eq_of_toNat_eq
  rw [saturate_toNat, BitVec.toNat_udiv, BitVec.toNat_ofNat, Nat.mod_eq_of_lt (mul_lt_u128 _ _),
    toNat_setWidth_u128, mul_comm]
  exact (toNat_ofNat_min _).symm

theorem nsToTicks_eq (hf : f ≠ 0) (ns : BitVec 64) :
    (nsToTicks ns f : Prog σ ε (BitVec 64)) = pure (ticksOf f ns) := by
  unfold nsToTicks
  rw [assertThat_pos hf, mulU128_eq]
  show pure _ = pure _
  apply congrArg
  apply BitVec.eq_of_toNat_eq
  rw [saturate_toNat, divCeilU128_toNat (by decide), BitVec.toNat_ofNat,
    Nat.mod_eq_of_lt (mul_lt_u128 _ _), toNat_setWidth_u128, mul_comm]
  exact (toNat_ofNat_min _).symm

section Adjunction

variable {ns t t' : BitVec 64}

theorem ticksOf_le_iff (hf : f ≠ 0)
    (hfits : (ns.toNat * f.toNat) ⌈/⌉ nanosPerSecond.toNat < 2 ^ 64) :
    ticksOf f ns ≤ t ↔ ns ≤ nsOf f t := by
  have hup : (tickRate f hf).up ns.toNat ≤ 2 ^ 64 - 1 := by
    rw [mul_comm] at hfits
    exact Nat.le_sub_one_of_lt hfits
  have hns : ns.toNat ≤ 2 ^ 64 - 1 := Nat.le_sub_one_of_lt ns.isLt
  rw [BitVec.le_def, BitVec.le_def, ticksOf_toNat hf, nsOf_toNat hf]
  exact (tickRate f hf).upTo_le_iff hns hup

/-- The count for a time is the first one whose time has reached it. -/
theorem ticksOf_isLeast (hf : f ≠ 0)
    (hfits : (ns.toNat * f.toNat) ⌈/⌉ nanosPerSecond.toNat < 2 ^ 64) :
    IsLeast {t | ns ≤ nsOf f t} (ticksOf f ns) := by
  constructor
  · exact (ticksOf_le_iff hf hfits).mp (BitVec.le_refl _)
  · intro t ht
    exact (ticksOf_le_iff hf hfits).mpr ht

theorem ticksOf_mono (hf : f ≠ 0) (hle : t ≤ t') : ticksOf f t ≤ ticksOf f t' := by
  rw [BitVec.le_def, ticksOf_toNat hf, ticksOf_toNat hf]
  exact (tickRate f hf).upTo_mono _ hle

theorem nsOf_mono (hf : f ≠ 0) (hle : t ≤ t') : nsOf f t ≤ nsOf f t' := by
  rw [BitVec.le_def, nsOf_toNat hf, nsOf_toNat hf]
  exact (tickRate f hf).downTo_mono _ hle

end Adjunction

/-- Both conversions are total for a frequency other than zero, saturate and are monotone, and
as long as the exact count fits they are adjoint: a deadline is programmed as the first count
whose reported time has reached it. -/
theorem conversions_adjoint (f : BitVec 64) (hf : f ≠ 0) :
    (∀ ns, (nsToTicks ns f : Prog σ ε (BitVec 64)) = pure (ticksOf f ns)) ∧
      (∀ t, (ticksToNs t f : Prog σ ε (BitVec 64)) = pure (nsOf f t)) ∧
      (∀ ns t, (ns.toNat * f.toNat) ⌈/⌉ nanosPerSecond.toNat < 2 ^ 64 →
        (ticksOf f ns ≤ t ↔ ns ≤ nsOf f t)) ∧
      (∀ ns, (ns.toNat * f.toNat) ⌈/⌉ nanosPerSecond.toNat < 2 ^ 64 →
        IsLeast {t | ns ≤ nsOf f t} (ticksOf f ns)) ∧
      (∀ t t', t ≤ t' → ticksOf f t ≤ ticksOf f t' ∧ nsOf f t ≤ nsOf f t') ∧
      (∀ ns, (ticksOf f ns).toNat =
        min ((ns.toNat * f.toNat) ⌈/⌉ nanosPerSecond.toNat) (2 ^ 64 - 1)) ∧
      (∀ t, (nsOf f t).toNat =
        min (t.toNat * nanosPerSecond.toNat / f.toNat) (2 ^ 64 - 1)) ∧
      (∀ a : BitVec 64, a.toNat * f.toNat < 2 ^ 128 ∧
        a.toNat * nanosPerSecond.toNat < 2 ^ 128) := by
  refine ⟨nsToTicks_eq hf, ticksToNs_eq hf, fun _ _ => ticksOf_le_iff hf,
    fun _ => ticksOf_isLeast hf, fun _ _ hle => ⟨ticksOf_mono hf hle, nsOf_mono hf hle⟩,
    fun ns => ?_, fun t => ?_, fun a => ⟨mul_lt_u128 a f, mul_lt_u128 a nanosPerSecond⟩⟩
  · rw [mul_comm]
    exact toNat_ofNat_min _
  · rw [mul_comm]
    exact toNat_ofNat_min _

/-- At 19.2 MHz one nanosecond is programmed as one tick, which reports 52 nanoseconds. -/
theorem conversions_adjoint_at_19_2_mhz :
    (nsToTicks 1 19200000 : Prog Unit Empty (BitVec 64)) = pure (ticksOf 19200000 1) ∧
      IsLeast {t | 1 ≤ nsOf 19200000 t} (ticksOf 19200000 1) ∧
      ticksOf 19200000 1 = 1 ∧ nsOf 19200000 1 = 52 := by
  obtain ⟨hticks, _, _, hleast, _⟩ :=
    conversions_adjoint (19200000 : BitVec 64) (σ := Unit) (ε := Empty) (by decide)
  exact ⟨hticks 1, hleast 1 (by decide), by decide, by decide⟩

end Tyrne
