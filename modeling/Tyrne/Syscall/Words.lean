import Tyrne.Cap.Handles
import Tyrne.Syscall.Abi

/-!
# Handle words

A handle takes the low 48 bits of its word, and the decoders look at no others. So encoding
and decoding a handle gives it back, but a word is the encoding of the handle it decodes to
only when its upper 16 bits are clear: with any of them set it still names the live capability
of its low bits.
-/

namespace Tyrne

open CapabilityTable

variable {t : CapabilityTable} {h : CapHandle} {w : BitVec 64}

/-! ## Encoding and decoding -/

theorem encodeCapHandle_toNat (h : CapHandle) :
    (encodeCapHandle (some h)).toNat = h.generation.toNat * 2 ^ 16 + h.index.toNat := by
  have hgen := h.generation.isLt
  have hidx := h.index.isLt
  unfold encodeCapHandle
  rw [BitVec.toNat_or, BitVec.toNat_shiftLeft, BitVec.toNat_setWidth, BitVec.toNat_setWidth,
    Nat.mod_eq_of_lt (by omega : h.generation.toNat < 2 ^ 64),
    Nat.mod_eq_of_lt (by omega : h.index.toNat < 2 ^ 64), Nat.shiftLeft_eq,
    Nat.mod_eq_of_lt (by omega), ← Nat.shiftLeft_eq, ← Nat.shiftLeft_add_eq_or_of_lt hidx]

theorem decodeRequired_index (w : BitVec 64) :
    (decodeRequiredCapHandle w).index.toNat = w.toNat % 2 ^ 16 := BitVec.toNat_setWidth 16 w

theorem decodeRequired_generation (w : BitVec 64) :
    (decodeRequiredCapHandle w).generation.toNat = w.toNat / 2 ^ 16 % 2 ^ 32 := by
  unfold decodeRequiredCapHandle
  rw [BitVec.toNat_setWidth, BitVec.toNat_ushiftRight, Nat.shiftRight_eq_div_pow]

/-- The bits from 48 on of a handle's word are clear. -/
theorem encodeCapHandle_lt (h : CapHandle) : (encodeCapHandle (some h)).toNat < 2 ^ 48 := by
  have hgen := h.generation.isLt
  have hidx := h.index.isLt
  rw [encodeCapHandle_toNat]
  omega

theorem encodeCapHandle_ne_null (h : CapHandle) : encodeCapHandle (some h) ≠ nullCapHandle := by
  intro heq
  have hlt := encodeCapHandle_lt h
  rw [heq] at hlt
  exact absurd hlt (by decide)

theorem decodeRequired_encode (h : CapHandle) :
    decodeRequiredCapHandle (encodeCapHandle (some h)) = h := by
  have hidx := h.index.isLt
  have hgen := h.generation.isLt
  have hindex : (decodeRequiredCapHandle (encodeCapHandle (some h))).index = h.index := by
    apply BitVec.eq_of_toNat_eq
    rw [decodeRequired_index, encodeCapHandle_toNat]
    omega
  have hgeneration : (decodeRequiredCapHandle (encodeCapHandle (some h))).generation =
      h.generation := by
    apply BitVec.eq_of_toNat_eq
    rw [decodeRequired_generation, encodeCapHandle_toNat]
    omega
  exact congrArg₂ CapHandle.mk hindex hgeneration

theorem decode_encode (o : Option CapHandle) : decodeCapHandle (encodeCapHandle o) = o := by
  unfold decodeCapHandle
  cases o with
  | none => exact if_pos rfl
  | some h => rw [if_neg (encodeCapHandle_ne_null h), decodeRequired_encode]

/-- A word is the encoding of what it decodes to just when its upper bits are clear. -/
theorem encode_decodeRequired_iff (w : BitVec 64) :
    encodeCapHandle (some (decodeRequiredCapHandle w)) = w ↔ w.toNat < 2 ^ 48 := by
  rw [← BitVec.toNat_inj, encodeCapHandle_toNat, decodeRequired_index, decodeRequired_generation]
  omega

/-- Only the sentinel decodes to no handle. -/
theorem decodeCapHandle_eq_some (hdecode : decodeCapHandle w = some h) :
    decodeRequiredCapHandle w = h := by
  unfold decodeCapHandle at hdecode
  split at hdecode
  · cases hdecode
  · exact Option.some.inj hdecode

/-! ## Canonical words -/

/-- If the word decodes to a handle that resolves, the handle was issued and the word is its
encoding. -/
def Canonical (evs : List TableEvent) (t : CapabilityTable) (w : BitVec 64) : Prop :=
  ∀ h, decodeCapHandle w = some h ∨ decodeRequiredCapHandle w = h →
    (∃ c, (lookup h).run t = .ok c t) → Issued evs h ∧ w = encodeCapHandle (some h)

/-- The slot numbered by bits 0 to 16 is in use, in the generation of bits 16 to 48. -/
def LowBitsLive (t : CapabilityTable) (w : BitVec 64) : Prop :=
  w.toNat % 2 ^ 16 < capTableCapacity ∧ t.Occupied (w.setWidth 16) ∧
    (t.slots (w.setWidth 16)).generation.toNat = w.toNat / 2 ^ 16 % 2 ^ 32

theorem lowBitsLive_iff :
    LowBitsLive t w ↔ ∃ c, (lookup (decodeRequiredCapHandle w)).run t = .ok c t := by
  rw [lookup_ok_iff_occupied, decodeRequired_index, ← BitVec.toNat_inj,
    decodeRequired_generation]
  exact ⟨fun ⟨hbound, hocc, hgen⟩ => ⟨hbound, hgen, hocc⟩,
    fun ⟨hbound, hgen, hocc⟩ => ⟨hbound, hocc, hgen⟩⟩

/-- In every table that operations reach a word is canonical just when its upper 16 bits are
clear or its low 48 bits name nothing live. Encoding and decoding are inverse for every
optional handle, and no handle is encoded as the sentinel. -/
theorem canonical_iff [Build] {evs : List TableEvent} (hrun : TableRun new evs t) :
    (∀ w, Canonical evs t w ↔ w.toNat < 2 ^ 48 ∨ ¬ LowBitsLive t w) ∧
      (∀ o, decodeCapHandle (encodeCapHandle o) = o) ∧
      ∀ h, encodeCapHandle (some h) ≠ encodeCapHandle none := by
  refine ⟨fun w => ?_, decode_encode, encodeCapHandle_ne_null⟩
  constructor
  · intro hcanonical
    by_cases hlive : LowBitsLive t w
    · left
      have henc := (hcanonical _ (Or.inr rfl) (lowBitsLive_iff.mp hlive)).2
      rw [henc]
      exact encodeCapHandle_lt _
    · exact Or.inr hlive
  · intro hcond h hdecode hlive
    have hsame : decodeRequiredCapHandle w = h := hdecode.elim decodeCapHandle_eq_some id
    subst hsame
    refine ⟨issued_of_run hrun hlive, ?_⟩
    rcases hcond with hlow | hdead
    · exact ((encode_decodeRequired_iff w).mpr hlow).symm
    · exact absurd (lowBitsLive_iff.mpr hlive) hdead

/-- With one root in the table the condition holds of its word 0 and fails of 2 ^ 48, which
names the same slot and generation. -/
theorem canonical_iff_root : ∃ (t : CapabilityTable) (evs : List TableEvent) (cap : Capability),
    @TableRun debugBuild new evs t ∧ (lookup ⟨0, 0⟩).run t = .ok cap t ∧
      LowBitsLive t 0 ∧ Canonical evs t 0 ∧
      LowBitsLive t 0x0001000000000000 ∧ ¬ Canonical evs t 0x0001000000000000 := by
  let _ : Build := debugBuild
  let cap : Capability := ⟨⟨0xf⟩, .debugConsole⟩
  let t := new.installed 0 (rootEntry cap)
  have hroot : TableStep new ⟨new, .insertRoot cap, .ok (.handle ⟨0, 0⟩), t⟩ t := ⟨rfl, rfl, rfl⟩
  have hlive : (lookup ⟨0, 0⟩).run t = .ok cap t := rfl
  have hlow : LowBitsLive t 0 := lowBitsLive_iff.mpr ⟨cap, hlive⟩
  have halias : LowBitsLive t 0x0001000000000000 := lowBitsLive_iff.mpr ⟨cap, hlive⟩
  have hiff := (canonical_iff (Run.single hroot)).1
  refine ⟨t, _, cap, Run.single hroot, hlive, hlow, (hiff _).mpr (Or.inl (by decide)), halias, ?_⟩
  intro hcanonical
  exact ((hiff _).mp hcanonical).elim (by decide) (fun hdead => hdead halias)

/-- With one root in the table, the words 0 and 2 ^ 48 both name it. -/
theorem not_canonical_alias : ∃ (t : CapabilityTable) (evs : List TableEvent) (cap : Capability),
    @TableRun debugBuild new evs t ∧
      (lookup ⟨0, 0⟩).run t = .ok cap t ∧
      decodeCapHandle 0x0000000000000000 = some ⟨0, 0⟩ ∧
      decodeCapHandle 0x0001000000000000 = some ⟨0, 0⟩ ∧
      encodeCapHandle (some ⟨0, 0⟩) = 0 ∧ ¬ Canonical evs t 0x0001000000000000 := by
  let _ : Build := debugBuild
  let cap : Capability := ⟨⟨0xf⟩, .debugConsole⟩
  let t := new.installed 0 (rootEntry cap)
  have hroot : TableStep new ⟨new, .insertRoot cap, .ok (.handle ⟨0, 0⟩), t⟩ t := ⟨rfl, rfl, rfl⟩
  have hlive : (lookup ⟨0, 0⟩).run t = .ok cap t := rfl
  refine ⟨t, _, cap, Run.single hroot, hlive, by decide, by decide, by decide, ?_⟩
  intro hcanonical
  have henc := (hcanonical ⟨0, 0⟩ (Or.inl (by decide)) ⟨cap, hlive⟩).2
  exact absurd henc (by decide)

end Tyrne
