import Tyrne.Hal.Hardware
import Tyrne.Hal.Vmsav8

/-!
# The stage 1 translation of the hardware

A walk of four levels with pages of 4 KiB, for 48-bit addresses. A descriptor of level 1 or
2 may end it with a block, and one of level 0 may not. The attributes are those of the last
descriptor, as far as the tables above do not take them away. A table or an output address
from `limit` on, the physical address size, faults.
-/

namespace Tyrne

/-- What a translation allows. -/
structure WalkAttributes where
  /-- The byte of `MAIR_EL1` that the descriptor selects. -/
  memoryType : BitVec 8
  user : Bool
  write : Bool
  kernelExecute : Bool
  userExecute : Bool
  deriving DecidableEq, Repr

structure Translation where
  address : ℕ
  attributes : WalkAttributes
  deriving DecidableEq, Repr

/-- `PXNTable`, `UXNTable` and `APTable`. -/
def descPxnTableBit : BitVec 64 := 1 <<< 59
def descUxnTableBit : BitVec 64 := 1 <<< 60
def descApTableUserBit : BitVec 64 := 1 <<< 61
def descApTableReadOnlyBit : BitVec 64 := 1 <<< 62

/-- The attributes of a leaf `w` below tables whose descriptors have the bits `tables`. -/
def WalkAttributes.of (mair tables w : BitVec 64) : WalkAttributes where
  memoryType := (mair >>> (8 * (w >>> 2 &&& 0x7).toNat)).setWidth 8
  user := w &&& 1 <<< 6 ≠ 0 ∧ tables &&& descApTableUserBit = 0
  write := w &&& 1 <<< 7 = 0 ∧ tables &&& descApTableReadOnlyBit = 0
  kernelExecute := w &&& descPxnBit = 0 ∧ tables &&& descPxnTableBit = 0
  userExecute := w &&& descUxnBit = 0 ∧ tables &&& descUxnTableBit = 0

section Walk

variable (limit : ℕ) (mair : BitVec 64)

/-- The translation that the leaf `w` gives, whose block has `2 ^ size` bytes. -/
def leafTranslationAt (va size : ℕ) (tables w : BitVec 64) : Option Translation :=
  let base := w.toNat % 2 ^ 48 / 2 ^ size * 2 ^ size
  if w &&& descAfBit ≠ 0 ∧ base < limit then
    some ⟨base + va % 2 ^ size, .of mair tables w⟩
  else
    none

/-- The walk of `va` from the table at `a`, with `k` levels below it. -/
def walkTable (m : Memory) (va : ℕ) : ℕ → BitVec 64 → ℕ → Option Translation
  | 0, tables, a =>
    let w := m.readWord (a + 8 * (va / 2 ^ 12 % 512))
    if w &&& descValidBit ≠ 0 ∧ w &&& descTableOrPageBit ≠ 0 then
      leafTranslationAt limit mair va 12 tables w
    else
      none
  | k + 1, tables, a =>
    let size := 12 + 9 * (k + 1)
    let w := m.readWord (a + 8 * (va / 2 ^ size % 512))
    if w &&& descValidBit = 0 then none
    else if w &&& descTableOrPageBit = 0 then
      if k + 1 < 3 then leafTranslationAt limit mair va size tables w else none
    else
      let next := (w &&& tableNlaMask).toNat
      if next < limit then walkTable m va k (tables ||| w) next else none

end Walk

/-- `T0SZ`, `TG0` and `EPD0`: walks through `TTBR0_EL1` are on, for 48-bit addresses in
pages of 4 KiB. -/
def Ttbr0On (tcr : BitVec 64) : Prop :=
  tcr &&& 0x3F = 16 ∧ tcr >>> 14 &&& 0x3 = 0b00 ∧ tcr &&& tcrEl1Epd0Bit = 0

instance (tcr : BitVec 64) : Decidable (Ttbr0On tcr) := inferInstanceAs (Decidable (_ ∧ _))

/-- The same of `TTBR1_EL1`. -/
def Ttbr1On (tcr : BitVec 64) : Prop :=
  tcr >>> 16 &&& 0x3F = 16 ∧ tcr >>> 30 &&& 0x3 = 0b10 ∧ tcr &&& tcrEl1Epd1Bit = 0

instance (tcr : BitVec 64) : Decidable (Ttbr1On tcr) := inferInstanceAs (Decidable (_ ∧ _))

/-- A core with its translation registers, and memory. -/
structure Regime where
  memory : Memory
  mairEl1 : BitVec 64
  tcrEl1 : BitVec 64
  ttbr0El1 : BitVec 64
  ttbr1El1 : BitVec 64
  sctlrEl1 : BitVec 64

namespace Regime

/-- The translation of an address of the low half. -/
def ttbr0Walk (limit : ℕ) (s : Regime) (va : ℕ) : Option Translation :=
  if Ttbr0On s.tcrEl1 then
    walkTable limit s.mairEl1 s.memory va 3 0 (s.ttbr0El1 &&& tableNlaMask).toNat
  else
    none

/-- The translation of an address of the high half. -/
def ttbr1Walk (limit : ℕ) (s : Regime) (va : ℕ) : Option Translation :=
  if Ttbr1On s.tcrEl1 then
    walkTable limit s.mairEl1 s.memory va 3 0 (s.ttbr1El1 &&& tableNlaMask).toNat
  else
    none

end Regime

/-! ## One level -/

section Level

variable {limit : ℕ} {mair tables w : BitVec 64} {m : Memory} {va k size a : ℕ}

/-- A table descriptor hands the walk on, and takes no permission away. -/
theorem walkTable_table {b : ℕ} (hsize : 12 + 9 * (k + 1) = size) (hb : b % pageSize = 0)
    (hwindow : b < 2 ^ 48) (hlimit : b < limit)
    (hread : m.readWord (a + 8 * (va / 2 ^ size % 512)) =
      tableDescriptor (BitVec.ofNat 64 b)) :
    walkTable limit mair m va (k + 1) tables a =
      walkTable limit mair m va k (tables ||| tableDescriptor (BitVec.ofNat 64 b)) b := by
  conv_lhs => unfold walkTable
  dsimp only
  rw [hsize, hread, if_neg (tableDescriptor_valid _), if_neg (tableDescriptor_table _),
    tableDescriptor_address hb hwindow, if_pos hlimit]

/-- An empty descriptor ends the walk. -/
theorem walkTable_empty (hsize : 12 + 9 * (k + 1) = size)
    (hread : m.readWord (a + 8 * (va / 2 ^ size % 512)) = 0) :
    walkTable limit mair m va (k + 1) tables a = none := by
  unfold walkTable
  dsimp only
  rw [hsize, hread]
  exact if_pos (BitVec.zero_and ..)

theorem walkTable_block {pa : ℕ} {flags : MappingFlags} (haligned : pa % 2 ^ 21 = 0)
    (hpa : pa < 2 ^ 48) (hlimit : pa < limit)
    (hread : m.readWord (a + 8 * (va / 2 ^ 21 % 512)) = blockDescriptorOf pa flags) :
    walkTable limit mair m va 1 tables a =
      some ⟨pa + va % 2 ^ 21, .of mair tables (blockDescriptorOf pa flags)⟩ := by
  unfold walkTable leafTranslationAt
  dsimp only
  rw [hread, if_neg blockDescriptorOf_valid, if_pos blockDescriptorOf_block,
    blockDescriptorOf_address haligned hpa]
  rw [if_pos (by decide), if_pos ⟨blockDescriptorOf_af, hlimit⟩]

/-- The bits of a table descriptor that take permissions away. -/
theorem tableDescriptor_hierarchical {mask : BitVec 64}
    (hmask : mask &&& (descValidBit ||| descTableOrPageBit ||| tableNlaMask) = 0#64)
    (htables : tables &&& mask = 0) (w : BitVec 64) :
    (tables ||| tableDescriptor w) &&& mask = 0 := by
  have hbelow : tableDescriptor w &&& (descValidBit ||| descTableOrPageBit ||| tableNlaMask) =
      tableDescriptor w := by
    unfold tableDescriptor
    ext i hi
    simp only [BitVec.getElem_and, BitVec.getElem_or]
    cases descValidBit[i] <;> cases descTableOrPageBit[i] <;> cases w[i] <;>
      cases tableNlaMask[i] <;> rfl
  have hdescriptor : tableDescriptor w &&& mask = 0#64 := by
    rw [← hbelow, BitVec.and_assoc, BitVec.and_comm _ mask, hmask, BitVec.and_zero]
  rw [BitVec.and_comm, BitVec.and_or_distrib_left, BitVec.and_comm mask tables, htables,
    BitVec.and_comm, hdescriptor]
  rfl

/-- Tables that take no permission away. -/
def Permissive (tables : BitVec 64) : Prop :=
  tables &&& descApTableUserBit = 0 ∧ tables &&& descApTableReadOnlyBit = 0 ∧
    tables &&& descPxnTableBit = 0 ∧ tables &&& descUxnTableBit = 0

theorem permissive_zero : Permissive 0 := by
  unfold Permissive
  decide

theorem Permissive.table (h : Permissive tables) (w : BitVec 64) :
    Permissive (tables ||| tableDescriptor w) := by
  obtain ⟨huser, hread, hpxn, huxn⟩ := h
  exact ⟨tableDescriptor_hierarchical (by decide) huser w,
    tableDescriptor_hierarchical (by decide) hread w,
    tableDescriptor_hierarchical (by decide) hpxn w,
    tableDescriptor_hierarchical (by decide) huxn w⟩

/-- Under permissive tables the attributes of a block are those of its flags. -/
theorem Permissive.attributes (h : Permissive tables) (pa : ℕ) (flags : MappingFlags) :
    WalkAttributes.of mair tables (blockDescriptorOf pa flags) =
      .of mair 0 (blockAttributes (flagsToDescriptorBits flags)) := by
  obtain ⟨huser, hread, hpxn, huxn⟩ := h
  have hfields : blockDescriptorOf pa flags &&& ~~~blockOaMaskL2 =
      blockAttributes (flagsToDescriptorBits flags) &&& ~~~blockOaMaskL2 :=
    blockDescriptorOf_fields
  obtain ⟨huser', hread', hpxn', huxn'⟩ := permissive_zero
  unfold WalkAttributes.of
  rw [shift_congr hfields 2 0x7 (by decide) (by decide),
    field_congr hfields (1 <<< 6) (by decide), field_congr hfields (1 <<< 7) (by decide),
    field_congr hfields descPxnBit (by decide), field_congr hfields descUxnBit (by decide),
    huser, hread, hpxn, huxn, huser', hread', hpxn', huxn']

end Level

end Tyrne
