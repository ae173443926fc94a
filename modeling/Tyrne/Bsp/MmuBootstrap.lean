import Tyrne.Bsp.Tables
import Tyrne.Hal.TableWalk
import Tyrne.Mm.Runs

/-!
# The boot tables

Six table frames, filled before the kernel crosses into the high half: two roots that share
the tables of level 2. Both halves then show the same two ranges of physical memory, the
low half at their own addresses and the high half above `KERNEL_HIGH_HALF_OFFSET`.
-/

namespace Tyrne

def block2Mib : ℕ := 2 * 1024 * 1024

/-- The physical addresses of the frames `__boot_pt_l0` to `__boot_pt_l1_hh`. -/
structure BootTables where
  l0 : ℕ
  l1 : ℕ
  l2Low : ℕ
  l2High : ℕ
  l0Hh : ℕ
  l1Hh : ℕ

namespace BootTables

def frames (t : BootTables) : List ℕ := [t.l0, t.l1, t.l2Low, t.l2High, t.l0Hh, t.l1Hh]

/-- The frames are distinct, aligned, zeroed and below the physical address size. -/
structure WellPlaced (t : BootTables) (limit : ℕ) (m : Memory) : Prop where
  nodup : t.frames.Nodup
  aligned : ∀ a ∈ t.frames, a % pageSize = 0
  below : ∀ a ∈ t.frames, a < limit
  zeroed : ∀ a ∈ t.frames, ∀ x, InFrame a x → m x = 0

end BootTables

section Boot

variable {ε : Type}

/-- `core::ptr::write_volatile(table.add(idx), w)`, at a physical address: the MMU is off,
or maps the frame to itself (`mmuBootstrap_identity`). -/
def writeDescriptor (table idx : ℕ) (w : BitVec 64) : Prog Regime ε Unit :=
  Prog.modify fun s => { s with memory := s.memory.writeWord (table + 8 * idx) w }

/-- The address of the next block, and its index. -/
structure BlockCursor where
  pa : ℕ
  idx : ℕ

/-- One turn of a loop that fills `table` with blocks. -/
def writeBlock (table : ℕ) (bits : DescriptorBits) (cursor : BlockCursor) :
    Prog Regime ε BlockCursor := do
  let entry := blockDescriptor (BitVec.ofNat 64 cursor.pa) bits
  writeDescriptor table cursor.idx entry
  return ⟨cursor.pa + block2Mib, cursor.idx + 1⟩

/-- `while idx < stop`. -/
def writeBlocks (table stop : ℕ) (bits : DescriptorBits) (cursor : BlockCursor) :
    Prog Regime ε BlockCursor :=
  Prog.loop (fun cursor => cursor.idx < stop) (writeBlock table bits) (entriesPerTable + 1) cursor

def deviceFlags : MappingFlags := (MappingFlags.device.union .write).union .global
def ramFlags : MappingFlags := (MappingFlags.write.union .execute).union .global

def mmuBootstrap (t : BootTables) : Prog Regime ε Unit := do
  writeDescriptor t.l0 0 (tableDescriptor (BitVec.ofNat 64 t.l1))
  writeDescriptor t.l1 0 (tableDescriptor (BitVec.ofNat 64 t.l2Low))
  writeDescriptor t.l1 1 (tableDescriptor (BitVec.ofNat 64 t.l2High))
  let _ ← writeBlocks t.l2Low (0x0920_0000 >>> 21) (flagsToDescriptorBits deviceFlags)
    ⟨0x0800_0000, 0x0800_0000 >>> 21⟩
  let _ ← writeBlocks t.l2High (entriesPerTable / 8) (flagsToDescriptorBits ramFlags)
    ⟨0x4000_0000, 0⟩
  Prog.modify fun s => { s with
    mairEl1 := mairEl1Value
    tcrEl1 := tcrEl1Value
    ttbr0El1 := BitVec.ofNat 64 t.l0
    ttbr1El1 := 0 }
  Prog.modify fun s => { s with sctlrEl1 := s.sctlrEl1 ||| sctlrEl1MmuEnableMask }

def highHalfActivate (t : BootTables) : Prog Regime ε Unit := do
  let off := BitVec.ofNat 64 kernelHighHalfOffset
  let vaDev := off + 0x0800_0000
  let vaRam := off + 0x4000_0000
  let l0Idx := (vaRam >>> 39 &&& 0x1FF).toNat
  let l1IdxDev := (vaDev >>> 30 &&& 0x1FF).toNat
  let l1IdxRam := (vaRam >>> 30 &&& 0x1FF).toNat
  writeDescriptor t.l0Hh l0Idx (tableDescriptor (BitVec.ofNat 64 t.l1Hh))
  writeDescriptor t.l1Hh l1IdxDev (tableDescriptor (BitVec.ofNat 64 t.l2Low))
  writeDescriptor t.l1Hh l1IdxRam (tableDescriptor (BitVec.ofNat 64 t.l2High))
  Prog.modify fun s => { s with
    ttbr1El1 := BitVec.ofNat 64 t.l0Hh
    tcrEl1 := tcrEl1ValueHighHalf }

end Boot

/-! ## What the tables hold -/

section Words

variable {ε : Type} {t : BootTables} {m : Memory} {a b i j table stop pa idx : ℕ}
  {w : BitVec 64}

/-- A slot of a table after a slot of a table was written. -/
theorem readWord_writeWord (ha : a % pageSize = 0) (hb : b % pageSize = 0) (hi : i < 512)
    (hj : j < 512) : (m.writeWord (a + 8 * i) w).readWord (b + 8 * j) =
      if b = a ∧ j = i then w else m.readWord (b + 8 * j) := by
  split
  · next hsame =>
    rw [hsame.1, hsame.2, readWord_writeWord_self]
  · next hne => exact readWord_writeWord_slot ha hb hi hj hne

/-- The slots of every table after the blocks from `idx` to `stop` were written. -/
def FillsBlocks (table idx stop pa : ℕ) (flags : MappingFlags) (m m' : Memory) : Prop :=
  ∀ b j, b % pageSize = 0 → j < 512 → m'.readWord (b + 8 * j) =
    if b = table ∧ idx ≤ j ∧ j < stop then blockDescriptorOf (pa + (j - idx) * block2Mib) flags
    else m.readWord (b + 8 * j)

theorem fillsBlocks_start (flags : MappingFlags) : FillsBlocks table idx idx pa flags m m := by
  intro b j _ _
  rw [if_neg (by omega)]

theorem FillsBlocks.step {flags : MappingFlags} {n : ℕ} {m' : Memory}
    (hfills : FillsBlocks table idx (idx + n) pa flags m m') (htable : table % pageSize = 0)
    (hlt : idx + n < 512) :
    FillsBlocks table idx (idx + n + 1) pa flags m (m'.writeWord (table + 8 * (idx + n))
      (blockDescriptorOf (pa + n * block2Mib) flags)) := by
  intro b j hb hj
  rw [readWord_writeWord htable hb hlt hj]
  by_cases hsame : b = table ∧ j = idx + n
  · have hback : j - idx = n := by omega
    rw [if_pos hsame, if_pos ⟨hsame.1, by omega, by omega⟩, hback]
  · rw [if_neg hsame, hfills b j hb hj]
    by_cases hold : b = table ∧ idx ≤ j ∧ j < idx + n
    · rw [if_pos hold, if_pos ⟨hold.1, hold.2.1, by omega⟩]
    · rw [if_neg hold, if_neg (by omega)]

theorem writeBlocks_run (htable : table % pageSize = 0) (hle : idx ≤ stop) (hstop : stop < 512)
    (pa : ℕ) (flags : MappingFlags) (s : Regime) :
    ∃ cursor m', (writeBlocks table stop (flagsToDescriptorBits flags) ⟨pa, idx⟩ :
        Prog Regime ε _).run s = .ok cursor { s with memory := m' } ∧
      FillsBlocks table idx stop pa flags s.memory m' := by
  let I : BlockCursor → Regime → Prop := fun cursor s' => ∃ n m', idx + n ≤ stop ∧
    cursor = ⟨pa + n * block2Mib, idx + n⟩ ∧ s' = { s with memory := m' } ∧
    FillsBlocks table idx (idx + n) pa flags s.memory m'
  have hstep : ∀ cursor s', I cursor s' → cursor.idx < stop →
      ∃ cursor' s'', (writeBlock table (flagsToDescriptorBits flags) cursor :
        Prog Regime ε _).run s' = .ok cursor' s'' ∧ stop - cursor'.idx < stop - cursor.idx ∧
        I cursor' s'' := by
    intro cursor s' hI hlt
    obtain ⟨n, m', hn, rfl, rfl, hfills⟩ := hI
    have hlt : idx + n < stop := hlt
    have hless : stop - (idx + n + 1) < stop - (idx + n) := by omega
    have hnext : pa + n * block2Mib + block2Mib = pa + (n + 1) * block2Mib := by
      rw [Nat.add_one_mul, Nat.add_assoc]
    refine ⟨⟨pa + n * block2Mib + block2Mib, idx + n + 1⟩, _, rfl, hless, n + 1, _, hlt, ?_,
      rfl, hfills.step htable (by omega)⟩
    rw [hnext]
    rfl
  have hstart : I ⟨pa, idx⟩ s := by
    refine ⟨0, s.memory, hle, ?_, rfl, fillsBlocks_start flags⟩
    rw [Nat.zero_mul]
    rfl
  have hfuel : stop - idx < entriesPerTable + 1 := by
    have hentries : entriesPerTable = 512 := rfl
    omega
  obtain ⟨cursor, s', hrun, hI, hend⟩ :=
    Prog.loop_ok (μ := fun cursor : BlockCursor => stop - cursor.idx) hstep hstart hfuel
  obtain ⟨n, m', hn, rfl, rfl, hfills⟩ := hI
  have hend : ¬ idx + n < stop := hend
  have hall : idx + n = stop := by omega
  rw [hall] at hfills
  exact ⟨_, m', hrun, hfills⟩

end Words

/-- The four tables of the low half after `mmuBootstrap`. -/
structure BootTables.PopulatedLow (t : BootTables) (m : Memory) : Prop where
  l0 : ∀ i < 512, m.readWord (t.l0 + 8 * i) =
    if i = 0 then tableDescriptor (BitVec.ofNat 64 t.l1) else 0
  l1 : ∀ i < 512, m.readWord (t.l1 + 8 * i) =
    if i = 1 then tableDescriptor (BitVec.ofNat 64 t.l2High)
    else if i = 0 then tableDescriptor (BitVec.ofNat 64 t.l2Low) else 0
  l2Low : ∀ i < 512, m.readWord (t.l2Low + 8 * i) =
    if 64 ≤ i ∧ i < 73 then blockDescriptorOf (0x0800_0000 + (i - 64) * block2Mib) deviceFlags
    else 0
  l2High : ∀ i < 512, m.readWord (t.l2High + 8 * i) =
    if 0 ≤ i ∧ i < 64 then blockDescriptorOf (0x4000_0000 + (i - 0) * block2Mib) ramFlags else 0

/-- The six tables after both routines. -/
structure BootTables.Populated (t : BootTables) (m : Memory) : Prop extends t.PopulatedLow m where
  l0Hh : ∀ i < 512, m.readWord (t.l0Hh + 8 * i) =
    if i = 511 then tableDescriptor (BitVec.ofNat 64 t.l1Hh) else 0
  l1Hh : ∀ i < 512, m.readWord (t.l1Hh + 8 * i) =
    if i = 509 then tableDescriptor (BitVec.ofNat 64 t.l2High)
    else if i = 508 then tableDescriptor (BitVec.ofNat 64 t.l2Low) else 0

section Boot

variable {ε : Type} {t : BootTables} {limit : ℕ} {s : Regime}

/-- A frame that is all zero has no valid descriptor. -/
theorem BootTables.WellPlaced.empty {m : Memory} (h : t.WellPlaced limit m) {a i : ℕ}
    (ha : a ∈ t.frames) (hi : i < 512) : m.readWord (a + 8 * i) = 0 :=
  readWord_zero fun _ hj => h.zeroed a ha _ (inFrame_slot hi hj)

/-- The slots of every table after `mmuBootstrap`. -/
theorem mmuBootstrap_run (haligned : ∀ a ∈ t.frames, a % pageSize = 0) (s : Regime) :
    ∃ m', (mmuBootstrap t : Prog Regime ε Unit).run s = .ok () { s with
        memory := m'
        mairEl1 := mairEl1Value
        tcrEl1 := tcrEl1Value
        ttbr0El1 := BitVec.ofNat 64 t.l0
        ttbr1El1 := 0
        sctlrEl1 := s.sctlrEl1 ||| sctlrEl1MmuEnableMask } ∧
      ∀ b j, b % pageSize = 0 → j < 512 → m'.readWord (b + 8 * j) =
        if b = t.l2High ∧ 0 ≤ j ∧ j < 64 then
          blockDescriptorOf (0x4000_0000 + (j - 0) * block2Mib) ramFlags
        else if b = t.l2Low ∧ 64 ≤ j ∧ j < 73 then
          blockDescriptorOf (0x0800_0000 + (j - 64) * block2Mib) deviceFlags
        else if b = t.l1 ∧ j = 1 then tableDescriptor (BitVec.ofNat 64 t.l2High)
        else if b = t.l1 ∧ j = 0 then tableDescriptor (BitVec.ofNat 64 t.l2Low)
        else if b = t.l0 ∧ j = 0 then tableDescriptor (BitVec.ofNat 64 t.l1)
        else s.memory.readWord (b + 8 * j) := by
  have hl0 : t.l0 % pageSize = 0 := haligned _ (by simp [BootTables.frames])
  have hl1 : t.l1 % pageSize = 0 := haligned _ (by simp [BootTables.frames])
  have hlow : t.l2Low % pageSize = 0 := haligned _ (by simp [BootTables.frames])
  have hhigh : t.l2High % pageSize = 0 := haligned _ (by simp [BootTables.frames])
  let m₃ : Memory :=
    ((s.memory.writeWord (t.l0 + 8 * 0) (tableDescriptor (BitVec.ofNat 64 t.l1))).writeWord
    (t.l1 + 8 * 0) (tableDescriptor (BitVec.ofNat 64 t.l2Low))).writeWord
    (t.l1 + 8 * 1) (tableDescriptor (BitVec.ofNat 64 t.l2High))
  obtain ⟨c, m₄, hdevice, hfills⟩ := writeBlocks_run (ε := ε) hlow
    (show 64 ≤ 73 by omega) (by omega) 0x0800_0000 deviceFlags { s with memory := m₃ }
  obtain ⟨c', m₅, hram, hfills'⟩ := writeBlocks_run (ε := ε) hhigh
    (show 0 ≤ 64 by omega) (by omega) 0x4000_0000 ramFlags { s with memory := m₄ }
  refine ⟨m₅, ?_, fun b j hb hj => ?_⟩
  · unfold mmuBootstrap writeDescriptor
    rw [Prog.modify_bind_run, Prog.modify_bind_run, Prog.modify_bind_run]
    show (writeBlocks t.l2Low 73 (flagsToDescriptorBits deviceFlags) ⟨0x0800_0000, 64⟩ >>= fun _ =>
      writeBlocks t.l2High 64 (flagsToDescriptorBits ramFlags) ⟨0x4000_0000, 0⟩ >>= fun _ => _).run
        { s with memory := m₃ } = _
    rw [Prog.bind_ok hdevice, Prog.bind_ok hram]
    rfl
  · rw [hfills' b j hb hj, hfills b j hb hj]
    dsimp only [m₃]
    rw [readWord_writeWord hl1 hb (by omega) hj, readWord_writeWord hl1 hb (by omega) hj,
      readWord_writeWord hl0 hb (by omega) hj]

/-- The slots of every table after `highHalfActivate`. -/
theorem highHalfActivate_run (haligned : ∀ a ∈ t.frames, a % pageSize = 0) (s : Regime) :
    ∃ m', (highHalfActivate t : Prog Regime ε Unit).run s = .ok () { s with
        memory := m'
        ttbr1El1 := BitVec.ofNat 64 t.l0Hh
        tcrEl1 := tcrEl1ValueHighHalf } ∧
      ∀ b j, b % pageSize = 0 → j < 512 → m'.readWord (b + 8 * j) =
        if b = t.l1Hh ∧ j = 509 then tableDescriptor (BitVec.ofNat 64 t.l2High)
        else if b = t.l1Hh ∧ j = 508 then tableDescriptor (BitVec.ofNat 64 t.l2Low)
        else if b = t.l0Hh ∧ j = 511 then tableDescriptor (BitVec.ofNat 64 t.l1Hh)
        else s.memory.readWord (b + 8 * j) := by
  have hl0 : t.l0Hh % pageSize = 0 := haligned _ (by simp [BootTables.frames])
  have hl1 : t.l1Hh % pageSize = 0 := haligned _ (by simp [BootTables.frames])
  have hroot : ((BitVec.ofNat 64 kernelHighHalfOffset + 0x4000_0000) >>> 39 &&& 0x1FF).toNat =
      511 := by decide
  have hdevice : ((BitVec.ofNat 64 kernelHighHalfOffset + 0x0800_0000) >>> 30 &&& 0x1FF).toNat =
      508 := by decide
  have hram : ((BitVec.ofNat 64 kernelHighHalfOffset + 0x4000_0000) >>> 30 &&& 0x1FF).toNat =
      509 := by decide
  refine ⟨((s.memory.writeWord (t.l0Hh + 8 * 511)
    (tableDescriptor (BitVec.ofNat 64 t.l1Hh))).writeWord
    (t.l1Hh + 8 * 508) (tableDescriptor (BitVec.ofNat 64 t.l2Low))).writeWord
    (t.l1Hh + 8 * 509) (tableDescriptor (BitVec.ofNat 64 t.l2High)), ?_, fun b j hb hj => ?_⟩
  · unfold highHalfActivate writeDescriptor
    dsimp only
    rw [hroot, hdevice, hram, Prog.modify_bind_run, Prog.modify_bind_run, Prog.modify_bind_run]
    rfl
  · rw [readWord_writeWord hl1 hb (by omega) hj, readWord_writeWord hl1 hb (by omega) hj,
      readWord_writeWord hl0 hb (by omega) hj]

/-- The six frames differ from each other. -/
structure BootTables.Distinct (t : BootTables) : Prop where
  l0 : t.l0 ≠ t.l1 ∧ t.l0 ≠ t.l2Low ∧ t.l0 ≠ t.l2High ∧ t.l0 ≠ t.l0Hh ∧ t.l0 ≠ t.l1Hh
  l1 : t.l1 ≠ t.l2Low ∧ t.l1 ≠ t.l2High ∧ t.l1 ≠ t.l0Hh ∧ t.l1 ≠ t.l1Hh
  l2Low : t.l2Low ≠ t.l2High ∧ t.l2Low ≠ t.l0Hh ∧ t.l2Low ≠ t.l1Hh
  l2High : t.l2High ≠ t.l0Hh ∧ t.l2High ≠ t.l1Hh
  l0Hh : t.l0Hh ≠ t.l1Hh

theorem BootTables.WellPlaced.distinct {m : Memory} (h : t.WellPlaced limit m) : t.Distinct := by
  have hnodup := h.nodup
  unfold BootTables.frames at hnodup
  simp only [List.nodup_cons, List.mem_cons, List.not_mem_nil, not_or, or_false,
    not_false_eq_true, List.nodup_nil, and_true] at hnodup
  obtain ⟨h0, h1, hL, hH, hh⟩ := hnodup
  exact ⟨h0, h1, hL, hH, hh⟩

/-- The first routine returns, and leaves the low half populated and the rest zero. -/
theorem mmuBootstrap_low (h : t.WellPlaced limit s.memory) :
    ∃ s', (mmuBootstrap t : Prog Regime ε Unit).run s = .ok () s' ∧ t.PopulatedLow s'.memory ∧
      (∀ a ∈ [t.l0Hh, t.l1Hh], ∀ i < 512, s'.memory.readWord (a + 8 * i) = 0) ∧
      s'.mairEl1 = mairEl1Value ∧ s'.tcrEl1 = tcrEl1Value ∧
      s'.ttbr0El1 = BitVec.ofNat 64 t.l0 := by
  obtain ⟨m₁, hboot, hwords⟩ := mmuBootstrap_run (ε := ε) h.aligned s
  have hslot : ∀ a ∈ t.frames, ∀ i < 512, m₁.readWord (a + 8 * i) = _ :=
    fun a ha i hi => hwords a i (h.aligned a ha) hi
  have hempty : ∀ a ∈ t.frames, ∀ i < 512, s.memory.readWord (a + 8 * i) = 0 :=
    fun a ha i hi => h.empty ha hi
  obtain ⟨⟨h01, h0L, h0H, h0h, h0k⟩, ⟨h1L, h1H, h1h, h1k⟩, ⟨hLH, hLh, hLk⟩, ⟨hHh, hHk⟩, -⟩ :=
    h.distinct
  unfold BootTables.frames at hslot hempty
  refine ⟨_, hboot, ⟨fun i hi => ?_, fun i hi => ?_, fun i hi => ?_, fun i hi => ?_⟩, ?_, rfl, rfl,
    rfl⟩
  · rw [hslot _ (by simp) i hi, hempty _ (by simp) i hi]
    simp [h01, h0L, h0H]
  · rw [hslot _ (by simp) i hi, hempty _ (by simp) i hi]
    simp [h01.symm, h1L, h1H]
  · rw [hslot _ (by simp) i hi, hempty _ (by simp) i hi]
    simp [h0L.symm, h1L.symm, hLH]
  · rw [hslot _ (by simp) i hi, hempty _ (by simp) i hi]
    simp [h0H.symm, h1H.symm, hLH.symm]
  · intro a ha i hi
    simp only [List.mem_cons, List.not_mem_nil, or_false] at ha
    rcases ha with rfl | rfl
    · rw [hslot _ (by simp) i hi, hempty _ (by simp) i hi]
      simp [h0h.symm, h1h.symm, hLh.symm, hHh.symm]
    · rw [hslot _ (by simp) i hi, hempty _ (by simp) i hi]
      simp [h0k.symm, h1k.symm, hLk.symm, hHk.symm]

/-- Both routines return, and leave the tables populated under both roots. -/
theorem boot_run (h : t.WellPlaced limit s.memory) :
    ∃ s', (mmuBootstrap t >>= fun _ => highHalfActivate t : Prog Regime ε Unit).run s =
        .ok () s' ∧ t.Populated s'.memory ∧ s'.mairEl1 = mairEl1Value ∧
      s'.tcrEl1 = tcrEl1ValueHighHalf ∧ s'.ttbr0El1 = BitVec.ofNat 64 t.l0 ∧
      s'.ttbr1El1 = BitVec.ofNat 64 t.l0Hh := by
  obtain ⟨s₁, hboot, hlow, hzero, hmair, -, httbr0⟩ := mmuBootstrap_low (ε := ε) h
  obtain ⟨m₂, hhigh, hwords⟩ := highHalfActivate_run (ε := ε) h.aligned s₁
  have hslot : ∀ a ∈ t.frames, ∀ i < 512, m₂.readWord (a + 8 * i) = _ :=
    fun a ha i hi => hwords a i (h.aligned a ha) hi
  obtain ⟨⟨-, -, -, h0h, h0k⟩, ⟨-, -, h1h, h1k⟩, ⟨-, hLh, hLk⟩, ⟨hHh, hHk⟩, hhk⟩ := h.distinct
  unfold BootTables.frames at hslot
  refine ⟨_, (Prog.bind_ok hboot).trans hhigh, ⟨⟨fun i hi => ?_, fun i hi => ?_, fun i hi => ?_,
    fun i hi => ?_⟩, fun i hi => ?_, fun i hi => ?_⟩, hmair, rfl, httbr0, rfl⟩
  · rw [hslot _ (by simp) i hi, hlow.l0 i hi]
    simp [h0h, h0k]
  · rw [hslot _ (by simp) i hi, hlow.l1 i hi]
    simp [h1h, h1k]
  · rw [hslot _ (by simp) i hi, hlow.l2Low i hi]
    simp [hLh, hLk]
  · rw [hslot _ (by simp) i hi, hlow.l2High i hi]
    simp [hHh, hHk]
  · rw [hslot _ (by simp) i hi, hzero _ (by simp) i hi]
    simp [hhk]
  · rw [hslot _ (by simp) i hi, hzero _ (by simp) i hi]
    simp [hhk.symm]

/-! ## The direct map -/

def InDevices (pa : ℕ) : Prop := 0x0800_0000 ≤ pa ∧ pa < 0x0920_0000
def InRam (pa : ℕ) : Prop := 0x4000_0000 ≤ pa ∧ pa < 0x4800_0000

instance (pa : ℕ) : Decidable (InDevices pa) := inferInstanceAs (Decidable (_ ∧ _))
instance (pa : ℕ) : Decidable (InRam pa) := inferInstanceAs (Decidable (_ ∧ _))

/-- Device memory, which nobody executes and user code does not reach. -/
def deviceAttributes : WalkAttributes where
  memoryType := 0x00
  user := false
  write := true
  kernelExecute := false
  userExecute := false

/-- Normal memory, for the kernel alone. -/
def ramAttributes : WalkAttributes where
  memoryType := 0xFF
  user := false
  write := true
  kernelExecute := true
  userExecute := false

/-- The two ranges at their own addresses, and nothing else. -/
def bootMap (pa : ℕ) : Option Translation :=
  if InDevices pa then some ⟨pa, deviceAttributes⟩
  else if InRam pa then some ⟨pa, ramAttributes⟩
  else none

theorem bootMap_devices {pa : ℕ} (hin : InDevices pa) :
    bootMap pa = some ⟨pa, deviceAttributes⟩ := if_pos hin

theorem bootMap_ram {pa : ℕ} (hin : InRam pa) : bootMap pa = some ⟨pa, ramAttributes⟩ := by
  have hnot : ¬ InDevices pa := by
    unfold InDevices
    unfold InRam at hin
    omega
  unfold bootMap
  rw [if_neg hnot, if_pos hin]

theorem bootMap_none {pa : ℕ} (hdevices : ¬ InDevices pa) (hram : ¬ InRam pa) :
    bootMap pa = none := by
  unfold bootMap
  rw [if_neg hdevices, if_neg hram]

/-- Both ranges lie in the first two GiB. -/
theorem bootMap_beyond {pa : ℕ} (hpa : 2 ^ 31 ≤ pa) : bootMap pa = none := by
  apply bootMap_none
  · unfold InDevices
    omega
  · unfold InRam
    omega

section Levels

variable {m : Memory} {tables : BitVec 64} {va : ℕ}

theorem deviceAttributes_eq : WalkAttributes.of mairEl1Value 0
    (blockAttributes (flagsToDescriptorBits deviceFlags)) = deviceAttributes := by
  decide +kernel

theorem ramAttributes_eq : WalkAttributes.of mairEl1Value 0
    (blockAttributes (flagsToDescriptorBits ramFlags)) = ramAttributes := by
  decide +kernel

/-- The walk from a table whose slots `lo` to `hi` are the blocks from `base` on. -/
theorem walk_blocks {table base lo hi : ℕ} {flags : MappingFlags}
    (hread : m.readWord (table + 8 * (va / 2 ^ 21 % 512)) =
      if lo ≤ va / 2 ^ 21 % 512 ∧ va / 2 ^ 21 % 512 < hi then
        blockDescriptorOf (base + (va / 2 ^ 21 % 512 - lo) * block2Mib) flags
      else 0)
    (hbase : base % 2 ^ 21 = 0) (hlimit : base + hi * 2 ^ 21 ≤ limit) (hwindow : limit ≤ 2 ^ 48)
    (hperm : Permissive tables) : walkTable limit mair m va 1 tables table =
      if lo ≤ va / 2 ^ 21 % 512 ∧ va / 2 ^ 21 % 512 < hi then
        some ⟨base + (va % 2 ^ 30 - lo * 2 ^ 21),
          .of mair 0 (blockAttributes (flagsToDescriptorBits flags))⟩
      else none := by
  by_cases hin : lo ≤ va / 2 ^ 21 % 512 ∧ va / 2 ^ 21 % 512 < hi
  · rw [if_pos hin] at hread ⊢
    have hblock : (va / 2 ^ 21 % 512 - lo) * block2Mib = (va / 2 ^ 21 % 512 - lo) * 2 ^ 21 := rfl
    rw [hblock] at hread
    rw [walkTable_block (by omega) (by omega) (by omega) hread, hperm.attributes]
    congr 2
    omega
  · rw [if_neg hin] at hread ⊢
    exact walkTable_empty rfl hread

variable (hlimit : 0x4800_0000 ≤ limit) (hwindow : limit ≤ 2 ^ 48)

include hlimit hwindow

/-- The walk of the first GiB from the device table. -/
theorem BootTables.PopulatedLow.walk_l2Low (h : t.PopulatedLow m) (hperm : Permissive tables) :
    walkTable limit mairEl1Value m va 1 tables t.l2Low = bootMap (va % 2 ^ 30) := by
  have hread := h.l2Low (va / 2 ^ 21 % 512) (Nat.mod_lt _ (by omega))
  rw [walk_blocks hread (by decide) (by omega) hwindow hperm, deviceAttributes_eq]
  by_cases hin : InDevices (va % 2 ^ 30)
  · rw [bootMap_devices hin]
    unfold InDevices at hin
    have haddress : 0x0800_0000 + (va % 2 ^ 30 - 64 * 2 ^ 21) = va % 2 ^ 30 := by omega
    rw [if_pos (by omega), haddress]
  · have hram : ¬ InRam (va % 2 ^ 30) := by
      unfold InRam
      omega
    rw [bootMap_none hin hram]
    unfold InDevices at hin
    rw [if_neg (by omega)]

/-- The walk of the second GiB from the RAM table. -/
theorem BootTables.PopulatedLow.walk_l2High (h : t.PopulatedLow m) (hperm : Permissive tables) :
    walkTable limit mairEl1Value m va 1 tables t.l2High = bootMap (2 ^ 30 + va % 2 ^ 30) := by
  have hread := h.l2High (va / 2 ^ 21 % 512) (Nat.mod_lt _ (by omega))
  rw [walk_blocks hread (by decide) (by omega) hwindow hperm, ramAttributes_eq]
  by_cases hin : InRam (2 ^ 30 + va % 2 ^ 30)
  · rw [bootMap_ram hin]
    unfold InRam at hin
    have haddress : 0x4000_0000 + (va % 2 ^ 30 - 0 * 2 ^ 21) = 2 ^ 30 + va % 2 ^ 30 := by omega
    rw [if_pos (by omega), haddress]
  · have hdevices : ¬ InDevices (2 ^ 30 + va % 2 ^ 30) := by
      unfold InDevices
      omega
    rw [bootMap_none hdevices hin]
    unfold InRam at hin
    rw [if_neg (by omega)]

omit hlimit in
/-- A descriptor of one of the six tables hands the walk on. -/
theorem walk_next {k size a b : ℕ} (hsize : 12 + 9 * (k + 1) = size) (hb : b ∈ t.frames)
    (haligned : ∀ a ∈ t.frames, a % pageSize = 0) (hbelow : ∀ a ∈ t.frames, a < limit)
    (hread : m.readWord (a + 8 * (va / 2 ^ size % 512)) = tableDescriptor (BitVec.ofNat 64 b)) :
    walkTable limit mairEl1Value m va (k + 1) tables a =
      walkTable limit mairEl1Value m va k (tables ||| tableDescriptor (BitVec.ofNat 64 b)) b :=
  walkTable_table hsize (haligned b hb) ((hbelow b hb).trans_le hwindow) (hbelow b hb) hread

/-- A root with one entry `r`, to a table whose entries `d` and `d + 1` are the two tables of
level 2. -/
theorem BootTables.PopulatedLow.walk_half (h : t.PopulatedLow m)
    (haligned : ∀ a ∈ t.frames, a % pageSize = 0) (hbelow : ∀ a ∈ t.frames, a < limit)
    {l0 l1 r d : ℕ} (hl1 : l1 ∈ t.frames)
    (hroot : m.readWord (l0 + 8 * (va / 2 ^ 39 % 512)) =
      if va / 2 ^ 39 % 512 = r then tableDescriptor (BitVec.ofNat 64 l1) else 0)
    (hmiddle : m.readWord (l1 + 8 * (va / 2 ^ 30 % 512)) =
      if va / 2 ^ 30 % 512 = d + 1 then tableDescriptor (BitVec.ofNat 64 t.l2High)
      else if va / 2 ^ 30 % 512 = d then tableDescriptor (BitVec.ofNat 64 t.l2Low) else 0) :
    walkTable limit mairEl1Value m va 3 0 l0 =
      if va / 2 ^ 39 % 512 = r then
        if va / 2 ^ 30 % 512 = d + 1 then bootMap (2 ^ 30 + va % 2 ^ 30)
        else if va / 2 ^ 30 % 512 = d then bootMap (va % 2 ^ 30)
        else none
      else none := by
  have hlow : t.l2Low ∈ t.frames := by simp [BootTables.frames]
  have hhigh : t.l2High ∈ t.frames := by simp [BootTables.frames]
  have hperm : ∀ w w', Permissive (0 ||| tableDescriptor w ||| tableDescriptor w') :=
    fun w w' => (permissive_zero.table w).table w'
  by_cases hr : va / 2 ^ 39 % 512 = r
  · rw [if_pos hr] at hroot ⊢
    rw [walk_next (k := 2) hwindow rfl hl1 haligned hbelow hroot]
    by_cases hram : va / 2 ^ 30 % 512 = d + 1
    · rw [if_pos hram] at hmiddle ⊢
      rw [walk_next (k := 1) hwindow rfl hhigh haligned hbelow hmiddle]
      exact h.walk_l2High hlimit hwindow (hperm _ _)
    · rw [if_neg hram] at hmiddle ⊢
      by_cases hdevices : va / 2 ^ 30 % 512 = d
      · rw [if_pos hdevices] at hmiddle ⊢
        rw [walk_next (k := 1) hwindow rfl hlow haligned hbelow hmiddle]
        exact h.walk_l2Low hlimit hwindow (hperm _ _)
      · rw [if_neg hdevices] at hmiddle ⊢
        exact walkTable_empty (k := 1) rfl hmiddle
  · rw [if_neg hr] at hroot ⊢
    exact walkTable_empty (k := 2) rfl hroot

theorem BootTables.PopulatedLow.walk_low (h : t.PopulatedLow m)
    (haligned : ∀ a ∈ t.frames, a % pageSize = 0) (hbelow : ∀ a ∈ t.frames, a < limit)
    (hva : va < 2 ^ 48) : walkTable limit mairEl1Value m va 3 0 t.l0 = bootMap va := by
  have hl1 : t.l1 ∈ t.frames := by simp [BootTables.frames]
  have hroot := h.l0 (va / 2 ^ 39 % 512) (Nat.mod_lt _ (by omega))
  have hmiddle := h.l1 (va / 2 ^ 30 % 512) (Nat.mod_lt _ (by omega))
  rw [h.walk_half (d := 0) hlimit hwindow haligned hbelow hl1 hroot hmiddle]
  by_cases hfirst : va < 2 ^ 30
  · have hself : va % 2 ^ 30 = va := by omega
    rw [if_pos (by omega), if_neg (by omega), if_pos (by omega), hself]
  · by_cases hsecond : va < 2 ^ 31
    · have hself : 2 ^ 30 + va % 2 ^ 30 = va := by omega
      rw [if_pos (by omega), if_pos (by omega), hself]
    · have hnone : bootMap va = none := bootMap_beyond (by omega)
      rw [hnone]
      by_cases hzero : va / 2 ^ 39 % 512 = 0
      · rw [if_pos hzero, if_neg (by omega), if_neg (by omega)]
      · rw [if_neg hzero]

theorem BootTables.Populated.walk_high (h : t.Populated m)
    (haligned : ∀ a ∈ t.frames, a % pageSize = 0) (hbelow : ∀ a ∈ t.frames, a < limit)
    (hva : 0xFFFF_0000_0000_0000 ≤ va) (hlt : va < 2 ^ 64) :
    walkTable limit mairEl1Value m va 3 0 t.l0Hh =
      if kernelHighHalfOffset ≤ va then bootMap (va - kernelHighHalfOffset) else none := by
  have hl1 : t.l1Hh ∈ t.frames := by simp [BootTables.frames]
  have hroot := h.l0Hh (va / 2 ^ 39 % 512) (Nat.mod_lt _ (by omega))
  have hmiddle := h.l1Hh (va / 2 ^ 30 % 512) (Nat.mod_lt _ (by omega))
  rw [h.toPopulatedLow.walk_half (d := 508) hlimit hwindow haligned hbelow hl1 hroot hmiddle]
  unfold kernelHighHalfOffset
  by_cases hwindow : 0xFFFF_FFFF_0000_0000 ≤ va
  · rw [if_pos (by omega), if_pos hwindow]
    by_cases hfirst : va < 0xFFFF_FFFF_0000_0000 + 2 ^ 30
    · have hself : va % 2 ^ 30 = va - 0xFFFF_FFFF_0000_0000 := by omega
      rw [if_neg (by omega), if_pos (by omega), hself]
    · by_cases hsecond : va < 0xFFFF_FFFF_0000_0000 + 2 ^ 31
      · have hself : 2 ^ 30 + va % 2 ^ 30 = va - 0xFFFF_FFFF_0000_0000 := by omega
        rw [if_pos (by omega), hself]
      · have hnone : bootMap (va - 0xFFFF_FFFF_0000_0000) = none := bootMap_beyond (by omega)
        rw [if_neg (by omega), if_neg (by omega), hnone]
  · rw [if_neg hwindow]
    by_cases hlast : va / 2 ^ 39 % 512 = 511
    · rw [if_pos hlast, if_neg (by omega), if_neg (by omega)]
    · rw [if_neg hlast]

end Levels

/-- The extent of the memory manager of the board. -/
def pmmExtent : PhysFrameRange := ⟨⟨0x4000_0000⟩, ⟨0x4800_0000⟩⟩

/-- A frame that the memory manager hands out lies in its extent. -/
theorem frame_inRam [Build] {N R : ℕ} {reserved : List PhysFrameRange} {pmm : Pmm N R}
    {m : Memory} {evs : List (PmmEvent N R)} {s' : Supply (Pmm N R)}
    (hnew : (Pmm.new pmmExtent reserved : Prog Unit PmmError (Pmm N R)).run () = .ok pmm ())
    (hrun : Run PmmStep ⟨pmm, m⟩ evs s') {ev : PmmEvent N R} (hev : ev ∈ evs) {f : PhysFrame}
    (hop : ev.op = .alloc) (hreply : ev.reply = .ok (.frame (some f))) {off : ℕ}
    (hoff : off < pageSize) : InRam (f.asUsize + off) := by
  have hstop : pmmExtent.stop.val < 2 ^ 64 := by decide
  have haligned : pmmExtent.IsAligned := by decide
  rcases new_builds (N := N) (R := R) pmmExtent reserved hstop () with ⟨err, herr⟩ |
    ⟨pmm', hok, haccepts, hmodels₀, _⟩
  · rw [herr] at hnew
    cases hnew
  · obtain rfl : pmm' = pmm := (Result.ok.inj (hok.symm.trans hnew)).1
    have hfresh : Models pmmExtent reserved (⟨pmm', m⟩ : Supply (Pmm N R)).frames
        (freshAllocator pmmExtent reserved) := hmodels₀
    obtain ⟨s₁, s₂, past, rest, hpast, hstep, -⟩ := hrun.exists_step hev
    obtain ⟨A, -, hmodels, -⟩ := simulates_of_run hfresh haccepts hstop hpast
    have heffect := PmmEffect.of_step hmodels haccepts hstop hstep
    rw [hop, hreply] at heffect
    cases heffect with
    | allocated husable =>
      rw [hmodels.usable, mem_usableFrames, PhysFrameRange.mem_frames haligned] at husable
      obtain ⟨⟨hin, hframe⟩, -⟩ := husable
      unfold PhysFrameRange.Contains pmmExtent at hin
      unfold InRam PhysFrame.asUsize
      unfold pageSize at hframe hoff
      dsimp only at hin
      omega

/-- An address of RAM is reached through the direct map, and found back from there. -/
theorem directMap_ram {ε' : Type} {s' : Regime} {pa : ℕ} (hram : InRam pa)
    (hhigh : ∀ va, 0xFFFF_0000_0000_0000 ≤ va → va < 2 ^ 64 → s'.ttbr1Walk limit va =
      if kernelHighHalfOffset ≤ va then bootMap (va - kernelHighHalfOffset) else none) :
    (physToKernelVa pa : Prog Regime ε' ℕ) = pure (kernelHighHalfOffset + pa) ∧
      s'.ttbr1Walk limit (kernelHighHalfOffset + pa) = some ⟨pa, ramAttributes⟩ ∧
      (kernelVaToPhys (kernelHighHalfOffset + pa) : Prog Regime ε' ℕ) = pure pa := by
  have hbounds := hram
  unfold InRam at hbounds
  have hpa : pa < directMapEnd := by
    unfold directMapEnd
    omega
  have hsum : wrappingAdd kernelHighHalfOffset pa = kernelHighHalfOffset + pa := by
    apply wrappingAdd_eq
    unfold kernelHighHalfOffset
    omega
  have hback : physOf (kernelHighHalfOffset + pa) = pa := by
    rw [← hsum]
    exact physOf_directMap hpa
  refine ⟨?_, ?_, ?_⟩
  · rw [← hsum]
    exact physToKernelVa_pos hpa
  · rw [hhigh _ (by unfold kernelHighHalfOffset; omega) (by unfold kernelHighHalfOffset; omega),
      if_pos (Nat.le_add_right _ _), Nat.add_sub_cancel_left, bootMap_ram hram]
  · rw [kernelVaToPhys_pos (hback.symm ▸ hpa), hback]

/-- After both routines the low half shows the device and the RAM range at their own
addresses and nothing else, the high half shows them above the offset and nothing else,
with the same attributes. So the kernel reaches every frame that the memory manager hands
out through the direct map, and finds its address back from there. -/
theorem boot_tables_direct_map [Build] (t : BootTables) (s : Regime)
    (hlimit : 0x4800_0000 ≤ limit) (hwindow : limit ≤ 2 ^ 48)
    (hplaced : t.WellPlaced limit s.memory) :
    ∃ s', (mmuBootstrap t >>= fun _ => highHalfActivate t : Prog Regime ε Unit).run s =
        .ok () s' ∧
      (∀ va < 2 ^ 48, s'.ttbr0Walk limit va = bootMap va) ∧
      (∀ va, 0xFFFF_0000_0000_0000 ≤ va → va < 2 ^ 64 → s'.ttbr1Walk limit va =
        if kernelHighHalfOffset ≤ va then bootMap (va - kernelHighHalfOffset) else none) ∧
      ∀ {N R : ℕ} (reserved : List PhysFrameRange) (pmm : Pmm N R) (m : Memory)
        (evs : List (PmmEvent N R)) (s'' : Supply (Pmm N R)),
        (Pmm.new pmmExtent reserved : Prog Unit PmmError (Pmm N R)).run () = .ok pmm () →
        Run PmmStep ⟨pmm, m⟩ evs s'' →
        ∀ ev ∈ evs, ∀ f, ev.op = .alloc → ev.reply = .ok (.frame (some f)) →
          ∀ off < pageSize, ∃ va,
            (physToKernelVa (f.asUsize + off) : Prog Regime ε ℕ) = pure va ∧
            s'.ttbr1Walk limit va = some ⟨f.asUsize + off, ramAttributes⟩ ∧
            (kernelVaToPhys va : Prog Regime ε ℕ) = pure (f.asUsize + off) := by
  obtain ⟨s', hrun, hpopulated, hmair, htcr, hlow, hhigh⟩ := boot_run (ε := ε) hplaced
  obtain ⟨-, haligned, hbelow, -⟩ := hplaced
  have hon : Ttbr0On tcrEl1ValueHighHalf := by decide
  have hon' : Ttbr1On tcrEl1ValueHighHalf := by decide
  have hl0 : t.l0 ∈ t.frames := by simp [BootTables.frames]
  have hl0' : t.l0Hh ∈ t.frames := by simp [BootTables.frames]
  have hroot : ∀ a ∈ t.frames, (BitVec.ofNat 64 a &&& tableNlaMask).toNat = a := fun a ha =>
    and_pageOaMaskL3_of_aligned (haligned a ha) ((hbelow a ha).trans_le hwindow)
  have hhigh : ∀ va, 0xFFFF_0000_0000_0000 ≤ va → va < 2 ^ 64 → s'.ttbr1Walk limit va =
      if kernelHighHalfOffset ≤ va then bootMap (va - kernelHighHalfOffset) else none := by
    intro va hva hlt
    unfold Regime.ttbr1Walk
    rw [htcr, if_pos hon', hmair, hhigh, hroot _ hl0']
    exact hpopulated.walk_high hlimit hwindow haligned hbelow hva hlt
  refine ⟨s', hrun, fun va hva => ?_, hhigh, ?_⟩
  · unfold Regime.ttbr0Walk
    rw [htcr, if_pos hon, hmair, hlow, hroot _ hl0]
    exact hpopulated.walk_low hlimit hwindow haligned hbelow hva
  · intro N R reserved pmm m evs s'' hnew hrun' ev hev f hop hreply off hoff
    exact ⟨_, directMap_ram (frame_inRam hnew hrun' hev hop hreply hoff) hhigh⟩

/-- Between the two routines the frames of the tables, if they are RAM, are mapped to themselves,
so that `highHalfActivate` writes where it says. -/
theorem mmuBootstrap_identity {ε : Type} {t : BootTables} {s : Regime} {limit : ℕ}
    (hlimit : 0x4800_0000 ≤ limit) (hwindow : limit ≤ 2 ^ 48)
    (hplaced : t.WellPlaced limit s.memory) (hram : ∀ a ∈ t.frames, InRam a) :
    ∃ s', (mmuBootstrap t : Prog Regime ε Unit).run s = .ok () s' ∧
      ∀ a ∈ t.frames, ∀ b, InFrame a b → s'.ttbr0Walk limit b = some ⟨b, ramAttributes⟩ := by
  obtain ⟨s', hrun, hpopulated, -, hmair, htcr, httbr0⟩ := mmuBootstrap_low (ε := ε) hplaced
  obtain ⟨-, haligned, hbelow, -⟩ := hplaced
  have hl0 : t.l0 ∈ t.frames := by simp [BootTables.frames]
  have hroot : (BitVec.ofNat 64 t.l0 &&& tableNlaMask).toNat = t.l0 :=
    and_pageOaMaskL3_of_aligned (haligned _ hl0) ((hbelow _ hl0).trans_le hwindow)
  have hon : Ttbr0On tcrEl1Value := by decide
  refine ⟨s', hrun, fun a ha b hb => ?_⟩
  have hin : InRam b := by
    have hpage := haligned a ha
    have ha := hram a ha
    unfold InRam InFrame pageSize at *
    omega
  have hva : b < 2 ^ 48 := by
    unfold InRam at hin
    omega
  unfold Regime.ttbr0Walk
  rw [htcr, if_pos hon, hmair, httbr0, hroot,
    hpopulated.walk_low hlimit hwindow haligned hbelow hva, bootMap_ram hin]

/-- Six frames of RAM, all zero. -/
def sixTables : BootTables where
  l0 := 0x4010_0000
  l1 := 0x4010_1000
  l2Low := 0x4010_2000
  l2High := 0x4010_3000
  l0Hh := 0x4010_4000
  l1Hh := 0x4010_5000

theorem boot_tables_direct_map_sixTables : let _ : Build := debugBuild
    ∃ s' : Regime, (mmuBootstrap sixTables >>= fun _ => highHalfActivate sixTables :
        Prog Regime Empty Unit).run ⟨fun _ => 0, 0, 0, 0, 0, 0⟩ = .ok () s' ∧
      s'.ttbr0Walk (2 ^ 48) 0x0900_0018 = some ⟨0x0900_0018, deviceAttributes⟩ ∧
      s'.ttbr0Walk (2 ^ 48) 0x0920_0000 = none ∧
      s'.ttbr1Walk (2 ^ 48) 0xFFFF_FFFF_47FF_FFFF = some ⟨0x47FF_FFFF, ramAttributes⟩ := by
  intro _
  have hplaced : sixTables.WellPlaced (2 ^ 48) fun _ => 0 :=
    ⟨by decide, by decide, by decide, fun _ _ _ _ => rfl⟩
  obtain ⟨s', hrun, hlow, hhigh, -⟩ := boot_tables_direct_map (ε := Empty) sixTables
    ⟨fun _ => 0, 0, 0, 0, 0, 0⟩ (by omega) le_rfl hplaced
  refine ⟨s', hrun, ?_, ?_, ?_⟩
  · rw [hlow _ (by omega)]
    rfl
  · rw [hlow _ (by omega)]
    rfl
  · rw [hhigh _ (by omega) (by omega)]
    rfl

end Boot

end Tyrne
