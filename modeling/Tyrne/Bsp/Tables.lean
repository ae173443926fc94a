import Tyrne.Bsp.Mmu
import Tyrne.Library.Radix

/-!
# Page tables in memory

The descriptors of an address space store a radix tree of four levels: its tables are
frames of the direct map, its leaves are the page descriptors. `Holds m t` says that the
memory `m` stores `t`, and `Owns src s t` that a provider offers none of its tables.

One level of the walk reads one slot of a table of the tree.
-/

namespace Tyrne

open Radix

/-- The page tables of an address space: tables by their addresses, blocks and leaves by
their descriptors. -/
abbrev PageTree := Tree 512 3 ℕ (BitVec 64) (BitVec 64)

/-- What a descriptor in a table of level `l` says. -/
def decode (l : ℕ) (w : BitVec 64) : Slot ℕ (BitVec 64) (BitVec 64) :=
  if w &&& descValidBit = 0 then .empty
  else if l < 3 then
    if w &&& descTableOrPageBit = 0 then .block w else .table (w &&& tableNlaMask).toNat
  else .leaf w

/-- The entry `i` of the table at `a`. -/
def entry (m : Memory) (l a i : ℕ) : Slot ℕ (BitVec 64) (BitVec 64) :=
  decode l (m.readWord (a + 8 * i))

/-- The memory stores the page tables. -/
structure Holds (m : Memory) (t : PageTree) : Prop where
  stores : Tree.Stores (entry m) t
  aligned : ∀ a, t.IsTable a → a % pageSize = 0
  window : ∀ a, t.IsTable a → a < directMapEnd

/-- The memory stores the page tables, and the provider offers none of their frames. -/
structure Owns {σ : Type} [Hardware σ] (src : FrameSource σ) (s : σ) (t : PageTree) : Prop where
  holds : Holds (Hardware.memory s) t
  valid : src.Valid s
  apart : ∀ a, t.IsTable a → a ∉ src.offers s

/-- The page of an address, as far as the walk reads it. -/
def pageOf (va : VirtAddr) : ℕ := va.val / pageSize % 2 ^ 36

/-! ## Descriptors -/

section Decode

variable {w : BitVec 64} {l : ℕ}

theorem decode_empty (hw : w &&& descValidBit = 0) : decode l w = .empty := if_pos hw

theorem decode_eq_empty (hdecode : decode l w = .empty) : w &&& descValidBit = 0 := by
  unfold decode at hdecode
  split at hdecode
  · next hw => exact hw
  · split at hdecode
    · split at hdecode <;> cases hdecode
    · cases hdecode

theorem decode_eq_table {a : ℕ} (hdecode : decode l w = .table a) :
    w &&& descValidBit ≠ 0 ∧ w &&& descTableOrPageBit ≠ 0 ∧ (w &&& tableNlaMask).toNat = a := by
  unfold decode at hdecode
  split at hdecode
  · cases hdecode
  · next hvalid =>
    split at hdecode
    · split at hdecode
      · cases hdecode
      · next htable =>
        cases hdecode
        exact ⟨hvalid, htable, rfl⟩
    · cases hdecode

theorem decode_eq_block {b : BitVec 64} (hdecode : decode l w = .block b) :
    w &&& descValidBit ≠ 0 ∧ w &&& descTableOrPageBit = 0 := by
  unfold decode at hdecode
  split at hdecode
  · cases hdecode
  · next hvalid =>
    split at hdecode
    · split at hdecode
      · next hblock => exact ⟨hvalid, hblock⟩
      · cases hdecode
    · cases hdecode

theorem decode_eq_leaf {v : BitVec 64} (hdecode : decode l w = .leaf v) :
    w = v ∧ w &&& descValidBit ≠ 0 := by
  unfold decode at hdecode
  split at hdecode
  · cases hdecode
  · next hvalid =>
    split at hdecode
    · split at hdecode <;> cases hdecode
    · cases hdecode
      exact ⟨rfl, hvalid⟩

theorem decode_tableDescriptor {a : ℕ} (hl : l < 3) (haligned : a % pageSize = 0)
    (hwindow : a < directMapEnd) : decode l (tableDescriptor (BitVec.ofNat 64 a)) = .table a := by
  have haddress : a < 2 ^ 48 := hwindow.trans (by decide)
  unfold decode
  rw [if_neg (tableDescriptor_valid _), if_pos hl, if_neg (tableDescriptor_table _),
    tableDescriptor_address haligned haddress]

theorem decode_leaf (hw : w &&& descValidBit ≠ 0) : decode 3 w = .leaf w := by
  unfold decode
  rw [if_neg hw, if_neg (by decide)]

end Decode

/-! ## Indices -/

/-- An index is a digit of the page number. -/
theorem vaIndex_eq (va : VirtAddr) {l : ℕ} (hl : l < 4) :
    vaIndex va (39 - 9 * l) = Tree.up 512 3 (l + 1) (pageOf va) % 512 := by
  unfold vaIndex vaIndexMask Tree.up pageOf pageSize
  have hmask : (0x1FF : BitVec 64) = BitVec.ofNat 64 (2 ^ 9 - 1) := rfl
  rw [BitVec.toNat_and, hmask, BitVec.toNat_ofNat, Nat.mod_eq_of_lt (by decide),
    Nat.and_two_pow_sub_one_eq_mod, BitVec.toNat_ushiftRight, BitVec.toNat_ofNat,
    Nat.shiftRight_eq_div_pow]
  obtain rfl | rfl | rfl | rfl : l = 0 ∨ l = 1 ∨ l = 2 ∨ l = 3 := by omega
  all_goals
    simp only [Nat.reduceAdd, Nat.reduceSub, Nat.reducePow, Nat.reduceMul]
    omega

theorem up_zero (va : VirtAddr) : Tree.up 512 3 0 (pageOf va) = 0 := by
  unfold Tree.up pageOf
  omega

theorem up_page (k : ℕ) : Tree.up 512 3 4 k = k := by
  unfold Tree.up
  omega

/-! ## Words of tables -/

section Slots

variable {m m' : Memory} {S : Set ℕ} {a b i j x : ℕ} {w : BitVec 64} {t : PageTree}

theorem inFrame_slot (hi : i < 512) (hj : j < 8) : InFrame a (a + 8 * i + j) := by
  unfold InFrame pageSize
  omega

/-- The words of a frame outside `S` are as before. -/
theorem readWord_agreesOff (hoff : Memory.AgreesOff S m m') (hS : ∀ b ∈ S, b % pageSize = 0)
    (ha : a % pageSize = 0) (hnot : a ∉ S) (hi : i < 512) :
    m'.readWord (a + 8 * i) = m.readWord (a + 8 * i) := by
  refine readWord_congr fun j hj => hoff _ fun b hb => ?_
  have hne : a ≠ b := fun heq => hnot (heq ▸ hb)
  exact not_inFrame_of_ne ha (hS b hb) hne (inFrame_slot hi hj)

/-- The other slots of the written table, and the slots of other tables. -/
theorem readWord_writeWord_slot (ha : a % pageSize = 0) (hb : b % pageSize = 0) (hi : i < 512)
    (hj : j < 512) (hne : ¬ (b = a ∧ j = i)) :
    (m.writeWord (a + 8 * i) w).readWord (b + 8 * j) = m.readWord (b + 8 * j) := by
  apply readWord_writeWord_of_disjoint
  unfold pageSize at *
  omega

theorem Holds.readWord_of_slot (hholds : Holds m t) {l k p : ℕ}
    (hp : t.node l (k / 512) = some (.table p)) :
    decode l (m.readWord (p + 8 * (k % 512))) = t.slot l k :=
  hholds.stores.at_key (by decide) hp

/-- A memory that agrees on the tables holds the tree as well. -/
theorem Holds.congr (hholds : Holds m t)
    (hsame : ∀ a i, t.IsTable a → i < 512 → m'.readWord (a + 8 * i) = m.readWord (a + 8 * i)) :
    Holds m' t where
  stores := by
    apply hholds.stores.congr
    intro l a i ha hi
    unfold entry
    rw [hsame a i ha hi]
  aligned := hholds.aligned
  window := hholds.window

theorem Holds.agreesOff (hholds : Holds m t) (hoff : Memory.AgreesOff S m m')
    (hS : ∀ b ∈ S, b % pageSize = 0) (hnot : ∀ a, t.IsTable a → a ∉ S) : Holds m' t :=
  hholds.congr fun a _ ha hi =>
    readWord_agreesOff hoff hS (hholds.aligned a ha) (hnot a ha) hi

end Slots

/-! ## One level of the walk -/

section Level

variable [Build] {σ : Type} [Hardware σ] {src : FrameSource σ} {s s₁ : σ} {t : PageTree}
  {l k i : ℕ} {p f : PhysFrame} {frames : Prog σ MmuError (Option PhysFrame)} {unmap : Bool}

omit [Build] in
theorem physOf_slot (hp : p.asUsize < directMapEnd) (hi : i < 512) :
    physOf (wrappingAdd kernelHighHalfOffset p.asUsize + 8 * i) = p.asUsize + 8 * i := by
  apply physOf_directMap_add
  have haligned := p.aligned
  unfold PhysFrame.asUsize directMapEnd pageSize at *
  omega

omit [Build] [Hardware σ] in
theorem physToKernelVa_run {ε : Type} (hp : p.asUsize < directMapEnd) :
    (physToKernelVa p.asUsize : Prog σ ε ℕ).run s =
      .ok (wrappingAdd kernelHighHalfOffset p.asUsize) s := by
  rw [physToKernelVa_pos hp]
  rfl

omit [Build] in
theorem readSlot_run {ε : Type} (hp : p.asUsize < directMapEnd) (hi : i < 512) :
    (readVolatile (wrappingAdd kernelHighHalfOffset p.asUsize + 8 * i) : Prog σ ε _).run s =
      .ok ((Hardware.memory s).readWord (p.asUsize + 8 * i)) s := by
  unfold readVolatile
  rw [physOf_slot hp hi]

omit [Build] in
theorem writeSlot_run {ε : Type} (hp : p.asUsize < directMapEnd) (hi : i < 512) (w : BitVec 64) :
    (writeVolatile (wrappingAdd kernelHighHalfOffset p.asUsize + 8 * i) w : Prog σ ε Unit).run s =
      .ok () (Hardware.store (p.asUsize + 8 * i) w s) := by
  unfold writeVolatile
  rw [physOf_slot hp hi]
  rfl

omit [Build] in
/-- The frame at a masked address. -/
theorem exists_frame (w : BitVec 64) : ∃ f : PhysFrame,
    PhysFrame.fromAligned ⟨(w &&& pageOaMaskL3).toNat⟩ = some f ∧
      f.asUsize = (w &&& pageOaMaskL3).toNat :=
  ⟨_, PhysFrame.fromAligned_eq (and_pageOaMaskL3_aligned w), rfl⟩

/-- What a level does once it has read its slot. -/
theorem walkOrAllocTable_read (hp : p.asUsize < directMapEnd) (hi : i < 512) {w : BitVec 64}
    (hw : (Hardware.memory s).readWord (p.asUsize + 8 * i) = w) :
    (walkOrAllocTable p i frames unmap).run s =
      Prog.run (if w &&& descValidBit ≠ 0 then
        if w &&& descTableOrPageBit = 0 then
          Prog.fail (if unmap then .blockMapped else .alreadyMapped)
        else
          Prog.okOr (PhysFrame.fromAligned ⟨(w &&& tableNlaMask).toNat⟩) .misalignedAddress
      else if unmap then
        Prog.fail .notMapped
      else do
        let newTable ← frames >>= fun frame => Prog.okOr frame .outOfFrames
        writeVolatile (wrappingAdd kernelHighHalfOffset p.asUsize + 8 * i)
          (tableDescriptor (BitVec.ofNat 64 newTable.asUsize))
        return newTable) s := by
  have hidx : i < entriesPerTable := hi
  unfold walkOrAllocTable
  rw [debugAssert_pos hidx, Prog.pure_bind_run, Prog.bind_ok (physToKernelVa_run hp)]
  dsimp only
  rw [Prog.bind_ok (readSlot_run hp hi), hw]

/-- A level at which the slot holds a table. -/
theorem walkOrAllocTable_table (hp : p.asUsize < directMapEnd) (hi : i < 512) {a : ℕ}
    (hslot : decode l ((Hardware.memory s).readWord (p.asUsize + 8 * i)) = .table a) :
    ∃ f : PhysFrame, f.asUsize = a ∧ (walkOrAllocTable p i frames unmap).run s = .ok f s := by
  obtain ⟨hvalid, htable, haddress⟩ := decode_eq_table hslot
  obtain ⟨f, hf, hfa⟩ := exists_frame ((Hardware.memory s).readWord (p.asUsize + 8 * i))
  refine ⟨f, hfa.trans haddress, ?_⟩
  rw [walkOrAllocTable_read hp hi rfl, if_pos hvalid, if_neg htable,
    show tableNlaMask = pageOaMaskL3 from rfl, hf]
  rfl

/-- A level at which the slot holds a block. -/
theorem walkOrAllocTable_block (hp : p.asUsize < directMapEnd) (hi : i < 512) {b : BitVec 64}
    (hslot : decode l ((Hardware.memory s).readWord (p.asUsize + 8 * i)) = .block b) :
    (walkOrAllocTable p i frames unmap).run s =
      .err (if unmap then .blockMapped else .alreadyMapped) s := by
  obtain ⟨hvalid, hblock⟩ := decode_eq_block hslot
  rw [walkOrAllocTable_read hp hi rfl, if_pos hvalid, if_pos hblock]
  rfl

/-- A level at which the slot is empty, without allocation. -/
theorem walkOrAllocTable_empty (hp : p.asUsize < directMapEnd) (hi : i < 512)
    (hslot : decode l ((Hardware.memory s).readWord (p.asUsize + 8 * i)) = .empty) :
    (walkOrAllocTable p i frames true).run s = .err .notMapped s := by
  have hinvalid := decode_eq_empty hslot
  rw [walkOrAllocTable_read hp hi rfl, if_neg (not_not.mpr hinvalid), if_pos rfl]
  rfl

/-- A level at which the slot is empty and the provider has no frame. -/
theorem walkOrAllocTable_none (hp : p.asUsize < directMapEnd) (hi : i < 512)
    (hslot : decode l ((Hardware.memory s).readWord (p.asUsize + 8 * i)) = .empty)
    (halloc : frames.run s = .ok none s₁) :
    (walkOrAllocTable p i frames false).run s = .err .outOfFrames s₁ := by
  have hinvalid := decode_eq_empty hslot
  rw [walkOrAllocTable_read hp hi rfl, if_neg (not_not.mpr hinvalid),
    if_neg Bool.false_ne_true]
  apply Prog.bind_err
  rw [Prog.bind_ok halloc]
  rfl

/-- A level at which the slot is empty and the provider has a frame. -/
theorem walkOrAllocTable_some (hp : p.asUsize < directMapEnd) (hi : i < 512)
    (hslot : decode l ((Hardware.memory s).readWord (p.asUsize + 8 * i)) = .empty)
    (halloc : frames.run s = .ok (some f) s₁) :
    (walkOrAllocTable p i frames false).run s = .ok f
      (Hardware.store (p.asUsize + 8 * i) (tableDescriptor (BitVec.ofNat 64 f.asUsize)) s₁) := by
  have hinvalid := decode_eq_empty hslot
  have hframe : (frames >>= fun frame => Prog.okOr frame .outOfFrames).run s = .ok f s₁ := by
    rw [Prog.bind_ok halloc]
    rfl
  rw [walkOrAllocTable_read hp hi rfl, if_neg (not_not.mpr hinvalid),
    if_neg Bool.false_ne_true, Prog.bind_ok hframe, Prog.bind_ok (writeSlot_run hp hi _)]
  rfl

end Level

end Tyrne
