import Tyrne.Hal.Frames

/-!
# The hardware that page-table code drives

Volatile accesses to 64-bit descriptors through the direct map, and the two TLB
maintenance instructions. `Hardware σ` says what they do to a machine state `σ`: a store
writes physical memory and nothing else of it, and TLB maintenance writes no memory.

`FrameSource` is what page-table code relies on in a provider of table frames.
-/

namespace Tyrne

/-! ## Words of memory -/

/-- The little-endian 64-bit word at `a`. -/
def Memory.readWord (m : Memory) (a : ℕ) : BitVec 64 :=
  m (a + 7) ++ m (a + 6) ++ m (a + 5) ++ m (a + 4) ++ m (a + 3) ++ m (a + 2) ++ m (a + 1) ++ m a

def Memory.writeWord (m : Memory) (a : ℕ) (w : BitVec 64) : Memory :=
  fun b => if a ≤ b ∧ b < a + 8 then w.extractLsb' (8 * (b - a)) 8 else m b

section Words

variable {m m' : Memory} {a b : ℕ} {w : BitVec 64}

theorem readWord_congr (hsame : ∀ j < 8, m' (a + j) = m (a + j)) :
    m'.readWord a = m.readWord a := by
  unfold Memory.readWord
  rw [hsame 1 (by omega), hsame 2 (by omega), hsame 3 (by omega), hsame 4 (by omega),
    hsame 5 (by omega), hsame 6 (by omega), hsame 7 (by omega)]
  have hzero := hsame 0 (by omega)
  rw [Nat.add_zero] at hzero
  rw [hzero]

theorem writeWord_inside {j : ℕ} (hj : j < 8) :
    m.writeWord a w (a + j) = w.extractLsb' (8 * j) 8 := by
  unfold Memory.writeWord
  rw [if_pos (by omega), Nat.add_sub_cancel_left]

theorem writeWord_outside (hout : b < a ∨ a + 8 ≤ b) : m.writeWord a w b = m b :=
  if_neg (by omega)

/-- A word is its bytes. -/
theorem bytes_of_word (w : BitVec 64) :
    (w.extractLsb' 56 8 ++ w.extractLsb' 48 8 ++ w.extractLsb' 40 8 ++ w.extractLsb' 32 8 ++
      w.extractLsb' 24 8 ++ w.extractLsb' 16 8 ++ w.extractLsb' 8 8 ++ w.extractLsb' 0 8 :
        BitVec 64) = w := by
  have hcat (len start : ℕ) : w.extractLsb' (start + 8) len ++ w.extractLsb' start 8 =
      w.extractLsb' start (len + 8) :=
    BitVec.extractLsb'_append_extractLsb'_eq_extractLsb' rfl
  have htop : w.extractLsb' 56 8 ++ w.extractLsb' 48 8 = w.extractLsb' 48 16 := hcat 8 48
  have hsix : w.extractLsb' 48 16 ++ w.extractLsb' 40 8 = w.extractLsb' 40 24 := hcat 16 40
  have hfive : w.extractLsb' 40 24 ++ w.extractLsb' 32 8 = w.extractLsb' 32 32 := hcat 24 32
  have hfour : w.extractLsb' 32 32 ++ w.extractLsb' 24 8 = w.extractLsb' 24 40 := hcat 32 24
  have hthree : w.extractLsb' 24 40 ++ w.extractLsb' 16 8 = w.extractLsb' 16 48 := hcat 40 16
  have htwo : w.extractLsb' 16 48 ++ w.extractLsb' 8 8 = w.extractLsb' 8 56 := hcat 48 8
  have hone : w.extractLsb' 8 56 ++ w.extractLsb' 0 8 = w.extractLsb' 0 64 := hcat 56 0
  rw [htop, hsix, hfive, hfour, hthree, htwo, hone]
  exact BitVec.extractLsb'_eq_self

theorem readWord_writeWord_self : (m.writeWord a w).readWord a = w := by
  unfold Memory.readWord
  rw [writeWord_inside (by omega), writeWord_inside (by omega), writeWord_inside (by omega),
    writeWord_inside (by omega), writeWord_inside (by omega), writeWord_inside (by omega),
    writeWord_inside (by omega)]
  have hzero := writeWord_inside (m := m) (a := a) (w := w) (j := 0) (by omega)
  rw [Nat.add_zero] at hzero
  rw [hzero]
  exact bytes_of_word w

/-- A word next to the written one is as before. -/
theorem readWord_writeWord_of_disjoint (hout : b + 8 ≤ a ∨ a + 8 ≤ b) :
    (m.writeWord a w).readWord b = m.readWord b :=
  readWord_congr fun j hj => writeWord_outside (by omega)

theorem readWord_zero (hzero : ∀ j < 8, m (a + j) = 0) : m.readWord a = 0 := by
  have hsame : m.readWord a = Memory.readWord (fun _ => 0) a := readWord_congr hzero
  rw [hsame]
  show (0#8 ++ 0#8 ++ 0#8 ++ 0#8 ++ 0#8 ++ 0#8 ++ 0#8 ++ 0#8 : BitVec 64) = 0
  decide

end Words

/-- The two memories agree outside the frames of `S`. -/
def Memory.AgreesOff (S : Set ℕ) (m m' : Memory) : Prop :=
  ∀ a, (∀ b ∈ S, ¬ InFrame b a) → m' a = m a

namespace Memory.AgreesOff

variable {S T : Set ℕ} {m m' m'' : Memory}

theorem refl (S : Set ℕ) (m : Memory) : AgreesOff S m m := fun _ _ => rfl

theorem trans (h : AgreesOff S m m') (h' : AgreesOff S m' m'') : AgreesOff S m m'' :=
  fun a ha => (h' a ha).trans (h a ha)

theorem mono (h : AgreesOff S m m') (hsub : S ⊆ T) : AgreesOff T m m' :=
  fun a ha => h a fun b hb => ha b (hsub hb)

/-- A word written inside a frame changes nothing outside it. -/
theorem writeWord {a base : ℕ} {w : BitVec 64} (hbase : base ≤ a) (hend : a + 8 ≤ base + pageSize) :
    AgreesOff {base} m (m.writeWord a w) := by
  intro b hb
  have hout := hb base rfl
  unfold InFrame at hout
  exact writeWord_outside (by omega)

end Memory.AgreesOff

/-- Bytes written to the start of a frame, and what they leave. -/
theorem writeBytes_frame {m : Memory} {a : ℕ} {bytes : List (BitVec 8)}
    (hlen : bytes.length ≤ pageSize) :
    Memory.AgreesOff {a} m (m.writeBytes a bytes) ∧
      (∀ (j : ℕ) (hj : j < bytes.length), m.writeBytes a bytes (a + j) = bytes[j]) ∧
      ∀ j, bytes.length ≤ j → m.writeBytes a bytes (a + j) = m (a + j) := by
  have hinside : ∀ j, m.writeBytes a bytes (a + j) = (bytes[j]?).getD (m (a + j)) := by
    intro j
    unfold Memory.writeBytes
    rw [if_pos (Nat.le_add_right a j), Nat.add_sub_cancel_left]
  refine ⟨fun b hb => ?_, fun j hj => ?_, fun j hj => ?_⟩
  · have hout := hb a rfl
    unfold InFrame at hout
    by_cases hle : a ≤ b
    · obtain ⟨j, rfl⟩ := Nat.exists_eq_add_of_le hle
      rw [hinside, List.getElem?_eq_none (by omega)]
      rfl
    · unfold Memory.writeBytes
      rw [if_neg hle]
  · rw [hinside, List.getElem?_eq_getElem hj]
    rfl
  · rw [hinside, List.getElem?_eq_none hj]
    rfl

/-! ## Volatile accesses and TLB maintenance -/

/-- The hardware under a machine state. -/
class Hardware (σ : Type) where
  memory : σ → Memory
  /-- Store a word at a physical address. -/
  store : ℕ → BitVec 64 → σ → σ
  /-- `TLBI VAE1` with its register operand. -/
  tlbiVae1 : BitVec 64 → σ → σ
  tlbiVmalle1 : σ → σ
  memory_store : ∀ a w s, memory (store a w s) = (memory s).writeWord a w
  memory_tlbiVae1 : ∀ w s, memory (tlbiVae1 w s) = memory s
  memory_tlbiVmalle1 : ∀ s, memory (tlbiVmalle1 s) = memory s

/-- Memory alone, without a TLB. -/
instance : Hardware Memory where
  memory m := m
  store a w m := m.writeWord a w
  tlbiVae1 _ m := m
  tlbiVmalle1 m := m
  memory_store _ _ _ := rfl
  memory_tlbiVae1 _ _ := rfl
  memory_tlbiVmalle1 _ := rfl

/-- Memory and a frame provider, without a TLB. -/
instance {P : Type} : Hardware (Supply P) where
  memory s := s.memory
  store a w s := { s with memory := s.memory.writeWord a w }
  tlbiVae1 _ s := s
  tlbiVmalle1 s := s
  memory_store _ _ _ := rfl
  memory_tlbiVae1 _ _ := rfl
  memory_tlbiVmalle1 _ := rfl

section Volatile

variable {σ ε : Type} [Hardware σ]

/-- `core::ptr::read_volatile`, through the direct map. -/
def readVolatile (ptr : ℕ) : Prog σ ε (BitVec 64) :=
  ⟨fun s => .ok ((Hardware.memory s).readWord (physOf ptr)) s⟩

/-- `core::ptr::write_volatile`, through the direct map. -/
def writeVolatile (ptr : ℕ) (w : BitVec 64) : Prog σ ε Unit :=
  Prog.modify (Hardware.store (physOf ptr) w)

end Volatile

/-- A pointer into a frame of the direct map. -/
theorem physOf_directMap_add {pa off : ℕ} (hpa : pa + off < directMapEnd) :
    physOf (wrappingAdd kernelHighHalfOffset pa + off) = pa + off := by
  have hsum : wrappingAdd kernelHighHalfOffset pa + off =
      wrappingAdd kernelHighHalfOffset (pa + off) := by
    unfold wrappingAdd kernelHighHalfOffset
    unfold directMapEnd at hpa
    omega
  rw [hsum, physOf_directMap hpa]

/-! ## Editing address spaces -/

/-- The methods of the MMU that make and edit address spaces of type `AS`. -/
class Mapper (AS : Type) extends Mmu AS where
  createAddressSpace : PhysFrame → AS
  map {σ : Type} [Hardware σ] (va : VirtAddr) (pa : PhysFrame) (flags : MappingFlags)
    (frames : Prog σ MmuError (Option PhysFrame)) : Prog (AS × σ) MmuError MapperFlush
  unmap {σ : Type} [Hardware σ] (va : VirtAddr) :
    Prog (AS × σ) MmuError (MapperFlush × PhysFrame)
  invalidateTlbAddress {σ ε : Type} [Hardware σ] (va : VirtAddr) : Prog σ ε Unit

/-- `token.flush(mmu)`. -/
def MapperFlush.flush (AS : Type) [Mapper AS] {σ ε : Type} [Hardware σ] (token : MapperFlush) :
    Prog σ ε Unit :=
  Mapper.invalidateTlbAddress AS token.virtAddr

/-! ## Sources of frames -/

/-- A provider of zeroed frames: in a valid state it hands out a frame of those it offers,
or none, and writes no memory but that of the frames it offers. -/
structure FrameSource (σ : Type) [Hardware σ] where
  alloc : Prog σ MmuError (Option PhysFrame)
  Valid : σ → Prop
  offers : σ → Set ℕ
  in_window : ∀ {s a}, Valid s → a ∈ offers s → a % pageSize = 0 ∧ a < directMapEnd
  alloc_cases : ∀ {s}, Valid s →
    (∃ s', alloc.run s = .ok none s' ∧ Valid s' ∧ offers s' = offers s ∧
      Memory.AgreesOff (offers s) (Hardware.memory s) (Hardware.memory s')) ∨
    ∃ f s', alloc.run s = .ok (some f) s' ∧ Valid s' ∧ f.asUsize ∈ offers s ∧
      offers s' = offers s \ {f.asUsize} ∧ (∀ a, InFrame f.asUsize a → Hardware.memory s' a = 0) ∧
      Memory.AgreesOff (offers s) (Hardware.memory s) (Hardware.memory s')
  store_keeps : ∀ {s a} w, Valid s → (∀ b ∈ offers s, ∀ j < 8, ¬ InFrame b (a + j)) →
    Valid (Hardware.store a w s) ∧ offers (Hardware.store a w s) = offers s

/-- A provider that refuses only when it has no frame left to offer. -/
structure FrameSource.Lasting {σ : Type} [Hardware σ] (src : FrameSource σ) : Prop where
  finite : ∀ {s}, src.Valid s → (src.offers s).Finite
  refused : ∀ {s s'}, src.Valid s → src.alloc.run s = .ok none s' → src.offers s = ∅

/-- A provider that writes only the frames it hands out, and that TLB maintenance does not
concern. -/
structure FrameSource.Tidy {σ : Type} [Hardware σ] (src : FrameSource σ) : Prop where
  refused : ∀ {s s'}, src.Valid s → src.alloc.run s = .ok none s' →
    Hardware.memory s' = Hardware.memory s
  handed : ∀ {s s' f}, src.Valid s → src.alloc.run s = .ok (some f) s' →
    Memory.AgreesOff {f.asUsize} (Hardware.memory s) (Hardware.memory s')
  flushed : ∀ {s} w, src.Valid s →
    src.Valid (Hardware.tlbiVae1 w s) ∧ src.offers (Hardware.tlbiVae1 w s) = src.offers s
  flushedAll : ∀ {s}, src.Valid s →
    src.Valid (Hardware.tlbiVmalle1 s) ∧ src.offers (Hardware.tlbiVmalle1 s) = src.offers s

end Tyrne
