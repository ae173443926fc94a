import Tyrne.Bsp.Family

/-!
# The translation cache

A core with its translation registers and its TLB. The hardware fills the TLB on its own:
after every change of the machine it may add any translations that the tables of the active
address space give at that moment. All address spaces share the ASID 0, so an entry does not
say whose it is.
-/

namespace Tyrne

open Radix Tree

/-! ## The walk of the hardware -/

/-- The table at `a` is on the walk of the page `k`, at the level `l`. -/
inductive OnWalk (m : Memory) (root k : ℕ) : ℕ → ℕ → Prop
  | root : OnWalk m root k 0 root
  | table {l a b : ℕ} (h : OnWalk m root k l a) (hl : l < 3)
      (hentry : entry m l a (up 512 3 (l + 1) k % 512) = .table b) : OnWalk m root k (l + 1) b

/-- A cached translation: a page of the 48-bit range, and the descriptor that ended its walk. -/
structure TlbEntry where
  page : Fin (2 ^ 36)
  level : ℕ
  descriptor : BitVec 64

/-- The slot that the walk of the page reads at the level of the entry, in the table at `a`. -/
def TlbEntry.slot (e : TlbEntry) (m : Memory) (a : ℕ) :
    Radix.Slot ℕ (BitVec 64) (BitVec 64) :=
  entry m e.level a (up 512 3 (e.level + 1) e.page % 512)

/-- The walk of the page ends in the descriptor: a block or a page whose access flag is set. -/
def Finds (m : Memory) (root : ℕ) (e : TlbEntry) : Prop :=
  e.descriptor &&& descAfBit ≠ 0 ∧ ∃ a, OnWalk m root e.page e.level a ∧
    (e.slot m a = .block e.descriptor ∨
      e.slot m a = .leaf e.descriptor ∧ e.descriptor &&& descTableOrPageBit ≠ 0)

/-- What a walk of the page finds in a tree of tables. -/
def PageTree.Found (t : PageTree) (e : TlbEntry) : Prop :=
  e.descriptor &&& descAfBit ≠ 0 ∧
    (t.node (e.level + 1) (up 512 3 (e.level + 1) e.page) = some (.block e.descriptor) ∨
      e.level = 3 ∧ t.leaf e.page = some e.descriptor ∧ e.descriptor &&& descTableOrPageBit ≠ 0)

section Walks

variable {m : Memory} {t : PageTree} {k l a : ℕ}

theorem Holds.onWalk_iff (h : Holds m t) (hk : k < 2 ^ 36) :
    OnWalk m t.root k l a ↔ t.node l (up 512 3 l k) = some (.table a) := by
  have hzero : up 512 3 0 k = 0 := by
    unfold up
    omega
  constructor
  · intro hwalk
    induction hwalk with
    | root => rw [hzero, t.node_root]
    | @table l a b _ hl hentry ih =>
      have hslot := slot_of_path h hl ih
      have hread : decode l (m.readWord (a + 8 * (up 512 3 (l + 1) k % 512))) = .table b := hentry
      rw [hread] at hslot
      cases hnode : t.node (l + 1) (up 512 3 (l + 1) k) with
      | none =>
        rw [hnode] at hslot
        cases hslot
      | some n =>
        rw [hnode] at hslot
        cases n with
        | table b' =>
          cases hslot
          rfl
        | block b' => cases hslot
  · intro hnode
    induction l generalizing a with
    | zero =>
      rw [hzero, t.node_root] at hnode
      cases hnode
      exact .root
    | succ l ih =>
      have hl : l < 3 := by
        by_contra hdeep
        rw [t.node_deep (l + 1) _ (by omega)] at hnode
        cases hnode
      obtain ⟨p, hp⟩ := parent_on_path (by omega) hnode
      refine .table (ih hp) hl ?_
      have hslot := slot_of_path h hl hp
      rw [hnode] at hslot
      exact hslot

/-- The hardware finds in memory what the tree says. -/
theorem Holds.finds_iff (h : Holds m t) (e : TlbEntry) : Finds m t.root e ↔ t.Found e := by
  unfold Finds PageTree.Found
  refine and_congr_right fun _ => ?_
  constructor
  · rintro ⟨a, hwalk, hslot⟩
    have hnode := (h.onWalk_iff e.page.isLt).mp hwalk
    by_cases hl : e.level < 3
    · have hpath : e.slot m a = .ofNode (t.node (e.level + 1) (up 512 3 (e.level + 1) e.page)) :=
        slot_of_path h hl hnode
      rw [hpath] at hslot
      cases hbelow : t.node (e.level + 1) (up 512 3 (e.level + 1) e.page) with
      | none =>
        rw [hbelow] at hslot
        rcases hslot with hcon | ⟨hcon, _⟩ <;> cases hcon
      | some n =>
        rw [hbelow] at hslot
        cases n with
        | table b => rcases hslot with hcon | ⟨hcon, _⟩ <;> cases hcon
        | block b =>
          rcases hslot with hblock | ⟨hcon, _⟩
          · cases hblock
            exact Or.inl rfl
          · cases hcon
    · have hlevel : e.level = 3 := by
        by_contra hne
        rw [t.node_deep e.level _ (by omega)] at hnode
        cases hnode
      rw [hlevel, up_three] at hnode
      have hleaf : e.slot m a = .ofLeaf (t.leaf e.page) := by
        unfold TlbEntry.slot
        rw [hlevel, up_page]
        exact decode_leafSlot h hnode
      rw [hleaf] at hslot
      cases hvalue : t.leaf e.page with
      | none =>
        rw [hvalue] at hslot
        rcases hslot with hcon | ⟨hcon, _⟩ <;> cases hcon
      | some w =>
        rw [hvalue] at hslot
        rcases hslot with hcon | ⟨hw, hpage⟩
        · cases hcon
        · cases hw
          exact Or.inr ⟨hlevel, rfl, hpage⟩
  · rintro (hblock | ⟨hlevel, hleaf, hpage⟩)
    · have hl : e.level < 3 := by
        by_contra hdeep
        rw [t.node_deep (e.level + 1) _ (by omega)] at hblock
        cases hblock
      obtain ⟨a, ha⟩ := parent_on_path (by omega) hblock
      refine ⟨a, (h.onWalk_iff e.page.isLt).mpr ha, Or.inl ?_⟩
      have hpath : e.slot m a = .ofNode (t.node (e.level + 1) (up 512 3 (e.level + 1) e.page)) :=
        slot_of_path h hl ha
      rw [hpath, hblock]
      rfl
    · obtain ⟨a, ha⟩ := tables_of_leaf hleaf (le_refl 3)
      refine ⟨a, ?_, Or.inr ⟨?_, hpage⟩⟩
      · rw [h.onWalk_iff e.page.isLt, hlevel]
        exact ha
      · rw [up_three] at ha
        unfold TlbEntry.slot
        rw [hlevel, up_page]
        have hslot := decode_leafSlot h ha
        rw [hleaf] at hslot
        exact hslot

/-- The hardware translates the address: its page is one of the 48-bit range, and the walk of it
ends in a descriptor. -/
def Walks (m : Memory) (root va : ℕ) : Prop :=
  ∃ e : TlbEntry, (e.page : ℕ) = va / pageSize ∧ Finds m root e

/-- The walks of the mapped pages end, and no others. -/
theorem Holds.walks_iff (h : Holds m t) {pm : PageMap} (hrefines : Refines t pm) (va : ℕ) :
    Walks m t.root va ↔ va < 2 ^ 48 ∧ pm (va / pageSize) ≠ none := by
  constructor
  · rintro ⟨e, hpage, hfinds⟩
    have hlt := e.page.isLt
    have hbelow : va < 2 ^ 48 := by
      unfold pageSize at hpage
      omega
    refine ⟨hbelow, ?_⟩
    rw [← hpage]
    intro hnone
    obtain ⟨_, hblock | ⟨_, hleaf, _⟩⟩ := (h.finds_iff e).mp hfinds
    · exact hrefines.unblocked e.page ⟨_, _, hblock⟩
    · rw [hrefines.leaf, hnone] at hleaf
      cases hleaf
  · rintro ⟨hbelow, hmapped⟩
    obtain ⟨entry, hentry⟩ := Option.ne_none_iff_exists'.mp hmapped
    have hlt : va / pageSize < 2 ^ 36 := by
      unfold pageSize
      omega
    have hleaf : t.leaf (va / pageSize) = some (pageDescriptorOf entry.1.asUsize entry.2) := by
      rw [hrefines.leaf, hentry]
      rfl
    refine ⟨⟨⟨va / pageSize, hlt⟩, 3, pageDescriptorOf entry.1.asUsize entry.2⟩, rfl, ?_⟩
    exact (h.finds_iff _).mpr
      ⟨pageDescriptorOf_af, Or.inr ⟨rfl, hleaf, pageDescriptorOf_page⟩⟩

end Walks

/-! ## The core -/

/-- A machine with the translation registers and the TLB of its core. `refills n` is what the
hardware would cache after the `n`-th change from now. -/
structure Cpu (τ : Type) where
  base : τ
  ttbr0 : BitVec 64
  epd0 : Bool
  tlb : Set TlbEntry
  refills : ℕ → Set TlbEntry

namespace Cpu

variable {τ : Type} [Hardware τ]

/-- The root of the active address space, unless walks of the low half are disabled. -/
def active (s : Cpu τ) : Option ℕ := if s.epd0 then none else some (s.ttbr0.toNat % 2 ^ 48)

/-- The tables of the active address space give the translation. -/
def Current (s : Cpu τ) (e : TlbEntry) : Prop :=
  ∃ root, s.active = some root ∧ Finds (Hardware.memory s.base) root e

/-- The hardware caches current translations. -/
def refill (s : Cpu τ) : Cpu τ :=
  { s with
    tlb := s.tlb ∪ {e ∈ s.refills 0 | s.Current e}
    refills := fun n => s.refills (n + 1) }

instance : Hardware (Cpu τ) where
  memory s := Hardware.memory s.base
  store a w s := refill { s with base := Hardware.store a w s.base }
  -- the operand names an ASID and a page; every entry has the ASID 0
  tlbiVae1 w s := refill { s with
    base := Hardware.tlbiVae1 w s.base
    tlb := {e ∈ s.tlb | ¬ (w >>> 48 = 0#64 ∧ e.page = w.toNat % 2 ^ 44)} }
  tlbiVmalle1 s := refill { s with base := Hardware.tlbiVmalle1 s.base, tlb := ∅ }
  memory_store a w s := Hardware.memory_store a w s.base
  memory_tlbiVae1 w s := Hardware.memory_tlbiVae1 w s.base
  memory_tlbiVmalle1 s := Hardware.memory_tlbiVmalle1 s.base

/-- `MSR TTBR0_EL1`. -/
def msrTtbr0 (w : BitVec 64) (s : Cpu τ) : Cpu τ := refill { s with ttbr0 := w }

/-- Clear `TCR_EL1.EPD0`. -/
def clearEpd0 (s : Cpu τ) : Cpu τ := refill { s with epd0 := false }

/-- Pull a frame from the provider of the machine. -/
def alloc (src : FrameSource τ) : Prog (Cpu τ) MmuError (Option PhysFrame) := do
  let frame ← Prog.zoom base (fun base s => { s with base }) id src.alloc
  Prog.modify refill
  return frame

theorem alloc_ok {src : FrameSource τ} {s : Cpu τ} {r : Option PhysFrame} {b : τ}
    (halloc : src.alloc.run s.base = .ok r b) :
    (alloc src).run s = .ok r (refill { s with base := b }) := by
  unfold alloc
  rw [Prog.bind_ok (Prog.zoom_ok halloc)]
  rfl

/-- The provider of the machine, on the core. -/
def source (src : FrameSource τ) : FrameSource (Cpu τ) where
  alloc := alloc src
  Valid s := src.Valid s.base
  offers s := src.offers s.base
  in_window := src.in_window
  alloc_cases {s} hvalid := by
    rcases src.alloc_cases hvalid with ⟨b, halloc, hrest⟩ | ⟨f, b, halloc, hrest⟩
    · exact Or.inl ⟨_, alloc_ok halloc, hrest⟩
    · exact Or.inr ⟨f, _, alloc_ok halloc, hrest⟩
  store_keeps w hvalid hapart := src.store_keeps w hvalid hapart

end Cpu

/-- `QemuVirtMmu::activate`. -/
def QemuVirtMmu.activate {τ ε : Type} [Hardware τ] (as_ : QemuVirtAddressSpace) :
    Prog (Cpu τ) ε Unit := do
  let ttbr0 := BitVec.ofNat 64 as_.root.asUsize
  Prog.modify (Cpu.msrTtbr0 ttbr0)
  Prog.modify Cpu.clearEpd0
  Prog.modify Hardware.tlbiVmalle1

/-- `activate_address_space_handle`. -/
def activateAddressSpaceHandle [Build] {τ : Type} [Hardware τ] (handle : AddressSpaceHandle) :
    Prog (Spaces QemuVirtAddressSpace (Cpu τ)) AddressSpaceError Unit := do
  let s ← Prog.get
  match getAddressSpace s.arena handle with
  | some as_ => Spaces.onMachine (QemuVirtMmu.activate as_.inner)
  | none => debugAssert False ("activate_address_space_handle: stale handle \x7bhandle:?\x7d — " ++
      "scheduler's task_address_space_handles invariant violated")

end Tyrne
