import Tyrne.Bsp.Mapping
import Tyrne.Hal.TableWalk

/-!
# The hardware walks the map of pages

`translate` reads the descriptor of a page; the hardware also takes away what the tables on
the way forbid. The tables that `map` links forbid nothing, so after any sequence of `map` and
`unmap` calls the walk of the hardware through `TTBR0_EL1` is the map of pages, with the
permissions that the flags stand for.
-/

namespace Tyrne

open Radix Tree

/-! ## What the flags stand for -/

/-- The attributes of a page with the flags, under the value of `MAIR_EL1` that the kernel
installs. -/
def MappingFlags.attributes (flags : MappingFlags) : WalkAttributes where
  memoryType := if flags.contains .device then 0x00 else 0xFF
  user := flags.contains .user
  write := flags.contains .write
  kernelExecute := flags.contains .execute ∧ ¬ flags.contains .user ∧ ¬ flags.contains .device
  userExecute := flags.contains .execute ∧ flags.contains .user ∧ ¬ flags.contains .device

section Attributes

variable {limit va pa : ℕ} {tables : BitVec 64} {flags : MappingFlags}

theorem attributes_named : ∀ n : Fin 32,
    WalkAttributes.of mairEl1Value 0 (pageAttributes (flagsToDescriptorBits ⟨BitVec.ofNat 32 n⟩)) =
      (⟨BitVec.ofNat 32 n⟩ : MappingFlags).attributes := by
  decide +kernel

theorem MappingFlags.attributes_of_named : flags.named.attributes = flags.attributes := by
  unfold MappingFlags.attributes
  rw [named_contains (by decide), named_contains (by decide), named_contains (by decide),
    named_contains (by decide)]

/-- The fields of a page descriptor beside its address. -/
theorem pageDescriptorOf_fields : pageDescriptorOf pa flags &&& ~~~pageOaMaskL3 =
    pageAttributes (flagsToDescriptorBits flags) &&& ~~~pageOaMaskL3 := by
  unfold pageDescriptorOf
  rw [pageDescriptor_eq, or_address_and (by decide)]

/-- Under tables that forbid nothing, a page has the attributes of its flags. -/
theorem Permissive.pageAttributes (h : Permissive tables) (pa : ℕ) (flags : MappingFlags) :
    WalkAttributes.of mairEl1Value tables (pageDescriptorOf pa flags) = flags.attributes := by
  obtain ⟨huser, hread, hpxn, huxn⟩ := h
  obtain ⟨huser', hread', hpxn', huxn'⟩ := permissive_zero
  have hzero : WalkAttributes.of mairEl1Value tables (pageDescriptorOf pa flags) =
      .of mairEl1Value 0 (Tyrne.pageAttributes (flagsToDescriptorBits flags)) := by
    have hfields : pageDescriptorOf pa flags &&& ~~~pageOaMaskL3 =
        Tyrne.pageAttributes (flagsToDescriptorBits flags) &&& ~~~pageOaMaskL3 :=
      pageDescriptorOf_fields
    unfold WalkAttributes.of
    rw [shift_congr hfields 2 0x7 (by decide) (by decide),
      field_congr hfields (1 <<< 6) (by decide), field_congr hfields (1 <<< 7) (by decide),
      field_congr hfields descPxnBit (by decide), field_congr hfields descUxnBit (by decide),
      huser, hread, hpxn, huxn, huser', hread', hpxn', huxn']
  obtain ⟨n, hn⟩ := exists_named flags
  rw [hzero, ← flagsToDescriptorBits_named, hn, attributes_named n, ← hn,
    MappingFlags.attributes_of_named]

end Attributes

/-! ## Tables that forbid nothing -/

/-- The table descriptors are as `map` writes them. -/
def Plain (m : Memory) (t : PageTree) : Prop :=
  ∀ l k a, l < 3 → t.node l k = some (.table a) → ∀ i < 512, ∀ b,
    decode l (m.readWord (a + 8 * i)) = .table b →
      m.readWord (a + 8 * i) = tableDescriptor (BitVec.ofNat 64 b)

section Walk

variable {m : Memory} {t : PageTree} {limit va k l a root : ℕ} {tables : BitVec 64}
  {pages : PageMap}

/-- What the map of pages gives to the address, of an output below `limit`. -/
def PageMap.walk (pages : PageMap) (limit va : ℕ) : Option Translation :=
  (pages (va / pageSize)).bind fun entry =>
    if entry.1.asUsize < limit then
      some ⟨entry.1.asUsize + va % pageSize, entry.2.attributes⟩
    else
      none

/-- The index that the hardware takes from the address, `n` levels above the last table. -/
theorem walk_index (n : ℕ) (hl : l + n = 3) :
    va / 2 ^ (12 + 9 * n) % 512 = up 512 3 (l + 1) (va / pageSize) % 512 := by
  have hdepth : 3 + 1 - (l + 1) = n := by omega
  have hpow : 2 ^ (12 + 9 * n) = pageSize * 512 ^ n := by
    rw [pow_add, pow_mul]
    rfl
  unfold up
  rw [hdepth, hpow, Nat.div_div_eq_div_mul]

/-- The table of the last level: the descriptor of the page is there. -/
theorem walkTable_last (hholds : Holds m t) (hrefines : Refines t pages) (hperm : Permissive tables)
    (ha : t.node 3 (va / pageSize / 512) = some (.table a)) :
    walkTable limit mairEl1Value m va 0 tables a = pages.walk limit va := by
  have hslot := decode_leafSlot hholds ha
  rw [hrefines.leaf] at hslot
  unfold walkTable PageMap.walk
  dsimp only
  rw [show va / 2 ^ 12 = va / pageSize from rfl]
  cases hentry : pages (va / pageSize) with
  | none =>
    rw [hentry] at hslot
    exact if_neg fun hvalid => hvalid.1 (decode_eq_empty hslot)
  | some entry =>
    rw [hentry] at hslot
    obtain ⟨hw, -⟩ := decode_eq_leaf hslot
    have haddress : (pageDescriptorOf entry.1.asUsize entry.2).toNat % 2 ^ 48 / 2 ^ 12 * 2 ^ 12 =
        entry.1.asUsize := by
      rw [← and_pageOaMaskL3]
      exact pageDescriptorOf_address entry.1.aligned (hrefines.below _ entry hentry).1
    rw [hw, if_pos ⟨pageDescriptorOf_valid, pageDescriptorOf_page⟩, Option.bind_some]
    unfold leafTranslationAt
    dsimp only
    rw [haddress, hperm.pageAttributes]
    by_cases hlimit : entry.1.asUsize < limit
    · rw [if_pos ⟨pageDescriptorOf_af, hlimit⟩, if_pos hlimit]
      rfl
    · rw [if_neg fun h => hlimit h.2, if_neg hlimit]

/-- The walk from a table on the path of the page. -/
theorem walkTable_path (hholds : Holds m t) (hplain : Plain m t) (hrefines : Refines t pages)
    (hlimit : directMapEnd ≤ limit) (n : ℕ) (hl : l + n = 3) (hperm : Permissive tables)
    (ha : t.node l (up 512 3 l (va / pageSize)) = some (.table a)) :
    walkTable limit mairEl1Value m va n tables a = pages.walk limit va := by
  induction n generalizing l a tables with
  | zero =>
    obtain rfl : l = 3 := by omega
    rw [up_three] at ha
    exact walkTable_last hholds hrefines hperm ha
  | succ n ih =>
    have hslot := slot_of_path hholds (by omega) ha
    have hindex : va / 2 ^ (12 + 9 * (n + 1)) % 512 = up 512 3 (l + 1) (va / pageSize) % 512 :=
      walk_index (n + 1) hl
    cases hnode : t.node (l + 1) (up 512 3 (l + 1) (va / pageSize)) with
    | none =>
      rw [hnode] at hslot
      have hopen := open_end ha hnode (by omega)
      have hnone : pages.walk limit va = none := by
        have hleaf := hrefines.leaf (va / pageSize)
        rw [hopen.2] at hleaf
        unfold PageMap.walk
        rw [Option.map_eq_none_iff.mp hleaf.symm]
        rfl
      rw [hnone]
      unfold walkTable
      dsimp only
      rw [hindex]
      exact if_pos (decode_eq_empty hslot)
    | some node =>
      rw [hnode] at hslot
      cases node with
      | block b => exact absurd ⟨l + 1, b, hnode⟩ (hrefines.unblocked _)
      | table b =>
        have htable : t.IsTable b := ⟨l + 1, _, hnode⟩
        have hwindow := hholds.window b htable
        have hword := hplain l _ a (by omega) ha _ (Nat.mod_lt _ (by decide)) b hslot
        rw [walkTable_table rfl (hholds.aligned b htable)
          (hwindow.trans (by unfold directMapEnd; omega)) (hwindow.trans_le hlimit)
          (by rw [hindex]; exact hword)]
        exact ih (by omega) (hperm.table _) hnode

/-- The whole walk. -/
theorem walkTable_map (hholds : Holds m t) (hplain : Plain m t) (hrefines : Refines t pages)
    (hlimit : directMapEnd ≤ limit) (hva : va < 2 ^ 48) :
    walkTable limit mairEl1Value m va 3 0 t.root = pages.walk limit va := by
  refine walkTable_path hholds hplain hrefines hlimit 3 rfl permissive_zero ?_
  have hzero : up 512 3 0 (va / pageSize) = 0 := by
    unfold up pageSize
    omega
  rw [hzero, t.node_root]

end Walk

/-! ## The tables stay plain -/

/-- The state that a call returned in is the one its first part came to. -/
theorem state_of_bind_return {σ ε α β : Type} {s s' : σ} {c : Prog σ ε α} {g : α → β}
    {r : Except ε β} (h : (c >>= fun x => return g x).run s = .returned r s') :
    (c.run s).state = some s' := by
  cases hrun : c.run s with
  | ok x s₁ =>
    rw [Prog.bind_ok hrun] at h
    cases r <;> cases h
    rfl
  | err e s₁ =>
    rw [Prog.bind_err hrun] at h
    cases r <;> cases h
    rfl
  | panic p =>
    rw [Prog.bind_panic hrun] at h
    cases r <;> cases h

section Keeps

variable {σ : Type} [Hardware σ] {src : FrameSource σ} {s s₁ s' : σ} {m m' : Memory}
  {t t' : PageTree} {f : PhysFrame} {k l a : ℕ} {w : BitVec 64} {as_ : QemuVirtAddressSpace}

/-- The memory determines the tables below a root. -/
theorem Holds.node_unique (h : Holds m t) (h' : Holds m t') (hroot : t'.root = t.root) (l k : ℕ) :
    t'.node l k = t.node l k := by
  induction l generalizing k with
  | zero =>
    by_cases hk : k = 0
    · rw [hk, t.node_root, t'.node_root, hroot]
    · rw [t.node_zero k hk, t'.node_zero k hk]
  | succ l ih =>
    by_cases hparent : ∃ a, t.node l (k / 512) = some (.table a)
    · by_cases hl : l < 3
      · obtain ⟨a, ha⟩ := hparent
        have hslot := h.readWord_of_slot ha
        have hslot' := h'.readWord_of_slot ((ih _).trans ha)
        rw [hslot, slot_node hl, slot_node hl] at hslot'
        exact Slot.ofNode_injective hslot'.symm
      · rw [t.node_deep _ _ (by omega), t'.node_deep _ _ (by omega)]
    · have hnone : t.node (l + 1) k = none := by
        by_contra hne
        exact hparent (t.node_parent l k hne)
      have hnone' : t'.node (l + 1) k = none := by
        by_contra hne
        obtain ⟨a, ha⟩ := t'.node_parent l k hne
        exact hparent ⟨a, (ih _).symm.trans ha⟩
      rw [hnone, hnone']

theorem Holds.leaf_unique (h : Holds m t) (h' : Holds m t') (hroot : t'.root = t.root) (k : ℕ) :
    t'.leaf k = t.leaf k := by
  by_cases hparent : ∃ a, t.node 3 (k / 512) = some (.table a)
  · obtain ⟨a, ha⟩ := hparent
    have hslot := decode_leafSlot h ha
    have hslot' := decode_leafSlot h' ((h.node_unique h' hroot _ _).trans ha)
    rw [hslot] at hslot'
    exact Slot.ofLeaf_injective hslot'.symm
  · have hnone : t.leaf k = none := by
      by_contra hne
      exact hparent (t.leaf_parent k hne)
    have hnone' : t'.leaf k = none := by
      by_contra hne
      obtain ⟨a, ha⟩ := t'.leaf_parent k hne
      exact hparent ⟨a, (h.node_unique h' hroot _ _).symm.trans ha⟩
    rw [hnone, hnone']

theorem Refines.of_holds {pages : PageMap} (hrefines : Refines t pages) (h : Holds m t)
    (h' : Holds m t') (hroot : t'.root = t.root) : Refines t' pages where
  unblocked k hblocked := by
    obtain ⟨l, b, hb⟩ := hblocked
    rw [h.node_unique h' hroot] at hb
    exact hrefines.unblocked k ⟨l, b, hb⟩
  leaf k := (h.leaf_unique h' hroot k).trans (hrefines.leaf k)
  below := hrefines.below

namespace Plain

theorem of_holds (hplain : Plain m t) (h : Holds m t) (h' : Holds m t') (hroot : t'.root = t.root) :
    Plain m t' := by
  intro l k a hl ha
  rw [h.node_unique h' hroot] at ha
  exact hplain l k a hl ha

theorem congr (hplain : Plain m t) (hsame : ∀ a i, t.IsTable a → i < 512 →
    m'.readWord (a + 8 * i) = m.readWord (a + 8 * i)) : Plain m' t := by
  intro l k a hl ha i hi b
  rw [hsame a i ⟨l, k, ha⟩ hi]
  exact hplain l k a hl ha i hi b

/-- A zeroed root has no descriptors. -/
theorem of_zero {root : ℕ} (hzero : ∀ x, InFrame root x → m x = 0) :
    Plain m (Tree.empty 512 3 _ _ root) := by
  intro l k a hl ha i hi b hdecode
  have hroot : a = root := isTable_empty.mp ⟨l, k, ha⟩
  rw [hroot, readWord_zero fun j hj => hzero _ (inFrame_slot hi hj),
    decode_empty (by decide)] at hdecode
  cases hdecode

/-- An allocation writes no table. -/
theorem alloc (hplain : Plain (Hardware.memory s) t) (howns : Owns src s t) {r : Option PhysFrame}
    (halloc : src.alloc.run s = .ok r s₁) : Plain (Hardware.memory s₁) t := by
  have hoff : Memory.AgreesOff (src.offers s) (Hardware.memory s) (Hardware.memory s₁) := by
    cases r with
    | none => exact (FrameSource.alloc_none howns.valid halloc).2.2
    | some f => exact (FrameSource.alloc_some howns.valid halloc).2.2.2.2
  exact hplain.congr fun a i ha hi => readWord_agreesOff hoff
    (fun b hb => (src.in_window howns.valid hb).1) (howns.holds.aligned a ha) (howns.apart a ha) hi

/-- A new table is linked by a descriptor that forbids nothing, and is empty. -/
theorem link (hplain : Plain (Hardware.memory s) t) (howns : Owns src s t)
    (halloc : src.alloc.run s = .ok (some f) s₁) (hl : l < 3)
    (ha : t.node l (k / 512) = some (.table a)) (hempty : t.node (l + 1) k = none) :
    Plain (Hardware.memory (Hardware.store (a + 8 * (k % 512))
      (tableDescriptor (BitVec.ofNat 64 f.asUsize)) s₁))
      (t.graft l k f.asUsize hl ⟨a, ha⟩ hempty (howns.fresh halloc)) := by
  obtain ⟨-, hoffered, -, hzero, -⟩ := FrameSource.alloc_some howns.valid halloc
  have hf := src.in_window howns.valid hoffered
  have htable : t.IsTable a := ⟨l, k / 512, ha⟩
  have haligned := howns.holds.aligned a htable
  have hk : k % 512 < 512 := Nat.mod_lt k (by decide)
  have hfa : f.asUsize ≠ a := fun heq => howns.fresh halloc (heq ▸ htable)
  intro l' k' a' hl' ha' i hi b hdecode
  rw [Hardware.memory_store] at hdecode ⊢
  by_cases hnew : l' = l + 1 ∧ k' = k
  · -- the new table is still zero
    obtain ⟨rfl, rfl⟩ := hnew
    rw [graft_node_self] at ha'
    cases ha'
    rw [readWord_writeWord_slot haligned hf.1 hk hi fun h => hfa h.1,
      readWord_zero fun j hj => hzero _ (inFrame_slot hi hj), decode_empty (by decide)] at hdecode
    cases hdecode
  · rw [graft_node_of_ne hnew] at ha'
    by_cases hslot : a' = a ∧ i = k % 512
    · obtain ⟨rfl, rfl⟩ := hslot
      rw [readWord_writeWord_self] at hdecode ⊢
      rw [decode_tableDescriptor hl' hf.1 hf.2] at hdecode
      cases hdecode
      rfl
    · have htable' : t.IsTable a' := ⟨l', k', ha'⟩
      rw [readWord_writeWord_slot haligned (howns.holds.aligned a' htable') hk hi hslot]
        at hdecode ⊢
      exact (hplain.alloc howns halloc) l' k' a' hl' ha' i hi b hdecode

/-- A leaf is written in a table of the last level. -/
theorem writeLeaf (hplain : Plain (Hardware.memory s) t) (howns : Owns src s t)
    (ha : t.node 3 (k / 512) = some (.table a)) (o : Option (BitVec 64)) :
    Plain (Hardware.memory (Hardware.store (a + 8 * (k % 512)) w s)) (t.setLeaf k o ⟨a, ha⟩) := by
  intro l' k' a' hl' ha' i hi b
  have hnode : t.node l' k' = some (.table a') := ha'
  have hne : a' ≠ a := by
    rintro rfl
    have hlevel := (t.node_inj _ _ _ _ _ hnode ha).1
    omega
  rw [Hardware.memory_store, readWord_writeWord_slot (howns.holds.aligned a ⟨3, _, ha⟩)
    (howns.holds.aligned a' ⟨l', k', hnode⟩) (Nat.mod_lt k (by decide)) hi fun h => hne h.1]
  exact hplain l' k' a' hl' hnode i hi b

theorem builds {as : List ℕ} (h : Builds src k s t as s' t') (howns : Owns src s t)
    (hplain : Plain (Hardware.memory s) t) : Plain (Hardware.memory s') t' := by
  induction h with
  | refl s t => exact hplain
  | link halloc hl ha hempty _ _ ih =>
    exact ih (howns.link halloc hl ha hempty) (hplain.link howns halloc hl ha hempty)

/-- However `map` ends. -/
theorem map {va : VirtAddr} {pa : PhysFrame} {flags : MappingFlags}
    {r : Result σ MmuError MapperFlush} (h : MapEnd src va pa flags s t r) (howns : Owns src s t)
    (hplain : Plain (Hardware.memory s) t) (hs' : r.state = some s') :
    ∃ t', Owns src s' t' ∧ t'.root = t.root ∧ Plain (Hardware.memory s') t' := by
  cases h with
  | misaligned _ =>
    cases hs'
    exact ⟨t, howns, rfl, hplain⟩
  | invalid _ _ =>
    cases hs'
    exact ⟨t, howns, rfl, hplain⟩
  | occupied _ _ h _ =>
    cases hs'
    exact ⟨_, h.owns howns, h.grows.root, hplain.builds h howns⟩
  | exhausted _ _ h hrefused _ _ =>
    cases hs'
    have howns₁ := h.owns howns
    exact ⟨_, howns₁.dry hrefused, h.grows.root, (hplain.builds h howns).alloc howns₁ hrefused⟩
  | mapped _ _ h ha _ =>
    cases hs'
    have howns₁ := h.owns howns
    exact ⟨_, howns₁.writeLeaf (o := some _) ha (decode_leaf pageDescriptorOf_valid), h.grows.root,
      (hplain.builds h howns).writeLeaf howns₁ ha _⟩

/-- However `unmap` ends. -/
theorem unmap {va : VirtAddr} {r : Result σ MmuError (MapperFlush × PhysFrame)}
    (h : UnmapEnd va s t r) (howns : Owns src s t) (hplain : Plain (Hardware.memory s) t)
    (hs' : r.state = some s') :
    ∃ t', Owns src s' t' ∧ t'.root = t.root ∧ Plain (Hardware.memory s') t' := by
  cases h with
  | misaligned _ =>
    cases hs'
    exact ⟨t, howns, rfl, hplain⟩
  | missing _ _ =>
    cases hs'
    exact ⟨t, howns, rfl, hplain⟩
  | blocked _ _ =>
    cases hs'
    exact ⟨t, howns, rfl, hplain⟩
  | cleared _ ha _ =>
    cases hs'
    exact ⟨_, howns.writeLeaf (w := 0) (o := none) ha (decode_empty (by decide)), rfl,
      hplain.writeLeaf howns ha none⟩

end Plain

variable [Build] {ev : MapEvent} {pages : PageMap}

/-- A call that returned. -/
theorem Plain.exec (hplain : Plain (Hardware.memory s) t) (howns : Owns src s t)
    (hroot : as_.root.asUsize = t.root)
    (hrun : (ev.op.exec src as_).run s = .returned ev.reply s') :
    ∃ t', Owns src s' t' ∧ t'.root = t.root ∧ Plain (Hardware.memory s') t' := by
  obtain ⟨op, reply⟩ := ev
  cases op with
  | map va pa flags =>
    exact hplain.map (map_run howns hroot va pa flags) howns
      (state_of_bind_return (g := fun _ => none) hrun)
  | unmap va =>
    exact hplain.unmap (unmap_run howns.holds hroot va) howns
      (state_of_bind_return (g := fun x : MapperFlush × PhysFrame => some x.2) hrun)

/-- The tables of the address space hold the map of pages, and forbid nothing. -/
structure Walkable (as_ : QemuVirtAddressSpace) (m : Memory) (pages : PageMap) (t : PageTree) :
    Prop where
  holds : Holds m t
  root : t.root = as_.root.asUsize
  refines : Refines t pages
  plain : Plain m t

omit [Build] in
/-- What the hardware finds with the tables in `TTBR0_EL1`. -/
theorem Walkable.ttbr0Walk {limit va : ℕ} {r : Regime} (h : Walkable as_ r.memory pages t)
    (hlimit : directMapEnd ≤ limit) (hmair : r.mairEl1 = mairEl1Value) (htcr : Ttbr0On r.tcrEl1)
    (hroot : r.ttbr0El1 = BitVec.ofNat 64 as_.root.asUsize) (hva : va < 2 ^ 48) :
    r.ttbr0Walk limit va = pages.walk limit va := by
  have htable := t.isTable_root
  have hwindow := h.holds.window _ htable
  have haddress : (BitVec.ofNat 64 t.root &&& tableNlaMask).toNat = t.root :=
    and_pageOaMaskL3_of_aligned (h.holds.aligned _ htable)
      (hwindow.trans (by unfold directMapEnd; omega))
  unfold Regime.ttbr0Walk
  rw [if_pos htcr, hmair, hroot, ← h.root, haddress]
  exact walkTable_map h.holds h.plain h.refines hlimit hva

/-- A call keeps the tables walkable, for the map of pages that it leaves. -/
theorem Walkable.step (h : Walkable as_ (Hardware.memory s) pages t) (howns : Owns src s t)
    (hstep : MapStep src as_ s ev s') :
    ∃ t', Owns src s' t' ∧ Walkable as_ (Hardware.memory s') (ev.apply pages) t' := by
  obtain ⟨t', howns', hroot', hrefines'⟩ :=
    Reflects.step ⟨t, howns, h.root.symm, h.refines⟩ hstep
  obtain ⟨t'', howns'', hroot'', hplain⟩ := h.plain.exec howns h.root.symm hstep.2
  have hsame : t'.root = t''.root := hroot'.symm.trans (h.root.symm.trans hroot''.symm)
  exact ⟨t', howns', howns'.holds, hroot'.symm, hrefines',
    hplain.of_holds howns''.holds howns'.holds hsame⟩

/-- After every sequence of `map` and `unmap` calls on an address space with a zeroed root,
whatever frames the provider hands out, the walk of the hardware with that root in `TTBR0_EL1`
gives each address of the low half the frame and the permissions of the last successful `map`
of its page that has not been undone, and no other address anything. -/
theorem hardware_walks_map {s₀ : σ} {evs : List MapEvent} {limit : ℕ}
    (hroot : as_.root.asUsize < directMapEnd)
    (hzero : ∀ a, InFrame as_.root.asUsize a → Hardware.memory s₀ a = 0) (hvalid : src.Valid s₀)
    (hapart : as_.root.asUsize ∉ src.offers s₀) (hrun : Run (MapStep src as_) s₀ evs s)
    (hlimit : directMapEnd ≤ limit) (r : Regime) (hmemory : r.memory = Hardware.memory s)
    (hmair : r.mairEl1 = mairEl1Value) (htcr : Ttbr0On r.tcrEl1)
    (httbr0 : r.ttbr0El1 = BitVec.ofNat 64 as_.root.asUsize) :
    ∀ va < 2 ^ 48, r.ttbr0Walk limit va = (mappings evs).walk limit va := by
  have hstart : ∃ t, Owns src s₀ t ∧ Walkable as_ (Hardware.memory s₀) (mappings []) t := by
    have hholds := holds_empty as_.root.aligned hroot hzero
    refine ⟨_, ⟨hholds, hvalid, fun a ha => ?_⟩, hholds, rfl, refines_empty, .of_zero hzero⟩
    rw [isTable_empty.mp ha]
    exact hapart
  obtain ⟨t, -, hwalkable⟩ : ∃ t, Owns src s t ∧
      Walkable as_ (Hardware.memory s) (mappings evs) t := by
    apply hrun.history (I := fun evs s => ∃ t, Owns src s t ∧
      Walkable as_ (Hardware.memory s) (mappings evs) t) hstart
    intro past s₁ ev s₂ hpast hstep
    obtain ⟨t, howns, hwalkable⟩ := hpast
    rw [mappings_snoc]
    exact hwalkable.step howns hstep
  rw [← hmemory] at hwalkable
  exact fun va hva => hwalkable.ttbr0Walk hlimit hmair htcr httbr0 hva

omit [Build] in
/-- One page is mapped, and the hardware finds it and not the next one. -/
theorem hardware_walks_map_eightFrames : let _ : Build := debugBuild
    let as_ : QemuVirtAddressSpace := ⟨⟨⟨0⟩, rfl⟩⟩
    let pa : PhysFrame := ⟨⟨0x100000⟩, rfl⟩
    ∃ s, MapStep eightFramesSource as_ ⟨eightFramesPmm, fun _ => 0⟩
        ⟨.map ⟨0x400000⟩ pa .user, .ok none⟩ s ∧
      Regime.ttbr0Walk (2 ^ 40) ⟨s.memory, mairEl1Value, tcrEl1Value, 0, 0, 0⟩ 0x400123 =
        some ⟨0x100123, MappingFlags.user.attributes⟩ ∧
      Regime.ttbr0Walk (2 ^ 40) ⟨s.memory, mairEl1Value, tcrEl1Value, 0, 0, 0⟩ 0x401123 = none := by
  intro _ as_ pa
  obtain ⟨hvalid, hapart, hseven⟩ := eightFramesSource_start fun _ => 0
  have hwindow : as_.root.asUsize < directMapEnd := by decide
  have hstart : Reflects eightFramesSource as_ ⟨eightFramesPmm, fun _ => 0⟩ (mappings []) :=
    .of_zero hwindow (fun _ _ => rfl) hvalid hapart
  have hbelow : (MapOp.map ⟨0x400000⟩ pa .user).Below := ⟨by decide, by decide⟩
  have hon : Ttbr0On tcrEl1Value := by decide
  obtain ⟨s, hstep, _⟩ :=
    hstart.maps eightFramesSource_lasting hbelow rfl (by decide) rfl (by omega)
  have hlimit : directMapEnd ≤ 2 ^ 40 := by decide
  have hwalks := hardware_walks_map hwindow (fun _ _ => rfl) hvalid hapart (.single hstep)
    hlimit ⟨s.memory, mairEl1Value, tcrEl1Value, 0, 0, 0⟩ rfl rfl hon rfl
  exact ⟨s, hstep, hwalks 0x400123 (by decide), hwalks 0x401123 (by decide)⟩

end Keeps

end Tyrne
