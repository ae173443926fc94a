import Tyrne.Bsp.Mapping
import Tyrne.Bsp.Spaces

/-!
# Several address spaces over one provider

`tableFrames` reads the tables of an address space off the memory. An edit of one address
space writes only to its own tables, those it had and those it has pulled from the provider,
so a family of address spaces whose tables are apart stays one.
-/

namespace Tyrne

open Radix Tree

/-! ## The tables that the memory holds -/

/-- The table at `a` is reached from the root through descriptors of the levels above `l`. -/
inductive Reaches (m : Memory) (root : ℕ) : ℕ → ℕ → Prop
  | root : Reaches m root 0 root
  | table {l a i b : ℕ} (h : Reaches m root l a) (hl : l < 3) (hi : i < 512)
      (hentry : entry m l a i = .table b) : Reaches m root (l + 1) b

/-- The frames of the tables of the address space with this root. -/
def tableFrames (m : Memory) (root : ℕ) : Set ℕ := {a | ∃ l, Reaches m root l a}

section Frames

variable {m : Memory} {t : PageTree} {l k a : ℕ}

theorem Holds.node_of_reaches (h : Holds m t) (hreaches : Reaches m t.root l a) :
    ∃ k, t.node l k = some (.table a) := by
  induction hreaches with
  | root => exact ⟨0, t.node_root⟩
  | @table l a i b _ hl hi hentry ih =>
    obtain ⟨k, hk⟩ := ih
    have hslot := h.stores l k a hk i hi
    rw [hentry, slot_node hl] at hslot
    cases hnode : t.node (l + 1) (k * 512 + i) with
    | none =>
      rw [hnode] at hslot
      cases hslot
    | some n =>
      rw [hnode] at hslot
      cases n with
      | table b' =>
        cases hslot
        exact ⟨_, hnode⟩
      | block b' => cases hslot

theorem Holds.reaches_of_node (h : Holds m t) (hnode : t.node l k = some (.table a)) :
    Reaches m t.root l a := by
  induction l generalizing k a with
  | zero =>
    have hk : k = 0 := by
      by_contra hne
      rw [t.node_zero k hne] at hnode
      cases hnode
    rw [hk, t.node_root] at hnode
    cases hnode
    exact .root
  | succ l ih =>
    have hl : l < 3 := by
      by_contra hdeep
      rw [t.node_deep (l + 1) k (by omega)] at hnode
      cases hnode
    obtain ⟨p, hp⟩ := t.node_parent l k (hnode ▸ Option.some_ne_none _)
    have hi : k % 512 < 512 := Nat.mod_lt k (by decide)
    refine .table (ih hp) hl hi ?_
    have hslot := h.stores l (k / 512) p hp (k % 512) hi
    rw [hslot, Nat.div_add_mod', slot_of_node hnode hl]

/-- The memory reaches the tables of the tree that it holds. -/
theorem Holds.tableFrames_eq (h : Holds m t) : tableFrames m t.root = {a | t.IsTable a} := by
  ext a
  constructor
  · intro ha
    obtain ⟨l, hreaches⟩ := ha
    obtain ⟨k, hk⟩ := h.node_of_reaches hreaches
    exact ⟨l, k, hk⟩
  · intro ha
    obtain ⟨l, k, hk⟩ := ha
    exact ⟨l, h.reaches_of_node hk⟩

end Frames

/-! ## Edits -/

/-- The tables `t` have become `t'`: they keep their root, the new tables were on offer, and
only tables were written. -/
structure Edits {σ : Type} [Hardware σ] (src : FrameSource σ) (s : σ) (t : PageTree) (s' : σ)
    (t' : PageTree) : Prop where
  root : t'.root = t.root
  owns : Owns src s' t'
  offers : src.offers s' ⊆ src.offers s
  kept : ∀ a, t.IsTable a → t'.IsTable a
  grown : ∀ a, t'.IsTable a → t.IsTable a ∨ a ∈ src.offers s
  memory : Memory.AgreesOff {a | t'.IsTable a} (Hardware.memory s) (Hardware.memory s')

section Edit

variable {σ : Type} [Hardware σ] {src : FrameSource σ} {s s' s'' : σ} {t t' t'' : PageTree}
  {f : PhysFrame} {k l a : ℕ} {as : List ℕ}

namespace Edits

theorem refl (howns : Owns src s t) : Edits src s t s t where
  root := rfl
  owns := howns
  offers := fun _ ha => ha
  kept _ ha := ha
  grown _ ha := Or.inl ha
  memory := Memory.AgreesOff.refl _ _

theorem trans (h : Edits src s t s' t') (h' : Edits src s' t' s'' t'') : Edits src s t s'' t'' where
  root := h'.root.trans h.root
  owns := h'.owns
  offers := fun _ ha => h.offers (h'.offers ha)
  kept a ha := h'.kept a (h.kept a ha)
  grown a ha := by
    rcases h'.grown a ha with hold | hnew
    · exact h.grown a hold
    · exact Or.inr (h.offers hnew)
  memory := (h.memory.mono fun a ha => h'.kept a ha).trans h'.memory

/-- A frame that is neither a table nor offered is neither afterwards. -/
theorem spares (h : Edits src s t s' t') (htable : ¬ t.IsTable a) (hfree : a ∉ src.offers s) :
    ¬ t'.IsTable a ∧ a ∉ src.offers s' := by
  refine ⟨fun hcon => ?_, fun hcon => hfree (h.offers hcon)⟩
  rcases h.grown a hcon with hold | hnew
  · exact htable hold
  · exact hfree hnew

end Edits

theorem Owns.edits_dry (htidy : src.Tidy) (howns : Owns src s t)
    (halloc : src.alloc.run s = .ok none s') : Edits src s t s' t where
  root := rfl
  owns := howns.dry halloc
  offers := by
    rw [(FrameSource.alloc_none howns.valid halloc).2.1]
  kept _ ha := ha
  grown _ ha := Or.inl ha
  memory := by
    rw [htidy.refused howns.valid halloc]
    exact Memory.AgreesOff.refl _ _

theorem Owns.edits_link (htidy : src.Tidy) (howns : Owns src s t)
    (halloc : src.alloc.run s = .ok (some f) s') (hl : l < 3)
    (ha : t.node l (k / 512) = some (.table a)) (hempty : t.node (l + 1) k = none) :
    Edits src s t
      (Hardware.store (a + 8 * (k % 512)) (tableDescriptor (BitVec.ofNat 64 f.asUsize)) s')
      (t.graft l k f.asUsize hl ⟨a, ha⟩ hempty (howns.fresh halloc)) where
  root := rfl
  owns := howns.link halloc hl ha hempty
  offers := by
    rw [howns.link_offers halloc ⟨l, _, ha⟩ (Nat.mod_lt k (by decide))]
    exact fun _ hb => hb.1
  kept _ hb := isTable_graft.mpr (Or.inl hb)
  grown b hb := by
    rcases isTable_graft.mp hb with hold | rfl
    · exact Or.inl hold
    · exact Or.inr (FrameSource.alloc_some howns.valid halloc).2.1
  memory := by
    have hhanded := htidy.handed howns.valid halloc
    have hstore := store_agreesOff (s := s') (a := a) (Nat.mod_lt k (by decide))
      (tableDescriptor (BitVec.ofNat 64 f.asUsize))
    refine (hhanded.mono fun b hb => ?_).trans (hstore.mono fun b hb => ?_)
    · exact isTable_graft.mpr (Or.inr hb)
    · rw [Set.mem_singleton_iff.mp hb]
      exact isTable_graft.mpr (Or.inl ⟨l, _, ha⟩)

theorem Owns.edits_leaf (howns : Owns src s t) (ha : t.node 3 (k / 512) = some (.table a))
    {w : BitVec 64} {o : Option (BitVec 64)} (hw : decode 3 w = .ofLeaf o) :
    Edits src s t (Hardware.store (a + 8 * (k % 512)) w s) (t.setLeaf k o ⟨a, ha⟩) where
  root := rfl
  owns := howns.writeLeaf ha hw
  offers := by
    rw [(howns.store ⟨3, _, ha⟩ (Nat.mod_lt k (by decide)) w).2]
  kept _ hb := hb
  grown _ hb := Or.inl hb
  memory := by
    refine (store_agreesOff (Nat.mod_lt k (by decide)) w).mono fun b hb => ?_
    rw [Set.mem_singleton_iff.mp hb]
    exact ⟨3, _, ha⟩

theorem Owns.edits_flush (htidy : src.Tidy) (howns : Owns src s t) (w : BitVec 64) :
    Edits src s t (Hardware.tlbiVae1 w s) t where
  root := rfl
  owns := by
    obtain ⟨hvalid, hoffers⟩ := htidy.flushed w howns.valid
    refine ⟨?_, hvalid, fun a ha => ?_⟩
    · rw [Hardware.memory_tlbiVae1]
      exact howns.holds
    · rw [hoffers]
      exact howns.apart a ha
  offers := by
    rw [(htidy.flushed w howns.valid).2]
  kept _ ha := ha
  grown _ ha := Or.inl ha
  memory := by
    rw [Hardware.memory_tlbiVae1]
    exact Memory.AgreesOff.refl _ _

theorem Builds.edits (htidy : src.Tidy) (h : Builds src k s t as s' t') (howns : Owns src s t) :
    Edits src s t s' t' := by
  induction h with
  | refl s t => exact .refl howns
  | link halloc hl ha hempty _ _ ih =>
    have hlink := howns.edits_link htidy halloc hl ha hempty
    exact hlink.trans (ih hlink.owns)

end Edit

section Calls

variable [Build] {σ : Type} [Hardware σ] {src : FrameSource σ} {s s' : σ} {t : PageTree}
  {as_ : QemuVirtAddressSpace} {va : VirtAddr} {pa : PhysFrame} {flags : MappingFlags}

omit [Build] in
/-- However `map` ends, it has edited its own tables. -/
theorem MapEnd.edits {r : Result σ MmuError MapperFlush} (h : MapEnd src va pa flags s t r)
    (htidy : src.Tidy) (howns : Owns src s t) (hs' : r.state = some s') :
    ∃ t', Edits src s t s' t' := by
  cases h with
  | misaligned _ =>
    cases hs'
    exact ⟨t, .refl howns⟩
  | invalid _ _ =>
    cases hs'
    exact ⟨t, .refl howns⟩
  | occupied _ _ h _ =>
    cases hs'
    exact ⟨_, h.edits htidy howns⟩
  | exhausted _ _ h hrefused _ _ =>
    cases hs'
    have hbuilt := h.edits htidy howns
    exact ⟨_, hbuilt.trans (hbuilt.owns.edits_dry htidy hrefused)⟩
  | mapped _ _ h ha _ =>
    cases hs'
    have hbuilt := h.edits htidy howns
    exact ⟨_, hbuilt.trans (hbuilt.owns.edits_leaf (o := some _) ha
      (decode_leaf pageDescriptorOf_valid))⟩

omit [Build] in
theorem UnmapEnd.edits {r : Result σ MmuError (MapperFlush × PhysFrame)} (h : UnmapEnd va s t r)
    (howns : Owns src s t) (hs' : r.state = some s') : ∃ t', Edits src s t s' t' := by
  cases h with
  | misaligned _ =>
    cases hs'
    exact ⟨t, .refl howns⟩
  | missing _ _ =>
    cases hs'
    exact ⟨t, .refl howns⟩
  | blocked _ _ =>
    cases hs'
    exact ⟨t, .refl howns⟩
  | cleared _ ha _ =>
    cases hs'
    exact ⟨_, howns.edits_leaf (w := 0) (o := none) ha (decode_empty (by decide))⟩

end Calls

/-! ## Families -/

/-- The address spaces of `S` are live, the machine owns their tables, and no frame is a table
of two of them. -/
structure Family {σ : Type} [Hardware σ] (src : FrameSource σ) (S : Set AddressSpaceHandle)
    (arena : AddressSpaceArena QemuVirtAddressSpace) (s : σ) (T : AddressSpaceHandle → PageTree) :
    Prop where
  live : ∀ h ∈ S, ∃ as_ : QemuVirtAddressSpace, arena.get h.slot = some ⟨as_⟩ ∧
    as_.root.asUsize = (T h).root
  owns : ∀ h ∈ S, Owns src s (T h)
  apart : ∀ h ∈ S, ∀ h' ∈ S, h ≠ h' → ∀ a, (T h).IsTable a → ¬ (T h').IsTable a

namespace Family

variable {σ : Type} [Hardware σ] {src : FrameSource σ} {S : Set AddressSpaceHandle}
  {arena arena' : AddressSpaceArena QemuVirtAddressSpace} {s s' : σ}
  {T : AddressSpaceHandle → PageTree} {h : AddressSpaceHandle} {t' : PageTree}

/-- The tables of another space are not among those of an edited one. -/
theorem apart_edits (hfam : Family src S arena s T) (hh : h ∈ S)
    (hedits : Edits src s (T h) s' t') {h' : AddressSpaceHandle} (hh' : h' ∈ S) (hne : h' ≠ h)
    {a : ℕ} (ha : (T h').IsTable a) : ¬ t'.IsTable a :=
  (hedits.spares (hfam.apart h' hh' h hh hne a ha) ((hfam.owns h' hh').apart a ha)).1

/-- An edit of one address space leaves the tables of another as they are. -/
theorem owns_edits (hfam : Family src S arena s T) (hh : h ∈ S)
    (hedits : Edits src s (T h) s' t') {h' : AddressSpaceHandle} (hh' : h' ∈ S) (hne : h' ≠ h) :
    Owns src s' (T h') where
  holds := (hfam.owns h' hh').holds.agreesOff hedits.memory
    (fun _ hb => hedits.owns.holds.aligned _ hb) fun _ ha => hfam.apart_edits hh hedits hh' hne ha
  valid := hedits.owns.valid
  apart a ha hmem := (hfam.owns h' hh').apart a ha (hedits.offers hmem)

theorem edits (hfam : Family src S arena s T) (hh : h ∈ S)
    (hedits : Edits src s (T h) s' t') : Family src S arena s' (Function.update T h t') where
  live h' hh' := by
    obtain ⟨as_, hget, hroot⟩ := hfam.live h' hh'
    refine ⟨as_, hget, ?_⟩
    by_cases hne : h' = h
    · rw [hne] at hroot ⊢
      rw [Function.update_self, hedits.root, hroot]
    · rw [Function.update_of_ne hne, hroot]
  owns h' hh' := by
    by_cases hne : h' = h
    · rw [hne, Function.update_self]
      exact hedits.owns
    · rw [Function.update_of_ne hne]
      exact hfam.owns_edits hh hedits hh' hne
  apart h₁ hh₁ h₂ hh₂ hne a ha := by
    by_cases h₁h : h₁ = h
    · have h₂h : h₂ ≠ h := fun heq => hne (h₁h.trans heq.symm)
      rw [h₁h, Function.update_self] at ha
      rw [Function.update_of_ne h₂h]
      exact fun hcon => hfam.apart_edits hh hedits hh₂ h₂h hcon ha
    · rw [Function.update_of_ne h₁h] at ha
      by_cases h₂h : h₂ = h
      · rw [h₂h, Function.update_self]
        exact hfam.apart_edits hh hedits hh₁ h₁h ha
      · rw [Function.update_of_ne h₂h]
        exact hfam.apart h₁ hh₁ h₂ hh₂ hne a ha

/-- The tables are those of other states that agree on them. -/
theorem congr (hfam : Family src S arena s T) (hvalid : src.Valid s')
    (hget : ∀ h ∈ S, arena'.get h.slot = arena.get h.slot)
    (hholds : ∀ h ∈ S, Holds (Hardware.memory s') (T h))
    (hoffers : ∀ h ∈ S, ∀ a, (T h).IsTable a → a ∉ src.offers s') : Family src S arena' s' T where
  live h hh := by
    rw [hget h hh]
    exact hfam.live h hh
  owns h hh := ⟨hholds h hh, hvalid, hoffers h hh⟩
  apart := hfam.apart

/-- A refused allocation changes no space. -/
theorem dry (hfam : Family src S arena s T) (hvalid : src.Valid s)
    (halloc : src.alloc.run s = .ok none s') : Family src S arena s' T :=
  hfam.congr (FrameSource.alloc_none hvalid halloc).1 (fun _ _ => rfl)
    (fun h hh => ((hfam.owns h hh).dry halloc).holds)
    fun h hh => ((hfam.owns h hh).dry halloc).apart

/-- An allocated frame is no table of the family. -/
theorem alloc {f : PhysFrame} (hfam : Family src S arena s T) (hvalid : src.Valid s)
    (halloc : src.alloc.run s = .ok (some f) s') :
    Family src S arena s' T ∧ ∀ h ∈ S, ¬ (T h).IsTable f.asUsize :=
  ⟨hfam.congr (FrameSource.alloc_some hvalid halloc).1 (fun _ _ => rfl)
      (fun h hh => ((hfam.owns h hh).alloc halloc).holds)
      fun h hh => ((hfam.owns h hh).alloc halloc).apart,
    fun h hh => (hfam.owns h hh).fresh halloc⟩

/-- A new space over an allocated frame. -/
theorem create {root : PhysFrame} (hfam : Family src S arena s T) (hvalid : src.Valid s)
    (halloc : src.alloc.run s = .ok (some root) s') (hh : h ∉ S)
    (hnew : arena'.get h.slot = some ⟨⟨root⟩⟩)
    (hget : ∀ id, id ≠ h.slot → arena'.get id = arena.get id) :
    Family src (insert h S) arena' s'
      (Function.update T h (Tree.empty 512 3 _ _ root.asUsize)) := by
  obtain ⟨hfam', hfresh⟩ := hfam.alloc hvalid halloc
  obtain ⟨hvalid', hoffered, hoffers, hzero, _⟩ := FrameSource.alloc_some hvalid halloc
  have hother : ∀ h' ∈ S, h' ≠ h := fun h' hh' heq => hh (heq ▸ hh')
  refine ⟨fun h' hh' => ?_, fun h' hh' => ?_, fun h₁ hh₁ h₂ hh₂ hne a ha => ?_⟩
  · rcases Set.mem_insert_iff.mp hh' with rfl | hold
    · rw [Function.update_self]
      exact ⟨⟨root⟩, hnew, rfl⟩
    · have hslot : h'.slot ≠ h.slot := by
        intro heq
        apply hother h' hold
        obtain ⟨id⟩ := h
        obtain ⟨id'⟩ := h'
        dsimp only at heq
        rw [heq]
      rw [Function.update_of_ne (hother h' hold), hget _ hslot]
      exact hfam.live h' hold
  · rcases Set.mem_insert_iff.mp hh' with rfl | hold
    · rw [Function.update_self]
      refine ⟨holds_empty root.aligned (src.in_window hvalid hoffered).2 hzero, hvalid',
        fun a ha => ?_⟩
      rw [isTable_empty.mp ha, hoffers]
      exact fun hcon => hcon.2 rfl
    · rw [Function.update_of_ne (hother h' hold)]
      exact hfam'.owns h' hold
  · rcases Set.mem_insert_iff.mp hh₁ with rfl | hold₁
    · rcases Set.mem_insert_iff.mp hh₂ with rfl | hold₂
      · exact absurd rfl hne
      · rw [Function.update_self] at ha
        rw [Function.update_of_ne (hother h₂ hold₂), isTable_empty.mp ha]
        exact hfresh h₂ hold₂
    · rw [Function.update_of_ne (hother h₁ hold₁)] at ha
      rcases Set.mem_insert_iff.mp hh₂ with rfl | hold₂
      · rw [Function.update_self]
        intro hcon
        rw [isTable_empty.mp hcon] at ha
        exact hfresh h₁ hold₁ ha
      · rw [Function.update_of_ne (hother h₂ hold₂)]
        exact hfam.apart h₁ hold₁ h₂ hold₂ hne a ha

/-- What the memory says of the tables of a space. -/
theorem tableFrames_eq (hfam : Family src S arena s T) (hh : h ∈ S) {as_ : QemuVirtAddressSpace}
    (hget : arena.get h.slot = some ⟨as_⟩) :
    tableFrames (Hardware.memory s) as_.root.asUsize = {a | (T h).IsTable a} := by
  obtain ⟨as', hget', hroot⟩ := hfam.live h hh
  rw [hget] at hget'
  cases hget'
  rw [hroot]
  exact (hfam.owns h hh).holds.tableFrames_eq

end Family

/-! ## Gated calls on a family -/

section Gated

open Spaces

variable [Build] {σ : Type} [Hardware σ] {src : FrameSource σ} {S : Set AddressSpaceHandle}
  {s s' : Spaces QemuVirtAddressSpace σ} {T : AddressSpaceHandle → PageTree}
  {h : AddressSpaceHandle} {hd : CapHandle}

/-- The call edits the tables of one space, and neither the capabilities nor the arena. -/
structure EditsSpace (src : FrameSource σ) (s : Spaces QemuVirtAddressSpace σ)
    (T : AddressSpaceHandle → PageTree) (h : AddressSpaceHandle)
    (s' : Spaces QemuVirtAddressSpace σ) : Prop where
  table : s'.table = s.table
  arena : s'.arena = s.arena
  edits : ∃ t', Edits src s.machine (T h) s'.machine t'

theorem Family.capMap (htidy : src.Tidy) (hfam : Family src S s.arena s.machine T) (hh : h ∈ S)
    (hnames : Names s.table hd h) (va : VirtAddr) (pa : PhysFrame) (flags : MappingFlags) :
    ∃ reply s', (Spaces.capMap hd src.alloc va pa flags).run s = .returned reply s' ∧
      EditsSpace src s T h s' := by
  obtain ⟨as_, hlive, hroot⟩ := hfam.live h hh
  have howns := hfam.owns h hh
  have hend := map_run howns hroot va pa flags
  cases hrun : (QemuVirtMmu.map as_ va pa flags src.alloc).run s.machine with
  | panic p =>
    rw [hrun] at hend
    cases hend
  | err e m =>
    rw [hrun] at hend
    obtain ⟨t', hedits⟩ := hend.edits htidy howns rfl
    exact ⟨.error _, _, capMap_err hnames hlive hrun, rfl, rfl, t', hedits⟩
  | ok token m =>
    rw [hrun] at hend
    obtain ⟨t', hedits⟩ := hend.edits htidy howns rfl
    obtain ⟨m', hflush, hcall⟩ := capMap_ok hnames hlive hrun
    cases hflush
    exact ⟨.ok (), _, hcall, rfl, rfl, t', hedits.trans (hedits.owns.edits_flush htidy _)⟩

theorem Family.capUnmap (htidy : src.Tidy) (hfam : Family src S s.arena s.machine T) (hh : h ∈ S)
    (hnames : Names s.table hd h) (va : VirtAddr) :
    ∃ reply s', (Spaces.capUnmap hd va).run s = .returned reply s' ∧ EditsSpace src s T h s' := by
  obtain ⟨as_, hlive, hroot⟩ := hfam.live h hh
  have howns := hfam.owns h hh
  have hend := unmap_run howns.holds hroot va
  cases hrun : (QemuVirtMmu.unmap as_ va : Prog σ MmuError _).run s.machine with
  | panic p =>
    rw [hrun] at hend
    cases hend
  | err e m =>
    rw [hrun] at hend
    obtain ⟨t', hedits⟩ := hend.edits howns rfl
    exact ⟨.error _, _, capUnmap_err hnames hlive hrun, rfl, rfl, t', hedits⟩
  | ok x m =>
    rw [hrun] at hend
    obtain ⟨t', hedits⟩ := hend.edits howns rfl
    obtain ⟨m', hflush, hcall⟩ := capUnmap_ok (f := x.2) hnames hlive hrun
    cases hflush
    exact ⟨.ok x.2, _, hcall, rfl, rfl, t', hedits.trans (hedits.owns.edits_flush htidy _)⟩

/-- A gated call whose capability names no address space fails and changes nothing. -/
theorem Spaces.capMap_unnamed (hnone : ∀ h, ¬ Names s.table hd h)
    (frames : Prog σ MmuError (Option PhysFrame)) (va : VirtAddr) (pa : PhysFrame)
    (flags : MappingFlags) : ∃ e, (Spaces.capMap hd frames va pa flags).run s = .err e s := by
  obtain ⟨e, hrun⟩ := resolve_err hnone
  exact ⟨e, Prog.bind_err hrun⟩

theorem Spaces.capUnmap_unnamed (hnone : ∀ h, ¬ Names s.table hd h) (va : VirtAddr) :
    ∃ e, (Spaces.capUnmap hd va).run s = .err e s := by
  obtain ⟨e, hrun⟩ := resolve_err hnone
  exact ⟨e, Prog.bind_err hrun⟩

end Gated

end Tyrne
