import Tyrne.Bsp.Tables
import Mathlib.Data.Set.Card

/-!
# The walk

What a walk down the path of a page does to the machine: `Builds` lists the frames it has
pulled from the provider, in the order in which it linked them. Whatever the walk ends in,
the machine still owns the page tables, and these have grown by exactly those frames.
-/

namespace Tyrne

open Radix Tree

section Owning

variable {σ : Type} [Hardware σ] {src : FrameSource σ} {s s₁ : σ} {t : PageTree} {f : PhysFrame}
  {l k i a : ℕ} {w : BitVec 64}

/-- A refused allocation. -/
theorem FrameSource.alloc_none (hvalid : src.Valid s) (halloc : src.alloc.run s = .ok none s₁) :
    src.Valid s₁ ∧ src.offers s₁ = src.offers s ∧
      Memory.AgreesOff (src.offers s) (Hardware.memory s) (Hardware.memory s₁) := by
  rcases src.alloc_cases hvalid with ⟨s', hrun, hrest⟩ | ⟨g, s', hrun, -⟩
  · rw [halloc] at hrun
    cases hrun
    exact hrest
  · rw [halloc] at hrun
    cases hrun

/-- An allocated frame. -/
theorem FrameSource.alloc_some (hvalid : src.Valid s)
    (halloc : src.alloc.run s = .ok (some f) s₁) :
    src.Valid s₁ ∧ f.asUsize ∈ src.offers s ∧ src.offers s₁ = src.offers s \ {f.asUsize} ∧
      (∀ a, InFrame f.asUsize a → Hardware.memory s₁ a = 0) ∧
      Memory.AgreesOff (src.offers s) (Hardware.memory s) (Hardware.memory s₁) := by
  rcases src.alloc_cases hvalid with ⟨s', hrun, -⟩ | ⟨g, s', hrun, hrest⟩
  · rw [halloc] at hrun
    cases hrun
  · rw [halloc] at hrun
    cases hrun
    exact hrest

/-- A refused allocation leaves the page tables owned. -/
theorem Owns.dry (howns : Owns src s t) (halloc : src.alloc.run s = .ok none s₁) :
    Owns src s₁ t := by
  obtain ⟨hvalid, hoffers, hoff⟩ := FrameSource.alloc_none howns.valid halloc
  refine ⟨?_, hvalid, fun a ha => ?_⟩
  · exact howns.holds.agreesOff hoff (fun b hb => (src.in_window howns.valid hb).1) howns.apart
  · rw [hoffers]
    exact howns.apart a ha

/-- An allocated frame is none of the tables. -/
theorem Owns.fresh (howns : Owns src s t) (halloc : src.alloc.run s = .ok (some f) s₁) :
    ¬ t.IsTable f.asUsize :=
  fun htable => howns.apart _ htable (FrameSource.alloc_some howns.valid halloc).2.1

/-- An allocation leaves the page tables owned. -/
theorem Owns.alloc (howns : Owns src s t) (halloc : src.alloc.run s = .ok (some f) s₁) :
    Owns src s₁ t := by
  obtain ⟨hvalid, _, hoffers, _, hoff⟩ := FrameSource.alloc_some howns.valid halloc
  refine ⟨?_, hvalid, fun a ha => ?_⟩
  · exact howns.holds.agreesOff hoff (fun b hb => (src.in_window howns.valid hb).1) howns.apart
  · rw [hoffers]
    exact fun hmem => howns.apart a ha hmem.1

/-- A store to a slot of a table is none to a frame on offer. -/
theorem Owns.store (howns : Owns src s t) (ha : t.IsTable a) (hi : i < 512) (w : BitVec 64) :
    src.Valid (Hardware.store (a + 8 * i) w s) ∧
      src.offers (Hardware.store (a + 8 * i) w s) = src.offers s := by
  refine src.store_keeps w howns.valid fun b hb j hj => ?_
  have hne : a ≠ b := fun heq => howns.apart a ha (heq ▸ hb)
  exact not_inFrame_of_ne (howns.holds.aligned a ha) (src.in_window howns.valid hb).1 hne
    (inFrame_slot hi hj)

/-- A new table is linked below its parent. -/
theorem Owns.link (howns : Owns src s t) (halloc : src.alloc.run s = .ok (some f) s₁)
    (hl : l < 3) (ha : t.node l (k / 512) = some (.table a)) (hempty : t.node (l + 1) k = none) :
    Owns src (Hardware.store (a + 8 * (k % 512)) (tableDescriptor (BitVec.ofNat 64 f.asUsize)) s₁)
      (t.graft l k f.asUsize hl ⟨a, ha⟩ hempty (howns.fresh halloc)) := by
  obtain ⟨hvalid, hoffered, hoffers, hzero, _⟩ := FrameSource.alloc_some howns.valid halloc
  have howns₁ := howns.alloc halloc
  have htable : t.IsTable a := ⟨l, k / 512, ha⟩
  have hk : k % 512 < 512 := Nat.mod_lt k (by decide)
  obtain ⟨hvalid₂, hoffers₂⟩ :=
    howns₁.store htable hk (tableDescriptor (BitVec.ofNat 64 f.asUsize))
  have hf := src.in_window howns.valid hoffered
  have haligned := howns.holds.aligned a htable
  have hfa : f.asUsize ≠ a := fun heq => howns.fresh halloc (heq ▸ htable)
  refine ⟨⟨?_, fun b hb => ?_, fun b hb => ?_⟩, hvalid₂, fun b hb => ?_⟩
  · apply stores_graft howns₁.holds.stores ha
    · unfold entry
      rw [Hardware.memory_store, readWord_writeWord_self, decode_tableDescriptor hl hf.1 hf.2]
    · intro l' i hi
      unfold entry
      rw [Hardware.memory_store, readWord_writeWord_slot haligned hf.1 hk hi fun h => hfa h.1]
      apply decode_empty
      rw [readWord_zero fun j hj => hzero _ (inFrame_slot hi hj)]
      decide
    · intro l' b i hb hi hne
      unfold entry
      rw [Hardware.memory_store,
        readWord_writeWord_slot haligned (howns.holds.aligned b hb) hk hi hne]
  · rcases isTable_graft.mp hb with hold | rfl
    · exact howns.holds.aligned b hold
    · exact hf.1
  · rcases isTable_graft.mp hb with hold | rfl
    · exact howns.holds.window b hold
    · exact hf.2
  · rw [hoffers₂, hoffers]
    rcases isTable_graft.mp hb with hold | rfl
    · exact fun hmem => howns.apart b hold hmem.1
    · exact fun hmem => hmem.2 rfl

/-- What linking the new table takes from the provider. -/
theorem Owns.link_offers (howns : Owns src s t) (halloc : src.alloc.run s = .ok (some f) s₁)
    (ha : t.IsTable a) (hi : i < 512) (w : BitVec 64) :
    src.offers (Hardware.store (a + 8 * i) w s₁) = src.offers s \ {f.asUsize} := by
  rw [((howns.alloc halloc).store ha hi w).2]
  exact (FrameSource.alloc_some howns.valid halloc).2.2.1

/-- A store to a slot changes nothing outside the table. -/
theorem store_agreesOff (hi : i < 512) (w : BitVec 64) :
    Memory.AgreesOff {a} (Hardware.memory s)
      (Hardware.memory (Hardware.store (a + 8 * i) w s)) := by
  rw [Hardware.memory_store]
  apply Memory.AgreesOff.writeWord
  · omega
  · unfold pageSize
    omega

/-- The slot of a leaf is written. -/
theorem Owns.writeLeaf (howns : Owns src s t) (ha : t.node 3 (k / 512) = some (.table a))
    {o : Option (BitVec 64)} (hw : decode 3 w = .ofLeaf o) :
    Owns src (Hardware.store (a + 8 * (k % 512)) w s) (t.setLeaf k o ⟨a, ha⟩) := by
  have htable : t.IsTable a := ⟨3, k / 512, ha⟩
  have hk : k % 512 < 512 := Nat.mod_lt k (by decide)
  have haligned := howns.holds.aligned a htable
  obtain ⟨hvalid, hoffers⟩ := howns.store htable hk w
  refine ⟨⟨?_, howns.holds.aligned, howns.holds.window⟩, hvalid, fun b hb => ?_⟩
  · apply stores_setLeaf howns.holds.stores ha
    · unfold entry
      rw [Hardware.memory_store, readWord_writeWord_self, hw]
    · intro l' b i hb hi hne
      unfold entry
      rw [Hardware.memory_store,
        readWord_writeWord_slot haligned (howns.holds.aligned b hb) hk hi hne]
  · rw [hoffers]
    exact howns.apart b hb

end Owning

/-! ## Linking the tables of a path -/

/-- The frames `as` are pulled from the provider and linked below each other on the path of
the page `k`. -/
inductive Builds {σ : Type} [Hardware σ] (src : FrameSource σ) (k : ℕ) :
    σ → PageTree → List ℕ → σ → PageTree → Prop
  | refl (s : σ) (t : PageTree) : Builds src k s t [] s t
  | link {s s₁ s' : σ} {t t' : PageTree} {l a : ℕ} {f : PhysFrame} {as : List ℕ}
      (halloc : src.alloc.run s = .ok (some f) s₁) (hl : l < 3)
      (ha : t.node l (up 512 3 (l + 1) k / 512) = some (.table a))
      (hempty : t.node (l + 1) (up 512 3 (l + 1) k) = none) (hfresh : ¬ t.IsTable f.asUsize)
      (hrest : Builds src k
        (Hardware.store (a + 8 * (up 512 3 (l + 1) k % 512))
          (tableDescriptor (BitVec.ofNat 64 f.asUsize)) s₁)
        (t.graft l (up 512 3 (l + 1) k) f.asUsize hl ⟨a, ha⟩ hempty hfresh) as s' t') :
      Builds src k s t (f.asUsize :: as) s' t'

namespace Builds

variable {σ : Type} [Hardware σ] {src : FrameSource σ} {s s' s'' : σ} {t t' t'' : PageTree}
  {k : ℕ} {as bs : List ℕ}

theorem trans (h : Builds src k s t as s' t') (h' : Builds src k s' t' bs s'' t'') :
    Builds src k s t (as ++ bs) s'' t'' := by
  induction h with
  | refl s t => exact h'
  | link halloc hl ha hempty hfresh _ ih => exact .link halloc hl ha hempty hfresh (ih h')

theorem grows (h : Builds src k s t as s' t') : Grows k t as t' := by
  induction h with
  | refl s t => exact .refl t
  | link _ hl ha hempty hfresh _ ih => exact .graft hl ⟨_, ha⟩ hempty hfresh ih

theorem owns (h : Builds src k s t as s' t') (howns : Owns src s t) : Owns src s' t' := by
  induction h with
  | refl s t => exact howns
  | link halloc hl ha hempty _ _ ih => exact ih (howns.link halloc hl ha hempty)

/-- The provider has handed out exactly the linked frames. -/
theorem offers (h : Builds src k s t as s' t') (howns : Owns src s t) :
    (∀ a ∈ as, a ∈ src.offers s) ∧ src.offers s' = src.offers s \ {a | a ∈ as} := by
  induction h with
  | refl s t =>
    refine ⟨fun a ha => (nomatch ha), ?_⟩
    ext a
    simp
  | link halloc hl ha hempty hfresh _ ih =>
    obtain ⟨_, hoffered, hoffers, _, _⟩ := FrameSource.alloc_some howns.valid halloc
    obtain ⟨hmem, hrest⟩ := ih (howns.link halloc hl ha hempty)
    rw [howns.link_offers halloc ⟨_, _, ha⟩ (Nat.mod_lt _ (by decide))] at hrest hmem
    refine ⟨fun b hb => ?_, ?_⟩
    · rcases List.mem_cons.mp hb with rfl | hb
      · exact hoffered
      · exact (hmem b hb).1
    · rw [hrest]
      ext b
      simp only [Set.mem_sdiff, Set.mem_singleton_iff, Set.mem_ofPred_eq, List.mem_cons]
      tauto

/-- Only the tables and the frames on offer are written. -/
theorem memory (h : Builds src k s t as s' t') (howns : Owns src s t) :
    Memory.AgreesOff ({a | t.IsTable a} ∪ src.offers s) (Hardware.memory s)
      (Hardware.memory s') := by
  induction h with
  | refl s t => exact Memory.AgreesOff.refl _ _
  | @link s s₁ s' t t' l a f as halloc hl ha hempty hfresh _ ih =>
    obtain ⟨_, hoffered, _, _, hoff⟩ := FrameSource.alloc_some howns.valid halloc
    have hk := Nat.mod_lt (up 512 3 (l + 1) k) (by decide : 0 < 512)
    have hlinked := ih (howns.link halloc hl ha hempty)
    rw [howns.link_offers halloc ⟨_, _, ha⟩ hk] at hlinked
    have hstore :=
      store_agreesOff (s := s₁) (a := a) hk (tableDescriptor (BitVec.ofNat 64 f.asUsize))
    refine (hoff.mono Set.subset_union_right).trans ((hstore.mono ?_).trans (hlinked.mono ?_))
    · rintro b rfl
      exact Or.inl ⟨_, _, ha⟩
    · rintro b (hb | hb)
      · rcases isTable_graft.mp hb with hold | rfl
        · exact Or.inl hold
        · exact Or.inr hoffered
      · exact Or.inr hb.1

end Builds

/-! ## The frames that are handed out -/

/-- The frames `as` are handed out between the two states. -/
structure Takes {σ : Type} [Hardware σ] (src : FrameSource σ) (s s' : σ) (as : List ℕ) : Prop where
  nodup : as.Nodup
  offered : ∀ a ∈ as, a ∈ src.offers s
  offers : src.offers s' = src.offers s \ {a | a ∈ as}

section Taken

variable {σ : Type} [Hardware σ] {src : FrameSource σ} {s₀ s s₁ s' : σ} {t t' : PageTree} {k : ℕ}
  {as bs : List ℕ}

/-- A path that lacks nothing is not built. -/
theorem Builds.eq_of_full (h : Builds src k s t as s' t') (hfull : t.missing k = 0) :
    s' = s ∧ t' = t := by
  cases h with
  | refl => exact ⟨rfl, rfl⟩
  | link _ hl _ hempty _ _ =>
    have hpos := missing_pos hl hempty
    omega

theorem Builds.takes (h : Builds src k s t as s' t') (howns : Owns src s t) :
    Takes src s s' as where
  nodup := h.grows.fresh.1
  offered := (h.offers howns).1
  offers := (h.offers howns).2

/-- A refused allocation takes nothing. -/
theorem Takes.refused (h : Takes src s s₁ as) (hvalid : src.Valid s₁)
    (hrefused : src.alloc.run s₁ = .ok none s') : Takes src s s' as where
  nodup := h.nodup
  offered := h.offered
  offers := by rw [(FrameSource.alloc_none hvalid hrefused).2.1, h.offers]

theorem Takes.nil (src : FrameSource σ) (s : σ) : Takes src s s [] where
  nodup := List.nodup_nil
  offered _ ha := nomatch ha
  offers := by simp

theorem Takes.trans (h : Takes src s₀ s as) (h' : Takes src s s' bs) :
    Takes src s₀ s' (as ++ bs) where
  nodup := by
    refine List.nodup_append.mpr ⟨h.nodup, h'.nodup, fun a ha b hb heq => ?_⟩
    have hoffered := h'.offered b hb
    rw [h.offers, ← heq] at hoffered
    exact hoffered.2 ha
  offered a ha := by
    rcases List.mem_append.mp ha with hfirst | hnext
    · exact h.offered a hfirst
    · have hoffered := h'.offered a hnext
      rw [h.offers] at hoffered
      exact hoffered.1
  offers := by
    rw [h'.offers, h.offers]
    ext a
    simp only [Set.mem_sdiff, Set.mem_ofPred_eq, List.mem_append]
    tauto

/-- What was handed out is what the provider has less to offer. -/
theorem Takes.ncard (h : Takes src s s' as) (hfinite : (src.offers s).Finite) :
    (src.offers s').ncard + as.length = (src.offers s).ncard := by
  have hset : {a | a ∈ as} = (as.toFinset : Set ℕ) := by
    ext a
    simp
  have hsub : {a | a ∈ as} ⊆ src.offers s := h.offered
  have hsplit := Set.ncard_sdiff_add_ncard_of_subset hsub hfinite
  rw [← h.offers, hset, Set.ncard_coe_finset, List.toFinset_card_of_nodup h.nodup] at hsplit
  exact hsplit

end Taken

/-! ## The ends of a walk -/

section Walk

variable [Build] {σ : Type} [Hardware σ] {src : FrameSource σ} {s : σ} {t : PageTree} {k l : ℕ}
  {m : Prog σ MmuError PhysFrame} {r : Result σ MmuError PhysFrame}

/-- The ends of the walk that allocates, at the level `l`: the table there, an empty slot
and no frame for it, or a block. -/
inductive WalkEnd (src : FrameSource σ) (k : ℕ) (s : σ) (t : PageTree) (l : ℕ) :
    Result σ MmuError PhysFrame → Prop
  | reached {p : PhysFrame} {s' : σ} {t' : PageTree} {as : List ℕ} (h : Builds src k s t as s' t')
      (hp : t'.node l (up 512 3 l k) = some (.table p.asUsize)) : WalkEnd src k s t l (.ok p s')
  | exhausted {s₁ s' : σ} {t' : PageTree} {as : List ℕ} (h : Builds src k s t as s₁ t')
      (hrefused : src.alloc.run s₁ = .ok none s') (hmissing : 0 < t'.missing k)
      (hopen : ¬ t'.Blocked k ∧ t'.leaf k = none) : WalkEnd src k s t l (.err .outOfFrames s')
  | blocked {s' : σ} {t' : PageTree} {as : List ℕ} (h : Builds src k s t as s' t')
      (hblocked : t'.Blocked k) : WalkEnd src k s t l (.err .alreadyMapped s')

omit [Build] in
/-- The slot that the walk reads in the table of level `l`. -/
theorem slot_of_path {M : Memory} (hholds : Holds M t) {a : ℕ} (hl : l < 3)
    (ha : t.node l (up 512 3 l k) = some (.table a)) :
    decode l (M.readWord (a + 8 * (up 512 3 (l + 1) k % 512))) =
      .ofNode (t.node (l + 1) (up 512 3 (l + 1) k)) := by
  rw [← up_succ (by omega)] at ha
  rw [hholds.readWord_of_slot ha, slot_node hl]

/-- How many tables the path of the page `k` lacks among the `n` below the table at `a`. -/
def missingBelow (m : Memory) (k : ℕ) : ℕ → ℕ → ℕ
  | 0, _ => 0
  | n + 1, a =>
    match entry m (2 - n) a (up 512 3 (3 - n) k % 512) with
    | .table b => missingBelow m k n b
    | .empty => n + 1
    | _ => 0

/-- How many tables the path of the page `k` lacks, as the memory has them below the root. -/
def missingTables (m : Memory) (root k : ℕ) : ℕ := missingBelow m k 3 root

omit [Build] in
theorem missingBelow_le (m : Memory) (k n a : ℕ) : missingBelow m k n a ≤ n := by
  induction n generalizing a with
  | zero => exact le_rfl
  | succ n ih =>
    unfold missingBelow
    split
    · exact (ih _).trans (Nat.le_succ n)
    · exact le_rfl
    · exact Nat.zero_le _

omit [Build] in
/-- The memory lacks the tables that the tree lacks. -/
theorem Holds.missingBelow_eq {M : Memory} (hholds : Holds M t) (hopen : ¬ t.Blocked k) {n a : ℕ}
    (hn : n ≤ 3) (ha : t.node (3 - n) (up 512 3 (3 - n) k) = some (.table a)) :
    missingBelow M k n a = t.missing k := by
  induction n generalizing a with
  | zero => exact (missing_eq_zero ha).symm
  | succ n ih =>
    obtain ⟨l, hl⟩ : ∃ l, l = 2 - n := ⟨_, rfl⟩
    have hlevel : 3 - (n + 1) = l := by omega
    have hnext : 3 - n = l + 1 := by omega
    rw [hlevel] at ha
    have hslot := slot_of_path hholds (l := l) (by omega) ha
    unfold missingBelow entry
    rw [← hl, hnext, hslot]
    cases hnode : t.node (l + 1) (up 512 3 (l + 1) k) with
    | none =>
      rw [missing_of_end ha hnode]
      show n + 1 = 3 - l
      omega
    | some node =>
      cases node with
      | table b =>
        rw [← hnext] at hnode
        exact ih (by omega) hnode
      | block b => exact absurd ⟨l + 1, b, hnode⟩ hopen

omit [Build] in
theorem Holds.missingTables_eq {M : Memory} (hholds : Holds M t) {va : VirtAddr}
    (hopen : ¬ t.Blocked (pageOf va)) :
    missingTables M t.root (pageOf va) = t.missing (pageOf va) := by
  apply hholds.missingBelow_eq hopen le_rfl
  rw [Nat.sub_self, up_zero, t.node_root]

/-- One more level. -/
theorem WalkEnd.next (h : WalkEnd src k s t l (m.run s)) (howns : Owns src s t) (hl : l < 3) :
    WalkEnd src k s t (l + 1) ((m >>= fun p =>
      walkOrAllocTable p (up 512 3 (l + 1) k % 512) src.alloc false).run s) := by
  generalize hend : m.run s = r at h
  cases h with
  | exhausted h hrefused hmissing hopen =>
    rw [Prog.bind_err hend]
    exact .exhausted h hrefused hmissing hopen
  | blocked h hblocked =>
    rw [Prog.bind_err hend]
    exact .blocked h hblocked
  | @reached p s₁ t₁ as h hp =>
    rw [Prog.bind_ok hend]
    have howns₁ := h.owns howns
    have hwindow := howns₁.holds.window _ ⟨l, _, hp⟩
    have hi : up 512 3 (l + 1) k % 512 < 512 := Nat.mod_lt _ (by decide)
    have hslot := slot_of_path howns₁.holds hl hp
    cases hnode : t₁.node (l + 1) (up 512 3 (l + 1) k) with
    | some n =>
      rw [hnode] at hslot
      cases n with
      | table a =>
        obtain ⟨f, hf, hrun⟩ := walkOrAllocTable_table hwindow hi hslot
        rw [hrun]
        refine .reached h ?_
        rw [hnode, hf]
      | block b =>
        rw [walkOrAllocTable_block hwindow hi hslot]
        exact .blocked h ⟨l + 1, b, hnode⟩
    | none =>
      rw [hnode] at hslot
      have hup := hp
      rw [← up_succ (by omega)] at hup
      rcases src.alloc_cases howns₁.valid with ⟨s₂, halloc, -⟩ | ⟨f, s₂, halloc, -⟩
      · rw [walkOrAllocTable_none hwindow hi hslot halloc]
        exact .exhausted h halloc (missing_pos hl hnode) (open_end hp hnode hl)
      · rw [walkOrAllocTable_some hwindow hi hslot halloc]
        have hlink := h.trans
          (.link halloc hl hup hnode (howns₁.fresh halloc) (.refl _ _))
        exact .reached hlink graft_node_self

/-- The walk to the table of the last level. -/
def walkTables (root : PhysFrame) (va : VirtAddr) (frames : Prog σ MmuError (Option PhysFrame))
    (unmap : Bool) : Prog σ MmuError PhysFrame := do
  let l1Table ← walkOrAllocTable root (vaIndex va vaL0Shift) frames unmap
  let l2Table ← walkOrAllocTable l1Table (vaIndex va vaL1Shift) frames unmap
  walkOrAllocTable l2Table (vaIndex va vaL2Shift) frames unmap

theorem walkTables_eq (root : PhysFrame) (va : VirtAddr)
    (frames : Prog σ MmuError (Option PhysFrame)) (unmap : Bool) :
    walkTables root va frames unmap = ((pure root >>= fun p =>
      walkOrAllocTable p (up 512 3 1 (pageOf va) % 512) frames unmap) >>= fun p =>
      walkOrAllocTable p (up 512 3 2 (pageOf va) % 512) frames unmap) >>= fun p =>
      walkOrAllocTable p (up 512 3 3 (pageOf va) % 512) frames unmap := by
  rw [← vaIndex_eq va (l := 0) (by decide), ← vaIndex_eq va (l := 1) (by decide),
    ← vaIndex_eq va (l := 2) (by decide), Prog.bind_assoc]
  rfl

/-- How the walk that allocates ends. -/
theorem walkTables_run (howns : Owns src s t) {root : PhysFrame} (hroot : root.asUsize = t.root)
    (va : VirtAddr) :
    WalkEnd src (pageOf va) s t 3 ((walkTables root va src.alloc false).run s) := by
  have hstart : WalkEnd src (pageOf va) s t 0 ((pure root : Prog σ MmuError PhysFrame).run s) := by
    refine .reached (.refl s t) ?_
    rw [up_zero, hroot, t.node_root]
  rw [walkTables_eq]
  exact ((hstart.next howns (by decide)).next howns (by decide)).next howns (by decide)

/-- The ends of the walk that only reads. -/
inductive LookupEnd (k : ℕ) (s : σ) (t : PageTree) (l : ℕ) : Result σ MmuError PhysFrame → Prop
  | reached {p : PhysFrame} (hp : t.node l (up 512 3 l k) = some (.table p.asUsize)) :
      LookupEnd k s t l (.ok p s)
  | missing (hopen : ¬ t.Blocked k ∧ t.leaf k = none) : LookupEnd k s t l (.err .notMapped s)
  | blocked (hblocked : t.Blocked k) : LookupEnd k s t l (.err .blockMapped s)

theorem LookupEnd.next {frames : Prog σ MmuError (Option PhysFrame)}
    (h : LookupEnd k s t l (m.run s)) (hholds : Holds (Hardware.memory s) t) (hl : l < 3) :
    LookupEnd k s t (l + 1) ((m >>= fun p =>
      walkOrAllocTable p (up 512 3 (l + 1) k % 512) frames true).run s) := by
  generalize hend : m.run s = r at h
  cases h with
  | missing hopen =>
    rw [Prog.bind_err hend]
    exact .missing hopen
  | blocked hblocked =>
    rw [Prog.bind_err hend]
    exact .blocked hblocked
  | reached hp =>
    rw [Prog.bind_ok hend]
    have hwindow := hholds.window _ ⟨l, _, hp⟩
    have hi : up 512 3 (l + 1) k % 512 < 512 := Nat.mod_lt _ (by decide)
    have hslot := slot_of_path hholds hl hp
    cases hnode : t.node (l + 1) (up 512 3 (l + 1) k) with
    | some n =>
      rw [hnode] at hslot
      cases n with
      | table a =>
        obtain ⟨f, hf, hrun⟩ := walkOrAllocTable_table hwindow hi hslot
        rw [hrun]
        refine .reached ?_
        rw [hnode, hf]
      | block b =>
        rw [walkOrAllocTable_block hwindow hi hslot]
        exact .blocked ⟨l + 1, b, hnode⟩
    | none =>
      rw [hnode] at hslot
      rw [walkOrAllocTable_empty hwindow hi hslot]
      exact .missing (open_end hp hnode hl)

/-- How the walk that only reads ends. -/
theorem walkTables_lookup {frames : Prog σ MmuError (Option PhysFrame)}
    (hholds : Holds (Hardware.memory s) t) {root : PhysFrame} (hroot : root.asUsize = t.root)
    (va : VirtAddr) :
    LookupEnd (pageOf va) s t 3 ((walkTables root va frames true).run s) := by
  have hstart : LookupEnd (pageOf va) s t 0 ((pure root : Prog σ MmuError PhysFrame).run s) := by
    refine .reached ?_
    rw [up_zero, hroot, t.node_root]
  rw [walkTables_eq]
  exact ((hstart.next hholds (by decide)).next hholds (by decide)).next hholds (by decide)

end Walk

end Tyrne
