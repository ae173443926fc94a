import Tyrne.Bsp.Walk

/-!
# Translation, mapping and unmapping

What each operation of the MMU does, said of the page tables that the memory holds:
`translate` reads the leaf of its page, `map` links the missing tables of the path and
then writes the leaf, and `unmap` clears it.
-/

namespace Tyrne

open Radix Tree

/-! ## What a page translates to -/

/-- The frame of a masked address. -/
def frameAt (w : BitVec 64) : PhysFrame :=
  ⟨⟨(w &&& pageOaMaskL3).toNat⟩, and_pageOaMaskL3_aligned w⟩

/-- What the descriptor of a leaf translates to. -/
def leafTranslation (w : BitVec 64) : Except MmuError (PhysFrame × MappingFlags) :=
  if w &&& descTableOrPageBit = 0 ∨ w &&& descAfBit = 0 then .error .notMapped
  else .ok (frameAt w, descriptorBitsToFlags w)

open scoped Classical in
/-- What the page `k` translates to. -/
noncomputable def PageTree.translation (t : PageTree) (k : ℕ) :
    Except MmuError (PhysFrame × MappingFlags) :=
  match t.leaf k with
  | some w => leafTranslation w
  | none => .error (if t.Blocked k then .blockMapped else .notMapped)

theorem leafTranslation_page {pa : PhysFrame} {flags : MappingFlags}
    (hpa : pa.asUsize < 2 ^ 48) (hflags : ¬ (flags.contains .device ∧ flags.contains .execute)) :
    leafTranslation (pageDescriptorOf pa.asUsize flags) = .ok (pa, flags.named) := by
  unfold leafTranslation
  have hnot : ¬ (pageDescriptorOf pa.asUsize flags &&& descTableOrPageBit = 0 ∨
      pageDescriptorOf pa.asUsize flags &&& descAfBit = 0) := by
    rintro (h | h)
    · exact pageDescriptorOf_page h
    · exact pageDescriptorOf_af h
  have hframe : frameAt (pageDescriptorOf pa.asUsize flags) = pa :=
    PhysFrame.ext_val (pageDescriptorOf_address pa.aligned hpa)
  rw [if_neg hnot, hframe, pageDescriptorOf_flags hflags]

section Ops

variable [Build] {σ : Type} [Hardware σ] {src : FrameSource σ} {s s' : σ} {t t' : PageTree}
  {as_ : QemuVirtAddressSpace} {va : VirtAddr} {pa : PhysFrame} {flags : MappingFlags} {k : ℕ}

omit [Build] in
/-- A tree of tables that grows below a path translates as before. -/
theorem translation_grows {as : List ℕ} (h : Grows k t as t') (q : ℕ) :
    PageTree.translation t' q = PageTree.translation t q := by
  unfold PageTree.translation
  rw [h.leaf]
  split
  · rfl
  · rw [show t'.Blocked q ↔ t.Blocked q from h.blocked]

omit [Build] in
/-- The slot of a leaf, in the table of the last level. -/
theorem decode_leafSlot {m : Memory} (hholds : Holds m t) {a : ℕ}
    (ha : t.node 3 (k / 512) = some (.table a)) :
    decode 3 (m.readWord (a + 8 * (k % 512))) = .ofLeaf (t.leaf k) := by
  rw [hholds.readWord_of_slot ha, slot_leaf]

omit [Build] in
theorem up_three (k : ℕ) : up 512 3 3 k = k / 512 := up_last

omit [Build] in
theorem vaIndex_last (va : VirtAddr) : vaIndex va vaL3Shift = pageOf va % 512 := by
  have hindex := vaIndex_eq va (l := 3) (by decide)
  rw [up_page] at hindex
  exact hindex

/-! ## translate -/

theorem translate_eq : (QemuVirtMmu.translate as_ va : Prog σ MmuError _) =
    walkTables as_.root va nullFrameProvider true >>= fun l3Table => do
      let l3Ptr ← physToKernelVa l3Table.asUsize
      let leaf ← readVolatile (l3Ptr + 8 * vaIndex va vaL3Shift)
      Prog.require (leaf &&& descValidBit ≠ 0) .notMapped
      Prog.require (leaf &&& descTableOrPageBit ≠ 0) .notMapped
      Prog.require (leaf &&& descAfBit ≠ 0) .notMapped
      let frame ← Prog.okOr (PhysFrame.fromAligned ⟨(leaf &&& pageOaMaskL3).toNat⟩)
        .misalignedAddress
      return (frame, descriptorBitsToFlags leaf) := by
  unfold walkTables
  simp only [Prog.bind_assoc]
  rfl

/-- `translate` reads the translation of the page off the tables. -/
theorem translate_run (hholds : Holds (Hardware.memory s) t) (hroot : as_.root.asUsize = t.root)
    (va : VirtAddr) : (QemuVirtMmu.translate as_ va).run s =
      .returned (PageTree.translation t (pageOf va)) s := by
  rw [translate_eq]
  have hwalk : LookupEnd (pageOf va) s t 3
      ((walkTables as_.root va nullFrameProvider true).run s) :=
    walkTables_lookup hholds hroot va
  generalize hend : (walkTables as_.root va nullFrameProvider true).run s = r at hwalk
  unfold PageTree.translation
  cases hwalk with
  | missing hopen =>
    rw [Prog.bind_err hend, hopen.2]
    dsimp only
    rw [if_neg hopen.1]
    rfl
  | blocked hblocked =>
    rw [Prog.bind_err hend, leaf_of_blocked hblocked]
    dsimp only
    rw [if_pos hblocked]
    rfl
  | @reached p hp =>
    have hnot := not_blocked_of_last hp
    have hwindow := hholds.window _ ⟨3, _, hp⟩
    have hi : pageOf va % 512 < 512 := Nat.mod_lt _ (by decide)
    rw [up_three] at hp
    have hslot := decode_leafSlot hholds hp
    rw [Prog.bind_ok hend, vaIndex_last, Prog.bind_ok (physToKernelVa_run hwindow),
      Prog.bind_ok (readSlot_run hwindow hi)]
    cases hleaf : t.leaf (pageOf va) with
    | none =>
      rw [hleaf] at hslot
      rw [Prog.require_neg (not_not.mpr (decode_eq_empty hslot))]
      dsimp only
      rw [if_neg hnot]
      rfl
    | some v =>
      rw [hleaf] at hslot
      obtain ⟨hv, hvalid⟩ := decode_eq_leaf hslot
      rw [Prog.require_pos hvalid, hv]
      dsimp only
      unfold leafTranslation
      by_cases hpage : v &&& descTableOrPageBit = 0
      · rw [Prog.require_neg (not_not.mpr hpage), if_pos (Or.inl hpage)]
        rfl
      · by_cases haf : v &&& descAfBit = 0
        · rw [Prog.require_pos hpage, Prog.require_neg (not_not.mpr haf), if_pos (Or.inr haf)]
          rfl
        · rw [Prog.require_pos hpage, Prog.require_pos haf, if_neg (not_or.mpr ⟨hpage, haf⟩),
            PhysFrame.fromAligned_eq (and_pageOaMaskL3_aligned v)]
          rfl

/-! ## map -/

theorem walkAndInstallLeaf_eq (root : PhysFrame) (frames : Prog σ MmuError (Option PhysFrame))
    (unmap : Bool) : walkAndInstallLeaf root va pa flags frames unmap =
      walkTables root va frames unmap >>= fun l3Table => do
        let l3Ptr ← physToKernelVa l3Table.asUsize
        let leafSlot := l3Ptr + 8 * vaIndex va vaL3Shift
        if unmap then do
          let existing ← readVolatile leafSlot
          Prog.require (existing &&& descValidBit ≠ 0) .notMapped
          writeVolatile leafSlot 0
          Prog.okOr (PhysFrame.fromAligned ⟨(existing &&& pageOaMaskL3).toNat⟩) .misalignedAddress
        else do
          let existing ← readVolatile leafSlot
          Prog.require (existing &&& descValidBit = 0) .alreadyMapped
          writeVolatile leafSlot
            (pageDescriptor (BitVec.ofNat 64 pa.asUsize) (flagsToDescriptorBits flags))
          return pa := by
  unfold walkTables
  simp only [Prog.bind_assoc]
  rfl

/-- The ends of `map`. -/
inductive MapEnd (src : FrameSource σ) (va : VirtAddr) (pa : PhysFrame) (flags : MappingFlags)
    (s : σ) (t : PageTree) : Result σ MmuError MapperFlush → Prop
  | misaligned (hva : va.val % pageSize ≠ 0) :
      MapEnd src va pa flags s t (.err .misalignedAddress s)
  | invalid (hva : va.val % pageSize = 0)
      (hflags : flags.contains .device ∧ flags.contains .execute) :
      MapEnd src va pa flags s t (.err .invalidFlags s)
  | occupied {s' : σ} {t' : PageTree} {as : List ℕ} (hva : va.val % pageSize = 0)
      (hflags : ¬ (flags.contains .device ∧ flags.contains .execute))
      (h : Builds src (pageOf va) s t as s' t')
      (hmapped : t.leaf (pageOf va) ≠ none ∨ t.Blocked (pageOf va)) :
      MapEnd src va pa flags s t (.err .alreadyMapped s')
  | exhausted {s₁ s' : σ} {t' : PageTree} {as : List ℕ} (hva : va.val % pageSize = 0)
      (hflags : ¬ (flags.contains .device ∧ flags.contains .execute))
      (h : Builds src (pageOf va) s t as s₁ t') (hrefused : src.alloc.run s₁ = .ok none s')
      (hmissing : 0 < t'.missing (pageOf va))
      (hopen : ¬ t.Blocked (pageOf va) ∧ t.leaf (pageOf va) = none) :
      MapEnd src va pa flags s t (.err .outOfFrames s')
  | mapped {s₁ : σ} {t₁ : PageTree} {as : List ℕ} {a : ℕ} (hva : va.val % pageSize = 0)
      (hflags : ¬ (flags.contains .device ∧ flags.contains .execute))
      (h : Builds src (pageOf va) s t as s₁ t₁)
      (ha : t₁.node 3 (pageOf va / 512) = some (.table a))
      (hopen : ¬ t.Blocked (pageOf va) ∧ t.leaf (pageOf va) = none) :
      MapEnd src va pa flags s t (.ok ⟨va⟩
        (Hardware.store (a + 8 * (pageOf va % 512)) (pageDescriptorOf pa.asUsize flags) s₁))

/-- How `map` ends. -/
theorem map_run (howns : Owns src s t) (hroot : as_.root.asUsize = t.root) (va : VirtAddr)
    (pa : PhysFrame) (flags : MappingFlags) :
    MapEnd src va pa flags s t ((QemuVirtMmu.map as_ va pa flags src.alloc).run s) := by
  unfold QemuVirtMmu.map
  by_cases hva : va.val % pageSize = 0
  · rw [Prog.require_pos hva, Prog.pure_bind_run]
    by_cases hflags : flags.contains .device ∧ flags.contains .execute
    · rw [Prog.require_neg (not_not.mpr hflags)]
      exact .invalid hva hflags
    · rw [Prog.require_pos hflags, Prog.pure_bind_run, walkAndInstallLeaf_eq, Prog.bind_assoc]
      have hwalk := walkTables_run howns hroot va
      generalize hend : (walkTables as_.root va src.alloc false).run s = r at hwalk
      cases hwalk with
      | exhausted h hrefused hmissing hopen =>
        rw [Prog.bind_err hend]
        rw [h.grows.blocked, h.grows.leaf] at hopen
        exact .exhausted hva hflags h hrefused hmissing hopen
      | blocked h hblocked =>
        rw [Prog.bind_err hend]
        exact .occupied hva hflags h (Or.inr (h.grows.blocked.mp hblocked))
      | @reached p s₁ t₁ as h hp =>
        have howns₁ := h.owns howns
        have hnot := not_blocked_of_last hp
        have hwindow := howns₁.holds.window _ ⟨3, _, hp⟩
        have hi : pageOf va % 512 < 512 := Nat.mod_lt _ (by decide)
        rw [up_three] at hp
        have hslot := decode_leafSlot howns₁.holds hp
        rw [h.grows.leaf] at hslot
        rw [h.grows.blocked] at hnot
        rw [Prog.bind_ok hend, vaIndex_last, Prog.bind_assoc,
          Prog.bind_ok (physToKernelVa_run hwindow)]
        dsimp only
        rw [if_neg Bool.false_ne_true, Prog.bind_assoc, Prog.bind_ok (readSlot_run hwindow hi)]
        cases hleaf : t.leaf (pageOf va) with
        | some v =>
          rw [hleaf] at hslot
          obtain ⟨_, hvalid⟩ := decode_eq_leaf hslot
          rw [Prog.require_neg hvalid]
          exact .occupied hva hflags h (Or.inl (hleaf ▸ Option.some_ne_none v))
        | none =>
          rw [hleaf] at hslot
          rw [Prog.require_pos (decode_eq_empty hslot), Prog.bind_assoc, Prog.pure_bind_run,
            Prog.bind_assoc, Prog.bind_ok (writeSlot_run hwindow hi _)]
          exact .mapped hva hflags h hp ⟨hnot, hleaf⟩
  · rw [Prog.require_neg hva]
    exact .misaligned hva

omit [Build] in
/-- A failed `map` has linked tables below the path, and nothing else. -/
theorem MapEnd.of_err {e : MmuError} (h : MapEnd src va pa flags s t (.err e s'))
    (howns : Owns src s t) : ∃ t' as, Grows (pageOf va) t as t' ∧ Owns src s' t' ∧
      (∀ a ∈ as, a ∈ src.offers s) ∧ src.offers s' = src.offers s \ {a | a ∈ as} := by
  have hnone : src.offers s = src.offers s \ {a | a ∈ ([] : List ℕ)} := by
    ext a
    simp
  cases h with
  | misaligned _ => exact ⟨t, [], .refl t, howns, fun a ha => (nomatch ha), hnone⟩
  | invalid _ _ => exact ⟨t, [], .refl t, howns, fun a ha => (nomatch ha), hnone⟩
  | @occupied _ t' as _ _ h _ =>
    obtain ⟨hmem, hoffers⟩ := h.offers howns
    exact ⟨t', as, h.grows, h.owns howns, hmem, hoffers⟩
  | @exhausted s₁ _ t' as _ _ h hrefused _ _ =>
    obtain ⟨hmem, hoffers⟩ := h.offers howns
    have howns₁ := h.owns howns
    refine ⟨t', as, h.grows, howns₁.dry hrefused, hmem, ?_⟩
    rw [(FrameSource.alloc_none howns₁.valid hrefused).2.1, hoffers]

omit [Build] in
/-- A successful `map` has linked the missing tables of the path and written the leaf. -/
theorem MapEnd.of_ok {token : MapperFlush} (h : MapEnd src va pa flags s t (.ok token s'))
    (howns : Owns src s t) : token = ⟨va⟩ ∧
      ¬ (flags.contains .device ∧ flags.contains .execute) ∧
      (¬ t.Blocked (pageOf va) ∧ t.leaf (pageOf va) = none) ∧
      ∃ t₁ as, ∃ ha : ∃ a, t₁.node 3 (pageOf va / 512) = some (.table a),
        Grows (pageOf va) t as t₁ ∧ t₁.missing (pageOf va) = 0 ∧
        Owns src s' (t₁.setLeaf (pageOf va) (some (pageDescriptorOf pa.asUsize flags)) ha) ∧
        (∀ a ∈ as, a ∈ src.offers s) ∧ src.offers s' = src.offers s \ {a | a ∈ as} := by
  cases h with
  | @mapped s₁ t₁ as a _ hflags h ha hopen =>
    obtain ⟨hmem, hoffers⟩ := h.offers howns
    have howns₁ := h.owns howns
    have hwritten : decode 3 (pageDescriptorOf pa.asUsize flags) =
        .ofLeaf (some (pageDescriptorOf pa.asUsize flags)) := decode_leaf pageDescriptorOf_valid
    have hstore := howns₁.store ⟨3, _, ha⟩ (Nat.mod_lt (pageOf va) (by decide))
      (pageDescriptorOf pa.asUsize flags)
    refine ⟨rfl, hflags, hopen, t₁, as, ⟨a, ha⟩, h.grows, ?_, howns₁.writeLeaf ha hwritten, hmem,
      ?_⟩
    · apply missing_eq_zero
      rw [up_three, ha]
    · rw [hstore.2, hoffers]

omit [Build] in
/-- A `map` pulls as many frames as the path lacks tables, and fewer only where the provider
refuses one. -/
theorem MapEnd.needs {r : Result σ MmuError MapperFlush} (h : MapEnd src va pa flags s t r)
    (howns : Owns src s t) :
    (∀ token s', r = .ok token s' → ∃ as, Takes src s s' as ∧ as.length = t.missing (pageOf va)) ∧
    ∀ s', r = .err .outOfFrames s' → ∃ as s₁, Takes src s s' as ∧
      as.length < t.missing (pageOf va) ∧ src.alloc.run s₁ = .ok none s' := by
  refine ⟨fun token s' hr => ?_, fun s' hr => ?_⟩
  · rw [hr] at h
    cases h with
    | @mapped s₁ t₁ as a _ _ h ha _ =>
      have htakes := h.takes howns
      have hstore := (h.owns howns).store ⟨3, _, ha⟩ (Nat.mod_lt (pageOf va) (by decide))
        (pageDescriptorOf pa.asUsize flags)
      have hfull : t₁.missing (pageOf va) = 0 := by
        apply missing_eq_zero
        rw [up_three, ha]
      have hmissing := h.grows.missing
      refine ⟨as, ⟨htakes.nodup, htakes.offered, ?_⟩, by omega⟩
      rw [hstore.2, htakes.offers]
  · rw [hr] at h
    cases h with
    | @exhausted s₁ _ t₁ as _ _ h hrefused hpos _ =>
      have hmissing := h.grows.missing
      exact ⟨as, s₁, (h.takes howns).refused (h.owns howns).valid hrefused, by omega, hrefused⟩

omit [Build] in
/-- A `map` of a mapped page touches nothing. -/
theorem MapEnd.of_mapped {r : Result σ MmuError MapperFlush} (h : MapEnd src va pa flags s t r)
    (hva : va.val % pageSize = 0) (hflags : ¬ (flags.contains .device ∧ flags.contains .execute))
    (hleaf : t.leaf (pageOf va) ≠ none) : r = .err .alreadyMapped s := by
  cases h with
  | misaligned hnot => exact absurd hva hnot
  | invalid _ hbad => exact absurd hbad hflags
  | occupied _ _ h _ =>
    obtain ⟨w, hw⟩ := Option.ne_none_iff_exists'.mp hleaf
    obtain ⟨a, ha⟩ := tables_of_leaf hw le_rfl
    rw [(h.eq_of_full (missing_eq_zero ha)).1]
  | exhausted _ _ _ _ _ hopen => exact absurd hopen.2 hleaf
  | mapped _ _ _ _ hopen => exact absurd hopen.2 hleaf

omit [Build] in
/-- A `map` of an open page succeeds, or the provider refuses one of the tables that the path
lacks. -/
theorem MapEnd.of_open {r : Result σ MmuError MapperFlush} (h : MapEnd src va pa flags s t r)
    (howns : Owns src s t) (hva : va.val % pageSize = 0)
    (hflags : ¬ (flags.contains .device ∧ flags.contains .execute))
    (hopen : ¬ t.Blocked (pageOf va) ∧ t.leaf (pageOf va) = none) :
    (∃ s' as, r = .ok ⟨va⟩ s' ∧ Takes src s s' as ∧ as.length = t.missing (pageOf va)) ∨
    ∃ s' s₁ as, r = .err .outOfFrames s' ∧ Takes src s s₁ as ∧
      as.length < t.missing (pageOf va) ∧ src.Valid s₁ ∧ src.alloc.run s₁ = .ok none s' := by
  have hneeds := h.needs howns
  cases h with
  | misaligned hnot => exact absurd hva hnot
  | invalid _ hbad => exact absurd hbad hflags
  | occupied _ _ _ hmapped =>
    rcases hmapped with hsome | hblocked
    · exact absurd hopen.2 hsome
    · exact absurd hblocked hopen.1
  | @exhausted s₁ s' t' as _ _ h hrefused hpos _ =>
    have hmissing := h.grows.missing
    exact Or.inr ⟨s', s₁, as, rfl, h.takes howns, by omega, (h.owns howns).valid, hrefused⟩
  | mapped _ _ _ _ _ =>
    obtain ⟨as, htakes, hlength⟩ := hneeds.1 _ _ rfl
    exact Or.inl ⟨_, as, rfl, htakes, hlength⟩

/-- The ends of `unmap`. -/
inductive UnmapEnd (va : VirtAddr) (s : σ) (t : PageTree) :
    Result σ MmuError (MapperFlush × PhysFrame) → Prop
  | misaligned (hva : va.val % pageSize ≠ 0) : UnmapEnd va s t (.err .misalignedAddress s)
  | missing (hva : va.val % pageSize = 0)
      (hopen : ¬ t.Blocked (pageOf va) ∧ t.leaf (pageOf va) = none) :
      UnmapEnd va s t (.err .notMapped s)
  | blocked (hva : va.val % pageSize = 0) (hblocked : t.Blocked (pageOf va)) :
      UnmapEnd va s t (.err .blockMapped s)
  | cleared {a : ℕ} {w : BitVec 64} (hva : va.val % pageSize = 0)
      (ha : t.node 3 (pageOf va / 512) = some (.table a)) (hleaf : t.leaf (pageOf va) = some w) :
      UnmapEnd va s t (.ok (⟨va⟩, frameAt w) (Hardware.store (a + 8 * (pageOf va % 512)) 0 s))

/-- How `unmap` ends. -/
theorem unmap_run (hholds : Holds (Hardware.memory s) t) (hroot : as_.root.asUsize = t.root)
    (va : VirtAddr) :
    UnmapEnd va s t ((QemuVirtMmu.unmap as_ va).run s) := by
  unfold QemuVirtMmu.unmap
  by_cases hva : va.val % pageSize = 0
  · rw [Prog.require_pos hva, Prog.pure_bind_run, walkAndInstallLeaf_eq, Prog.bind_assoc]
    have hwalk : LookupEnd (pageOf va) s t 3
        ((walkTables as_.root va nullFrameProvider true).run s) :=
      walkTables_lookup hholds hroot va
    generalize hend : (walkTables as_.root va nullFrameProvider true).run s = r at hwalk
    cases hwalk with
    | missing hopen =>
      rw [Prog.bind_err hend]
      exact .missing hva hopen
    | blocked hblocked =>
      rw [Prog.bind_err hend]
      exact .blocked hva hblocked
    | @reached p hp =>
      have hnot := not_blocked_of_last hp
      have hwindow := hholds.window _ ⟨3, _, hp⟩
      have hi : pageOf va % 512 < 512 := Nat.mod_lt _ (by decide)
      rw [up_three] at hp
      have hslot := decode_leafSlot hholds hp
      rw [Prog.bind_ok hend, vaIndex_last, Prog.bind_assoc,
        Prog.bind_ok (physToKernelVa_run hwindow)]
      dsimp only
      rw [if_pos rfl, Prog.bind_assoc, Prog.bind_ok (readSlot_run hwindow hi)]
      cases hleaf : t.leaf (pageOf va) with
      | none =>
        rw [hleaf] at hslot
        rw [Prog.require_neg (not_not.mpr (decode_eq_empty hslot))]
        exact .missing hva ⟨hnot, hleaf⟩
      | some v =>
        rw [hleaf] at hslot
        obtain ⟨hv, hvalid⟩ := decode_eq_leaf hslot
        rw [Prog.require_pos hvalid, hv, Prog.bind_assoc, Prog.pure_bind_run, Prog.bind_assoc,
          Prog.bind_ok (writeSlot_run hwindow hi _),
          PhysFrame.fromAligned_eq (and_pageOaMaskL3_aligned v)]
        exact .cleared hva hp hleaf
  · rw [Prog.require_neg hva]
    exact .misaligned hva

omit [Build] in
/-- A successful `unmap` has cleared the leaf. -/
theorem UnmapEnd.of_ok {token : MapperFlush} {f : PhysFrame}
    (h : UnmapEnd va s t (.ok (token, f) s')) (howns : Owns src s t) : token = ⟨va⟩ ∧
      ∃ ha : ∃ a, t.node 3 (pageOf va / 512) = some (.table a), ∃ w,
        t.leaf (pageOf va) = some w ∧ f = frameAt w ∧
        Owns src s' (t.setLeaf (pageOf va) none ha) ∧ src.offers s' = src.offers s := by
  cases h with
  | @cleared a w _ ha hleaf =>
    have hwritten : decode 3 0 = .ofLeaf none := decode_empty (by decide)
    have hstore := howns.store ⟨3, _, ha⟩ (Nat.mod_lt (pageOf va) (by decide)) 0
    exact ⟨rfl, ⟨a, ha⟩, w, hleaf, rfl, howns.writeLeaf ha hwritten, hstore.2⟩

omit [Build] in
/-- A failed `unmap` has done nothing. -/
theorem UnmapEnd.of_err {e : MmuError} (h : UnmapEnd va s t (.err e s')) : s' = s := by
  cases h <;> rfl

end Ops

end Tyrne
