import Tyrne.Bsp.Translation
import Tyrne.Library.Run
import Tyrne.Mm.Source

/-!
# Page tables as a map of pages

Any sequence of `map` and `unmap` calls on an address space whose root was zeroed, with any
provider of frames. What the tables translate is a map of pages: the frame and the flags of
the last successful `map` of a page that has not been undone.
-/

namespace Tyrne

open Radix Tree

/-- What a page of the map translates to. -/
def PageMap.translation (m : PageMap) (k : ℕ) : Except MmuError (PhysFrame × MappingFlags) :=
  (m k).elim (.error .notMapped) fun entry => .ok (entry.1, entry.2.named)

/-- An operation on an address space. -/
inductive MapOp
  | map (va : VirtAddr) (pa : PhysFrame) (flags : MappingFlags)
  | unmap (va : VirtAddr)

namespace MapOp

def va : MapOp → VirtAddr
  | .map va _ _ => va
  | .unmap va => va

/-- The addresses of the operation are below 2^48. -/
def Below : MapOp → Prop
  | .map va pa _ => va.val < 2 ^ 48 ∧ pa.asUsize < 2 ^ 48
  | .unmap va => va.val < 2 ^ 48

variable [Build] {σ : Type} [Hardware σ]

/-- The call. It returns the frame that was unmapped. -/
def exec (src : FrameSource σ) (as_ : QemuVirtAddressSpace) :
    MapOp → Prog σ MmuError (Option PhysFrame)
  | .map va pa flags => do
    let _ ← QemuVirtMmu.map as_ va pa flags src.alloc
    return none
  | .unmap va => do
    let (_, pa) ← QemuVirtMmu.unmap as_ va
    return some pa

end MapOp

structure MapEvent where
  op : MapOp
  reply : Except MmuError (Option PhysFrame)

/-- The map of pages after the event. -/
def MapEvent.apply (m : PageMap) (ev : MapEvent) : PageMap :=
  match ev.op, ev.reply with
  | .map va pa flags, .ok _ => Function.update m (va.val / pageSize) (some (pa, flags))
  | .unmap va, .ok _ => Function.update m (va.val / pageSize) none
  | _, .error _ => m

/-- The frame and the flags of the last successful `map` of each page that no successful
`unmap` has undone. -/
def mappings (evs : List MapEvent) : PageMap := evs.foldl MapEvent.apply fun _ => none

theorem mappings_snoc (evs : List MapEvent) (ev : MapEvent) :
    mappings (evs ++ [ev]) = ev.apply (mappings evs) := by
  unfold mappings
  rw [List.foldl_append]
  rfl

/-- The tables hold the map of pages. -/
structure Refines (t : PageTree) (m : PageMap) : Prop where
  unblocked : ∀ k, ¬ t.Blocked k
  leaf : ∀ k, t.leaf k = (m k).map fun entry => pageDescriptorOf entry.1.asUsize entry.2
  below : ∀ k entry, m k = some entry → entry.1.asUsize < 2 ^ 48 ∧
    ¬ (entry.2.contains .device ∧ entry.2.contains .execute)

section Refine

variable {t t' : PageTree} {m : PageMap} {k : ℕ} {root : ℕ} {M : Memory}

theorem Refines.translation (h : Refines t m) (k : ℕ) :
    PageTree.translation t k = m.translation k := by
  unfold PageTree.translation PageMap.translation
  rw [h.leaf k]
  cases hk : m k with
  | none =>
    dsimp only [Option.map_none, Option.elim_none]
    rw [if_neg (h.unblocked k)]
  | some entry =>
    obtain ⟨hpa, hflags⟩ := h.below k entry hk
    exact leafTranslation_page hpa hflags

theorem Refines.grows {as : List ℕ} (h : Refines t m) (hgrows : Grows k t as t') :
    Refines t' m where
  unblocked q hblocked := h.unblocked q (hgrows.blocked.mp hblocked)
  leaf q := by
    rw [hgrows.leaf]
    exact h.leaf q
  below := h.below

theorem Refines.setLeaf (h : Refines t m) {ha : ∃ a, t.node 3 (k / 512) = some (.table a)}
    {o : Option (PhysFrame × MappingFlags)}
    (hbelow : ∀ entry, o = some entry → entry.1.asUsize < 2 ^ 48 ∧
      ¬ (entry.2.contains .device ∧ entry.2.contains .execute)) :
    Refines (t.setLeaf k (o.map fun entry => pageDescriptorOf entry.1.asUsize entry.2) ha)
      (Function.update m k o) where
  unblocked := h.unblocked
  leaf q := by
    by_cases hq : q = k
    · rw [hq, setLeaf_leaf_self, Function.update_self]
    · rw [setLeaf_leaf_of_ne hq, Function.update_of_ne hq]
      exact h.leaf q
  below q entry hentry := by
    by_cases hq : q = k
    · rw [hq, Function.update_self] at hentry
      exact hbelow entry hentry
    · rw [Function.update_of_ne hq] at hentry
      exact h.below q entry hentry

/-- A zeroed root holds the empty map. -/
theorem holds_empty (haligned : root % pageSize = 0) (hwindow : root < directMapEnd)
    (hzero : ∀ a, InFrame root a → M a = 0) : Holds M (Tree.empty 512 3 _ _ root) where
  stores l k a hnode i hi := by
    obtain ⟨⟨rfl, rfl⟩, hroot⟩ := Option.ite_none_right_eq_some.mp hnode
    cases hroot
    unfold entry
    rw [readWord_zero fun j hj => hzero _ (inFrame_slot hi hj), decode_empty (by decide),
      slot_node (by decide), empty_node_succ]
    rfl
  aligned a ha := by
    rw [isTable_empty.mp ha]
    exact haligned
  window a ha := by
    rw [isTable_empty.mp ha]
    exact hwindow

theorem refines_empty : Refines (Tree.empty 512 3 _ _ root) fun _ => none where
  unblocked k hblocked := by
    obtain ⟨l, b, hb⟩ := hblocked
    cases (Option.ite_none_right_eq_some.mp hb).2
  leaf _ := rfl
  below _ _ hentry := nomatch hentry

end Refine

/-! ## Runs -/

section Runs

variable [Build] {σ : Type} [Hardware σ] {src : FrameSource σ} {as_ : QemuVirtAddressSpace}
  {s s' : σ} {t : PageTree} {m : PageMap} {evs : List MapEvent} {ev : MapEvent}

/-- A call with addresses below 2^48, and what it returned. -/
def MapStep (src : FrameSource σ) (as_ : QemuVirtAddressSpace) (s : σ) (ev : MapEvent) (s' : σ) :
    Prop :=
  ev.op.Below ∧ (ev.op.exec src as_).run s = .returned ev.reply s'

omit [Build] in
theorem pageOf_below {va : VirtAddr} (hva : va.val < 2 ^ 48) : pageOf va = va.val / pageSize := by
  unfold pageOf pageSize
  omega

/-- The machine owns tables of the address space that hold the map. -/
def Reflects (src : FrameSource σ) (as_ : QemuVirtAddressSpace) (s : σ) (m : PageMap) : Prop :=
  ∃ t, Owns src s t ∧ as_.root.asUsize = t.root ∧ Refines t m

omit [Build] in
/-- What a call does to the page tables. -/
inductive TreeStep (t : PageTree) : MapEvent → PageTree → Prop
  | failed {op : MapOp} {e : MmuError} {as : List ℕ} {t' : PageTree}
      (hgrows : Grows (pageOf op.va) t as t') : TreeStep t ⟨op, .error e⟩ t'
  | mapped {va : VirtAddr} {pa : PhysFrame} {flags : MappingFlags} {as : List ℕ} {t₁ : PageTree}
      {r : Option PhysFrame} (hflags : ¬ (flags.contains .device ∧ flags.contains .execute))
      (hgrows : Grows (pageOf va) t as t₁)
      (ha : ∃ a, t₁.node 3 (pageOf va / 512) = some (.table a)) :
      TreeStep t ⟨.map va pa flags, .ok r⟩
        (t₁.setLeaf (pageOf va) (some (pageDescriptorOf pa.asUsize flags)) ha)
  | unmapped {va : VirtAddr} {r : Option PhysFrame}
      (ha : ∃ a, t.node 3 (pageOf va / 512) = some (.table a)) :
      TreeStep t ⟨.unmap va, .ok r⟩ (t.setLeaf (pageOf va) none ha)

omit [Build] in
theorem TreeStep.root (hstep : TreeStep t ev t') : t'.root = t.root := by
  cases hstep with
  | failed hgrows => exact hgrows.root
  | mapped _ hgrows _ => exact hgrows.root
  | unmapped _ => rfl

/-- A call that returned leaves tables that the machine owns. -/
theorem exec_tree (howns : Owns src s t) (hroot : as_.root.asUsize = t.root)
    (hrun : (ev.op.exec src as_).run s = .returned ev.reply s') :
    ∃ t', Owns src s' t' ∧ as_.root.asUsize = t'.root ∧ TreeStep t ev t' := by
  suffices hgo : ∃ t', Owns src s' t' ∧ TreeStep t ev t' by
    obtain ⟨t', howns', hstep⟩ := hgo
    exact ⟨t', howns', hroot.trans hstep.root.symm, hstep⟩
  obtain ⟨op, reply⟩ := ev
  cases op with
  | map va pa flags =>
    have hend : MapEnd src va pa flags s t ((QemuVirtMmu.map as_ va pa flags src.alloc).run s) :=
      map_run howns hroot va pa flags
    have hrun' : (QemuVirtMmu.map as_ va pa flags src.alloc >>= fun _ =>
        (return none : Prog σ MmuError (Option PhysFrame))).run s = .returned reply s' := hrun
    cases hres : (QemuVirtMmu.map as_ va pa flags src.alloc).run s with
    | err e s₁ =>
      rw [hres] at hend
      rw [Prog.bind_err hres] at hrun'
      cases reply with
      | ok r => cases hrun'
      | error e' =>
        cases hrun'
        obtain ⟨t', as, hgrows, howns', _, _⟩ := hend.of_err howns
        exact ⟨t', howns', .failed hgrows⟩
    | ok token s₁ =>
      rw [hres] at hend
      rw [Prog.bind_ok hres] at hrun'
      cases reply with
      | error e => cases hrun'
      | ok r =>
        cases hrun'
        obtain ⟨_, hflags, _, t₁, as, ha, hgrows, _, howns', _, _⟩ := hend.of_ok howns
        exact ⟨_, howns', .mapped hflags hgrows ha⟩
    | panic p =>
      rw [hres] at hend
      cases hend
  | unmap va =>
    have hend : UnmapEnd va s t ((QemuVirtMmu.unmap as_ va).run s) := unmap_run howns.holds hroot va
    have hrun' : (QemuVirtMmu.unmap as_ va >>= fun x =>
        (return some x.2 : Prog σ MmuError (Option PhysFrame))).run s = .returned reply s' := hrun
    cases hres : (QemuVirtMmu.unmap as_ va : Prog σ MmuError _).run s with
    | err e s₁ =>
      rw [hres] at hend
      rw [Prog.bind_err hres] at hrun'
      cases reply with
      | ok r => cases hrun'
      | error e' =>
        cases hrun'
        rw [hend.of_err]
        exact ⟨t, howns, .failed (.refl t)⟩
    | ok x s₁ =>
      rw [hres] at hend
      rw [Prog.bind_ok hres] at hrun'
      cases reply with
      | error e => cases hrun'
      | ok r =>
        cases hrun'
        obtain ⟨_, ha, _, _, _, howns', _⟩ := hend.of_ok howns
        exact ⟨_, howns', .unmapped ha⟩
    | panic p =>
      rw [hres] at hend
      cases hend

/-- One call keeps the tables and the map together. -/
theorem Reflects.step (h : Reflects src as_ s m) (hstep : MapStep src as_ s ev s') :
    Reflects src as_ s' (ev.apply m) := by
  obtain ⟨t, howns, hroot, hrefines⟩ := h
  obtain ⟨hbelow, hrun⟩ := hstep
  obtain ⟨t', howns', hroot', hstep⟩ := exec_tree howns hroot hrun
  refine ⟨t', howns', hroot', ?_⟩
  cases hstep with
  | @failed op e as t' hgrows =>
    have hsame : MapEvent.apply m ⟨op, .error e⟩ = m := by cases op <;> rfl
    rw [hsame]
    exact hrefines.grows hgrows
  | @mapped va pa flags as t₁ r hflags hgrows ha =>
    show Refines _ (Function.update m (va.val / pageSize) (some (pa, flags)))
    rw [← pageOf_below hbelow.1]
    refine (hrefines.grows hgrows).setLeaf (o := some (pa, flags)) fun entry hentry => ?_
    cases hentry
    exact ⟨hbelow.2, hflags⟩
  | @unmapped va r ha =>
    show Refines _ (Function.update m (va.val / pageSize) none)
    rw [← pageOf_below hbelow]
    exact hrefines.setLeaf (o := none) fun entry hentry => nomatch hentry

/-- Every call returns. -/
theorem Reflects.exists_step (h : Reflects src as_ s m) {op : MapOp} (hbelow : op.Below) :
    ∃ reply s', MapStep src as_ s ⟨op, reply⟩ s' := by
  obtain ⟨t, howns, hroot, _⟩ := h
  cases op with
  | map va pa flags =>
    have hend : MapEnd src va pa flags s t ((QemuVirtMmu.map as_ va pa flags src.alloc).run s) :=
      map_run howns hroot va pa flags
    cases hres : (QemuVirtMmu.map as_ va pa flags src.alloc).run s with
    | ok token s' => exact ⟨.ok none, s', hbelow, Prog.bind_ok hres⟩
    | err e s' => exact ⟨.error e, s', hbelow, Prog.bind_err hres⟩
    | panic p =>
      rw [hres] at hend
      cases hend
  | unmap va =>
    have hend : UnmapEnd va s t ((QemuVirtMmu.unmap as_ va).run s) := unmap_run howns.holds hroot va
    cases hres : (QemuVirtMmu.unmap as_ va : Prog σ MmuError _).run s with
    | ok x s' => exact ⟨.ok (some x.2), s', hbelow, Prog.bind_ok hres⟩
    | err e s' => exact ⟨.error e, s', hbelow, Prog.bind_err hres⟩
    | panic p =>
      rw [hres] at hend
      cases hend

/-- `translate` returns what the page maps to. -/
def TranslatesAs (m : PageMap) (as_ : QemuVirtAddressSpace) (s : σ) : Prop :=
  ∀ va, va.val < 2 ^ 48 →
    (QemuVirtMmu.translate as_ va).run s = .returned (m.translation (va.val / pageSize)) s

/-- The `map` calls of a page-aligned address. A device page that is executable is refused, and
so is a page that is mapped. Otherwise the call succeeds and has pulled the tables that the path
lacks, or the provider refuses one of them. -/
def MapsAs (m : PageMap) (src : FrameSource σ) (as_ : QemuVirtAddressSpace) (s : σ) : Prop :=
  ∀ va pa flags, va.val < 2 ^ 48 → va.val % pageSize = 0 →
    let call := (QemuVirtMmu.map as_ va pa flags src.alloc).run s
    let lacking := missingTables (Hardware.memory s) as_.root.asUsize (va.val / pageSize)
    if flags.contains .device ∧ flags.contains .execute then call = .err .invalidFlags s
    else if m (va.val / pageSize) ≠ none then call = .err .alreadyMapped s
    else
      (∃ s' as, call = .ok ⟨va⟩ s' ∧ Takes src s s' as ∧ as.length = lacking) ∨
      ∃ s' s₁ as, call = .err .outOfFrames s' ∧ Takes src s s₁ as ∧ as.length < lacking ∧
        src.Valid s₁ ∧ src.alloc.run s₁ = .ok none s'

/-- A page-aligned `unmap` returns the mapped frame, and `NotMapped` when there is none. -/
def UnmapsAs (m : PageMap) (as_ : QemuVirtAddressSpace) (s : σ) : Prop :=
  ∀ va, va.val < 2 ^ 48 → va.val % pageSize = 0 →
    ∃ s', (QemuVirtMmu.unmap as_ va).run s = .returned
      ((m (va.val / pageSize)).elim (.error .notMapped) fun entry => .ok (⟨va⟩, entry.1)) s'

/-- An operation on one page changes the translation of no other page. -/
def LeavesOthers (src : FrameSource σ) (as_ : QemuVirtAddressSpace) (s : σ) : Prop :=
  ∀ ev s', MapStep src as_ s ev s' → ∀ va, va.val < 2 ^ 48 →
    va.val / pageSize ≠ ev.op.va.val / pageSize → ∀ r,
      (QemuVirtMmu.translate as_ va).run s' = .returned r s' ↔
        (QemuVirtMmu.translate as_ va).run s = .returned r s

theorem Reflects.translatesAs (h : Reflects src as_ s m) : TranslatesAs m as_ s := by
  obtain ⟨t, howns, hroot, hrefines⟩ := h
  intro va hva
  rw [translate_run howns.holds hroot, hrefines.translation, pageOf_below hva]

omit [Build] in
/-- The pages of the map are those with a leaf. -/
theorem Refines.leaf_eq_none {k : ℕ} (h : Refines t m) : t.leaf k = none ↔ m k = none := by
  rw [h.leaf k, Option.map_eq_none_iff]

theorem Reflects.mapsAs (h : Reflects src as_ s m) : MapsAs m src as_ s := by
  obtain ⟨t, howns, hroot, hrefines⟩ := h
  intro va pa flags hva haligned
  have hend := map_run howns hroot va pa flags
  have hunblocked := hrefines.unblocked (pageOf va)
  have hlacking := howns.holds.missingTables_eq hunblocked
  rw [← hroot] at hlacking
  rw [← pageOf_below hva]
  dsimp only
  rw [hlacking]
  generalize (QemuVirtMmu.map as_ va pa flags src.alloc).run s = res at hend
  split
  · next hbad => cases hend with
    | misaligned hnot => exact absurd haligned hnot
    | invalid _ _ => rfl
    | occupied _ hnot _ _ => exact absurd hbad hnot
    | exhausted _ hnot _ _ _ _ => exact absurd hbad hnot
    | mapped _ hnot _ _ _ => exact absurd hbad hnot
  · next hflags =>
    split
    · next hmapped => exact hend.of_mapped haligned hflags (mt hrefines.leaf_eq_none.mp hmapped)
    · next hfree =>
      have hnone := hrefines.leaf_eq_none.mpr (not_not.mp hfree)
      exact hend.of_open howns haligned hflags ⟨hunblocked, hnone⟩

theorem Reflects.unmapsAs (h : Reflects src as_ s m) : UnmapsAs m as_ s := by
  obtain ⟨t, howns, hroot, hrefines⟩ := h
  intro va hva haligned
  have hleaf := hrefines.leaf (pageOf va)
  have hend := unmap_run howns.holds hroot va
  generalize (QemuVirtMmu.unmap as_ va : Prog σ MmuError _).run s = res at hend
  rw [← pageOf_below hva]
  cases hend with
  | misaligned hnot => exact absurd haligned hnot
  | blocked _ hblocked => exact absurd hblocked (hrefines.unblocked _)
  | missing _ hopen =>
    rw [hopen.2] at hleaf
    rw [Option.map_eq_none_iff.mp hleaf.symm]
    exact ⟨s, rfl⟩
  | @cleared a w _ _ hsome =>
    rw [hsome] at hleaf
    obtain ⟨entry, hentry, hw⟩ := Option.map_eq_some_iff.mp hleaf.symm
    have hbelow := (hrefines.below _ entry hentry).1
    have hframe : frameAt w = entry.1 := by
      rw [← hw]
      exact PhysFrame.ext_val (pageDescriptorOf_address entry.1.aligned hbelow)
    rw [hentry, hframe]
    exact ⟨_, rfl⟩

omit [Build] in
theorem PageMap.translation_apply_of_ne {m : PageMap} {k : ℕ}
    (hk : k ≠ ev.op.va.val / pageSize) : (ev.apply m).translation k = m.translation k := by
  obtain ⟨op, reply⟩ := ev
  unfold PageMap.translation MapEvent.apply
  cases op with
  | map va pa flags => cases reply with
    | error e => rfl
    | ok r =>
      have hne : k ≠ va.val / pageSize := hk
      dsimp only
      rw [Function.update_of_ne hne]
  | unmap va => cases reply with
    | error e => rfl
    | ok r =>
      have hne : k ≠ va.val / pageSize := hk
      dsimp only
      rw [Function.update_of_ne hne]

theorem Reflects.leavesOthers (h : Reflects src as_ s m) : LeavesOthers src as_ s := by
  intro ev s' hstep va hva hne r
  have hafter := (h.step hstep).translatesAs va hva
  rw [PageMap.translation_apply_of_ne hne] at hafter
  rw [hafter, h.translatesAs va hva, Result.returned_inj, Result.returned_inj]
  simp

omit [Build] in
/-- A zeroed root that the provider does not offer holds the empty map. -/
theorem Reflects.of_zero (hroot : as_.root.asUsize < directMapEnd)
    (hzero : ∀ a, InFrame as_.root.asUsize a → Hardware.memory s a = 0) (hvalid : src.Valid s)
    (hapart : as_.root.asUsize ∉ src.offers s) : Reflects src as_ s (mappings []) := by
  refine ⟨Tree.empty 512 3 _ _ as_.root.asUsize, ⟨?_, hvalid, fun a ha => ?_⟩, rfl, refines_empty⟩
  · exact holds_empty as_.root.aligned hroot hzero
  · rw [isTable_empty.mp ha]
    exact hapart

/-- After every sequence of `map` and `unmap` calls on an address space with a zeroed root,
whatever frames the provider hands out, the page tables are the map of the pages that are
mapped. -/
theorem page_tables_refine_map {s₀ : σ} (hroot : as_.root.asUsize < directMapEnd)
    (hzero : ∀ a, InFrame as_.root.asUsize a → Hardware.memory s₀ a = 0) (hvalid : src.Valid s₀)
    (hapart : as_.root.asUsize ∉ src.offers s₀) (hrun : Run (MapStep src as_) s₀ evs s) :
    TranslatesAs (mappings evs) as_ s ∧ MapsAs (mappings evs) src as_ s ∧
      UnmapsAs (mappings evs) as_ s ∧ LeavesOthers src as_ s := by
  have hstart : Reflects src as_ s₀ (mappings []) := .of_zero hroot hzero hvalid hapart
  have hreflects : Reflects src as_ s (mappings evs) := by
    apply hrun.history (I := fun evs s => Reflects src as_ s (mappings evs)) hstart
    intro past s₁ ev s₂ hpast hstep
    rw [mappings_snoc]
    exact hpast.step hstep
  exact ⟨hreflects.translatesAs, hreflects.mapsAs, hreflects.unmapsAs, hreflects.leavesOthers⟩

/-- A `map` of a page that is not mapped goes through while three frames are left. -/
theorem Reflects.maps (h : Reflects src as_ s m) (hlasting : src.Lasting) {va : VirtAddr}
    {pa : PhysFrame} {flags : MappingFlags} (hbelow : (MapOp.map va pa flags).Below)
    (haligned : va.val % pageSize = 0)
    (hflags : ¬ (flags.contains .device ∧ flags.contains .execute))
    (hnone : m (va.val / pageSize) = none) (henough : 3 ≤ (src.offers s).ncard) :
    ∃ s', MapStep src as_ s ⟨.map va pa flags, .ok none⟩ s' ∧
      (src.offers s).ncard ≤ (src.offers s').ncard + 3 := by
  have hreturns := h.mapsAs va pa flags hbelow.1 haligned
  obtain ⟨t, howns, hroot, hrefines⟩ := h
  have hfinite := hlasting.finite howns.valid
  have hlacking := missingBelow_le (Hardware.memory s) (va.val / pageSize) 3 as_.root.asUsize
  dsimp only at hreturns
  rw [if_neg hflags, if_neg (not_not.mpr hnone)] at hreturns
  unfold missingTables at hreturns
  rcases hreturns with
    ⟨s', as, hrun, htakes, hlength⟩ | ⟨s', s₁, as, _, htakes, hlength, hvalid, hdry⟩
  · have hcount := htakes.ncard hfinite
    exact ⟨s', ⟨hbelow, Prog.bind_ok hrun⟩, by omega⟩
  · have hcount := htakes.ncard hfinite
    rw [hlasting.refused hvalid hdry, Set.ncard_empty] at hcount
    omega

omit [Build] in
/-- Two pages are mapped, the first of them twice, and the first is unmapped. -/
theorem page_tables_refine_map_eightFrames : let _ : Build := debugBuild
    let as_ : QemuVirtAddressSpace := ⟨⟨⟨0⟩, rfl⟩⟩
    let pa : PhysFrame := ⟨⟨0x100000⟩, rfl⟩
    ∃ evs s, Run (MapStep eightFramesSource as_) ⟨eightFramesPmm, fun _ => 0⟩ evs s ∧
      evs = [⟨.map ⟨0x400000⟩ pa .user, .ok none⟩,
        ⟨.map ⟨0x400000⟩ pa .user, .error .alreadyMapped⟩,
        ⟨.map ⟨0x401000⟩ pa .user, .ok none⟩, ⟨.unmap ⟨0x400000⟩, .ok (some pa)⟩] ∧
      (QemuVirtMmu.translate as_ ⟨0x400000⟩).run s = .err .notMapped s ∧
      (QemuVirtMmu.translate as_ ⟨0x401000⟩).run s = .ok (pa, MappingFlags.user.named) s := by
  intro _ as_ pa
  have hwindow : as_.root.asUsize < directMapEnd := by decide
  obtain ⟨hvalid, hapart, hseven⟩ := eightFramesSource_start fun _ => 0
  have hflags : ¬ (MappingFlags.user.contains .device ∧ MappingFlags.user.contains .execute) := by
    decide
  have hfirst : (MapOp.map ⟨0x400000⟩ pa .user).Below := ⟨by decide, by decide⟩
  have hsecond : (MapOp.map ⟨0x401000⟩ pa .user).Below := ⟨by decide, by decide⟩
  have h₀ : Reflects eightFramesSource as_ ⟨eightFramesPmm, fun _ => 0⟩ (mappings []) :=
    .of_zero hwindow (fun _ _ => rfl) hvalid hapart
  obtain ⟨s₁, hstep₁, hleft₁⟩ := h₀.maps eightFramesSource_lasting hfirst rfl hflags rfl (by omega)
  have h₁ := h₀.step hstep₁
  have hagain : (QemuVirtMmu.map as_ ⟨0x400000⟩ pa .user eightFramesSource.alloc).run s₁ =
      .err .alreadyMapped s₁ := by
    have hreturns := h₁.mapsAs ⟨0x400000⟩ pa .user (by decide) rfl
    dsimp only at hreturns
    rw [if_neg hflags, if_pos (by decide)] at hreturns
    exact hreturns
  have hstep₂ : MapStep eightFramesSource as_ s₁
      ⟨.map ⟨0x400000⟩ pa .user, .error .alreadyMapped⟩ s₁ := ⟨hfirst, Prog.bind_err hagain⟩
  obtain ⟨s₃, hstep₃, _⟩ :=
    (h₁.step hstep₂).maps eightFramesSource_lasting hsecond rfl hflags (by decide) (by omega)
  have h₃ := (h₁.step hstep₂).step hstep₃
  obtain ⟨s₄, hunmap⟩ := h₃.unmapsAs ⟨0x400000⟩ (by decide) rfl
  have hlast : (MapOp.unmap ⟨0x400000⟩).Below := by
    show (0x400000 : ℕ) < 2 ^ 48
    decide
  have hstep₄ : MapStep eightFramesSource as_ s₃ ⟨.unmap ⟨0x400000⟩, .ok (some pa)⟩ s₄ :=
    ⟨hlast, Prog.bind_ok hunmap⟩
  have hrun := Run.cons hstep₁ (.cons hstep₂ (.cons hstep₃ (.single hstep₄)))
  obtain ⟨htranslates, _⟩ := page_tables_refine_map hwindow (fun _ _ => rfl) hvalid hapart hrun
  exact ⟨_, s₄, hrun, rfl, htranslates ⟨0x400000⟩ (by decide), htranslates ⟨0x401000⟩ (by decide)⟩

end Runs

end Tyrne
