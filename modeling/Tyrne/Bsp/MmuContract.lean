import Tyrne.Bsp.Family
import Tyrne.Mm.Contract

/-!
# The MMU of QEMU virt meets the contract

Over the manager of an extent inside the direct map. The tables of an address space are those that
the memory reaches from its root, and its mapping is what `translate` returns for each page.
-/

namespace Tyrne

open Radix Tree

section Pulled

variable [Build] {N R : ℕ} {extent : PhysFrameRange} {reserved : List PhysFrameRange}
  {haccepts : Accepts N R extent reserved} {hwindow : extent.stop.val ≤ directMapEnd}
  {s s₁ s' s'' : Supply (Pmm N R)} {fs : List ℕ} {t t' : PageTree} {k : ℕ}

/-- Writes before the first allocation do not matter. -/
theorem Pulls.before (h : Pulls s fs s') (hsame : s.frames = s₁.frames) : Pulls s₁ fs s' := by
  cases h with
  | keep hend => exact .keep (hend.trans hsame)
  | pull hstart halloc hrest => exact .pull (hstart.trans hsame) halloc hrest

/-- Writes after the last allocation do not matter. -/
theorem Pulls.after (h : Pulls s fs s') (hsame : s''.frames = s'.frames) : Pulls s fs s'' := by
  induction h with
  | keep hend => exact .keep (hsame.trans hend)
  | pull hstart halloc _ ih => exact .pull hstart halloc (ih hsame)

/-- A walk pulls the tables that it links. -/
theorem Builds.pulls (h : Builds (pmmSource haccepts hwindow) k s t fs s' t') : Pulls s fs s' := by
  induction h with
  | refl s t => exact .keep rfl
  | link halloc _ _ _ _ _ ih => exact .pull rfl halloc (ih.before rfl)

end Pulled

namespace QemuVirtMmu

variable [Build]

/-- The frame behind a page, by the number of the page. -/
def mapping (as_ : QemuVirtAddressSpace) (m : Memory) (q : ℕ) : Option PhysFrame :=
  if q < 2 ^ 36 then
    match (translate as_ ⟨q * pageSize⟩).run m with
    | .ok (frame, _) _ => some frame
    | _ => none
  else
    none

/-- The tables of the address space are the tree `t`, which holds the map `pm` of pages. -/
structure HoldsMap (as_ : QemuVirtAddressSpace) (m : Memory) (t : PageTree) (pm : PageMap) :
    Prop where
  holds : Holds m t
  root : as_.root.asUsize = t.root
  refines : Refines t pm

section HoldsMap

variable {as_ : QemuVirtAddressSpace} {m m' : Memory} {t : PageTree} {pm : PageMap} {q : ℕ}
  {va : VirtAddr}

omit [Build] in
theorem HoldsMap.tableFrames (h : HoldsMap as_ m t pm) :
    tableFrames m as_.root.asUsize = {a | t.IsTable a} := by
  rw [h.root]
  exact h.holds.tableFrames_eq

theorem HoldsMap.translate_run (h : HoldsMap as_ m t pm) (hva : va.val < 2 ^ 48) :
    (translate as_ va).run m = .returned (pm.translation (va.val / pageSize)) m := by
  rw [Tyrne.translate_run h.holds h.root, h.refines.translation, pageOf_below hva]

theorem HoldsMap.mapping_eq (h : HoldsMap as_ m t pm) (hq : q < 2 ^ 36) :
    mapping as_ m q = (pm q).map Prod.fst := by
  have hbelow : (⟨q * pageSize⟩ : VirtAddr).val < 2 ^ 48 := by
    unfold pageSize
    dsimp only
    omega
  have hrun := h.translate_run hbelow
  dsimp only at hrun
  rw [Nat.mul_div_cancel q (by decide)] at hrun
  unfold mapping
  rw [if_pos hq, hrun]
  unfold PageMap.translation
  cases pm q <;> rfl

/-- Both maps of pages give the same frames. -/
theorem HoldsMap.mapping_congr {t' : PageTree} {pm' : PageMap} (h : HoldsMap as_ m t pm)
    (h' : HoldsMap as_ m' t' pm')
    (hsame : ∀ q < 2 ^ 36, (pm' q).map Prod.fst = (pm q).map Prod.fst) :
    mapping as_ m' = mapping as_ m := by
  funext q
  by_cases hq : q < 2 ^ 36
  · rw [h'.mapping_eq hq, hsame q hq, h.mapping_eq hq]
  · unfold mapping
    rw [if_neg hq, if_neg hq]

/-- One page has changed. -/
theorem HoldsMap.mapping_update {t' : PageTree} {x : Option (PhysFrame × MappingFlags)}
    (h : HoldsMap as_ m t pm) (hva : va.val < 2 ^ 48)
    (h' : HoldsMap as_ m' t' (Function.update pm (va.val / pageSize) x)) :
    mapping as_ m' = Function.update (mapping as_ m) (va.val / pageSize) (x.map Prod.fst) := by
  have hpage : va.val / pageSize < 2 ^ 36 := by
    unfold pageSize
    omega
  funext q
  by_cases hq : q = va.val / pageSize
  · rw [hq, Function.update_self, h'.mapping_eq hpage, Function.update_self]
  · rw [Function.update_of_ne hq]
    by_cases hlt : q < 2 ^ 36
    · rw [h'.mapping_eq hlt, Function.update_of_ne hq, h.mapping_eq hlt]
    · unfold mapping
      rw [if_neg hlt, if_neg hlt]

end HoldsMap

section Contract

variable {N R : ℕ} {extent : PhysFrameRange} {reserved : List PhysFrameRange}
  {haccepts : Accepts N R extent reserved} {hwindow : extent.stop.val ≤ directMapEnd}
  {as_ as' : QemuVirtAddressSpace} {s s' : Supply (Pmm N R)} {A : SetAllocator ℕ} {t : PageTree}
  {pm : PageMap} {va : VirtAddr} {pa : PhysFrame} {flags : MappingFlags} {token : MapperFlush}
  {e : MmuError}

/-- Outstanding tables are owned. -/
theorem HoldsMap.owns (h : HoldsMap as_ s.memory t pm) (hmodels : Models extent reserved s.frames A)
    (hout : ∀ a ∈ Tyrne.tableFrames s.memory as_.root.asUsize, a ∈ A.outstanding) :
    Owns (pmmSource haccepts hwindow) s t where
  holds := h.holds
  valid := ⟨A, hmodels⟩
  apart a ha hfree := by
    have havailable := (hmodels.mem_freeFrames haccepts.aligned).mp hfree
    rw [h.tableFrames] at hout
    exact (SetAllocator.mem_available.mp havailable).2 (hout a ha)

omit [Build] in
/-- The call of the trait is the call of the MMU, on the same address space. -/
theorem onHardware_ok {α : Type} {p : QemuVirtAddressSpace → Prog (Supply (Pmm N R)) MmuError α}
    {x : α} (hrun : (onHardware p).run (as_, s) = .ok x (as', s')) :
    as' = as_ ∧ (p as_).run s = .ok x s' := by
  rw [Spaces.onHardware_run] at hrun
  obtain ⟨s₁, hp, hx⟩ := Prog.zoom_eq_ok.mp hrun
  cases hx
  exact ⟨rfl, hp⟩

omit [Build] in
theorem onHardware_err {α : Type} {p : QemuVirtAddressSpace → Prog (Supply (Pmm N R)) MmuError α}
    (hrun : (onHardware p : Prog _ _ α).run (as_, s) = .err e (as', s')) :
    as' = as_ ∧ (p as_).run s = .err e s' := by
  rw [Spaces.onHardware_run] at hrun
  cases hp : (p as_).run s with
  | ok x s₁ =>
    rw [Prog.zoom_ok hp] at hrun
    cases hrun
  | err e' s₁ =>
    rw [Prog.zoom_err hp] at hrun
    cases hrun
    exact ⟨rfl, rfl⟩
  | panic cause =>
    rw [Prog.zoom_panic hp] at hrun
    cases hrun

/-- A `map` that succeeds has linked what it pulled, and maps its page. -/
theorem HoldsMap.map_ok (h : HoldsMap as_ s.memory t pm)
    (howns : Owns (pmmSource haccepts hwindow) s t) (hva : va.val < 2 ^ 48)
    (hpa : pa.asUsize < 2 ^ 48)
    (hrun : (map as_ va pa flags Pmm.allocFrame).run s = .ok token s') :
    ∃ t' fs, HoldsMap as_ s'.memory t'
        (Function.update pm (va.val / pageSize) (some (pa, flags))) ∧
      Pulls s fs s' ∧ ∀ a, t'.IsTable a ↔ t.IsTable a ∨ a ∈ fs := by
  have hend : MapEnd (pmmSource haccepts hwindow) va pa flags s t
      ((map as_ va pa flags Pmm.allocFrame).run s) := map_run howns h.root va pa flags
  rw [hrun] at hend
  rw [← pageOf_below hva]
  cases hend with
  | @mapped s₁ t₁ fs a _ hflags hbuilds ha _ =>
    have howns₁ := hbuilds.owns howns
    have hwritten : decode 3 (pageDescriptorOf pa.asUsize flags) =
        .ofLeaf (some (pageDescriptorOf pa.asUsize flags)) := decode_leaf pageDescriptorOf_valid
    have hrefines : Refines (t₁.setLeaf _ (some (pageDescriptorOf pa.asUsize flags)) ⟨a, ha⟩)
        (Function.update pm (pageOf va) (some (pa, flags))) := by
      refine (h.refines.grows hbuilds.grows).setLeaf (o := some (pa, flags)) fun entry hentry => ?_
      cases hentry
      exact ⟨hpa, hflags⟩
    refine ⟨_, fs, ⟨(howns₁.writeLeaf ha hwritten).holds, ?_, hrefines⟩, hbuilds.pulls.after rfl,
      fun b => hbuilds.grows.isTable⟩
    exact h.root.trans hbuilds.grows.root.symm

/-- A `map` that fails has linked what it pulled, and nothing else. -/
theorem HoldsMap.map_err (h : HoldsMap as_ s.memory t pm)
    (howns : Owns (pmmSource haccepts hwindow) s t)
    (hrun : (map as_ va pa flags Pmm.allocFrame).run s = .err e s') :
    ∃ t' fs, HoldsMap as_ s'.memory t' pm ∧ Pulls s fs s' ∧
      ∀ a, t'.IsTable a ↔ t.IsTable a ∨ a ∈ fs := by
  have hend : MapEnd (pmmSource haccepts hwindow) va pa flags s t
      ((map as_ va pa flags Pmm.allocFrame).run s) := map_run howns h.root va pa flags
  rw [hrun] at hend
  have hsame : ∀ a, t.IsTable a ↔ t.IsTable a ∨ a ∈ ([] : List ℕ) := by simp
  cases hend with
  | misaligned _ => exact ⟨t, [], h, .keep rfl, hsame⟩
  | invalid _ _ => exact ⟨t, [], h, .keep rfl, hsame⟩
  | @occupied _ t' fs _ _ hbuilds _ =>
    refine ⟨t', fs, ⟨(hbuilds.owns howns).holds, h.root.trans hbuilds.grows.root.symm,
      h.refines.grows hbuilds.grows⟩, hbuilds.pulls, fun a => hbuilds.grows.isTable⟩
  | @exhausted s₁ _ t' fs _ _ hbuilds hrefused _ _ =>
    obtain ⟨A₁, hmodels₁⟩ := (hbuilds.owns howns).valid
    have hs' : s' = s₁ := by
      have hrefused' : (Pmm.allocFrame : Prog (Supply (Pmm N R)) MmuError _).run s₁ = .ok none s' :=
        hrefused
      rcases hmodels₁.allocFrame_run (ε := MmuError) haccepts hwindow with ⟨_, hnone⟩ |
        ⟨_, _, _, _, hsome, _⟩
      · cases hnone.symm.trans hrefused'
        rfl
      · cases hsome.symm.trans hrefused'
    rw [hs']
    refine ⟨t', fs, ⟨(hbuilds.owns howns).holds, h.root.trans hbuilds.grows.root.symm,
      h.refines.grows hbuilds.grows⟩, hbuilds.pulls, fun a => hbuilds.grows.isTable⟩

/-- An `unmap` of a page that is mapped. -/
theorem HoldsMap.unmap_run (h : HoldsMap as_ s.memory t pm)
    (howns : Owns (pmmSource haccepts hwindow) s t) (haligned : va.val % pageSize = 0)
    (hva : va.val < 2 ^ 48) (hmapped : pm (va.val / pageSize) = some (pa, flags)) :
    ∃ token t' s', (unmap as_ va).run s = .ok (token, pa) s' ∧ s'.frames = s.frames ∧
      HoldsMap as_ s'.memory t' (Function.update pm (va.val / pageSize) none) ∧
      ∀ a, t'.IsTable a ↔ t.IsTable a := by
  rw [← pageOf_below hva] at hmapped ⊢
  have hleaf := h.refines.leaf (pageOf va)
  rw [hmapped] at hleaf
  have hend : UnmapEnd va s t ((unmap as_ va).run s) := Tyrne.unmap_run h.holds h.root va
  generalize hrun : (unmap as_ va).run s = r at hend
  cases hend with
  | misaligned hnot => exact absurd haligned hnot
  | missing _ hopen =>
    rw [hopen.2] at hleaf
    cases hleaf
  | blocked _ hblocked => exact absurd hblocked (h.refines.unblocked _)
  | @cleared a w _ ha hsome =>
    rw [hsome] at hleaf
    have hw : w = pageDescriptorOf pa.asUsize flags := Option.some.inj hleaf
    have hframe : frameAt w = pa := by
      rw [hw]
      exact PhysFrame.ext_val (pageDescriptorOf_address pa.aligned (h.refines.below _ _ hmapped).1)
    have hwritten : decode 3 0 = .ofLeaf none := decode_empty (by decide)
    rw [hframe]
    exact ⟨_, _, _, rfl, rfl, ⟨(howns.writeLeaf ha hwritten).holds, h.root,
      h.refines.setLeaf (o := none) fun _ hentry => nomatch hentry⟩, fun _ => Iff.rfl⟩

omit [Build] in
/-- Usable frames lie below the addresses that a descriptor can hold. -/
theorem outstanding_below (hmodels : Models extent reserved s.frames A)
    (haccepts : Accepts N R extent reserved) (hwindow : extent.stop.val ≤ directMapEnd) {a : ℕ}
    (ha : a ∈ A.outstanding) : a < 2 ^ 48 := by
  have husable := A.outstanding_subset ha
  rw [hmodels.usable] at husable
  have hin := ((PhysFrameRange.mem_frames haccepts.aligned).mp (mem_usableFrames.mp husable).1).1
  have hlt : a < extent.stop.val := hin.2
  exact (hlt.trans_le hwindow).trans (by decide)

/-- The MMU of QEMU virt meets the contract. -/
def contract (haccepts : Accepts N R extent reserved) (hwindow : extent.stop.val ≤ directMapEnd) :
    MmuContract QemuVirtAddressSpace N R extent reserved where
  Sound as_ m := ∃ t pm, HoldsMap as_ m t pm
  tables as_ m := Tyrne.tableFrames m as_.root.asUsize
  mapping as_ m := mapping as_ m
  create {root m} hroot hzero := by
    have hbelow : root.asUsize < directMapEnd := by
      have hin := ((PhysFrameRange.mem_frames haccepts.aligned).mp (mem_usableFrames.mp hroot).1).1
      exact lt_of_lt_of_le hin.2 hwindow
    have hnew : HoldsMap ⟨root⟩ m (Tree.empty 512 3 _ _ root.asUsize) fun _ => none :=
      ⟨holds_empty root.aligned hbelow hzero, rfl, refines_empty⟩
    refine ⟨⟨_, _, hnew⟩, ?_, ?_⟩
    · refine hnew.tableFrames.trans ?_
      ext a
      exact isTable_empty
    · funext q
      by_cases hq : q < 2 ^ 36
      · exact hnew.mapping_eq hq
      · exact if_neg hq
  keep {as_ m m'} hsound hsame := by
    obtain ⟨t, pm, h⟩ := hsound
    rw [h.tableFrames] at hsame
    have hholds : Holds m' t := h.holds.congr fun a i ha hi =>
      readWord_congr fun j hj => hsame a ha _ (inFrame_slot hi hj)
    have h' : HoldsMap as_ m' t pm := ⟨hholds, h.root, h.refines⟩
    exact ⟨⟨t, pm, h'⟩, h'.tableFrames.trans h.tableFrames.symm, h.mapping_congr h' fun _ _ => rfl⟩
  untranslated {as_ m va} hsound hva hnone x m' hrun := by
    obtain ⟨t, pm, h⟩ := hsound
    have hpage : va.val / pageSize < 2 ^ 36 := by
      unfold pageSize
      omega
    rw [h.mapping_eq hpage, Option.map_eq_none_iff] at hnone
    have hends : (Mmu.translate as_ va).run m = .returned (pm.translation (va.val / pageSize)) m :=
      h.translate_run hva
    rw [hends] at hrun
    unfold PageMap.translation at hrun
    rw [hnone] at hrun
    cases hrun
  map_ok {as_ as' s s' A va pa flags token} hsound hmodels hout _ hva hpa _ hrun := by
    obtain ⟨t, pm, h⟩ := hsound
    obtain ⟨rfl, hmap⟩ := onHardware_ok hrun
    have howns : Owns (pmmSource haccepts hwindow) s t := h.owns hmodels hout
    obtain ⟨t', fs, h', hpulls, htables⟩ :=
      h.map_ok howns hva (outstanding_below hmodels haccepts hwindow hpa) hmap
    refine ⟨⟨t', _, h'⟩, h.mapping_update hva h', fs, hpulls, ?_⟩
    rw [h.tableFrames, h'.tableFrames]
    ext a
    exact htables a
  map_err {as_ as' s s' A va pa flags e} hsound hmodels hout _ _ _ _ hrun := by
    obtain ⟨t, pm, h⟩ := hsound
    obtain ⟨rfl, hmap⟩ := onHardware_err hrun
    have howns : Owns (pmmSource haccepts hwindow) s t := h.owns hmodels hout
    obtain ⟨t', fs, h', hpulls, htables⟩ := h.map_err howns hmap
    refine ⟨⟨t', _, h'⟩, h.mapping_congr h' fun _ _ => rfl, fs, hpulls, ?_⟩
    rw [h.tableFrames, h'.tableFrames]
    ext a
    exact htables a
  unmap {as_ s A va pa} hsound hmodels hout haligned hva hmapped := by
    obtain ⟨t, pm, h⟩ := hsound
    have howns : Owns (pmmSource haccepts hwindow) s t := h.owns hmodels hout
    have hpage : va.val / pageSize < 2 ^ 36 := by
      unfold pageSize
      omega
    rw [h.mapping_eq hpage] at hmapped
    obtain ⟨⟨pa', flags⟩, hentry, rfl⟩ := Option.map_eq_some_iff.mp hmapped
    obtain ⟨token, t', s', hrun, hframes, h', htables⟩ := h.unmap_run howns haligned hva hentry
    have hcall : (Mapper.unmap va).run (as_, s) = .ok (token, pa') (as_, s') :=
      (Spaces.onHardware_run (fun as_ => unmap as_ va) as_ s).trans (Prog.zoom_ok hrun)
    refine ⟨token, as_, s', hcall, hframes, ⟨t', _, h'⟩, h.mapping_update hva h', ?_⟩
    rw [h.tableFrames, h'.tableFrames]
    ext a
    exact htables a
  flush _ _ := rfl

end Contract

end QemuVirtMmu

end Tyrne
