import Tyrne.Bsp.Budget

/-!
# Addresses from 2^48 on

A walk reads 36 bits of the page number of an address and drops the others, and no entry point
checks them. So `translate`, `map` and `unmap` take an address from 2^48 on for the one with
the same low 48 bits, which the hardware would not do.
-/

namespace Tyrne

open Radix Tree

/-- The address that a walk takes `va` for. -/
def lowAddress (va : VirtAddr) : VirtAddr := ⟨va.val % 2 ^ 48⟩

theorem pageOf_lowAddress (va : VirtAddr) : pageOf (lowAddress va) = pageOf va := by
  unfold pageOf lowAddress pageSize
  dsimp only
  omega

/-! ## The pages that are mapped -/

/-- The mapped pages after the event. -/
def MapEvent.remaps (mapped : Set ℕ) (ev : MapEvent) : Set ℕ :=
  match ev.op, ev.reply with
  | .map va _ _, .ok _ => insert (pageOf va) mapped
  | .unmap va, .ok _ => mapped \ {pageOf va}
  | _, .error _ => mapped

/-- The pages whose last successful call is a `map`. -/
def mappedPages (evs : List MapEvent) : Set ℕ := evs.foldl MapEvent.remaps ∅

/-- The tables map these pages. -/
structure MapsPages (t : PageTree) (mapped : Set ℕ) : Prop where
  unblocked : ∀ k, ¬ t.Blocked k
  leaf : ∀ k, t.leaf k ≠ none ↔ k ∈ mapped
  page : ∀ k w, t.leaf k = some w → ∃ x, leafTranslation w = .ok x

section Tables

variable {t t' : PageTree} {mapped : Set ℕ} {k : ℕ} {ev : MapEvent}

theorem leafTranslation_pageDescriptorOf (pa : ℕ) (flags : MappingFlags) :
    ∃ x, leafTranslation (pageDescriptorOf pa flags) = .ok x := by
  unfold leafTranslation
  rw [if_neg (not_or.mpr ⟨pageDescriptorOf_page, pageDescriptorOf_af⟩)]
  exact ⟨_, rfl⟩

theorem MapsPages.grows {as : List ℕ} (h : MapsPages t mapped) (hgrows : Grows k t as t') :
    MapsPages t' mapped where
  unblocked q hblocked := h.unblocked q (hgrows.blocked.mp hblocked)
  leaf q := by
    rw [hgrows.leaf]
    exact h.leaf q
  page q w hw := by
    rw [hgrows.leaf] at hw
    exact h.page q w hw

/-- A call changes the mapped pages as it does the tables. -/
theorem MapsPages.step (h : MapsPages t mapped) (hstep : TreeStep t ev t') :
    MapsPages t' (ev.remaps mapped) := by
  cases hstep with
  | @failed op e as t' hgrows =>
    have hsame : MapEvent.remaps mapped ⟨op, .error e⟩ = mapped := by cases op <;> rfl
    rw [hsame]
    exact h.grows hgrows
  | @mapped va pa flags as t₁ r _ hgrows ha =>
    have h₁ := h.grows hgrows
    show MapsPages _ (insert (pageOf va) mapped)
    refine ⟨h₁.unblocked, fun q => ?_, fun q w hw => ?_⟩
    · by_cases hq : q = pageOf va
      · rw [hq, setLeaf_leaf_self]
        simp
      · rw [setLeaf_leaf_of_ne hq, h₁.leaf q]
        simp [hq]
    · by_cases hq : q = pageOf va
      · rw [hq, setLeaf_leaf_self] at hw
        cases hw
        exact leafTranslation_pageDescriptorOf _ _
      · rw [setLeaf_leaf_of_ne hq] at hw
        exact h₁.page q w hw
  | @unmapped va r ha =>
    show MapsPages _ (mapped \ {pageOf va})
    refine ⟨h.unblocked, fun q => ?_, fun q w hw => ?_⟩
    · by_cases hq : q = pageOf va
      · rw [hq, setLeaf_leaf_self]
        simp
      · rw [setLeaf_leaf_of_ne hq, h.leaf q]
        simp [hq]
    · by_cases hq : q = pageOf va
      · rw [hq, setLeaf_leaf_self] at hw
        cases hw
      · rw [setLeaf_leaf_of_ne hq] at hw
        exact h.page q w hw

theorem mapsPages_empty {root : ℕ} : MapsPages (Tree.empty 512 3 _ _ root) ∅ where
  unblocked := refines_empty.unblocked
  leaf k := by simp [show (Tree.empty 512 3 _ _ root : PageTree).leaf k = none from rfl]
  page k w hw := nomatch hw

end Tables

/-! ## Runs -/

section Runs

variable [Build] {σ : Type} [Hardware σ] {src : FrameSource σ} {as_ : QemuVirtAddressSpace}
  {s s' : σ} {t : PageTree} {mapped : Set ℕ} {evs : List MapEvent} {ev : MapEvent} {va : VirtAddr}
  {pa : PhysFrame} {flags : MappingFlags}

/-- A call with any address, and what it returned. -/
def MapCall (src : FrameSource σ) (as_ : QemuVirtAddressSpace) (s : σ) (ev : MapEvent) (s' : σ) :
    Prop :=
  (ev.op.exec src as_).run s = .returned ev.reply s'

/-- The machine owns tables of the address space that map these pages. -/
def MapsPagesOf (src : FrameSource σ) (as_ : QemuVirtAddressSpace) (s : σ) (mapped : Set ℕ) :
    Prop :=
  ∃ t, Owns src s t ∧ as_.root.asUsize = t.root ∧ MapsPages t mapped

theorem MapsPagesOf.step (h : MapsPagesOf src as_ s mapped) (hstep : MapCall src as_ s ev s') :
    MapsPagesOf src as_ s' (ev.remaps mapped) := by
  obtain ⟨t, howns, hroot, hmaps⟩ := h
  obtain ⟨t', howns', hroot', hstep⟩ := exec_tree howns hroot hstep
  exact ⟨t', howns', hroot', hmaps.step hstep⟩

/-- In every state that calls reach from a zeroed root. -/
theorem MapsPagesOf.run {s₀ : σ} (hroot : as_.root.asUsize < directMapEnd)
    (hzero : ∀ a, InFrame as_.root.asUsize a → Hardware.memory s₀ a = 0) (hvalid : src.Valid s₀)
    (hapart : as_.root.asUsize ∉ src.offers s₀) (hrun : Run (MapCall src as_) s₀ evs s) :
    MapsPagesOf src as_ s (mappedPages evs) := by
  have hstart : MapsPagesOf src as_ s₀ (mappedPages []) := by
    refine ⟨Tree.empty 512 3 _ _ as_.root.asUsize, ⟨?_, hvalid, fun a ha => ?_⟩, rfl,
      mapsPages_empty⟩
    · exact holds_empty as_.root.aligned hroot hzero
    · rw [isTable_empty.mp ha]
      exact hapart
  apply hrun.history (I := fun evs s => MapsPagesOf src as_ s (mappedPages evs)) hstart
  intro past s₁ ev s₂ hpast hstep
  have hnext := hpast.step hstep
  unfold mappedPages
  rw [List.foldl_append]
  exact hnext

/-- The call has not changed what the low address translates to. -/
def LeavesLow (as_ : QemuVirtAddressSpace) (va : VirtAddr) (s s' : σ) : Prop :=
  ∀ r, (QemuVirtMmu.translate as_ (lowAddress va)).run s' = .returned r s' ↔
    (QemuVirtMmu.translate as_ (lowAddress va)).run s = .returned r s

/-- The low address translates as the page of `va` does. -/
theorem translate_low (hholds : Holds (Hardware.memory s) t) (hroot : as_.root.asUsize = t.root) :
    (QemuVirtMmu.translate as_ (lowAddress va)).run s =
      .returned (PageTree.translation t (pageOf va)) s := by
  rw [translate_run hholds hroot, pageOf_lowAddress]

theorem LeavesLow.refl (s : σ) : LeavesLow as_ va s s := fun _ => Iff.rfl

theorem LeavesLow.grows {t' : PageTree} {as : List ℕ} (howns : Owns src s t)
    (hroot : as_.root.asUsize = t.root) (howns' : Owns src s' t')
    (hgrows : Grows (pageOf va) t as t') : LeavesLow as_ va s s' := by
  intro r
  rw [translate_low howns.holds hroot, translate_low howns'.holds (hroot.trans hgrows.root.symm),
    translation_grows hgrows, Result.returned_inj, Result.returned_inj]
  simp

end Runs

end Tyrne
