import Tyrne.Bsp.Mapping

/-!
# Failed maps

A `map` that fails may have linked tables on the path of its page. They translate nothing,
each was handed out zeroed, and a later `map` of the page needs only the tables that are
still missing.
-/

namespace Tyrne

open Radix Tree

/-! ## The words of the linked tables -/

namespace Builds

variable {σ : Type} [Hardware σ] {src : FrameSource σ} {s s' : σ} {t t' : PageTree} {k : ℕ}
  {as : List ℕ}

/-- Linking writes a slot of a table only when the slot is on the path and empty. -/
theorem word_kept (h : Builds src k s t as s' t') (howns : Owns src s t) {l q a i : ℕ}
    (ha : t.node l q = some (.table a)) (hi : i < 512)
    (hoff : ¬ (q = up 512 3 l k ∧ i = up 512 3 (l + 1) k % 512 ∧
      t.node (l + 1) (up 512 3 (l + 1) k) = none)) :
    (Hardware.memory s').readWord (a + 8 * i) = (Hardware.memory s).readWord (a + 8 * i) := by
  induction h with
  | refl s t => rfl
  | @link s s₁ s' t t' l' b f as halloc hl hb hempty hfresh _ ih =>
    obtain ⟨_, _, _, _, hagrees⟩ := FrameSource.alloc_some howns.valid halloc
    have haligned := howns.holds.aligned a ⟨l, q, ha⟩
    have hk : up 512 3 (l' + 1) k % 512 < 512 := Nat.mod_lt _ (by decide)
    have hold : ∀ {l₁ q₁}, (t.graft l' (up 512 3 (l' + 1) k) f.asUsize hl ⟨b, hb⟩ hempty
        hfresh).node l₁ q₁ = none → t.node l₁ q₁ = none := by
      intro l₁ q₁ hnone
      by_cases hnew : l₁ = l' + 1 ∧ q₁ = up 512 3 (l' + 1) k
      · obtain ⟨rfl, rfl⟩ := hnew
        exact hempty
      · rw [graft_node_of_ne hnew] at hnone
        exact hnone
    have hkept : (t.graft l' (up 512 3 (l' + 1) k) f.asUsize hl ⟨b, hb⟩ hempty hfresh).node l q =
        some (.table a) := by
      rw [graft_node_of_ne, ha]
      rintro ⟨rfl, rfl⟩
      rw [hempty] at ha
      cases ha
    rw [ih (howns.link halloc hl hb hempty) hkept fun hcon =>
        hoff ⟨hcon.1, hcon.2.1, hold hcon.2.2⟩,
      Hardware.memory_store,
      readWord_writeWord_slot (howns.holds.aligned b ⟨l', _, hb⟩) haligned hk hi,
      readWord_agreesOff hagrees (fun c hc => (src.in_window howns.valid hc).1) haligned
        (howns.apart a ⟨l, q, ha⟩) hi]
    rintro ⟨rfl, rfl⟩
    obtain ⟨rfl, rfl⟩ := t.node_inj _ _ _ _ _ ha hb
    exact hoff ⟨up_succ (by omega), rfl, hempty⟩

end Builds

/-- The table at `a` is linked on the path of the page `k`, and holds zeros off the path. -/
structure LinkedEmpty (m : Memory) (t : PageTree) (k a : ℕ) : Prop where
  linked : ∃ l p, l < 3 ∧ t.node l (up 512 3 l k) = some (.table p) ∧
    t.node (l + 1) (up 512 3 (l + 1) k) = some (.table a) ∧
    m.readWord (p + 8 * (up 512 3 (l + 1) k % 512)) = tableDescriptor (BitVec.ofNat 64 a) ∧
    ∀ i < 512, i ≠ up 512 3 (l + 2) k % 512 → m.readWord (a + 8 * i) = 0

namespace Builds

variable {σ : Type} [Hardware σ] {src : FrameSource σ} {s s' : σ} {t t' : PageTree} {k : ℕ}
  {as : List ℕ}

/-- Every linked frame is a table on the path that holds zeros off the path. -/
theorem linkedEmpty (h : Builds src k s t as s' t') (howns : Owns src s t) :
    ∀ a ∈ as, LinkedEmpty (Hardware.memory s') t' k a := by
  induction h with
  | refl s t => exact fun a ha => (nomatch ha)
  | @link s s₁ s' t t' l b f as halloc hl hb hempty hfresh hrest ih =>
    have hlinked := howns.link halloc hl hb hempty
    intro a ha
    rcases List.mem_cons.mp ha with rfl | ha
    · obtain ⟨_, hoffered, _, hzero, _⟩ := FrameSource.alloc_some howns.valid halloc
      have hf := src.in_window howns.valid hoffered
      have hbaligned := howns.holds.aligned b ⟨l, _, hb⟩
      have hk : up 512 3 (l + 1) k % 512 < 512 := Nat.mod_lt _ (by decide)
      have hfb : f.asUsize ≠ b := fun heq => hfresh (heq ▸ ⟨l, _, hb⟩)
      have hparent : (t.graft l (up 512 3 (l + 1) k) f.asUsize hl ⟨b, hb⟩ hempty hfresh).node l
          (up 512 3 (l + 1) k / 512) = some (.table b) := by
        rw [graft_node_of_ne (by omega), hb]
      have hup : up 512 3 (l + 1) k / 512 = up 512 3 l k := up_succ (by omega)
      refine ⟨l, b, hl, ?_, hrest.grows.keeps graft_node_self, ?_, fun i hi hne => ?_⟩
      · rw [← hup]
        exact hrest.grows.keeps hparent
      · rw [hrest.word_kept hlinked hparent hk, Hardware.memory_store, readWord_writeWord_self]
        rintro ⟨_, _, hnone⟩
        rw [graft_node_self] at hnone
        cases hnone
      · rw [hrest.word_kept hlinked graft_node_self hi, Hardware.memory_store,
          readWord_writeWord_slot hbaligned hf.1 hk hi fun hcon => hfb hcon.1]
        · exact readWord_zero fun j hj => hzero _ (inFrame_slot hi hj)
        · rintro ⟨_, rfl, _⟩
          exact hne rfl
    · exact ih hlinked a ha

end Builds

section Failed

variable [Build] {σ : Type} [Hardware σ] {src : FrameSource σ} {s s₁ s' : σ} {t t' : PageTree}
  {as_ : QemuVirtAddressSpace} {va : VirtAddr} {pa : PhysFrame} {flags : MappingFlags} {k a : ℕ}
  {as : List ℕ} {e : MmuError}

omit [Build] in
/-- A refused allocation leaves the linked tables as they are. -/
theorem LinkedEmpty.refused (h : LinkedEmpty (Hardware.memory s₁) t k a) (howns : Owns src s₁ t)
    (hrefused : src.alloc.run s₁ = .ok none s') : LinkedEmpty (Hardware.memory s') t k a := by
  obtain ⟨_, _, hagrees⟩ := FrameSource.alloc_none howns.valid hrefused
  have hsame : ∀ b i, t.IsTable b → i < 512 → (Hardware.memory s').readWord (b + 8 * i) =
      (Hardware.memory s₁).readWord (b + 8 * i) := fun b i hb hi =>
    readWord_agreesOff hagrees (fun c hc => (src.in_window howns.valid hc).1)
      (howns.holds.aligned b hb) (howns.apart b hb) hi
  obtain ⟨l, p, hl, hp, ha, hlink, hzero⟩ := h.linked
  refine ⟨l, p, hl, hp, ha, ?_, fun i hi hne => ?_⟩
  · rw [hsame p _ ⟨l, _, hp⟩ (Nat.mod_lt _ (by decide)), hlink]
  · rw [hsame a i ⟨l + 1, _, ha⟩ hi, hzero i hi hne]

omit [Build] in
/-- What a failed `map` has done. -/
theorem MapEnd.failed (h : MapEnd src va pa flags s t (.err e s')) (howns : Owns src s t) :
    ∃ t' as, Grows (pageOf va) t as t' ∧ Owns src s' t' ∧ Takes src s s' as ∧
      ∀ a ∈ as, LinkedEmpty (Hardware.memory s') t' (pageOf va) a := by
  cases h with
  | misaligned _ => exact ⟨t, [], .refl t, howns, .nil src s, fun a ha => (nomatch ha)⟩
  | invalid _ _ => exact ⟨t, [], .refl t, howns, .nil src s, fun a ha => (nomatch ha)⟩
  | @occupied _ t' as _ _ h _ =>
    exact ⟨t', as, h.grows, h.owns howns, h.takes howns, h.linkedEmpty howns⟩
  | @exhausted s₁ _ t' as _ _ h hrefused _ _ =>
    have howns₁ := h.owns howns
    exact ⟨t', as, h.grows, howns₁.dry hrefused, (h.takes howns).refused howns₁.valid hrefused,
      fun a ha => (h.linkedEmpty howns a ha).refused howns₁ hrefused⟩

/-- On every error of `map`, the translation of every address and the leaves of the tables
are unchanged. The frames taken are new tables of the path that hold nothing but the link to
the next of them, and a `map` of the page from any state with these tables, whatever its
provider, needs only the tables that are still missing. -/
theorem map_failure_contract (howns : Owns src s t) (hroot : as_.root.asUsize = t.root)
    (hrun : (QemuVirtMmu.map as_ va pa flags src.alloc).run s = .err e s') :
    ∃ t' as,
      Owns src s' t' ∧ as_.root.asUsize = t'.root ∧ t'.leaf = t.leaf ∧
      (∀ va r, (QemuVirtMmu.translate as_ va).run s' = .returned r s' ↔
        (QemuVirtMmu.translate as_ va).run s = .returned r s) ∧
      Takes src s s' as ∧ (∀ a, t'.IsTable a ↔ t.IsTable a ∨ a ∈ as) ∧
      (∀ a ∈ as, ¬ t.IsTable a ∧ LinkedEmpty (Hardware.memory s') t' (pageOf va) a) ∧
      ∀ (src₂ : FrameSource σ) (s₂ : σ), Owns src₂ s₂ t' →
        (∀ token s₃, (QemuVirtMmu.map as_ va pa flags src₂.alloc).run s₂ = .ok token s₃ →
          ∃ bs, Takes src₂ s₂ s₃ bs ∧ bs.length = t.missing (pageOf va) - as.length) ∧
        ∀ s₃, (QemuVirtMmu.map as_ va pa flags src₂.alloc).run s₂ = .err .outOfFrames s₃ →
          ∃ bs s₁, Takes src₂ s₂ s₃ bs ∧ bs.length < t.missing (pageOf va) - as.length ∧
            src₂.alloc.run s₁ = .ok none s₃ := by
  have hend : MapEnd src va pa flags s t ((QemuVirtMmu.map as_ va pa flags src.alloc).run s) :=
    map_run howns hroot va pa flags
  rw [hrun] at hend
  obtain ⟨t', as, hgrows, howns', htakes, hempty⟩ := hend.failed howns
  have hroot' : as_.root.asUsize = t'.root := hroot.trans hgrows.root.symm
  have hmissing : t'.missing (pageOf va) = t.missing (pageOf va) - as.length := by
    have := hgrows.missing
    omega
  refine ⟨t', as, howns', hroot', hgrows.leaf, fun va r => ?_, htakes, fun a => hgrows.isTable,
    fun a ha => ⟨hgrows.fresh.2 a ha, hempty a ha⟩, fun src₂ s₂ howns₂ => ?_⟩
  · rw [translate_run howns'.holds hroot', translate_run howns.holds hroot,
      translation_grows hgrows, Result.returned_inj, Result.returned_inj]
    simp
  · have hretry := (map_run howns₂ hroot' va pa flags).needs howns₂
    rw [hmissing] at hretry
    exact hretry

omit [Build] in
/-- With one frame left, the first table of the path is linked and the second refused. -/
theorem map_failure_contract_twoFrames : let _ : Build := debugBuild
    let as_ : QemuVirtAddressSpace := ⟨⟨⟨0⟩, rfl⟩⟩
    ∃ s' t' as, (QemuVirtMmu.map as_ ⟨0⟩ secondFrame .user twoFramesSource.alloc).run
        ⟨twoFramesPmm, fun _ => 0⟩ = .err .outOfFrames s' ∧
      Owns twoFramesSource s' t' ∧ Takes twoFramesSource ⟨twoFramesPmm, fun _ => 0⟩ s' as := by
  intro _ as_
  obtain ⟨_, hmodels⟩ := twoFrames_models
  have hvalid : twoFramesSource.Valid ⟨twoFramesPmm, fun _ => 0⟩ := ⟨_, hmodels⟩
  have hoffers : ∀ a, a ∈ twoFramesSource.offers ⟨twoFramesPmm, fun _ => 0⟩ → a = 4096 := by
    intro a ha
    have hfree := (hmodels.mem_freeFrames (by decide)).mp ha
    have hall : ∀ a ∈ (freshAllocator twoFrames firstReserved).available, a = 4096 := by decide
    exact hall a hfree
  have howns : Owns twoFramesSource ⟨twoFramesPmm, fun _ => 0⟩ (Tree.empty 512 3 _ _ 0) := by
    refine ⟨holds_empty (by decide) (by decide) fun _ _ => rfl, hvalid, fun a ha hmem => ?_⟩
    rw [isTable_empty.mp ha] at hmem
    exact absurd (hoffers 0 hmem) (by decide)
  have hroot : as_.root.asUsize = (Tree.empty 512 3 (BitVec 64) (BitVec 64) 0).root := rfl
  have hend := map_run howns hroot ⟨0⟩ secondFrame .user
  have hfails : ∃ s', (QemuVirtMmu.map as_ ⟨0⟩ secondFrame .user twoFramesSource.alloc).run
      ⟨twoFramesPmm, fun _ => 0⟩ = .err .outOfFrames s' := by
    generalize (QemuVirtMmu.map as_ ⟨0⟩ secondFrame .user twoFramesSource.alloc).run
      ⟨twoFramesPmm, fun _ => 0⟩ = r at hend
    have hneeds := hend.needs howns
    cases hend with
    | misaligned hva => exact absurd rfl hva
    | invalid _ hflags => exact absurd hflags (by decide)
    | occupied _ _ _ hmapped =>
      rcases hmapped with hleaf | hblocked
      · exact absurd rfl hleaf
      · exact absurd hblocked (refines_empty.unblocked _)
    | exhausted _ _ _ _ _ _ => exact ⟨_, rfl⟩
    | mapped _ _ _ _ _ =>
      obtain ⟨as, htakes, hlength⟩ := hneeds.1 _ _ rfl
      have hsub : as ⊆ [4096] :=
        fun a ha => List.mem_singleton.mpr (hoffers a (htakes.offered a ha))
      have hle := (List.subperm_of_subset htakes.nodup hsub).length_le
      have hthree : (Tree.empty 512 3 (BitVec 64) (BitVec 64) 0).missing (pageOf ⟨0⟩) = 3 := by
        decide
      rw [hlength, hthree] at hle
      exact absurd hle (by decide)
  obtain ⟨s', hrun⟩ := hfails
  obtain ⟨t', as, howns', _, _, _, htakes, _⟩ := map_failure_contract howns rfl hrun
  exact ⟨s', t', as, hrun, howns', htakes⟩

end Failed

end Tyrne
