import Tyrne.Bsp.Tlb
import Tyrne.Library.Run

/-!
# Coherence of the TLB

Any run of creations, gated `map` and `unmap` calls and activations over any number of
address spaces, with refills of the TLB after every change. A new table or a new leaf takes no
translation away; a cleared leaf does, and the flush of its page follows before the call
returns; an activation drops everything. So the TLB agrees with the active tables after every
call, although a flush does not say which address space it is for.
-/

namespace Tyrne

open Radix Tree Spaces

/-! ## What an edit does to the walks -/

section Found

variable {t t' : PageTree} {k : ℕ} {as : List ℕ} {e : TlbEntry}

theorem PageTree.Found.grows (h : PageTree.Found t e) (hgrows : Grows k t as t') :
    PageTree.Found t' e := by
  obtain ⟨haf, hblock | ⟨hlevel, hleaf, hpage⟩⟩ := h
  · exact ⟨haf, Or.inl (hgrows.keeps hblock)⟩
  · refine ⟨haf, Or.inr ⟨hlevel, ?_, hpage⟩⟩
    rw [hgrows.leaf, hleaf]

theorem PageTree.Found.setLeaf (h : PageTree.Found t e) (hne : (e.page : ℕ) ≠ k)
    {o : Option (BitVec 64)} {ha : ∃ a, t.node 3 (k / 512) = some (.table a)} :
    PageTree.Found (t.setLeaf k o ha) e := by
  obtain ⟨haf, hblock | ⟨hlevel, hleaf, hpage⟩⟩ := h
  · exact ⟨haf, Or.inl hblock⟩
  · refine ⟨haf, Or.inr ⟨hlevel, ?_, hpage⟩⟩
    rw [setLeaf_leaf_of_ne hne, hleaf]

/-- Nothing is mapped at the page. -/
def PageTree.Open (t : PageTree) (k : ℕ) : Prop := ¬ t.Blocked k ∧ t.leaf k = none

theorem PageTree.Open.grows {q : ℕ} (h : PageTree.Open t q) (hgrows : Grows k t as t') :
    PageTree.Open t' q := by
  refine ⟨fun hblocked => h.1 (hgrows.blocked.mp hblocked), ?_⟩
  rw [hgrows.leaf]
  exact h.2

/-- Writing a leaf opens no other page, and closes none. -/
theorem PageTree.Open.setLeaf {q : ℕ} (h : PageTree.Open t q) {o : Option (BitVec 64)}
    (hkept : q = k → o = none) {ha : ∃ a, t.node 3 (k / 512) = some (.table a)} :
    PageTree.Open (t.setLeaf k o ha) q := by
  refine ⟨h.1, ?_⟩
  by_cases hq : q = k
  · rw [hq, setLeaf_leaf_self, hkept hq]
  · rw [setLeaf_leaf_of_ne hq]
    exact h.2

/-- An open page is found nowhere. -/
theorem PageTree.Found.not_open (h : PageTree.Found t e) : ¬ PageTree.Open t e.page := by
  rintro ⟨hblocked, hnone⟩
  obtain ⟨_, hblock | ⟨_, hleaf, _⟩⟩ := h
  · exact hblocked ⟨_, _, hblock⟩
  · rw [hnone] at hleaf
    cases hleaf

/-- `translate` and the walk of the hardware read the same tables. -/
theorem PageTree.Found.translation (h : PageTree.Found t e) :
    PageTree.translation t e.page ≠ .error .notMapped ∧
      (e.level = 3 → PageTree.translation t e.page =
        .ok (frameAt e.descriptor, descriptorBitsToFlags e.descriptor)) := by
  obtain ⟨haf, hblock | ⟨_, hleaf, hpage⟩⟩ := h
  · have hblocked : t.Blocked e.page := ⟨_, _, hblock⟩
    refine ⟨?_, fun hlevel => ?_⟩
    · unfold PageTree.translation
      rw [leaf_of_blocked hblocked]
      dsimp only
      rw [if_pos hblocked]
      intro hcon
      cases hcon
    · rw [hlevel, t.node_deep 4 _ (by decide)] at hblock
      cases hblock
  · have hok : PageTree.translation t e.page =
        .ok (frameAt e.descriptor, descriptorBitsToFlags e.descriptor) := by
      unfold PageTree.translation leafTranslation
      rw [hleaf]
      dsimp only
      rw [if_neg (not_or.mpr ⟨hpage, haf⟩)]
    rw [hok]
    exact ⟨fun hcon => (nomatch hcon), fun _ => rfl⟩

end Found

/-! ## Changes of the machine -/

section Core

variable {τ : Type} [Hardware τ] {src : FrameSource τ} {S : Set AddressSpaceHandle}
  {arena arena' : AddressSpaceArena QemuVirtAddressSpace} {s s' : Cpu τ}
  {T T' : AddressSpaceHandle → PageTree} {K : Set ℕ} {h : AddressSpaceHandle} {k : ℕ}
  {e : TlbEntry}

namespace Cpu

theorem mem_refill (he : e ∈ (refill s).tlb) : e ∈ s.tlb ∨ (refill s).Current e := by
  rcases he with hold | hnew
  · exact Or.inl hold
  · exact Or.inr hnew.2

theorem source_tidy (htidy : src.Tidy) : (source src).Tidy where
  refused {s s'} hvalid hrun := by
    have hrun' : (alloc src).run s = .ok none s' := hrun
    rcases src.alloc_cases hvalid with ⟨b, halloc, _⟩ | ⟨f, b, halloc, _⟩
    · rw [alloc_ok halloc] at hrun'
      cases hrun'
      exact htidy.refused hvalid halloc
    · rw [alloc_ok halloc] at hrun'
      cases hrun'
  handed {s s' f} hvalid hrun := by
    have hrun' : (alloc src).run s = .ok (some f) s' := hrun
    rcases src.alloc_cases hvalid with ⟨b, halloc, _⟩ | ⟨g, b, halloc, _⟩
    · rw [alloc_ok halloc] at hrun'
      cases hrun'
    · rw [alloc_ok halloc] at hrun'
      cases hrun'
      exact htidy.handed hvalid halloc
  flushed w hvalid := htidy.flushed w hvalid
  flushedAll hvalid := htidy.flushedAll hvalid

end Cpu

/-- The spaces of a family, one of which may be active, and a TLB that agrees with it but for
the pages of `K`. -/
structure Cached (src : FrameSource τ) (S : Set AddressSpaceHandle)
    (arena : AddressSpaceArena QemuVirtAddressSpace) (s : Cpu τ) (T : AddressSpaceHandle → PageTree)
    (K : Set ℕ) : Prop where
  valid : src.Valid s.base
  family : Family (Cpu.source src) S arena s T
  active : ∀ root, s.active = some root → ∃ h ∈ S, (T h).root = root
  coherent : ∀ e ∈ s.tlb, (e.page : ℕ) ∉ K → s.Current e

namespace Cached

/-- A change after which the active tables still give what they gave. -/
theorem change (hcached : Cached src S arena s T K) (hvalid : src.Valid s'.base)
    (hfam : Family (Cpu.source src) S arena' s' T') (hactive : s'.active = s.active)
    (hroots : ∀ h ∈ S, (T' h).root = (T h).root)
    (htlb : ∀ e ∈ s'.tlb, e ∈ s.tlb ∨ s'.Current e)
    (hsame : ∀ h ∈ S, ∀ e : TlbEntry, (e.page : ℕ) ∉ K → (T h).Found e → (T' h).Found e) :
    Cached src S arena' s' T' K where
  valid := hvalid
  family := hfam
  active root hroot := by
    rw [hactive] at hroot
    obtain ⟨h, hh, hrooth⟩ := hcached.active root hroot
    exact ⟨h, hh, (hroots h hh).trans hrooth⟩
  coherent e he hpage := by
    rcases htlb e he with hold | hnew
    · obtain ⟨root, hroot, hfinds⟩ := hcached.coherent e hold hpage
      obtain ⟨h, hh, rfl⟩ := hcached.active root hroot
      have hholds : Holds (Hardware.memory s.base) (T h) := (hcached.family.owns h hh).holds
      have hholds' : Holds (Hardware.memory s'.base) (T' h) := (hfam.owns h hh).holds
      have hfound := hsame h hh e hpage ((hholds.finds_iff e).mp hfinds)
      refine ⟨(T h).root, hactive.trans hroot, ?_⟩
      rw [← hroots h hh]
      exact (hholds'.finds_iff e).mpr hfound
    · exact hnew

/-- An allocation. -/
theorem alloc (hcached : Cached src S arena s T K) {r : Option PhysFrame}
    (hrun : (Cpu.source src).alloc.run s = .ok r s') : Cached src S arena s' T K := by
  have hrun' : (Cpu.alloc src).run s = .ok r s' := hrun
  have hvalid : (Cpu.source src).Valid s := hcached.valid
  have hfam : src.Valid s'.base ∧ Family (Cpu.source src) S arena s' T := by
    cases r with
    | none => exact ⟨(FrameSource.alloc_none hvalid hrun).1, hcached.family.dry hvalid hrun⟩
    | some f => exact ⟨(FrameSource.alloc_some hvalid hrun).1, (hcached.family.alloc hvalid hrun).1⟩
  have hshape : ∃ b, s' = Cpu.refill { s with base := b } := by
    rcases src.alloc_cases hcached.valid with ⟨b, halloc, _⟩ | ⟨f, b, halloc, _⟩
    · rw [Cpu.alloc_ok halloc] at hrun'
      cases hrun'
      exact ⟨b, rfl⟩
    · rw [Cpu.alloc_ok halloc] at hrun'
      cases hrun'
      exact ⟨b, rfl⟩
  obtain ⟨b, rfl⟩ := hshape
  exact hcached.change hfam.1 hfam.2 rfl (fun _ _ => rfl) (fun e he => Cpu.mem_refill he)
    fun _ _ _ _ hfound => hfound

/-- An edit of the tables of one space by a store. -/
theorem store {s₁ : Cpu τ} {t' : PageTree} {a : ℕ} {w : BitVec 64}
    (hcached : Cached src S arena s T K) (hh : h ∈ S)
    (hfam : Family (Cpu.source src) S arena s₁ T)
    (hedits : Edits (Cpu.source src) s₁ (T h) (Hardware.store a w s) t')
    (hsame : ∀ e : TlbEntry, (e.page : ℕ) ∉ K → (T h).Found e → t'.Found e) :
    Cached src S arena (Hardware.store a w s) (Function.update T h t') K := by
  refine hcached.change hedits.owns.valid (hfam.edits hh hedits) rfl (fun h' hh' => ?_)
    (fun e he => Cpu.mem_refill he) fun h' hh' e hpage hfound => ?_
  · by_cases hne : h' = h
    · rw [hne, Function.update_self, hedits.root]
    · rw [Function.update_of_ne hne]
  · by_cases hne : h' = h
    · rw [hne] at hfound
      rw [hne, Function.update_self]
      exact hsame e hpage hfound
    · rw [Function.update_of_ne hne]
      exact hfound

/-- The flush of a page. -/
theorem tlbiVae1 (htidy : src.Tidy) (hcached : Cached src S arena s T {k}) {w : BitVec 64}
    (hasid : w >>> 48 = 0#64) (hpage : w.toNat % 2 ^ 44 = k) :
    Cached src S arena (Hardware.tlbiVae1 w s) T ∅ := by
  obtain ⟨hvalid, hoffers⟩ := htidy.flushed w hcached.valid
  have hmemory : Hardware.memory (Hardware.tlbiVae1 w s.base) = Hardware.memory s.base :=
    Hardware.memory_tlbiVae1 w s.base
  have hfam : Family (Cpu.source src) S arena (Hardware.tlbiVae1 w s) T := by
    refine hcached.family.congr hvalid (fun _ _ => rfl) (fun h hh => ?_) fun h hh a ha hmem => ?_
    · rw [Hardware.memory_tlbiVae1]
      exact (hcached.family.owns h hh).holds
    · exact (hcached.family.owns h hh).apart a ha (hoffers ▸ hmem)
  refine ⟨hvalid, hfam, hcached.active, fun e he _ => ?_⟩
  rcases Cpu.mem_refill he with hold | hnew
  · obtain ⟨he, hkept⟩ := hold
    have hother : (e.page : ℕ) ∉ ({k} : Set ℕ) := by
      intro hk
      exact hkept ⟨hasid, (Set.mem_singleton_iff.mp hk).trans hpage.symm⟩
    obtain ⟨root, hroot, hfinds⟩ := hcached.coherent e he hother
    refine ⟨root, hroot, ?_⟩
    show Finds (Hardware.memory (Hardware.tlbiVae1 w s.base)) root e
    rw [hmemory]
    exact hfinds
  · exact hnew

theorem mono {K' : Set ℕ} (hcached : Cached src S arena s T K) (hsub : K ⊆ K') :
    Cached src S arena s T K' :=
  ⟨hcached.valid, hcached.family, hcached.active,
    fun e he hpage => hcached.coherent e he fun hk => hpage (hsub hk)⟩

/-- The tables of a path are linked. -/
theorem builds {t t' : PageTree} {as : List ℕ} (htidy : src.Tidy)
    (hbuilds : Builds (Cpu.source src) k s t as s' t') (hcached : Cached src S arena s T K)
    (hh : h ∈ S) (ht : T h = t) : Cached src S arena s' (Function.update T h t') K := by
  induction hbuilds generalizing T with
  | refl s t =>
    rw [← ht, Function.update_eq_self]
    exact hcached
  | @link s s₁ s' t t' l a f as halloc hl ha hempty hfresh hrest ih =>
    have howns : Owns (Cpu.source src) s t := ht ▸ hcached.family.owns h hh
    have hlink := howns.edits_link (Cpu.source_tidy htidy) halloc hl ha hempty
    have hgrows := Grows.graft hl ⟨a, ha⟩ hempty hfresh (.refl _)
    have hstored := (hcached.alloc halloc).store hh hcached.family (by rw [ht]; exact hlink)
      fun e _ hfound => by
        rw [ht] at hfound
        exact hfound.grows hgrows
    have hdone := ih hstored (Function.update_self _ _ _)
    rw [Function.update_idem] at hdone
    exact hdone

end Cached

end Core

/-! ## Gated calls -/

section Calls

variable [Build] {τ : Type} [Hardware τ] {src : FrameSource τ} {S : Set AddressSpaceHandle}
  {arena : AddressSpaceArena QemuVirtAddressSpace} {s : Cpu τ} {s' : Cpu τ}
  {T : AddressSpaceHandle → PageTree} {h : AddressSpaceHandle} {va : VirtAddr} {pa : PhysFrame}
  {flags : MappingFlags}

omit [Build] in
/-- The operand of the flush of an address below 2^48. -/
theorem flush_operand (hva : va.val < 2 ^ 48) :
    (BitVec.ofNat 64 va.val >>> 12 &&& 0x0000_FFFF_FFFF_FFFF : BitVec 64) >>> 48 = 0#64 ∧
      (BitVec.ofNat 64 va.val >>> 12 &&& 0x0000_FFFF_FFFF_FFFF : BitVec 64).toNat % 2 ^ 44 =
        pageOf va := by
  have hmask : (0x0000_FFFF_FFFF_FFFF : BitVec 64) = BitVec.ofNat 64 (2 ^ 48 - 1) := rfl
  have hvalue : (BitVec.ofNat 64 va.val >>> 12 &&& 0x0000_FFFF_FFFF_FFFF : BitVec 64).toNat =
      va.val / 4096 := by
    rw [hmask, BitVec.toNat_and, BitVec.toNat_ofNat, Nat.mod_eq_of_lt (by decide),
      Nat.and_two_pow_sub_one_eq_mod, BitVec.toNat_ushiftRight, BitVec.toNat_ofNat,
      Nat.shiftRight_eq_div_pow]
    omega
  constructor
  · apply BitVec.eq_of_toNat_eq
    rw [BitVec.toNat_ushiftRight, hvalue, Nat.shiftRight_eq_div_pow]
    show _ = 0
    omega
  · rw [hvalue]
    unfold pageOf pageSize
    omega

omit [Build] in
/-- However `map` ends, the TLB agrees. The open pages stay open, but for the one that is
mapped. -/
theorem MapEnd.cached {r : Result (Cpu τ) MmuError MapperFlush}
    (hend : MapEnd (Cpu.source src) va pa flags s (T h) r) (htidy : src.Tidy)
    (hcached : Cached src S arena s T ∅) (hh : h ∈ S) (hr : r.state = some s') :
    ∃ t', Cached src S arena s' (Function.update T h t') ∅ ∧
      ∀ k, k ≠ pageOf va ∨ (∃ e, r = .err e s') → (T h).Open k → t'.Open k := by
  have howns := hcached.family.owns h hh
  have hsame : Function.update T h (T h) = T := Function.update_eq_self h T
  cases hend with
  | misaligned _ =>
    cases hr
    exact ⟨T h, hsame.symm ▸ hcached, fun _ _ hopen => hopen⟩
  | invalid _ _ =>
    cases hr
    exact ⟨T h, hsame.symm ▸ hcached, fun _ _ hopen => hopen⟩
  | occupied _ _ hbuilds _ =>
    cases hr
    exact ⟨_, hcached.builds htidy hbuilds hh rfl, fun _ _ hopen => hopen.grows hbuilds.grows⟩
  | exhausted _ _ hbuilds hrefused _ _ =>
    cases hr
    exact ⟨_, (hcached.builds htidy hbuilds hh rfl).alloc hrefused,
      fun _ _ hopen => hopen.grows hbuilds.grows⟩
  | @mapped s₁ t₁ as a _ _ hbuilds ha hopen =>
    cases hr
    have hbuilt := hcached.builds htidy hbuilds hh rfl
    have howns₁ : Owns (Cpu.source src) s₁ (Function.update T h t₁ h) := hbuilt.family.owns h hh
    rw [Function.update_self] at howns₁
    have hwritten : decode 3 (pageDescriptorOf pa.asUsize flags) =
        .ofLeaf (some (pageDescriptorOf pa.asUsize flags)) := decode_leaf pageDescriptorOf_valid
    have hleaf := howns₁.edits_leaf ha hwritten
    have hstored := hbuilt.store hh hbuilt.family (by rw [Function.update_self]; exact hleaf)
      fun e _ hfound => by
        rw [Function.update_self] at hfound
        -- the page was open, so no walk ended there
        apply hfound.setLeaf
        intro hpage
        have hnot := hfound.not_open
        rw [hpage] at hnot
        exact hnot (PageTree.Open.grows hopen hbuilds.grows)
    rw [Function.update_idem] at hstored
    refine ⟨_, hstored, fun k hk hother => (hother.grows hbuilds.grows).setLeaf fun heq => ?_⟩
    rcases hk with hne | ⟨_, hcon⟩
    · exact absurd heq hne
    · cases hcon

omit [Build] in
/-- After an `unmap` the page of the address may be stale, and no other. The open pages stay
open, and a page that was unmapped is one of them. -/
theorem UnmapEnd.cached {r : Result (Cpu τ) MmuError (MapperFlush × PhysFrame)}
    (hend : UnmapEnd va s (T h) r) (hcached : Cached src S arena s T ∅) (hh : h ∈ S)
    (hr : r.state = some s') :
    ∃ t', Cached src S arena s' (Function.update T h t') {pageOf va} ∧
      (∀ k, (T h).Open k → t'.Open k) ∧ ((∃ x, r = .ok x s') → t'.Open (pageOf va)) := by
  have hweak := hcached.mono (Set.empty_subset {pageOf va})
  have howns := hcached.family.owns h hh
  have hsame : Function.update T h (T h) = T := Function.update_eq_self h T
  cases hend with
  | misaligned _ =>
    cases hr
    exact ⟨T h, hsame.symm ▸ hweak, fun _ hopen => hopen, fun ⟨_, hcon⟩ => nomatch hcon⟩
  | missing _ _ =>
    cases hr
    exact ⟨T h, hsame.symm ▸ hweak, fun _ hopen => hopen, fun ⟨_, hcon⟩ => nomatch hcon⟩
  | blocked _ _ =>
    cases hr
    exact ⟨T h, hsame.symm ▸ hweak, fun _ hopen => hopen, fun ⟨_, hcon⟩ => nomatch hcon⟩
  | cleared _ ha hsome =>
    cases hr
    have hleaf := howns.edits_leaf (w := 0) (o := none) ha (decode_empty (by decide))
    refine ⟨_, hweak.store hh hcached.family hleaf fun e hpage hfound => hfound.setLeaf hpage,
      fun k hopen => hopen.setLeaf fun _ => rfl, fun _ => ⟨?_, setLeaf_leaf_self⟩⟩
    have hlast : (T h).node 3 (up 512 3 3 (pageOf va)) = _ := (up_three (pageOf va)).symm ▸ ha
    exact not_blocked_of_last hlast

variable {p p' : Spaces QemuVirtAddressSpace (Cpu τ)} {hd : CapHandle} {t' : PageTree}

/-- The call leaves the capabilities and the arena, and a coherent TLB. The tables of the space
`h` have become `t'`. -/
structure CallEnd (src : FrameSource τ) (S : Set AddressSpaceHandle)
    (T : AddressSpaceHandle → PageTree) (h : AddressSpaceHandle) (t' : PageTree)
    (p p' : Spaces QemuVirtAddressSpace (Cpu τ)) : Prop where
  table : p'.table = p.table
  arena : p'.arena = p.arena
  cached : Cached src S p'.arena p'.machine (Function.update T h t') ∅

theorem Cached.capMap (htidy : src.Tidy) (hcached : Cached src S p.arena p.machine T ∅) (hh : h ∈ S)
    (hnames : Names p.table hd h) (hva : va.val < 2 ^ 48) :
    ∃ reply p' t', (Spaces.capMap hd (Cpu.source src).alloc va pa flags).run p =
        .returned reply p' ∧ CallEnd src S T h t' p p' ∧
      ∀ k, k ≠ pageOf va ∨ reply ≠ .ok () → (T h).Open k → t'.Open k := by
  obtain ⟨as_, hlive, hroot⟩ := hcached.family.live h hh
  have hend := map_run (hcached.family.owns h hh) hroot va pa flags
  cases hrun : (QemuVirtMmu.map as_ va pa flags (Cpu.source src).alloc).run p.machine with
  | panic c =>
    rw [hrun] at hend
    cases hend
  | err e m =>
    rw [hrun] at hend
    obtain ⟨t', hcached', hopens⟩ := hend.cached htidy hcached hh rfl
    exact ⟨.error _, _, t', capMap_err hnames hlive hrun, ⟨rfl, rfl, hcached'⟩,
      fun k _ => hopens k (Or.inr ⟨_, rfl⟩)⟩
  | ok token m =>
    rw [hrun] at hend
    obtain ⟨t', hcached', hopens⟩ := hend.cached htidy hcached hh rfl
    have htoken := (hend.of_ok (hcached.family.owns h hh)).1
    obtain ⟨m', hflush, hcall⟩ := capMap_ok hnames hlive hrun
    cases hflush
    rw [htoken] at hcall
    obtain ⟨hasid, hpage⟩ := flush_operand hva
    refine ⟨.ok (), _, t', hcall, ⟨rfl, rfl, ?_⟩, fun k hk => hopens k ?_⟩
    · exact (hcached'.mono (Set.empty_subset _)).tlbiVae1 htidy hasid hpage
    · exact Or.inl (hk.resolve_right fun hne => hne rfl)

theorem Cached.capUnmap (htidy : src.Tidy) (hcached : Cached src S p.arena p.machine T ∅)
    (hh : h ∈ S) (hnames : Names p.table hd h) (hva : va.val < 2 ^ 48) :
    ∃ reply p' t', (Spaces.capUnmap hd va).run p = .returned reply p' ∧
      CallEnd src S T h t' p p' ∧ (∀ k, (T h).Open k → t'.Open k) ∧
      ((∃ f, reply = .ok f) → t'.Open (pageOf va)) := by
  obtain ⟨as_, hlive, hroot⟩ := hcached.family.live h hh
  have howns := hcached.family.owns h hh
  have hend := unmap_run howns.holds hroot va
  cases hrun : (QemuVirtMmu.unmap as_ va : Prog (Cpu τ) MmuError _).run p.machine with
  | panic c =>
    rw [hrun] at hend
    cases hend
  | err e m =>
    rw [hrun] at hend
    have hsame : m = p.machine := hend.of_err
    rw [hsame] at hrun
    refine ⟨.error _, _, T h, capUnmap_err hnames hlive hrun, ⟨rfl, rfl, ?_⟩,
      fun _ hopen => hopen, fun ⟨_, hcon⟩ => nomatch hcon⟩
    rw [Function.update_eq_self]
    exact hcached
  | ok x m =>
    rw [hrun] at hend
    obtain ⟨t', hcached', hopens, hopened⟩ := hend.cached hcached hh rfl
    have htoken : x.1 = ⟨va⟩ := (UnmapEnd.of_ok (f := x.2) hend howns).1
    obtain ⟨m', hflush, hcall⟩ := capUnmap_ok (f := x.2) hnames hlive hrun
    cases hflush
    rw [htoken] at hcall
    obtain ⟨hasid, hpage⟩ := flush_operand hva
    exact ⟨.ok x.2, _, t', hcall, ⟨rfl, rfl, hcached'.tlbiVae1 htidy hasid hpage⟩, hopens,
      fun _ => hopened ⟨x, rfl⟩⟩

omit [Build] in
/-- An activation drops all entries. -/
theorem Cached.activate {as_ : QemuVirtAddressSpace} (htidy : src.Tidy)
    (hcached : Cached src S arena s T ∅) (hh : h ∈ S) (hlive : arena.get h.slot = some ⟨as_⟩) :
    ∃ s', (QemuVirtMmu.activate as_ : Prog (Cpu τ) AddressSpaceError _).run s = .ok () s' ∧
      Cached src S arena s' T ∅ := by
  obtain ⟨hvalid, hoffers⟩ := htidy.flushedAll hcached.valid
  refine ⟨_, rfl, ?_⟩
  obtain ⟨as', hget, hroot⟩ := hcached.family.live h hh
  rw [hlive] at hget
  cases hget
  have hholds (h' : AddressSpaceHandle) (hh' : h' ∈ S) :
      Holds (Hardware.memory (Hardware.tlbiVmalle1 s.base)) (T h') := by
    rw [Hardware.memory_tlbiVmalle1]
    exact (hcached.family.owns h' hh').holds
  refine ⟨hvalid, ?_, fun root hactive => ?_, fun e he _ => ?_⟩
  · exact hcached.family.congr hvalid (fun _ _ => rfl) hholds fun h' hh' a ha hmem =>
      (hcached.family.owns h' hh').apart a ha (hoffers ▸ hmem)
  · have hwindow := (hcached.family.owns h hh).holds.window _ (T h).isTable_root
    refine ⟨h, hh, ?_⟩
    have hvalue : (BitVec.ofNat 64 as_.root.asUsize).toNat % 2 ^ 48 = root :=
      Option.some.inj hactive
    rw [BitVec.toNat_ofNat] at hvalue
    unfold directMapEnd at hwindow
    omega
  · rcases Cpu.mem_refill he with hold | hnew
    · cases hold
    · exact hnew

end Calls

/-! ## Runs -/

inductive CpuOp
  | create (parent : CapHandle) (newRights : CapRights)
  | map (cap : CapHandle) (va : VirtAddr) (pa : PhysFrame) (flags : MappingFlags)
  | unmap (cap : CapHandle) (va : VirtAddr)
  | activate (handle : AddressSpaceHandle)
  /-- Another table is current: that of another task, or this one after other operations. -/
  | switchTable (table : CapabilityTable)

section Defs

variable [Build] {τ : Type} [Hardware τ]

def CpuOp.exec (src : FrameSource τ) :
    CpuOp → Prog (Spaces QemuVirtAddressSpace (Cpu τ)) AddressSpaceError Unit
  | .create parent newRights => do
    let _ ← capCreateAddressSpace parent newRights (Cpu.source src).alloc
  | .map cap va pa flags => capMap cap (Cpu.source src).alloc va pa flags
  | .unmap cap va => do
    let _ ← capUnmap cap va
  | .activate handle => activateAddressSpaceHandle handle
  | .switchTable table => Prog.modify fun s => { s with table }

omit [Build] in
/-- The addresses of the calls are below 2^48, and tables are well-formed. -/
def CpuOp.Allowed : CpuOp → Prop
  | .create _ _ => True
  | .map _ va _ _ => va.val < 2 ^ 48
  | .unmap _ va => va.val < 2 ^ 48
  | .activate _ => True
  | .switchTable table => table.WellFormed

/-- A call, the system in which it was made, and what it returned. -/
structure CpuEvent (τ : Type) where
  before : Spaces QemuVirtAddressSpace (Cpu τ)
  op : CpuOp
  reply : Except AddressSpaceError Unit

/-- An allowed call that returned. -/
def CpuStep (src : FrameSource τ) (s : Spaces QemuVirtAddressSpace (Cpu τ)) (ev : CpuEvent τ)
    (s' : Spaces QemuVirtAddressSpace (Cpu τ)) : Prop :=
  ev.before = s ∧ ev.op.Allowed ∧ (ev.op.exec src).run s = .returned ev.reply s'

open scoped Classical in
/-- The unmapped pages of the space `h` after the event. -/
noncomputable def CpuEvent.unmaps (h : AddressSpaceHandle) (gone : Set ℕ) (ev : CpuEvent τ) :
    Set ℕ :=
  match ev.op, ev.reply with
  | .unmap cap va, .ok _ =>
    if Names ev.before.table cap h then insert (va.val / pageSize) gone else gone
  | .map cap va _ _, .ok _ =>
    if Names ev.before.table cap h then gone \ {va.val / pageSize} else gone
  | _, _ => gone

/-- The pages that a call has unmapped through a capability to the space `h`, and that none has
mapped since. -/
noncomputable def unmappedPages (h : AddressSpaceHandle) (evs : List (CpuEvent τ)) : Set ℕ :=
  evs.foldl (CpuEvent.unmaps h) ∅

/-- The live address spaces of the arena. -/
def liveSpaces (arena : AddressSpaceArena QemuVirtAddressSpace) : Set AddressSpaceHandle :=
  {h : AddressSpaceHandle | ∃ as_, arena.get h.slot = some as_}

/-- The TLB agrees with the live address spaces, which have tables of their own. -/
structure Coherent (src : FrameSource τ) (s : Spaces QemuVirtAddressSpace (Cpu τ))
    (T : AddressSpaceHandle → PageTree) : Prop where
  table : s.table.WellFormed
  arena : s.arena.WellFormed
  cached : Cached src (liveSpaces s.arena) s.arena s.machine T ∅

end Defs

section Runs

variable [Build] {τ : Type} [Hardware τ] {src : FrameSource τ} {ev : CpuEvent τ}
  {evs : List (CpuEvent τ)} {s s' : Spaces QemuVirtAddressSpace (Cpu τ)}
  {T T' : AddressSpaceHandle → PageTree} {h : AddressSpaceHandle} {gone : Set ℕ}

omit [Build] [Hardware τ] in
/-- A failed call unmaps nothing. -/
theorem CpuEvent.unmaps_error {e : AddressSpaceError} (hreply : ev.reply = .error e) :
    ev.unmaps h gone = gone := by
  unfold CpuEvent.unmaps
  rw [hreply]
  split
  · next hcon => cases hcon
  · next hcon => cases hcon
  · rfl

omit [Build] [Hardware τ] in
/-- A call through a capability to another space does not concern this one. -/
theorem CpuEvent.unmaps_other {cap : CapHandle} {h' : AddressSpaceHandle}
    (hop : (∃ va pa flags, ev.op = .map cap va pa flags) ∨ ∃ va, ev.op = .unmap cap va)
    (hnames : Names ev.before.table cap h') (hne : h ≠ h') : ev.unmaps h gone = gone := by
  have hnot : ¬ Names ev.before.table cap h := fun hcon => hne (hcon.unique hnames)
  unfold CpuEvent.unmaps
  rcases hop with ⟨va, pa, flags, hop⟩ | ⟨va, hop⟩
  · rw [hop]
    cases ev.reply with
    | error e => rfl
    | ok r => exact if_neg hnot
  · rw [hop]
    cases ev.reply with
    | error e => rfl
    | ok r => exact if_neg hnot

omit [Build] [Hardware τ] in
theorem unmappedPages_snoc : unmappedPages h (evs ++ [ev]) = ev.unmaps h (unmappedPages h evs) := by
  unfold unmappedPages
  rw [List.foldl_append]
  rfl

omit [Build] [Hardware τ] in
theorem CpuEvent.unmaps_mono {gone' : Set ℕ} (hsub : gone ⊆ gone') :
    ev.unmaps h gone ⊆ ev.unmaps h gone' := by
  unfold CpuEvent.unmaps
  split
  · split
    · exact Set.insert_subset_insert hsub
    · exact hsub
  · split
    · exact Set.sdiff_subset_sdiff_left hsub
    · exact hsub
  · exact hsub

/-- In every live space the pages that were open and those that the event has unmapped are
open. -/
def KeepsOpen (s s' : Spaces QemuVirtAddressSpace (Cpu τ)) (T T' : AddressSpaceHandle → PageTree)
    (ev : CpuEvent τ) : Prop :=
  ∀ h ∈ liveSpaces s'.arena,
    h ∈ liveSpaces s.arena ∧ ev.unmaps h {k | (T h).Open k} ⊆ {k | (T' h).Open k} ∨
    ∀ k, (T' h).Open k

omit [Build] [Hardware τ] in
/-- A call that neither maps nor unmaps a page. -/
theorem KeepsOpen.idle (hlive : liveSpaces s'.arena = liveSpaces s.arena)
    (hsame : ∀ h gone, ev.unmaps h gone = gone) : KeepsOpen s s' T T ev := by
  intro h hh
  refine Or.inl ⟨hlive ▸ hh, ?_⟩
  rw [hsame]

omit [Build] [Hardware τ] in
/-- A slot that is taken off the free list holds one more live space. -/
theorem liveSpaces_allocated {arena : AddressSpaceArena QemuVirtAddressSpace} {head : Index}
    (value : AddressSpace QemuVirtAddressSpace) (hvacant : arena.Vacant head) :
    ⟨⟨head, (arena.slots head).generation⟩⟩ ∉ liveSpaces arena ∧
      liveSpaces (arena.allocated head value) =
        insert ⟨⟨head, (arena.slots head).generation⟩⟩ (liveSpaces arena) := by
  constructor
  · rintro ⟨as_, hlive⟩
    obtain ⟨_, _, hentry⟩ := Arena.get_eq_some_iff.mp hlive
    rw [hvacant.2] at hentry
    cases hentry
  · ext h
    unfold liveSpaces
    rw [Set.mem_insert_iff, Set.mem_ofPred_eq, Set.mem_ofPred_eq, Arena.get_allocated_eq hvacant]
    by_cases hslot : h.slot = ⟨head, (arena.slots head).generation⟩
    · rw [if_pos hslot]
      obtain ⟨id⟩ := h
      cases hslot
      simp
    · have hne : h ≠ ⟨⟨head, (arena.slots head).generation⟩⟩ := by
        rintro rfl
        exact hslot rfl
      rw [if_neg hslot]
      simp [hne]

omit [Build] in
/-- A new space, which is not active. -/
theorem Cached.create {S : Set AddressSpaceHandle}
    {arena arena' : AddressSpaceArena QemuVirtAddressSpace} {h : AddressSpaceHandle}
    {m m' : Cpu τ} {root : PhysFrame} (hcached : Cached src S arena m T ∅)
    (halloc : (Cpu.source src).alloc.run m = .ok (some root) m') (hh : h ∉ S)
    (hnew : arena'.get h.slot = some ⟨⟨root⟩⟩)
    (hget : ∀ id, id ≠ h.slot → arena'.get id = arena.get id) :
    Cached src (insert h S) arena' m'
      (Function.update T h (Tree.empty 512 3 _ _ root.asUsize)) ∅ := by
  have hafter := hcached.alloc halloc
  have hvalid : (Cpu.source src).Valid m := hcached.valid
  refine ⟨hafter.valid, hcached.family.create hvalid halloc hh hnew hget, fun r hr => ?_,
    hafter.coherent⟩
  obtain ⟨h', hh', hroot⟩ := hafter.active r hr
  have hne : h' ≠ h := by
    rintro rfl
    exact hh hh'
  refine ⟨h', Or.inr hh', ?_⟩
  rw [Function.update_of_ne hne]
  exact hroot

omit [Build] in
/-- A refused allocation. -/
theorem Coherent.refused {m : Cpu τ} (hcoherent : Coherent src s T)
    (hdry : (Cpu.source src).alloc.run s.machine = .ok none m) :
    Coherent src { s with machine := m } T :=
  ⟨hcoherent.table, hcoherent.arena, hcoherent.cached.alloc hdry⟩

theorem Coherent.create (hcoherent : Coherent src s T) (parent : CapHandle)
    (newRights : CapRights) :
    ∃ reply s', ((CpuOp.create parent newRights).exec src).run s = .returned reply s' ∧
      ∃ T', Coherent src s' T' ∧ KeepsOpen s s' T T' ⟨s, .create parent newRights, reply⟩ := by
  have hvalid : (Cpu.source src).Valid s.machine := hcoherent.cached.valid
  rcases checkCreation_cases s parent newRights with ⟨e, hchecks, hchecked⟩ | ⟨_, err, hfailed⟩
  swap
  · have hrun : (capCreateAddressSpace parent newRights (Cpu.source src).alloc).run s =
        .err err s :=
      Prog.bind_err hfailed
    exact ⟨.error err, s, Prog.bind_err hrun, T, hcoherent, .idle rfl fun _ _ => rfl⟩
  have hmint : (capCreateAddressSpace parent newRights (Cpu.source src).alloc).run s =
      (mintAddressSpace parent newRights (Cpu.source src).alloc).run s := Prog.bind_ok hchecked
  obtain ⟨hnone, n, head, hn, hvacant, hhead, hsome⟩ :=
    hchecks.mint_run hcoherent.table hcoherent.arena (Cpu.source src).alloc
  rcases (Cpu.source src).alloc_cases hvalid with ⟨m, hdry, _⟩ | ⟨root, m, hpull, _⟩
  · exact ⟨.error .outOfFrames, _, Prog.bind_err (hmint.trans (hnone m hdry)), T,
      hcoherent.refused hdry, .idle rfl fun _ _ => rfl⟩
  · refine ⟨.ok (), _, Prog.bind_ok (hmint.trans (hsome root m hpull)), ?_⟩
    obtain ⟨hnew, hlive⟩ := liveSpaces_allocated ⟨⟨root⟩⟩ hvacant
    have hget : ∀ id, (s.arena.allocated head ⟨⟨root⟩⟩).get id = _ := Arena.get_allocated_eq hvacant
    have hself : (s.arena.allocated head ⟨⟨root⟩⟩).get ⟨head, (s.arena.slots head).generation⟩ =
        some ⟨⟨root⟩⟩ := by
      rw [hget, if_pos rfl]
    have hcached := hcoherent.cached.create hpull hnew hself fun id hid => by rw [hget, if_neg hid]
    rw [← hlive] at hcached
    refine ⟨_, ⟨?_, hcoherent.arena.allocated hhead, hcached⟩, fun h hh => ?_⟩
    · apply hcoherent.table.installed hn
      exact CapabilityTable.WellFormed.childEntry_leaf hchecks.resolves.entry hchecks.contains
        (saturatingAdd_depth.mp hchecks.depth)
    · have hlives : h ∈ liveSpaces (s.arena.allocated head ⟨⟨root⟩⟩) := hh
      rw [hlive] at hlives
      rcases Set.mem_insert_iff.mp hlives with rfl | hold
      · rw [Function.update_self]
        exact Or.inr fun k => ⟨refines_empty.unblocked k, rfl⟩
      · have hne : h ≠ ⟨⟨head, (s.arena.slots head).generation⟩⟩ := fun heq => hnew (heq ▸ hold)
        rw [Function.update_of_ne hne]
        exact Or.inl ⟨hold, le_rfl⟩

omit [Build] in
theorem CallEnd.coherent {t' : PageTree} (hend : CallEnd src (liveSpaces s.arena) T h t' s s')
    (hcoherent : Coherent src s T) : Coherent src s' (Function.update T h t') := by
  have hcached := hend.cached
  constructor
  · rw [hend.table]
    exact hcoherent.table
  · rw [hend.arena]
    exact hcoherent.arena
  · rw [hend.arena] at hcached ⊢
    exact hcached

omit [Build] in
/-- A call through a capability to the space `h` opens and closes pages in no other. -/
theorem CallEnd.keepsOpen {t' : PageTree} {cap : CapHandle}
    (hend : CallEnd src (liveSpaces s.arena) T h t' s s') (hbefore : ev.before = s)
    (hop : (∃ va pa flags, ev.op = .map cap va pa flags) ∨ ∃ va, ev.op = .unmap cap va)
    (hnames : Names s.table cap h) (hself : ev.unmaps h {k | (T h).Open k} ⊆ {k | t'.Open k}) :
    KeepsOpen s s' T (Function.update T h t') ev := by
  intro h' hh'
  rw [hend.arena] at hh'
  refine Or.inl ⟨hh', ?_⟩
  by_cases hne : h' = h
  · rw [hne, Function.update_self]
    exact hself
  · rw [Function.update_of_ne hne, CpuEvent.unmaps_other hop (hbefore ▸ hnames) hne]

omit [Build] [Hardware τ] in
/-- A handle that is named is live, or it is stale. -/
theorem live_cases (s : Spaces QemuVirtAddressSpace (Cpu τ)) (cap : CapHandle) :
    (∃ h, Names s.table cap h ∧ h ∈ liveSpaces s.arena) ∨
    (∃ h, Names s.table cap h ∧ s.arena.get h.slot = none) ∨ ∀ h, ¬ Names s.table cap h := by
  by_cases hnamed : ∃ h, Names s.table cap h
  · obtain ⟨h, hnames⟩ := hnamed
    cases hget : s.arena.get h.slot with
    | none => exact Or.inr (Or.inl ⟨h, hnames, hget⟩)
    | some as_ => exact Or.inl ⟨h, hnames, as_, hget⟩
  · exact Or.inr (Or.inr (not_exists.mp hnamed))

/-- A `map` through a capability to a live space. -/
theorem Coherent.map (htidy : src.Tidy) (hcoherent : Coherent src s T) {cap : CapHandle}
    {va : VirtAddr} {pa : PhysFrame} {flags : MappingFlags} (hnames : Names s.table cap h)
    (hlive : h ∈ liveSpaces s.arena) (hva : va.val < 2 ^ 48) :
    ∃ reply s', ((CpuOp.map cap va pa flags).exec src).run s = .returned reply s' ∧
      ∃ T', Coherent src s' T' ∧ KeepsOpen s s' T T' ⟨s, .map cap va pa flags, reply⟩ := by
  obtain ⟨reply, s', t', hrun, hend, hopens⟩ := hcoherent.cached.capMap htidy hlive hnames hva
  refine ⟨reply, s', hrun, _, hend.coherent hcoherent,
    hend.keepsOpen rfl (Or.inl ⟨_, _, _, rfl⟩) hnames ?_⟩
  cases reply with
  | error e =>
    rw [CpuEvent.unmaps_error rfl]
    exact fun k hopen => hopens k (Or.inr fun hcon => nomatch hcon) hopen
  | ok r =>
    have hunmaps : CpuEvent.unmaps h {k | (T h).Open k} ⟨s, .map cap va pa flags, .ok r⟩ =
        {k | (T h).Open k} \ {va.val / pageSize} := if_pos hnames
    rw [hunmaps]
    rintro k ⟨hopen, hne⟩
    rw [← pageOf_below hva] at hne
    exact hopens k (Or.inl hne) hopen

/-- An `unmap` through a capability to a live space. -/
theorem Coherent.unmap (htidy : src.Tidy) (hcoherent : Coherent src s T) {cap : CapHandle}
    {va : VirtAddr} (hnames : Names s.table cap h) (hlive : h ∈ liveSpaces s.arena)
    (hva : va.val < 2 ^ 48) :
    ∃ reply s', ((CpuOp.unmap cap va).exec src).run s = .returned reply s' ∧
      ∃ T', Coherent src s' T' ∧ KeepsOpen s s' T T' ⟨s, .unmap cap va, reply⟩ := by
  obtain ⟨reply, s', t', hrun, hend, hopens, hopened⟩ :=
    hcoherent.cached.capUnmap htidy hlive hnames hva
  cases reply with
  | error e =>
    refine ⟨.error e, s', Prog.bind_err hrun, _, hend.coherent hcoherent,
      hend.keepsOpen rfl (Or.inr ⟨_, rfl⟩) hnames ?_⟩
    rw [CpuEvent.unmaps_error rfl]
    exact hopens
  | ok f =>
    refine ⟨.ok (), s', Prog.bind_ok hrun, _, hend.coherent hcoherent,
      hend.keepsOpen rfl (Or.inr ⟨_, rfl⟩) hnames ?_⟩
    have hunmaps : CpuEvent.unmaps h {k | (T h).Open k} ⟨s, .unmap cap va, .ok ()⟩ =
        insert (va.val / pageSize) {k | (T h).Open k} := if_pos hnames
    rw [hunmaps, ← pageOf_below hva]
    rintro k (rfl | hopen)
    · exact hopened ⟨f, rfl⟩
    · exact hopens k hopen

/-- Every allowed call that returns leaves a coherent TLB, and the unmapped pages open. -/
theorem Coherent.step (htidy : src.Tidy) (hcoherent : Coherent src s T)
    (hstep : CpuStep src s ev s') : ∃ T', Coherent src s' T' ∧ KeepsOpen s s' T T' ev := by
  obtain ⟨before, op, reply⟩ := ev
  obtain ⟨rfl, hallowed, hexec⟩ := hstep
  have hdone {r : Except AddressSpaceError Unit} {s₁ : Spaces QemuVirtAddressSpace (Cpu τ)}
      (hrun : (op.exec src).run before = .returned r s₁)
      (hkept : ∃ T', Coherent src s₁ T' ∧ KeepsOpen before s₁ T T' ⟨before, op, r⟩) :
      ∃ T', Coherent src s' T' ∧ KeepsOpen before s' T T' ⟨before, op, reply⟩ := by
    rw [hexec, Result.returned_inj] at hrun
    obtain ⟨hreply, rfl⟩ := hrun
    have hsame : reply = r := hreply
    rw [hsame]
    exact hkept
  have hfailed {e : AddressSpaceError} (hrun : (op.exec src).run before = .err e before) :
      ∃ T', Coherent src s' T' ∧ KeepsOpen before s' T T' ⟨before, op, reply⟩ :=
    hdone (r := .error e) hrun
      ⟨T, hcoherent, .idle rfl fun _ _ => CpuEvent.unmaps_error rfl⟩
  cases op with
  | create parent newRights =>
    obtain ⟨_, _, hrun, hkept⟩ := hcoherent.create parent newRights
    exact hdone hrun hkept
  | map cap va pa flags =>
    rcases live_cases before cap with ⟨h, hnames, hlive⟩ | ⟨h, hnames, hstale⟩ | hnone
    · obtain ⟨r, s₁, hrun, hkept⟩ := hcoherent.map htidy hnames hlive hallowed
      exact hdone hrun hkept
    · exact hfailed (capMap_stale hnames hstale)
    · obtain ⟨e, hrun⟩ := capMap_unnamed hnone (Cpu.source src).alloc va pa flags
      exact hfailed hrun
  | unmap cap va =>
    rcases live_cases before cap with ⟨h, hnames, hlive⟩ | ⟨h, hnames, hstale⟩ | hnone
    · obtain ⟨r, s₁, hrun, hkept⟩ := hcoherent.unmap htidy hnames hlive hallowed
      exact hdone hrun hkept
    · exact hfailed (Prog.bind_err (capUnmap_stale hnames hstale))
    · obtain ⟨e, hrun⟩ := capUnmap_unnamed hnone va
      exact hfailed (Prog.bind_err hrun)
  | activate handle =>
    have hexec' : (activateAddressSpaceHandle handle).run before = .returned reply s' := hexec
    unfold activateAddressSpaceHandle at hexec'
    rw [Prog.get_bind_run] at hexec'
    cases hget : getAddressSpace before.arena handle with
    | none =>
      rw [hget] at hexec'
      dsimp only at hexec'
      unfold debugAssert at hexec'
      split at hexec'
      · cases reply <;> cases hexec'
      · have hsame : Result.returned (.ok ()) before = Result.returned reply s' := hexec'
        rw [Result.returned_inj] at hsame
        rw [← hsame.2]
        exact ⟨T, hcoherent, .idle rfl fun _ _ => rfl⟩
    | some as_ =>
      obtain ⟨as_⟩ := as_
      obtain ⟨m, hrun, hcached⟩ := hcoherent.cached.activate htidy ⟨_, hget⟩ hget
      rw [hget] at hexec'
      have hcall : (onMachine (QemuVirtMmu.activate as_)).run before =
          .returned (.ok ()) { before with machine := m } := Prog.zoom_ok hrun
      have hsame := hcall.symm.trans hexec'
      rw [Result.returned_inj] at hsame
      rw [← hsame.2]
      exact ⟨T, ⟨hcoherent.table, hcoherent.arena, hcached⟩, .idle rfl fun _ _ => rfl⟩
  | switchTable table =>
    exact hdone (r := .ok ()) rfl
      ⟨T, ⟨hallowed, hcoherent.arena, hcoherent.cached⟩, .idle rfl fun _ _ => rfl⟩

/-- In every run the TLB is coherent, and the pages unmapped in a live space are open there. -/
theorem Coherent.of_run {s₀ : Spaces QemuVirtAddressSpace (Cpu τ)} (htidy : src.Tidy)
    (hstart : Coherent src s₀ T) (hrun : Run (CpuStep src) s₀ evs s) :
    ∃ T, Coherent src s T ∧
      ∀ h ∈ liveSpaces s.arena, unmappedPages h evs ⊆ {k | (T h).Open k} := by
  apply hrun.history (I := fun evs s => ∃ T, Coherent src s T ∧
    ∀ h ∈ liveSpaces s.arena, unmappedPages h evs ⊆ {k | (T h).Open k})
  · exact ⟨T, hstart, fun h _ => Set.empty_subset _⟩
  intro past s₁ ev s₂ hpast hstep
  obtain ⟨T, hcoherent, hunmapped⟩ := hpast
  obtain ⟨T', hcoherent', hkeeps⟩ := hcoherent.step htidy hstep
  refine ⟨T', hcoherent', fun h hh => ?_⟩
  rw [unmappedPages_snoc]
  rcases hkeeps h hh with ⟨hold, hopen⟩ | hall
  · exact (CpuEvent.unmaps_mono (hunmapped h hold)).trans hopen
  · exact fun k _ => hall k

end Runs

/-! ## One page -/

section Result

variable [Build] {τ : Type} [Hardware τ] {src : FrameSource τ} {evs : List (CpuEvent τ)}
  {s : Spaces QemuVirtAddressSpace (Cpu τ)} {T : AddressSpaceHandle → PageTree}

end Result

end Tyrne
