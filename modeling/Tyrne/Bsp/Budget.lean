import Tyrne.Bsp.Retry
import Tyrne.Library.Span
import Tyrne.Obj.Preflight

/-!
# The table budget of a span

Mapping a span page by page adds the path of one page after the other to the page tables, so
at the end these have a table just where a page of the span needs one. How many these are is
what `intermediate_frame_count` computes.
-/

namespace Tyrne

open Radix Tree

/-- The pages of the span of `n` pages from the page `k` on. -/
abbrev spanPages (k n : ℕ) : Finset ℕ := Finset.Ico k (k + n)

/-! ## The closed form -/

section Count

variable {base : VirtAddr} {imagePages stackPages i n : ℕ}

theorem spanPages_succ (k n : ℕ) : spanPages k (n + 1) = insert (k + n) (spanPages k n) := by
  ext q
  simp only [Finset.mem_Ico, Finset.mem_insert]
  omega

theorem pageOf_pageVa (haligned : base.val % pageSize = 0)
    (hspan : base.val + n * pageSize ≤ 2 ^ 48) (hi : i < n) :
    pageOf (pageVa base i) = base.val / pageSize + i := by
  obtain ⟨_, hlt, hpage⟩ := pageVa_page haligned hspan hi
  exact (pageOf_below hlt).trans hpage

/-- Shifts of the first and the last byte of the span are the keys above its pages. -/
theorem shift_eq_up {a b l s : ℕ} (hl : l < 3) (hs : s = 39 - 9 * l) (hb : b / pageSize = a) :
    b >>> s = up 512 3 (l + 1) a := by
  subst hs hb
  unfold up pageSize
  rw [Nat.shiftRight_eq_div_pow]
  obtain rfl | rfl | rfl : l = 0 ∨ l = 1 ∨ l = 2 := by omega
  all_goals
    simp only [Nat.reduceAdd, Nat.reduceSub, Nat.reducePow, Nat.reduceMul]
    omega

/-- The tables of one level, from the key of the first page to the key of the last one. -/
theorem saturatingAdd_up {a b : ℕ} (hle : a ≤ b) (hb : b < 2 ^ 36) (l : ℕ) :
    saturatingAdd (up 512 3 l b - up 512 3 l a) 1 = up 512 3 l b + 1 - up 512 3 l a ∧
      up 512 3 l b < 2 ^ 36 := by
  have hmono : up 512 3 l a ≤ up 512 3 l b := Nat.div_le_div_right hle
  have hsmall : up 512 3 l b < 2 ^ 36 := (Nat.div_le_self _ _).trans_lt hb
  rw [saturatingAdd_eq (by omega)]
  omega

/-- `intermediate_frame_count` is the size of the span. -/
theorem intermediateFrameCount_eq (haligned : base.val % pageSize = 0)
    (hspan : base.val + (imagePages + stackPages) * pageSize ≤ 2 ^ 48) :
    intermediateFrameCount base imagePages stackPages =
      spanSize 512 3 (spanPages (base.val / pageSize) (imagePages + stackPages)) := by
  unfold intermediateFrameCount
  have hsum : saturatingAdd imagePages stackPages = imagePages + stackPages := by
    apply saturatingAdd_eq
    unfold pageSize at hspan
    omega
  rw [hsum]
  dsimp only
  generalize imagePages + stackPages = n at hspan
  split
  · next hzero =>
    rw [hzero, spanPages, Nat.add_zero, Finset.Ico_self]
    rfl
  · next hpos =>
    have hmul : saturatingMul n pageSize = n * pageSize := by
      apply saturatingMul_eq
      omega
    have hadd : saturatingAdd base.val (n * pageSize) = base.val + n * pageSize := by
      apply saturatingAdd_eq
      omega
    have hlast : (base.val + n * pageSize - 1) / pageSize = base.val / pageSize + n - 1 := by
      unfold pageSize at *
      omega
    rw [hmul, hadd, spanSize_Ico (by omega) (by decide)]
    simp only [Finset.sum_range_succ, Finset.sum_range_zero]
    rw [shift_eq_up (s := 21) (l := 2) (by omega) rfl hlast,
      shift_eq_up (s := 30) (l := 1) (by omega) rfl hlast,
      shift_eq_up (s := 39) (l := 0) (by omega) rfl hlast,
      shift_eq_up (s := 21) (l := 2) (by omega) rfl rfl,
      shift_eq_up (s := 30) (l := 1) (by omega) rfl rfl,
      shift_eq_up (s := 39) (l := 0) (by omega) rfl rfl]
    have hle : base.val / pageSize ≤ base.val / pageSize + n - 1 := by omega
    have hsmall : base.val / pageSize + n - 1 < 2 ^ 36 := by
      unfold pageSize at *
      omega
    obtain ⟨hzero, hzero'⟩ := saturatingAdd_up hle hsmall (0 + 1)
    obtain ⟨hone, hone'⟩ := saturatingAdd_up hle hsmall (1 + 1)
    obtain ⟨htwo, htwo'⟩ := saturatingAdd_up hle hsmall (2 + 1)
    rw [hzero, hone, htwo]
    have hpair : saturatingAdd
        (up 512 3 (0 + 1) (base.val / pageSize + n - 1) + 1 -
          up 512 3 (0 + 1) (base.val / pageSize))
        (up 512 3 (1 + 1) (base.val / pageSize + n - 1) + 1 -
          up 512 3 (1 + 1) (base.val / pageSize)) =
        _ := saturatingAdd_eq (by omega)
    rw [hpair, saturatingAdd_eq (by omega)]
    omega

/-- The frames that a load needs, for a span below 2^48. -/
theorem framesNeeded_eq (haligned : base.val % pageSize = 0)
    (hspan : base.val + (imagePages + stackPages) * pageSize ≤ 2 ^ 48) :
    framesNeeded base imagePages stackPages = 1 + (imagePages + stackPages) +
      spanSize 512 3 (spanPages (base.val / pageSize) (imagePages + stackPages)) := by
  have hsize := spanSize_le (B := 512) (D := 3)
    (spanPages (base.val / pageSize) (imagePages + stackPages))
  rw [Nat.card_Ico, Nat.add_sub_cancel_left] at hsize
  unfold framesNeeded
  rw [intermediateFrameCount_eq haligned hspan]
  unfold pageSize at hspan
  have himage : saturatingAdd 1 imagePages = 1 + imagePages := saturatingAdd_eq (by omega)
  have hleaves : saturatingAdd (1 + imagePages) stackPages = 1 + imagePages + stackPages :=
    saturatingAdd_eq (by omega)
  rw [himage, hleaves, saturatingAdd_eq (by omega)]
  omega

end Count

/-! ## The tables of the mapped pages -/

section Pages

variable {σ : Type} [Hardware σ] {src : FrameSource σ} {s₀ s s₁ s' : σ} {t t₁ : PageTree}
  {k n : ℕ} {K : Finset ℕ} {as bs : List ℕ} {base : VirtAddr}

/-- Once the path of a page is complete the tables span the page too, and as many frames were
linked as the span has grown by. -/
theorem Builds.spans (h : Builds src k s t as s₁ t₁) (hspans : t.Spans K) {a : ℕ}
    (ha : t₁.node 3 (k / 512) = some (.table a)) :
    t₁.Spans (insert k K) ∧ spanSize 512 3 (insert k K) = spanSize 512 3 K + as.length := by
  have hlast : t₁.node 3 (up 512 3 3 k) = some (.table a) := by rw [up_three, ha]
  constructor
  · refine hspans.grows h.grows fun l hl => ?_
    obtain ⟨b, hb⟩ : ∃ b, t₁.node (l + 1) (up 512 3 (l + 1) k) = some (.table b) := by
      rcases Nat.lt_or_ge (l + 1) 3 with hlt | hge
      · exact tables_above hlast hlt
      · obtain rfl : l = 2 := by omega
        exact ⟨a, hlast⟩
    rw [hb]
    exact Option.some_ne_none _
  · have hmissing := h.grows.missing
    rw [missing_eq_zero hlast, Nat.zero_add] at hmissing
    rw [hspans.missing, hmissing]

/-- A `map` that succeeds makes the tables span its page. -/
theorem MapEnd.spans {va : VirtAddr} {pa : PhysFrame} {flags : MappingFlags} {token : MapperFlush}
    (h : MapEnd src va pa flags s t (.ok token s')) (howns : Owns src s t) (hspans : t.Spans K) :
    ∃ t' as, Owns src s' t' ∧ t'.root = t.root ∧ t'.Spans (insert (pageOf va) K) ∧
      Takes src s s' as ∧ (∀ a, t'.IsTable a ↔ t.IsTable a ∨ a ∈ as) ∧
      spanSize 512 3 (insert (pageOf va) K) = spanSize 512 3 K + as.length := by
  cases h with
  | @mapped s₁ t₁ as a _ _ h ha _ =>
    have howns₁ := h.owns howns
    have hstore := howns₁.store ⟨3, _, ha⟩ (Nat.mod_lt (pageOf va) (by decide))
      (pageDescriptorOf pa.asUsize flags)
    obtain ⟨hspans₁, hsize⟩ := h.spans hspans ha
    have htakes := h.takes howns
    refine ⟨_, as, howns₁.writeLeaf ha (o := some _) (decode_leaf pageDescriptorOf_valid),
      h.grows.root, hspans₁.setLeaf, ⟨htakes.nodup, htakes.offered, ?_⟩,
      fun _ => h.grows.isTable, hsize⟩
    rw [hstore.2, htakes.offers]

variable [Build]

/-- The page `i` of the span was mapped, to some frame with some flags. -/
def MapsPage (src : FrameSource σ) (as_ : QemuVirtAddressSpace) (base : VirtAddr) (s : σ) (i : ℕ)
    (s' : σ) : Prop :=
  ∃ pa flags token, (QemuVirtMmu.map as_ (pageVa base i) pa flags src.alloc).run s = .ok token s'

/-- The tables span the pages that were mapped, and were pulled for them. -/
theorem takes_of_pages {as_ : QemuVirtAddressSpace} (haligned : base.val % pageSize = 0)
    (hspan : base.val + n * pageSize ≤ 2 ^ 48) (howns : Owns src s₀ t)
    (hroot : as_.root.asUsize = t.root) (hspans : t.Spans ∅)
    (hrun : Run (MapsPage src as_ base) s₀ (List.range n) s) :
    ∃ t' pulled, Owns src s t' ∧ as_.root.asUsize = t'.root ∧
      t'.Spans (spanPages (base.val / pageSize) n) ∧ Takes src s₀ s pulled ∧
      (∀ a, t'.IsTable a ↔ t.IsTable a ∨ a ∈ pulled) ∧
      pulled.length = spanSize 512 3 (spanPages (base.val / pageSize) n) := by
  induction n generalizing s with
  | zero =>
    cases hrun
    refine ⟨t, [], howns, hroot, ?_, .nil src s₀, fun a => by simp, ?_⟩
    · rw [spanPages, Nat.add_zero, Finset.Ico_self]
      exact hspans
    · rw [spanPages, Nat.add_zero, Finset.Ico_self]
      rfl
  | succ n ih =>
    rw [List.range_succ] at hrun
    obtain ⟨s₁, hpast, hlast⟩ := hrun.split
    have hshort : base.val + n * pageSize ≤ 2 ^ 48 := by
      have hless : n * pageSize ≤ (n + 1) * pageSize := Nat.mul_le_mul_right _ (Nat.le_succ n)
      omega
    obtain ⟨t₁, pulled, howns₁, hroot₁, hspans₁, htakes, htables, hlength⟩ := ih hshort hpast
    cases hlast with
    | cons hstep hnil =>
      cases hnil
      obtain ⟨pa, flags, token, hmap⟩ := hstep
      have hend := map_run howns₁ hroot₁ (pageVa base n) pa flags
      rw [hmap] at hend
      obtain ⟨t₂, as, howns₂, hroot₂, hspans₂, htakes₂, htables₂, hsize⟩ :=
        hend.spans howns₁ hspans₁
      rw [pageOf_pageVa haligned hspan (Nat.lt_succ_self n), ← spanPages_succ] at hspans₂ hsize
      refine ⟨t₂, pulled ++ as, howns₂, hroot₁.trans hroot₂.symm, hspans₂, htakes.trans htakes₂,
        fun a => ?_, ?_⟩
      · rw [htables₂, htables, List.mem_append, or_assoc]
      · rw [List.length_append, hlength, hsize]

end Pages

/-! ## The frames that the memory manager is left with -/

section Supplied

variable [Build] {N R : ℕ} {extent : PhysFrameRange} {reserved : List PhysFrameRange}
  {haccepts : Accepts N R extent reserved} {hwindow : extent.stop.val ≤ directMapEnd}
  {s s' : Supply (Pmm N R)} {A A' : SetAllocator ℕ} {as : List ℕ}

/-- What was pulled is what the free count has lost. -/
theorem Takes.freeCount (htakes : Takes (pmmSource haccepts hwindow) s s' as)
    (hmodels : Models extent reserved s.frames A) (hmodels' : Models extent reserved s'.frames A') :
    s'.frames.freeCount + as.length = s.frames.freeCount := by
  have hlasting := pmmSource_lasting haccepts hwindow
  have hcount := htakes.ncard (hlasting.finite ⟨A, hmodels⟩)
  rw [hmodels.offers_ncard haccepts hwindow, hmodels'.offers_ncard haccepts hwindow] at hcount
  exact hcount

/-- A refusal means that no frame is free. -/
theorem refused_freeCount (hmodels : Models extent reserved s.frames A)
    (hrefused : (pmmSource haccepts hwindow).alloc.run s = .ok none s') :
    s.frames.freeCount = 0 := by
  have hlasting := pmmSource_lasting haccepts hwindow
  have hempty := hlasting.refused ⟨A, hmodels⟩ hrefused
  rw [← hmodels.offers_ncard haccepts hwindow, hempty, Set.ncard_empty]

end Supplied

end Tyrne
