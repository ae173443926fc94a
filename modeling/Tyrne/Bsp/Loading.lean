import Tyrne.Bsp.Budget
import Tyrne.Bsp.Family

/-!
# Loading an image into page tables of QEMU virt

Once the checks of `load_image` have passed, nothing is left that can fail: every page gets a
frame of its own, and for its path the tables that the pages before it have not brought along
yet. A page shows its part of the image, and zeros after the end of it, because no frame that
is written later is one that a loaded page shows.
-/

namespace Tyrne

open Radix Tree

/-! ## What the pages are to show -/

/-- The byte at the offset `off` of the span: of the image in `m`, and zero after its end. -/
def ImageSlice.byteAt (image : ImageSlice) (m : Memory) (off : ℕ) : BitVec 8 :=
  if off < image.len then m (physOf image.ptr + off) else 0

/-- The flags of the page `j` of the span, of the image or of the stack. -/
def ImageSlice.flagsAt (image : ImageSlice) (j : ℕ) : MappingFlags :=
  if j < image.pages then MappingFlags.user.union .execute else MappingFlags.user.union .write

/-- The first `i` pages from the page `k` on, on these frames. -/
def ImageSlice.pageMap (image : ImageSlice) (frame : ℕ → PhysFrame) (k i : ℕ) : PageMap :=
  fun q => if k ≤ q ∧ q < k + i then some (frame (q - k), image.flagsAt (q - k)) else none

section Pages

variable {image : ImageSlice} {frame : ℕ → PhysFrame} {m : Memory} {k i j off : ℕ} {f : PhysFrame}

theorem ImageSlice.flagsAt_mappable : ¬ ((image.flagsAt j).contains .device ∧
    (image.flagsAt j).contains .execute) := by
  unfold ImageSlice.flagsAt
  split <;> decide

theorem ImageSlice.flagsAt_named : (image.flagsAt j).named = image.flagsAt j := by
  unfold ImageSlice.flagsAt
  split <;> decide

theorem ImageSlice.byteAt_after (h : image.len ≤ off) : image.byteAt m off = 0 := if_neg (by omega)

theorem ImageSlice.pageMap_page (hj : j < i) :
    image.pageMap frame k i (k + j) = some (frame j, image.flagsAt j) := by
  unfold ImageSlice.pageMap
  rw [if_pos (by omega), Nat.add_sub_cancel_left]

theorem ImageSlice.pageMap_outside {q : ℕ} (hq : ¬ (k ≤ q ∧ q < k + i)) :
    image.pageMap frame k i q = none := if_neg hq

theorem ImageSlice.pageMap_zero : image.pageMap frame k 0 = fun _ => none := by
  funext q
  exact pageMap_outside (by omega)

/-- One more page. -/
theorem ImageSlice.pageMap_succ : image.pageMap (Function.update frame i f) k (i + 1) =
    Function.update (image.pageMap frame k i) (k + i) (some (f, image.flagsAt i)) := by
  funext q
  by_cases hlast : q = k + i
  · rw [hlast, Function.update_self, pageMap_page (Nat.lt_succ_self i), Function.update_self]
  · rw [Function.update_of_ne hlast]
    by_cases hin : k ≤ q ∧ q < k + i
    · obtain ⟨j, rfl⟩ := Nat.exists_eq_add_of_le hin.1
      rw [pageMap_page (by omega), pageMap_page (by omega), Function.update_of_ne (by omega)]
    · rw [pageMap_outside hin, pageMap_outside (by omega)]

/-- What holds of the first `i` frames and of one more. -/
theorem forall_lt_update {P : ℕ → PhysFrame → Prop} (hold : ∀ j < i, P j (frame j))
    (hlast : P i f) : ∀ j < i + 1, P j (Function.update frame i f j) := by
  intro j hj
  by_cases heq : j = i
  · rw [heq, Function.update_self]
    exact hlast
  · rw [Function.update_of_ne heq]
    exact hold j (by omega)

/-- One more frame, unlike the first `i`, is used once. -/
theorem distinct_update
    (hold : ∀ j < i, ∀ j' < i, (frame j).asUsize = (frame j').asUsize → j = j')
    (hother : ∀ j < i, (frame j).asUsize ≠ f.asUsize) :
    ∀ j < i + 1, ∀ j' < i + 1, (Function.update frame i f j).asUsize =
      (Function.update frame i f j').asUsize → j = j' := by
  intro j hj j' hj' heq
  by_cases hlast : j = i
  · by_cases hlast' : j' = i
    · rw [hlast, hlast']
    · rw [hlast, Function.update_self, Function.update_of_ne hlast'] at heq
      exact absurd heq.symm (hother j' (by omega))
  · by_cases hlast' : j' = i
    · rw [hlast', Function.update_self, Function.update_of_ne hlast] at heq
      exact absurd heq (hother j (by omega))
    · rw [Function.update_of_ne hlast, Function.update_of_ne hlast'] at heq
      exact hold j (by omega) j' (by omega) heq

end Pages

/-! ## Frames that a write leaves -/

section Frames

variable {S : Set ℕ} {m m' : Memory} {a off : ℕ}

/-- A frame outside `S` is as before. -/
theorem Memory.AgreesOff.frame (h : Memory.AgreesOff S m m') (hS : ∀ b ∈ S, b % pageSize = 0)
    (ha : a % pageSize = 0) (hnot : a ∉ S) (hoff : off < pageSize) :
    m' (a + off) = m (a + off) := by
  apply h
  intro b hb
  have hin : InFrame a (a + off) := ⟨Nat.le_add_right a off, Nat.add_lt_add_left hoff a⟩
  exact not_inFrame_of_ne ha (hS b hb) (fun heq => hnot (heq ▸ hb)) hin

/-- The physical addresses of a range that starts in the direct map. -/
theorem physOf_add {ptr x : ℕ} (h : physOf ptr + x < 2 ^ 64) :
    physOf (ptr + x) = physOf ptr + x := by
  have hle : kernelHighHalfOffset ≤ 2 ^ 64 := by decide
  unfold physOf wrappingSub at *
  generalize kernelHighHalfOffset = offset at *
  omega

end Frames

/-! ## The invariant -/

section Loading

variable [Build] {N R : ℕ} {extent : PhysFrameRange} {reserved : List PhysFrameRange}
  {haccepts : Accepts N R extent reserved} {hwindow : extent.stop.val ≤ directMapEnd}
  {image : ImageSlice} {m₀ : Memory} {frame : ℕ → PhysFrame} {free k i j : ℕ}
  {s s₁ s' : Supply (Pmm N R)} {t t' : PageTree} {f : PhysFrame}

/-- The first `i` pages from the page `k` on are loaded: their tables span just these pages, no
frame is used twice, and `free` frames were free when the tables were empty. -/
structure Loading (haccepts : Accepts N R extent reserved)
    (hwindow : extent.stop.val ≤ directMapEnd) (image : ImageSlice) (m₀ : Memory) (free k i : ℕ)
    (frame : ℕ → PhysFrame) (s : Supply (Pmm N R)) (t : PageTree) : Prop where
  owns : Owns (pmmSource haccepts hwindow) s t
  spans : t.Spans (spanPages k i)
  refines : Refines t (image.pageMap frame k i)
  count : s.frames.freeCount + i + spanSize 512 3 (spanPages k i) = free
  tables : ∀ a, t.IsTable a → a ∈ usableFrames extent reserved
  leaf : ∀ j < i, (frame j).asUsize ∈ usableFrames extent reserved
  apart : ∀ j < i, ¬ t.IsTable (frame j).asUsize
  taken : ∀ j < i, (frame j).asUsize ∉ s.frames.freeFrames
  distinct : ∀ j < i, ∀ j' < i, (frame j).asUsize = (frame j').asUsize → j = j'
  content : ∀ j < i, ∀ off < pageSize,
    s.memory ((frame j).asUsize + off) = image.byteAt m₀ (j * pageSize + off)
  rest : Memory.AgreesOff (usableFrames extent reserved) m₀ s.memory

/-- The free frames are frames that the manager may hand out. -/
theorem freeFrames_usable (hvalid : (pmmSource haccepts hwindow).Valid s) {a : ℕ}
    (ha : a ∈ s.frames.freeFrames) : a ∈ usableFrames extent reserved := by
  obtain ⟨A, hmodels⟩ := hvalid
  have havailable := (hmodels.mem_freeFrames haccepts.aligned).mp ha
  rw [← hmodels.usable]
  exact (SetAllocator.mem_available.mp havailable).1

/-- With a free frame left the manager hands one out. -/
theorem alloc_of_free (hvalid : (pmmSource haccepts hwindow).Valid s)
    (hfree : 0 < s.frames.freeCount) : ∃ f s₁,
      (∀ ε, (Pmm.allocFrame : Prog (Supply (Pmm N R)) ε _).run s = .ok (some f) s₁) ∧
      s₁.frames.freeCount + 1 = s.frames.freeCount := by
  obtain ⟨A, hmodels⟩ := hvalid
  have hstop : extent.stop.val < 2 ^ 64 := stop_lt hwindow
  rcases hmodels.allocFrame_cases haccepts hstop with ⟨hempty, _⟩ | ⟨houtside, _⟩ |
    ⟨f, s₁, husable, hleast, hrun, hmodels₁, _⟩
  · rw [hmodels.freeCount, hempty] at hfree
    exact absurd hfree (Nat.lt_irrefl 0)
  · omega
  · refine ⟨f, s₁, hrun, ?_⟩
    have hpos := Finset.card_pos.mpr ⟨_, hleast.1⟩
    rw [hmodels.freeCount, hmodels₁.freeCount, SetAllocator.available_take,
      Finset.card_erase_of_mem hleast.1]
    omega

/-! ## Mapping a page of the span -/

omit [Build] in
/-- A `map` that succeeds has edited the tables, which span its page and map it. -/
theorem MapEnd.loads {σ : Type} [Hardware σ] {src : FrameSource σ} {s s' : σ} {va : VirtAddr}
    {flags : MappingFlags} {token : MapperFlush} {K : Finset ℕ} {pm : PageMap}
    (h : MapEnd src va f flags s t (.ok token s')) (htidy : src.Tidy) (howns : Owns src s t)
    (hspans : t.Spans K) (hrefines : Refines t pm) (hf : f.asUsize < 2 ^ 48) :
    ∃ t' as, Edits src s t s' t' ∧ t'.Spans (insert (pageOf va) K) ∧
      Refines t' (Function.update pm (pageOf va) (some (f, flags))) ∧ Takes src s s' as ∧
      spanSize 512 3 (insert (pageOf va) K) = spanSize 512 3 K + as.length := by
  cases h with
  | @mapped s₁ t₁ as a _ hflags h ha _ =>
    have hbuilt := h.edits htidy howns
    have hleaf := hbuilt.owns.edits_leaf (o := some (pageDescriptorOf f.asUsize flags)) ha
      (decode_leaf pageDescriptorOf_valid)
    obtain ⟨hspans₁, hsize⟩ := h.spans hspans ha
    have htakes := h.takes howns
    have hstore := hbuilt.owns.store ⟨3, _, ha⟩ (Nat.mod_lt (pageOf va) (by decide))
      (pageDescriptorOf f.asUsize flags)
    refine ⟨_, as, hbuilt.trans hleaf, hspans₁.setLeaf, ?_,
      ⟨htakes.nodup, htakes.offered, ?_⟩, hsize⟩
    · refine (hrefines.grows h.grows).setLeaf (o := some (f, flags)) fun entry hentry => ?_
      cases hentry
      exact ⟨hf, hflags⟩
    · rw [hstore.2, htakes.offers]

/-- With a free frame for every table that the path lacks a page is mapped. -/
theorem map_of_budget {as_ : QemuVirtAddressSpace} {va : VirtAddr} {flags : MappingFlags}
    {K : Finset ℕ} (howns : Owns (pmmSource haccepts hwindow) s t)
    (hroot : as_.root.asUsize = t.root) (hva : va.val % pageSize = 0)
    (hflags : ¬ (flags.contains .device ∧ flags.contains .execute)) (hspans : t.Spans K)
    (hopen : ¬ t.Blocked (pageOf va) ∧ t.leaf (pageOf va) = none)
    (hbudget : spanSize 512 3 (insert (pageOf va) K) ≤ spanSize 512 3 K + s.frames.freeCount) :
    ∃ token s', (QemuVirtMmu.map as_ va f flags Pmm.allocFrame).run s = .ok token s' ∧
      MapEnd (pmmSource haccepts hwindow) va f flags s t (.ok token s') := by
  have hend := map_run howns hroot va f flags
  have hrun : (QemuVirtMmu.map as_ va f flags (pmmSource haccepts hwindow).alloc).run s =
      (QemuVirtMmu.map as_ va f flags Pmm.allocFrame).run s := rfl
  rw [hrun] at hend
  generalize (QemuVirtMmu.map as_ va f flags Pmm.allocFrame).run s = r at hend ⊢
  cases hend with
  | misaligned hnot => exact absurd hva hnot
  | invalid _ hcon => exact absurd hcon hflags
  | occupied _ _ _ hmapped =>
    rcases hmapped with hleaf | hblocked
    · exact absurd hopen.2 hleaf
    · exact absurd hblocked hopen.1
  | @exhausted s₁ s' t' as _ _ h hrefused hmissing _ =>
    obtain ⟨A, hmodels⟩ := howns.valid
    obtain ⟨A₁, hmodels₁⟩ := (h.owns howns).valid
    have hnone := refused_freeCount hmodels₁ hrefused
    have htaken := (h.takes howns).freeCount hmodels hmodels₁
    have hlacks := h.grows.missing
    have hsize := hspans.missing (k := pageOf va)
    omega
  | mapped hva hflags h ha hopen => exact ⟨_, _, rfl, .mapped hva hflags h ha hopen⟩

/-! ## One more page -/

/-- The frame `f` has been taken and filled, and nothing else has changed. -/
structure Fetched (s : Supply (Pmm N R)) (f : PhysFrame) (s₁ : Supply (Pmm N R)) : Prop where
  offered : f.asUsize ∈ s.frames.freeFrames
  offers : s₁.frames.freeFrames = s.frames.freeFrames \ {f.asUsize}
  count : s₁.frames.freeCount + 1 = s.frames.freeCount
  memory : Memory.AgreesOff {f.asUsize} s.memory s₁.memory

/-- The tables stay owned while a frame is filled. -/
theorem Fetched.owns (h : Fetched s f s₁) (howns : Owns (pmmSource haccepts hwindow) s t)
    (hvalid : (pmmSource haccepts hwindow).Valid s₁) :
    Owns (pmmSource haccepts hwindow) s₁ t where
  holds := by
    refine howns.holds.agreesOff h.memory (fun b hb => ?_) fun a ha hmem => ?_
    · rw [Set.mem_singleton_iff.mp hb]
      exact f.aligned
    · rw [Set.mem_singleton_iff.mp hmem] at ha
      exact howns.apart _ ha h.offered
  valid := hvalid
  apart a ha hmem := by
    have hfree : a ∈ s₁.frames.freeFrames := hmem
    rw [h.offers] at hfree
    exact howns.apart a ha hfree.1

/-- A page that was fetched and is mapped is loaded. -/
theorem Loading.next {va : VirtAddr} {token : MapperFlush}
    (h : Loading haccepts hwindow image m₀ free k i frame s t) (hfetched : Fetched s f s₁)
    (hvalid : (pmmSource haccepts hwindow).Valid s₁)
    (hcontent : ∀ off < pageSize,
      s₁.memory (f.asUsize + off) = image.byteAt m₀ (i * pageSize + off))
    (hpage : pageOf va = k + i)
    (hmapped : MapEnd (pmmSource haccepts hwindow) va f (image.flagsAt i) s₁ t (.ok token s')) :
    ∃ t', t'.root = t.root ∧
      Loading haccepts hwindow image m₀ free k (i + 1) (Function.update frame i f) s' t' := by
  have htidy := pmmSource_tidy haccepts hwindow
  have howns₁ := hfetched.owns h.owns hvalid
  have hf := (pmmSource haccepts hwindow).in_window h.owns.valid hfetched.offered
  have hbelow : f.asUsize < 2 ^ 48 := hf.2.trans (by decide)
  obtain ⟨t', as, hedits, hspans, hrefines, htakes, hsize⟩ :=
    hmapped.loads htidy howns₁ h.spans h.refines hbelow
  rw [hpage, ← spanPages_succ] at hspans hsize
  rw [hpage, ← ImageSlice.pageMap_succ] at hrefines
  -- no frame of a page is a table now, or can become one
  have hnew : ¬ t'.IsTable f.asUsize ∧ f.asUsize ∉ s'.frames.freeFrames := by
    refine hedits.spares (fun hcon => h.owns.apart _ hcon hfetched.offered) fun hcon => ?_
    have hfree : f.asUsize ∈ s₁.frames.freeFrames := hcon
    rw [hfetched.offers] at hfree
    exact hfree.2 rfl
  have hold : ∀ j < i, ¬ t'.IsTable (frame j).asUsize ∧
      (frame j).asUsize ∉ s'.frames.freeFrames := by
    intro j hj
    refine hedits.spares (h.apart j hj) fun hcon => ?_
    have hfree : (frame j).asUsize ∈ s₁.frames.freeFrames := hcon
    rw [hfetched.offers] at hfree
    exact h.taken j hj hfree.1
  have hother : ∀ j < i, (frame j).asUsize ≠ f.asUsize :=
    fun j hj heq => h.taken j hj (heq ▸ hfetched.offered)
  have htables : ∀ a, t'.IsTable a → a ∈ usableFrames extent reserved := by
    intro a ha
    rcases hedits.grown a ha with hold | hnew
    · exact h.tables a hold
    · exact freeFrames_usable hvalid hnew
  have haligned : ∀ a ∈ {a | t'.IsTable a}, a % pageSize = 0 :=
    fun a ha => hedits.owns.holds.aligned a ha
  have hshown : ∀ g : PhysFrame, ¬ t'.IsTable g.asUsize → ∀ off < pageSize,
      s'.memory (g.asUsize + off) = s₁.memory (g.asUsize + off) :=
    fun g hg off hoff => Memory.AgreesOff.frame hedits.memory haligned g.aligned hg hoff
  obtain ⟨A₁, hmodels₁⟩ := hvalid
  obtain ⟨A', hmodels'⟩ := hedits.owns.valid
  have htaken := htakes.freeCount hmodels₁ hmodels'
  refine ⟨t', hedits.root, ?_⟩
  constructor
  · exact hedits.owns
  · exact hspans
  · exact hrefines
  · have hcount := h.count
    have hone := hfetched.count
    omega
  · exact htables
  · apply forall_lt_update (P := fun _ g => g.asUsize ∈ usableFrames extent reserved) h.leaf
    exact freeFrames_usable h.owns.valid hfetched.offered
  · apply forall_lt_update (P := fun _ g => ¬ t'.IsTable g.asUsize)
    · exact fun j hj => (hold j hj).1
    · exact hnew.1
  · apply forall_lt_update (P := fun _ g => g.asUsize ∉ s'.frames.freeFrames)
    · exact fun j hj => (hold j hj).2
    · exact hnew.2
  · exact distinct_update h.distinct hother
  · apply forall_lt_update (P := fun j g => ∀ off < pageSize,
      s'.memory (g.asUsize + off) = image.byteAt m₀ (j * pageSize + off))
    · intro j hj off hoff
      rw [hshown _ (hold j hj).1 off hoff, ← h.content j hj off hoff]
      refine hfetched.memory.frame (fun b hb => ?_) (frame j).aligned (hother j hj) hoff
      rw [Set.mem_singleton_iff.mp hb]
      exact f.aligned
    · intro off hoff
      rw [hshown f hnew.1 off hoff]
      exact hcontent off hoff
  · refine (h.rest.trans (hfetched.memory.mono ?_)).trans (hedits.memory.mono htables)
    intro b hb
    rw [Set.mem_singleton_iff.mp hb]
    exact freeFrames_usable h.owns.valid hfetched.offered

end Loading

/-! ## Filling a page -/

section Fill

open LoaderM

variable {AS : Type} {N R : ℕ} {image : ImageSlice} {m₀ : Memory} {i : ℕ}

/-- Of a zeroed frame `fill` makes the page `i`, as long as the image is as in `m₀`. -/
def FillsPage (image : ImageSlice) (m₀ : Memory) (i : ℕ)
    (fill : PhysFrame → LoaderM AS N R Unit) : Prop :=
  ∀ (s : Spaces AS (Supply (Pmm N R))) (f : PhysFrame), f.asUsize < directMapEnd →
    (∀ off < pageSize, s.machine.memory (f.asUsize + off) = 0) →
    (∀ off < image.len, s.machine.memory (physOf image.ptr + off) = m₀ (physOf image.ptr + off)) →
    ∃ m, (fill f).run s = .ok () { s with machine := { s.machine with memory := m } } ∧
      Memory.AgreesOff {f.asUsize} s.machine.memory m ∧
      ∀ off < pageSize, m (f.asUsize + off) = image.byteAt m₀ (i * pageSize + off)

/-- A page of the stack stays zero. -/
theorem fillsPage_stack (hi : image.pages ≤ i) :
    FillsPage image m₀ i (fun _ => return () : PhysFrame → LoaderM AS N R Unit) := by
  intro s f _ hzero _
  refine ⟨s.machine.memory, rfl, Memory.AgreesOff.refl _ _, fun off hoff => ?_⟩
  have hafter : image.len ≤ i * pageSize := by
    by_contra hnot
    exact absurd (ImageSlice.lt_pages.mpr (not_le.mp hnot)) (not_lt.mpr hi)
  rw [ImageSlice.byteAt_after (by omega)]
  exact hzero off hoff

/-- A page of the image is its chunk, and zeros after it. -/
theorem fillsPage_image (hi : i < image.pages) (hend : physOf image.ptr + image.len < 2 ^ 64) :
    FillsPage image m₀ i (copyChunk (image.chunk i) : PhysFrame → LoaderM AS N R Unit) := by
  intro s f hf hzero himage
  have hstart := ImageSlice.lt_pages.mp hi
  have hsrc : physOf (image.chunk i).ptr = physOf image.ptr + i * pageSize := by
    apply physOf_add
    omega
  have hlen : (image.chunk i).len = min pageSize (image.len - i * pageSize) := rfl
  have hdst := physOf_directMap hf
  have hto : (physToKernelVa f.asUsize : LoaderM AS N R ℕ).run s =
      .ok (wrappingAdd kernelHighHalfOffset f.asUsize) s := physToKernelVa_run hf
  unfold copyChunk
  rw [Prog.bind_ok hto]
  unfold copyNonoverlapping
  rw [Prog.modify_run, hdst, hsrc]
  generalize hbytes : s.machine.memory.readBytes (physOf image.ptr + i * pageSize)
    (image.chunk i).len = bytes
  have hcount : bytes.length = (image.chunk i).len := by
    rw [← hbytes, length_readBytes]
  have hfits : bytes.length ≤ pageSize := by omega
  obtain ⟨hoff, hinside, houtside⟩ :=
    writeBytes_frame (m := s.machine.memory) (a := f.asUsize) hfits
  refine ⟨_, rfl, hoff, fun off hoff => ?_⟩
  by_cases hin : off < bytes.length
  · rw [hinside off hin]
    have hread : bytes[off] = s.machine.memory (physOf image.ptr + i * pageSize + off) := by
      subst hbytes
      exact getElem_readBytes hin
    have hbefore : i * pageSize + off < image.len := by omega
    unfold ImageSlice.byteAt
    rw [hread, if_pos hbefore, Nat.add_assoc]
    exact himage _ hbefore
  · rw [houtside off (by omega), ImageSlice.byteAt_after (by omega)]
    exact hzero off hoff

end Fill

/-! ## The loops -/

section Loops

open LoaderM Spaces

variable [Build] {N R : ℕ} {extent : PhysFrameRange} {reserved : List PhysFrameRange}
  {haccepts : Accepts N R extent reserved} {hwindow : extent.stop.val ≤ directMapEnd}
  {image : ImageSlice} {m₀ : Memory} {frame : ℕ → PhysFrame} {free k i : ℕ}
  {S : Spaces QemuVirtAddressSpace (Supply (Pmm N R))} {t : PageTree} {hd : CapHandle}
  {handle : AddressSpaceHandle} {as_ : QemuVirtAddressSpace} {va : VirtAddr}
  {fill : PhysFrame → LoaderM QemuVirtAddressSpace N R Unit}
  {undo : LoaderM QemuVirtAddressSpace N R Unit}

/-- The image is in none of the frames that the manager hands out. -/
def ImageSlice.Apart (image : ImageSlice) (extent : PhysFrameRange)
    (reserved : List PhysFrameRange) : Prop :=
  ∀ a ∈ usableFrames extent reserved,
    ¬ FrameOverlaps a (physOf image.ptr) (physOf image.ptr + image.len)

omit [Build] in
/-- Writes to those frames do not change it. -/
theorem ImageSlice.Apart.kept (h : image.Apart extent reserved) {m m' : Memory}
    (hoff : Memory.AgreesOff (usableFrames extent reserved) m m') {off : ℕ}
    (hin : off < image.len) :
    m' (physOf image.ptr + off) = m (physOf image.ptr + off) := by
  apply hoff
  intro b hb hcon
  exact h b hb ⟨_, hcon, by omega, by omega⟩

/-- The next page is loaded. -/
theorem loadPage_run (hnames : Names S.table hd handle)
    (hlive : S.arena.get handle.slot = some ⟨as_⟩) (hroot : as_.root.asUsize = t.root)
    (h : Loading haccepts hwindow image m₀ free k i frame S.machine t)
    (hapart : image.Apart extent reserved) (hfill : FillsPage image m₀ i fill)
    (hva : va.val % pageSize = 0) (hpage : pageOf va = k + i)
    (hbudget : i + 1 + spanSize 512 3 (spanPages k (i + 1)) ≤ free) :
    ∃ f s' t', (loadPage hd va (image.flagsAt i) fill undo).run S =
        .ok () { S with machine := s' } ∧
      Loading haccepts hwindow image m₀ free k (i + 1) (Function.update frame i f) s' t' ∧
      t'.root = t.root := by
  have htidy := pmmSource_tidy haccepts hwindow
  have hcount := h.count
  have hmono : spanSize 512 3 (spanPages k i) ≤ spanSize 512 3 (spanPages k (i + 1)) := by
    apply spanSize_mono
    rw [spanPages_succ]
    exact Finset.subset_insert _ _
  -- a frame
  obtain ⟨f, s₁, halloc, hone⟩ := alloc_of_free h.owns.valid (by omega)
  have hgiven : (pmmSource haccepts hwindow).alloc.run S.machine = .ok (some f) s₁ :=
    halloc MmuError
  obtain ⟨hvalid₁, hoffered, hoffers, hzero, -⟩ := FrameSource.alloc_some h.owns.valid hgiven
  have hhanded := htidy.handed h.owns.valid (halloc MmuError)
  have hf := (pmmSource haccepts hwindow).in_window h.owns.valid hoffered
  have hpull : (allocFrame : LoaderM QemuVirtAddressSpace N R _).run S =
      .ok (some f) { S with machine := s₁ } := Prog.zoom_ok (halloc LoadError)
  -- its bytes
  have husable : ∀ b ∈ ({f.asUsize} : Set ℕ), b ∈ usableFrames extent reserved := by
    intro b hb
    rw [Set.mem_singleton_iff.mp hb]
    exact freeFrames_usable h.owns.valid hoffered
  obtain ⟨m, hfilled, hoff, hcontent⟩ := hfill { S with machine := s₁ } f hf.2
    (fun off hoff => hzero _ ⟨Nat.le_add_right _ _, Nat.add_lt_add_left hoff _⟩)
    (fun off hin => hapart.kept (h.rest.trans (hhanded.mono husable)) hin)
  have hfetched : Fetched S.machine f { s₁ with memory := m } :=
    ⟨hoffered, hoffers, hone, hhanded.trans hoff⟩
  have hvalid₂ : (pmmSource haccepts hwindow).Valid { s₁ with memory := m } := hvalid₁
  -- its mapping
  have hopen : ¬ t.Blocked (pageOf va) ∧ t.leaf (pageOf va) = none := by
    refine ⟨h.refines.unblocked _, ?_⟩
    rw [hpage, h.refines.leaf, ImageSlice.pageMap_outside (by omega)]
    rfl
  have hfree : spanSize 512 3 (insert (pageOf va) (spanPages k i)) ≤
      spanSize 512 3 (spanPages k i) + s₁.frames.freeCount := by
    rw [hpage, ← spanPages_succ]
    omega
  obtain ⟨token, s', hmap, hend⟩ := map_of_budget (s := { s₁ with memory := m }) (f := f)
    (hfetched.owns h.owns hvalid₂) hroot hva image.flagsAt_mappable h.spans hopen hfree
  obtain ⟨t', hroot', hnext⟩ := h.next hfetched hvalid₂ hcontent hpage hend
  obtain ⟨s'', hflush, hmapped⟩ := capMap_ok (s := { S with machine := { s₁ with memory := m } })
    hnames hlive hmap
  have hsame : s'' = s' := by
    cases hflush
    rfl
  rw [hsame] at hmapped
  refine ⟨f, s', t', ?_, hnext, hroot'⟩
  unfold loadPage
  rw [Prog.bind_ok hpull]
  dsimp only
  rw [Prog.bind_ok hfilled, Prog.bind_ok (Prog.attempt_ok hmapped)]
  rfl

/-- Both loops go through. -/
theorem loadPages_run {base : VirtAddr} {stackPages : ℕ} (hnames : Names S.table hd handle)
    (hlive : S.arena.get handle.slot = some ⟨as_⟩) (hroot : as_.root.asUsize = t.root)
    (h : Loading haccepts hwindow image m₀ free (base.val / pageSize) 0 frame S.machine t)
    (hapart : image.Apart extent reserved) (hend : physOf image.ptr + image.len < 2 ^ 64)
    (haligned : base.val % pageSize = 0)
    (hspan : base.val + (image.pages + stackPages) * pageSize ≤ 2 ^ 48)
    (hbudget : image.pages + stackPages + spanSize 512 3
      (spanPages (base.val / pageSize) (image.pages + stackPages)) ≤ free) :
    ∃ frame s' t',
      (loadPages image hd base (pageVa base image.pages) image.pages stackPages).run S =
        .ok () { S with machine := s' } ∧
      Loading haccepts hwindow image m₀ free (base.val / pageSize) (image.pages + stackPages)
        frame s' t' ∧ as_.root.asUsize = t'.root := by
  generalize hk : base.val / pageSize = k at h hbudget ⊢
  -- the state after `i` pages
  let Loaded (i : ℕ) (S' : Spaces QemuVirtAddressSpace (Supply (Pmm N R))) : Prop :=
    ∃ frame s t, S' = { S with machine := s } ∧
      Loading haccepts hwindow image m₀ free k i frame s t ∧ as_.root.asUsize = t.root
  have hturn : ∀ i < image.pages + stackPages, ∀ (fill : PhysFrame → LoaderM _ N R Unit) undo S',
      FillsPage image m₀ i fill → Loaded i S' →
      ∃ S'', (loadPage hd (pageVa base i) (image.flagsAt i) fill undo).run S' = .ok () S'' ∧
        Loaded (i + 1) S'' := by
    intro i hi fill undo S' hfill hloaded
    obtain ⟨frame, s, t, rfl, h, hroot⟩ := hloaded
    obtain ⟨hva, _, _⟩ := pageVa_page haligned hspan hi
    have hpage := pageOf_pageVa haligned hspan hi
    have hmono : spanSize 512 3 (spanPages k (i + 1)) ≤
        spanSize 512 3 (spanPages k (image.pages + stackPages)) :=
      spanSize_mono (Finset.Ico_subset_Ico_right (by omega))
    obtain ⟨f, s', t', hrun, hnext, hroot'⟩ := loadPage_run (S := { S with machine := s })
      hnames hlive hroot h hapart hfill hva (hpage.trans (by rw [hk])) (by omega)
    exact ⟨_, hrun, _, s', t', rfl, hnext, hroot.trans hroot'.symm⟩
  have hstart : Loaded 0 S := ⟨frame, S.machine, t, rfl, h, hroot⟩
  have hfirst : ∃ S₁, (Prog.forRange (fun i => loadPage hd (pageVa base i)
      (MappingFlags.user.union .execute) (copyChunk (image.chunk i))
      (rollback hd base (pageVa base image.pages) i 0)) 0 image.pages).run S = .ok () S₁ ∧
      Loaded (0 + image.pages) S₁ := by
    refine Prog.forRange_ok (fun i S' _ hi hloaded => ?_) hstart
    have hi : i < image.pages := by omega
    have hflags : image.flagsAt i = MappingFlags.user.union .execute := if_pos hi
    rw [← hflags]
    exact hturn i (by omega) _ _ S' (fillsPage_image hi hend) hloaded
  obtain ⟨S₁, himage, hloaded₁⟩ := hfirst
  rw [Nat.zero_add] at hloaded₁
  have hsecond : ∃ S₂, (Prog.forRange (fun i => loadPage hd (pageVa (pageVa base image.pages) i)
      (MappingFlags.user.union .write) (fun _ => return ())
      (rollback hd base (pageVa base image.pages) image.pages i)) 0 stackPages).run S₁ = .ok () S₂ ∧
      Loaded (image.pages + (0 + stackPages)) S₂ := by
    refine Prog.forRange_ok (I := fun i => Loaded (image.pages + i)) (fun i S' _ hi hloaded => ?_)
      hloaded₁
    have hflags : image.flagsAt (image.pages + i) = MappingFlags.user.union .write :=
      if_neg (by omega)
    rw [← hflags, pageVa_pageVa hspan (by omega)]
    exact hturn (image.pages + i) (by omega) _ _ S' (fillsPage_stack (by omega)) hloaded
  obtain ⟨S₂, hstack, hloaded₂⟩ := hsecond
  rw [Nat.zero_add] at hloaded₂
  obtain ⟨frame', s', t', rfl, hloaded, hroot'⟩ := hloaded₂
  unfold loadPages
  exact ⟨frame', s', t', (Prog.bind_ok himage).trans hstack, hloaded, hroot'⟩

end Loops

end Tyrne
