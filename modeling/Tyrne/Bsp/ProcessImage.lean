import Tyrne.Bsp.Alias
import Tyrne.Bsp.Loading
import Tyrne.Bsp.Tlb
import Tyrne.Mm.Creation

/-!
# The process image

`load_image` over the page tables of QEMU virt. With its checks passed it can still be refused
the address space, and then it has changed nothing; otherwise it loads the whole span, and takes
just the frames that it has budgeted for.
-/

namespace Tyrne

open Radix Tree Spaces LoaderM CapabilityTable

variable [Build] {N R : ℕ} {extent : PhysFrameRange} {reserved : List PhysFrameRange}
  {haccepts : Accepts N R extent reserved} {hwindow : extent.stop.val ≤ directMapEnd}
  {image : ImageSlice} {frame : ℕ → PhysFrame} {k stackPages : ℕ} {base : VirtAddr}
  {m m₁ : Supply (Pmm N R)} {s s' : Spaces QemuVirtAddressSpace (Supply (Pmm N R))}
  {parent : CapHandle} {newRights : CapRights} {loaded : LoadedImage} {root : PhysFrame}

/-- Before the first page the tables are the zeroed root. -/
theorem Loading.start (hvalid : (pmmSource haccepts hwindow).Valid m)
    (hpull : (Pmm.allocFrame : Prog _ MmuError _).run m = .ok (some root) m₁) :
    m₁.frames.freeCount + 1 = m.frames.freeCount ∧
      Loading haccepts hwindow image m.memory m₁.frames.freeCount k 0 frame m₁
        (Tree.empty 512 3 _ _ root.asUsize) := by
  have halloc : (pmmSource haccepts hwindow).alloc.run m = .ok (some root) m₁ := hpull
  obtain ⟨hvalid₁, hoffered, hoffers, hzero, -⟩ := FrameSource.alloc_some hvalid halloc
  have hhanded := (pmmSource_tidy haccepts hwindow).handed hvalid hpull
  have hroot := (pmmSource haccepts hwindow).in_window hvalid hoffered
  have husable := freeFrames_usable hvalid hoffered
  have htakes : Takes (pmmSource haccepts hwindow) m m₁ [root.asUsize] := by
    refine ⟨List.nodup_singleton _, fun a ha => ?_, ?_⟩
    · rw [List.mem_singleton.mp ha]
      exact hoffered
    · rw [hoffers]
      ext a
      simp
  obtain ⟨A, hmodels⟩ := hvalid
  obtain ⟨A₁, hmodels₁⟩ := hvalid₁
  have hempty : spanPages k 0 = ∅ := Finset.Ico_self k
  refine ⟨htakes.freeCount hmodels hmodels₁, ?_⟩
  constructor
  · refine ⟨holds_empty root.aligned hroot.2 hzero, ⟨A₁, hmodels₁⟩, fun a ha => ?_⟩
    rw [isTable_empty.mp ha, hoffers]
    exact fun hcon => hcon.2 rfl
  · rw [hempty]
    exact spans_empty
  · rw [ImageSlice.pageMap_zero]
    exact refines_empty
  · rw [hempty]
    rfl
  · intro a ha
    rw [isTable_empty.mp ha]
    exact husable
  · exact fun j hj => absurd hj (Nat.not_lt_zero j)
  · exact fun j hj => absurd hj (Nat.not_lt_zero j)
  · exact fun j hj => absurd hj (Nat.not_lt_zero j)
  · exact fun j hj => absurd hj (Nat.not_lt_zero j)
  · exact fun j hj => absurd hj (Nat.not_lt_zero j)
  · refine hhanded.mono fun b hb => ?_
    rw [Set.mem_singleton_iff.mp hb]
    exact husable

/-- What a load that goes through leaves. -/
structure Loads (haccepts : Accepts N R extent reserved) (hwindow : extent.stop.val ≤ directMapEnd)
    (image : ImageSlice) (base : VirtAddr) (stackPages : ℕ)
    (s : Spaces QemuVirtAddressSpace (Supply (Pmm N R))) (parent : CapHandle)
    (newRights : CapRights)
    (loaded : LoadedImage) (s' : Spaces QemuVirtAddressSpace (Supply (Pmm N R))) (root : PhysFrame)
    (handle : AddressSpaceHandle) (frame : ℕ → PhysFrame) (t : PageTree) : Prop where
  checks : LoadChecks extent reserved s image base stackPages
  created : ∃ m₁, Created s parent newRights Pmm.allocFrame loaded.asCap { s' with machine := m₁ }
    root handle
  root : root.asUsize = t.root
  loading : Loading haccepts hwindow image s.machine.memory (s.machine.frames.freeCount - 1)
    (base.val / pageSize) (image.pages + stackPages) frame s'.machine t
  free : 0 < s.machine.frames.freeCount
  entry : loaded.entryVa = base
  top : loaded.stackTopVa.val = base.val + (image.pages + stackPages) * pageSize
  bytes : loaded.imageBytes = image.len ∧ loaded.stackBytes = stackPages * pageSize

/-- Once the address space is created, the load goes through. -/
theorem LoadChecks.loadImage_after (hchecks : LoadChecks extent reserved s image base stackPages)
    (hchecked : (checkLoad image parent base stackPages).run s = .ok () s)
    (hvalid : (pmmSource haccepts hwindow).Valid s.machine) {hd : CapHandle}
    {S₁ : Spaces QemuVirtAddressSpace (Supply (Pmm N R))} {handle : AddressSpaceHandle}
    (hcreate : (capCreateAddressSpace parent newRights Pmm.allocFrame).run s = .ok hd S₁)
    (hcreated : Created s parent newRights Pmm.allocFrame hd S₁ root handle) :
    ∃ loaded machine frame t,
      (loadImage image parent newRights base stackPages).run s = .ok loaded { S₁ with machine } ∧
      Loads haccepts hwindow image base stackPages s parent newRights loaded
        { S₁ with machine } root
        handle frame t ∧ loaded.asCap = hd := by
  have hspan := hchecks.span
  have hbudget := hchecks.budget
  have hlen : image.len ≤ image.pages * pageSize := by
    rw [image.pages_eq]
    unfold pageSize
    omega
  have hend : physOf image.ptr + image.len < 2 ^ 64 := by
    have hptr := hchecks.window
    unfold directMapEnd at hptr
    unfold pageSize at hspan hlen
    omega
  rw [framesNeeded_eq hchecks.aligned hspan] at hbudget
  have hmade : (onSpaces (capCreateAddressSpace parent newRights Pmm.allocFrame) :
      LoaderM QemuVirtAddressSpace N R CapHandle).run s = .ok hd S₁ := Prog.zoom_ok hcreate
  obtain ⟨hone, hstart⟩ : _ ∧ Loading haccepts hwindow image _ _ (base.val / pageSize) 0
      (fun _ => root) _ _ := Loading.start hvalid hcreated.pulled
  have hnames : Names S₁.table hd handle := ⟨_, hcreated.cap, rfl⟩
  obtain ⟨frame, machine, t, hpages, hloading, hroot⟩ := loadPages_run hnames hcreated.space rfl
    hstart hchecks.apart hend hchecks.aligned hspan (by omega)
  have hfree : S₁.machine.frames.freeCount = s.machine.frames.freeCount - 1 := by omega
  rw [hfree] at hloading
  refine ⟨⟨hd, base, pageVa (pageVa base image.pages) stackPages, image.len,
    saturatingMul stackPages pageSize⟩, machine, frame, t, ?_, ?_, rfl⟩
  · unfold loadImage
    rw [Prog.bind_ok hchecked, Prog.bind_ok hmade]
    exact Prog.bind_ok hpages
  · refine ⟨hchecks, ⟨S₁.machine, hcreated⟩, hroot, hloading, by omega, rfl, ?_, rfl, ?_⟩
    · show (pageVa (pageVa base image.pages) stackPages).val = _
      rw [pageVa_pageVa hspan (Nat.le_refl _), pageVa_val hspan (Nat.le_refl _)]
    · apply saturatingMul_eq
      unfold pageSize at *
      omega

/-- With the checks passed the address space is refused, or the load goes through. -/
theorem LoadChecks.loadImage_run (hchecks : LoadChecks extent reserved s image base stackPages)
    (newRights : CapRights) (hchecked : (checkLoad image parent base stackPages).run s = .ok () s)
    (hvalid : (pmmSource haccepts hwindow).Valid s.machine) (htable : s.table.WellFormed)
    (harena : s.arena.WellFormed) :
    (∃ e, (capCreateAddressSpace parent newRights Pmm.allocFrame).run s = .err e s ∧
      (loadImage image parent newRights base stackPages).run s =
        .err (.addressSpaceCreationFailed e) s) ∨
    ∃ loaded s' root handle frame t,
      (loadImage image parent newRights base stackPages).run s = .ok loaded s' ∧
      Loads haccepts hwindow image base stackPages s parent newRights loaded s' root handle
        frame t := by
  have hsupplies : Supplies (Pmm.allocFrame : Prog _ MmuError _) s.machine := by
    obtain ⟨A, hmodels⟩ := hvalid
    exact hmodels.supplies haccepts hwindow
  rcases capCreate_cases parent newRights htable harena hsupplies with ⟨e, hfailed⟩ |
    ⟨hd, S₁, root, handle, hcreate, hcreated, -⟩
  · have hrefused : (onSpaces (capCreateAddressSpace parent newRights Pmm.allocFrame) :
        LoaderM QemuVirtAddressSpace N R CapHandle).run s =
        .err (.addressSpaceCreationFailed e) s := Prog.zoom_err hfailed
    unfold loadImage
    exact Or.inl ⟨e, hfailed, (Prog.bind_ok hchecked).trans (Prog.bind_err hrefused)⟩
  · obtain ⟨loaded, machine, frame, t, hrun, hloads, _⟩ :=
      hchecks.loadImage_after hchecked hvalid hcreate hcreated
    exact Or.inr ⟨loaded, _, root, handle, frame, t, hrun, hloads⟩

/-! ## What is loaded -/

/-- Over the tables of `as_` the address is mapped to `f`, with these flags. -/
def Maps (as_ : QemuVirtAddressSpace) (m : Supply (Pmm N R)) (va : ℕ) (f : PhysFrame)
    (flags : MappingFlags) : Prop :=
  (QemuVirtMmu.translate as_ ⟨va⟩).run m = .ok (f, flags) m

/-- The address space holds the image, which lay in `m₀`, and a stack above it. The hardware
translates just the addresses of the two; `translate` drops the bits of an address from bit 48
on. -/
structure ProcessImage (image : ImageSlice) (base : VirtAddr) (stackPages : ℕ) (m₀ : Memory)
    (as_ : QemuVirtAddressSpace) (loaded : LoadedImage) (m : Supply (Pmm N R)) : Prop where
  entry : loaded.entryVa = base
  top : loaded.stackTopVa.val = base.val + (image.pages + stackPages) * pageSize
  below : loaded.stackTopVa.val ≤ 2 ^ 48
  walked : ∀ va, Walks m.memory as_.root.asUsize va ↔
    loaded.entryVa.val ≤ va ∧ va < loaded.stackTopVa.val
  mapped : ∀ va, (∃ f flags, Maps as_ m va f flags) ↔
    loaded.entryVa.val ≤ va % 2 ^ 48 ∧ va % 2 ^ 48 < loaded.stackTopVa.val
  unmapped : ∀ va, ¬ (∃ f flags, Maps as_ m va f flags) →
    (QemuVirtMmu.translate as_ ⟨va⟩).run m = .err .notMapped m
  bytes : ∀ i < image.len, ∃ f flags, Maps as_ m (base.val + i) f flags ∧
    m.memory (f.asUsize + (base.val + i) % pageSize) = m₀ (physOf image.ptr + i)
  zeros : ∀ i, image.len ≤ i → i < (image.pages + stackPages) * pageSize →
    ∃ f flags, Maps as_ m (base.val + i) f flags ∧
      m.memory (f.asUsize + (base.val + i) % pageSize) = 0
  imagePages : ∀ va f flags, base.val ≤ va → va < base.val + image.pages * pageSize →
    Maps as_ m va f flags → flags.contains .user ∧ flags.contains .execute ∧ ¬ flags.contains .write
  stackPages : ∀ va f flags, base.val + image.pages * pageSize ≤ va → va < loaded.stackTopVa.val →
    Maps as_ m va f flags → flags.contains .user ∧ flags.contains .write ∧ ¬ flags.contains .execute
  distinct : ∀ va va' f flags flags', va < 2 ^ 48 → va' < 2 ^ 48 → Maps as_ m va f flags →
    Maps as_ m va' f flags' → va / pageSize = va' / pageSize
  tables : ∀ va f flags, Maps as_ m va f flags → f.asUsize ∉ tableFrames m.memory as_.root.asUsize

section Image

variable {handle : AddressSpaceHandle} {t : PageTree}
  (h : Loads haccepts hwindow image base stackPages s parent newRights loaded s' root handle frame
    t)

include h

/-- The capability that the load returns names the address space of the root. -/
theorem Loads.names : Names s'.table loaded.asCap handle ∧
    s'.arena.get handle.slot = some ⟨⟨root⟩⟩ := by
  obtain ⟨m, hcreated⟩ := h.created
  exact ⟨⟨_, hcreated.cap, rfl⟩, hcreated.space⟩

/-- What translates: of the span the page's frame, with its flags, and nothing else. -/
theorem Loads.translate_run (va : ℕ) : (QemuVirtMmu.translate ⟨root⟩ ⟨va⟩).run s'.machine =
    .returned ((image.pageMap frame (base.val / pageSize) (image.pages + stackPages)).translation
      (pageOf ⟨va⟩)) s'.machine := by
  rw [Tyrne.translate_run h.loading.owns.holds h.root, h.loading.refines.translation]

/-- The page of an address of the span. -/
theorem Loads.pageOf_span {off : ℕ} (hoff : off < (image.pages + stackPages) * pageSize) :
    pageOf ⟨base.val + off⟩ = base.val / pageSize + off / pageSize ∧
      (base.val + off) % pageSize = off % pageSize ∧
      off / pageSize < image.pages + stackPages := by
  have haligned := h.checks.aligned
  have hspan := h.checks.span
  unfold pageOf pageSize at *
  dsimp only
  omega

theorem Loads.maps_span {off : ℕ} (hoff : off < (image.pages + stackPages) * pageSize) :
    Maps ⟨root⟩ s'.machine (base.val + off) (frame (off / pageSize))
      (image.flagsAt (off / pageSize)) := by
  obtain ⟨hpage, _, hin⟩ := h.pageOf_span hoff
  unfold Maps
  rw [h.translate_run, hpage]
  unfold PageMap.translation
  rw [ImageSlice.pageMap_page hin, Option.elim_some, ImageSlice.flagsAt_named]
  rfl

/-- A mapped address is one of the span. -/
theorem Loads.maps_iff {va : ℕ} {f : PhysFrame} {flags : MappingFlags} :
    Maps ⟨root⟩ s'.machine va f flags ↔
      ∃ off < (image.pages + stackPages) * pageSize, va % 2 ^ 48 = base.val + off ∧
        f = frame (off / pageSize) ∧ flags = image.flagsAt (off / pageSize) := by
  have haligned := h.checks.aligned
  have hspan := h.checks.span
  have hlow : pageOf ⟨va⟩ = pageOf ⟨va % 2 ^ 48⟩ := (pageOf_lowAddress ⟨va⟩).symm
  constructor
  · intro hmaps
    unfold Maps at hmaps
    rw [h.translate_run] at hmaps
    by_cases hin : base.val / pageSize ≤ pageOf ⟨va⟩ ∧
        pageOf ⟨va⟩ < base.val / pageSize + (image.pages + stackPages)
    · have hoff : va % 2 ^ 48 - base.val < (image.pages + stackPages) * pageSize ∧
          va % 2 ^ 48 = base.val + (va % 2 ^ 48 - base.val) := by
        unfold pageOf pageSize at *
        dsimp only at hin
        omega
      have hspanned := h.maps_span hoff.1
      rw [← hoff.2] at hspanned
      unfold Maps at hspanned
      rw [h.translate_run, ← hlow, hmaps] at hspanned
      cases hspanned
      exact ⟨_, hoff.1, hoff.2, rfl, rfl⟩
    · unfold PageMap.translation at hmaps
      rw [ImageSlice.pageMap_outside hin, Option.elim_none] at hmaps
      cases hmaps
  · intro hoff
    obtain ⟨off, hlt, hva, rfl, rfl⟩ := hoff
    have hspanned := h.maps_span hlt
    unfold Maps at hspanned ⊢
    rw [← hva, h.translate_run, ← hlow] at hspanned
    rw [h.translate_run]
    exact hspanned

/-- What is not mapped is refused as such. -/
theorem Loads.unmapped {va : ℕ} (hnot : ¬ ∃ f flags, Maps ⟨root⟩ s'.machine va f flags) :
    (QemuVirtMmu.translate ⟨root⟩ ⟨va⟩).run s'.machine = .err .notMapped s'.machine := by
  unfold Maps at hnot
  rw [h.translate_run] at hnot ⊢
  unfold PageMap.translation at hnot ⊢
  cases hpage : image.pageMap frame (base.val / pageSize) (image.pages + stackPages)
    (pageOf ⟨va⟩) with
  | none => rfl
  | some entry =>
    rw [hpage] at hnot
    exact absurd ⟨_, _, rfl⟩ hnot

/-- The byte at an offset into the span. -/
theorem Loads.byte {off : ℕ} (hoff : off < (image.pages + stackPages) * pageSize) :
    ∃ f flags, Maps ⟨root⟩ s'.machine (base.val + off) f flags ∧
      s'.machine.memory (f.asUsize + (base.val + off) % pageSize) =
        image.byteAt s.machine.memory off := by
  obtain ⟨_, hmod, hin⟩ := h.pageOf_span hoff
  refine ⟨_, _, h.maps_span hoff, ?_⟩
  have hlt : off % pageSize < pageSize := Nat.mod_lt _ (by decide)
  rw [hmod, h.loading.content _ hin _ hlt, Nat.div_add_mod']

/-- The hardware translates the addresses of the span. -/
theorem Loads.walks_iff (va : ℕ) : Walks s'.machine.memory root.asUsize va ↔
    base.val ≤ va ∧ va < base.val + (image.pages + stackPages) * pageSize := by
  have haligned := h.checks.aligned
  have hspan := h.checks.span
  have hholds : Holds s'.machine.memory t := h.loading.owns.holds
  rw [h.root, hholds.walks_iff h.loading.refines va]
  by_cases hin : base.val / pageSize ≤ va / pageSize ∧
      va / pageSize < base.val / pageSize + (image.pages + stackPages)
  · obtain ⟨j, hj⟩ := Nat.exists_eq_add_of_le hin.1
    rw [hj, ImageSlice.pageMap_page (by omega)]
    simp only [ne_eq, reduceCtorEq, not_false_eq_true, and_true]
    unfold pageSize at *
    omega
  · rw [ImageSlice.pageMap_outside hin]
    simp only [ne_eq, not_true_eq_false, and_false, false_iff]
    unfold pageSize at *
    omega

theorem Loads.processImage :
    ProcessImage image base stackPages s.machine.memory ⟨root⟩ loaded s'.machine := by
  have hspan := h.checks.span
  have htop := h.top
  have hlen : image.len ≤ image.pages * pageSize := by
    rw [image.pages_eq]
    unfold pageSize
    omega
  have htotal : (image.pages + stackPages) * pageSize =
      image.pages * pageSize + stackPages * pageSize := Nat.add_mul ..
  constructor
  · exact h.entry
  · exact htop
  · rw [htop]
    exact hspan
  · intro va
    rw [h.entry, htop]
    exact h.walks_iff va
  · intro va
    rw [h.entry, htop]
    constructor
    · rintro ⟨f, flags, hmaps⟩
      obtain ⟨off, hoff, hva, _⟩ := h.maps_iff.mp hmaps
      omega
    · intro hin
      exact ⟨_, _, h.maps_iff.mpr ⟨va % 2 ^ 48 - base.val, by omega, by omega, rfl, rfl⟩⟩
  · exact fun va hnot => h.unmapped hnot
  · intro i hi
    have hlt : i < (image.pages + stackPages) * pageSize := by omega
    obtain ⟨f, flags, hmaps, hbyte⟩ := h.byte hlt
    unfold ImageSlice.byteAt at hbyte
    rw [if_pos hi] at hbyte
    exact ⟨f, flags, hmaps, hbyte⟩
  · intro i hafter hi
    obtain ⟨f, flags, hmaps, hbyte⟩ := h.byte hi
    rw [ImageSlice.byteAt_after hafter] at hbyte
    exact ⟨f, flags, hmaps, hbyte⟩
  · intro va f flags hfrom hto hmaps
    obtain ⟨off, hoff, hva, _, rfl⟩ := h.maps_iff.mp hmaps
    have hpage : off / pageSize < image.pages := by
      unfold pageSize at *
      omega
    unfold ImageSlice.flagsAt
    rw [if_pos hpage]
    decide
  · intro va f flags hfrom hto hmaps
    obtain ⟨off, hoff, hva, _, rfl⟩ := h.maps_iff.mp hmaps
    have hpage : ¬ off / pageSize < image.pages := by
      unfold pageSize at *
      omega
    unfold ImageSlice.flagsAt
    rw [if_neg hpage]
    decide
  · intro va va' f flags flags' hva hva' hmaps hmaps'
    obtain ⟨off, hoff, heq, hf, _⟩ := h.maps_iff.mp hmaps
    obtain ⟨off', hoff', heq', hf', _⟩ := h.maps_iff.mp hmaps'
    have hin := (h.pageOf_span hoff).2.2
    have hin' := (h.pageOf_span hoff').2.2
    have hsame := h.loading.distinct _ hin _ hin' (by rw [← hf, ← hf'])
    have haligned := h.checks.aligned
    unfold pageSize at *
    omega
  · intro va f flags hmaps hcon
    obtain ⟨off, hoff, _, rfl, _⟩ := h.maps_iff.mp hmaps
    have htables : tableFrames s'.machine.memory root.asUsize = {a | t.IsTable a} := by
      rw [h.root]
      exact h.loading.owns.holds.tableFrames_eq
    rw [htables] at hcon
    exact h.loading.apart _ (h.pageOf_span hoff).2.2 hcon

end Image

/-- A load that goes through has passed its checks, and leaves the process image. -/
theorem loads_of_ok (hwindow : extent.stop.val ≤ directMapEnd)
    (hreach : s.machine.frames.Reachable extent reserved) (htable : s.table.WellFormed)
    (harena : s.arena.WellFormed)
    (hrun : (loadImage image parent newRights base stackPages).run s = .ok loaded s') :
    ∃ (haccepts : Accepts N R extent reserved) (root : PhysFrame) (handle : AddressSpaceHandle)
      (frame : ℕ → PhysFrame) (t : PageTree), Loads haccepts hwindow image base stackPages s parent
        newRights loaded s' root handle frame t := by
  obtain ⟨haccepts, A, hmodels⟩ := hreach.models (stop_lt hwindow)
  rcases checkLoad_cases hmodels haccepts image parent base stackPages with
    ⟨e, _, hfailed⟩ | ⟨cause, hpanic⟩ | ⟨hchecked, hchecks⟩
  · have herr : (loadImage image parent newRights base stackPages).run s = .err e s :=
      Prog.bind_err hfailed
    rw [herr] at hrun
    cases hrun
  · have hcon : (loadImage image parent newRights base stackPages).run s = .panic cause :=
      Prog.bind_panic hpanic
    rw [hcon] at hrun
    cases hrun
  · have hvalid : (pmmSource haccepts hwindow).Valid s.machine := ⟨A, hmodels⟩
    rcases hchecks.loadImage_run newRights hchecked hvalid htable harena with
      ⟨e, _, herr⟩ | ⟨_, _, root, handle, frame, t, hok, hloads⟩
    · rw [herr] at hrun
      cases hrun
    · rw [hok] at hrun
      cases hrun
      exact ⟨haccepts, root, handle, frame, t, hloads⟩

/-- A load that goes through leaves an address space that shows the image, zeros after it, and
nothing else. -/
theorem load_image_establishes (hwindow : extent.stop.val ≤ directMapEnd)
    (hreach : s.machine.frames.Reachable extent reserved) (htable : s.table.WellFormed)
    (harena : s.arena.WellFormed)
    (hrun : (loadImage image parent newRights base stackPages).run s = .ok loaded s') :
    ∃ handle as_, Names s'.table loaded.asCap handle ∧ s'.arena.get handle.slot = some ⟨as_⟩ ∧
      ProcessImage image base stackPages s.machine.memory as_ loaded s'.machine := by
  obtain ⟨_, root, handle, frame, t, hloads⟩ := loads_of_ok hwindow hreach htable harena hrun
  exact ⟨handle, ⟨root⟩, hloads.names.1, hloads.names.2, hloads.processImage⟩

/-! ## The budget -/

/-- Mapping this many pages from `base` on into empty tables pulls `n` frames from the provider,
whatever it is, and they become the tables below the root. -/
def PullsForSpan (base : VirtAddr) (pages n : ℕ) : Prop :=
  ∀ (σ : Type) [Hardware σ] (src : FrameSource σ) (as_ : QemuVirtAddressSpace) (s₀ s : σ),
    as_.root.asUsize < directMapEnd →
    (∀ a, InFrame as_.root.asUsize a → Hardware.memory s₀ a = 0) → src.Valid s₀ →
    as_.root.asUsize ∉ src.offers s₀ → Run (MapsPage src as_ base) s₀ (List.range pages) s →
    ∃ pulled, Takes src s₀ s pulled ∧ pulled.length = n ∧
      tableFrames (Hardware.memory s) as_.root.asUsize = {a | a = as_.root.asUsize ∨ a ∈ pulled}

theorem pullsForSpan {pages : ℕ} (haligned : base.val % pageSize = 0)
    (hspan : base.val + pages * pageSize ≤ 2 ^ 48) :
    PullsForSpan base pages (spanSize 512 3 (spanPages (base.val / pageSize) pages)) := by
  intro σ _ src as_ s₀ s hroot hzero hvalid hapart hrun
  have howns : Owns src s₀ (Tree.empty 512 3 _ _ as_.root.asUsize) := by
    refine ⟨holds_empty as_.root.aligned hroot hzero, hvalid, fun a ha => ?_⟩
    rw [isTable_empty.mp ha]
    exact hapart
  obtain ⟨t, pulled, howns', hroot', _, htakes, htables, hlength⟩ :=
    takes_of_pages haligned hspan howns rfl spans_empty hrun
  refine ⟨pulled, htakes, hlength, ?_⟩
  rw [hroot', howns'.holds.tableFrames_eq]
  ext a
  rw [Set.mem_ofPred_eq, htables, isTable_empty, ← hroot']
  rfl

/-- What a load takes. -/
theorem Loads.freeCount {handle : AddressSpaceHandle} {t : PageTree}
    (h : Loads haccepts hwindow image base stackPages s parent newRights loaded s' root handle
      frame t) :
    s'.machine.frames.freeCount + framesNeeded base image.pages stackPages =
      s.machine.frames.freeCount := by
  have hcount := h.loading.count
  have hfree := h.free
  rw [framesNeeded_eq h.checks.aligned h.checks.span]
  omega

/-- `intermediate_frame_count` is the number of tables that a walker pulls for a span. So a load
whose checks have passed is never short of a frame, and takes those it has budgeted for. -/
theorem frame_budget_exact (hwindow : extent.stop.val ≤ directMapEnd)
    (hreach : s.machine.frames.Reachable extent reserved) (htable : s.table.WellFormed)
    (harena : s.arena.WellFormed) :
    (∀ base imagePages stackPages, base.val % pageSize = 0 →
      base.val + (imagePages + stackPages) * pageSize ≤ 2 ^ 48 →
      PullsForSpan base (imagePages + stackPages)
        (intermediateFrameCount base imagePages stackPages)) ∧
    ∀ image parent newRights base stackPages,
      ((checkLoad image parent base stackPages).run s = .ok () s →
        (∃ e, (loadImage image parent newRights base stackPages).run s =
          .err (.addressSpaceCreationFailed e) s) ∨
        ∃ loaded s', (loadImage image parent newRights base stackPages).run s = .ok loaded s') ∧
      (∀ e s', (loadImage image parent newRights base stackPages).run s = .err e s' →
        e ≠ .outOfFrames ∧ ∀ err, e ≠ .mapFailed err) ∧
      ∀ loaded s', (loadImage image parent newRights base stackPages).run s = .ok loaded s' →
        s'.machine.frames.freeCount + framesNeeded base image.pages stackPages =
          s.machine.frames.freeCount := by
  refine ⟨fun base imagePages stackPages haligned hspan => ?_, ?_⟩
  · rw [intermediateFrameCount_eq haligned hspan]
    exact pullsForSpan haligned hspan
  intro image parent newRights base stackPages
  obtain ⟨haccepts, A, hmodels⟩ := hreach.models (stop_lt hwindow)
  have hvalid : (pmmSource haccepts hwindow).Valid s.machine := ⟨A, hmodels⟩
  rcases checkLoad_cases hmodels haccepts image parent base stackPages with
    ⟨e, hearly, hfailed⟩ | ⟨cause, hpanic⟩ | ⟨hchecked, hchecks⟩
  · have hrun : (loadImage image parent newRights base stackPages).run s = .err e s :=
      Prog.bind_err hfailed
    refine ⟨fun hpassed => ?_, fun e' s' hend => ?_, fun loaded s' hend => ?_⟩
    · rw [hfailed] at hpassed
      cases hpassed
    · rw [hrun] at hend
      cases hend
      exact ⟨fun heq => hearly (heq ▸ trivial), fun err heq => hearly (heq ▸ trivial)⟩
    · rw [hrun] at hend
      cases hend
  · have hrun : (loadImage image parent newRights base stackPages).run s = .panic cause :=
      Prog.bind_panic hpanic
    refine ⟨fun hpassed => ?_, fun e' s' hend => ?_, fun loaded s' hend => ?_⟩
    · rw [hpanic] at hpassed
      cases hpassed
    · rw [hrun] at hend
      cases hend
    · rw [hrun] at hend
      cases hend
  · rcases hchecks.loadImage_run newRights hchecked hvalid htable harena with
      ⟨e, _, hrun⟩ | ⟨loaded, s₁, root, handle, frame, t, hrun, hloads⟩
    · refine ⟨fun _ => Or.inl ⟨e, hrun⟩, fun e' s' hend => ?_, fun loaded s' hend => ?_⟩
      · rw [hrun] at hend
        cases hend
        exact ⟨nofun, nofun⟩
      · rw [hrun] at hend
        cases hend
    · refine ⟨fun _ => Or.inr ⟨loaded, s₁, hrun⟩, fun e' s' hend => ?_, fun loaded' s' hend => ?_⟩
      · rw [hrun] at hend
        cases hend
      · rw [hrun] at hend
        cases hend
        exact hloads.freeCount

/-! ## An example -/

omit [Build] in
theorem eightFrames_reachable : let _ : Build := debugBuild
    eightFramesPmm.Reachable eightFrames firstReserved := by
  intro _
  have hnew : (Pmm.new eightFrames firstReserved : Prog Unit PmmError (Pmm 1 1)).run () =
      .ok eightFramesPmm () := by
    with_unfolding_all rfl
  exact .of_new hnew

/-- An image of three bytes above the frames. -/
def threeBytes : ImageSlice := ⟨0xFFFF_FFFF_0001_0000, 3⟩

def loaderSpaces : Spaces QemuVirtAddressSpace (Supply (Pmm 1 1)) :=
  { bootSpaces with machine := ⟨eightFramesPmm, fun a => BitVec.ofNat 8 a⟩ }

omit [Build] in
theorem loaderSpaces_wellFormed : loaderSpaces.table.WellFormed ∧ loaderSpaces.arena.WellFormed :=
  bootSpaces_wellFormed

omit [Build] in
theorem loaderSpaces_checks : CreateChecks loaderSpaces ⟨0, 0⟩ .derive
    (rootEntry ⟨.derive, .addressSpace ⟨⟨0, 0⟩⟩⟩) :=
  ⟨bootSpaces_checks.resolves, bootSpaces_checks.kind, bootSpaces_checks.derive,
    bootSpaces_checks.contains, bootSpaces_checks.depth, bootSpaces_checks.arena,
    bootSpaces_checks.table⟩

omit [Build] in
/-- The three bytes can be loaded, with a stack of one page. -/
theorem threeBytes_loads : let _ : Build := debugBuild
    ∃ loaded s' root handle frame t,
      (loadImage threeBytes ⟨0, 0⟩ .derive ⟨0x400000⟩ 1).run loaderSpaces = .ok loaded s' ∧
      Loads eightFrames_models.1 (by decide) threeBytes ⟨0x400000⟩ 1 loaderSpaces ⟨0, 0⟩ .derive
        loaded s' root handle frame t := by
  intro _
  obtain ⟨haccepts, hmodels⟩ := eightFrames_models
  have hwindow : eightFrames.stop.val ≤ directMapEnd := by decide
  have hmodels' : Models eightFrames firstReserved loaderSpaces.machine.frames _ := hmodels
  have hchecked : (checkLoad threeBytes ⟨0, 0⟩ ⟨0x400000⟩ 1).run loaderSpaces =
      .ok () loaderSpaces := by
    with_unfolding_all rfl
  have hcreation : (checkCreation ⟨0, 0⟩ .derive).run loaderSpaces = .ok () loaderSpaces := by
    rcases checkCreation_cases loaderSpaces ⟨0, 0⟩ .derive with ⟨e, _, hrun⟩ | ⟨hnone, _⟩
    · exact hrun
    · exact absurd loaderSpaces_checks (hnone _)
  have hchecks : LoadChecks eightFrames firstReserved loaderSpaces threeBytes ⟨0x400000⟩ 1 := by
    rcases checkLoad_cases hmodels' haccepts threeBytes ⟨0, 0⟩ ⟨0x400000⟩ 1 with
      ⟨e, _, hfailed⟩ | ⟨cause, hpanic⟩ | ⟨_, hchecks⟩
    · rw [hchecked] at hfailed
      cases hfailed
    · rw [hchecked] at hpanic
      cases hpanic
    · exact hchecks
  rcases hchecks.loadImage_run .derive hchecked ⟨_, hmodels'⟩
    loaderSpaces_wellFormed.1 loaderSpaces_wellFormed.2 with ⟨e, hfailed, _⟩ | hloads
  · exfalso
    rcases loaderSpaces_checks.capCreate_cases hcreation loaderSpaces_wellFormed.1
      loaderSpaces_wellFormed.2 (hmodels'.supplies haccepts hwindow) with ⟨_, hdry⟩ |
        ⟨_, _, _, _, hrun, _⟩
    · rcases hmodels'.allocFrame_run (ε := MmuError) haccepts hwindow with ⟨hempty, _⟩ |
        ⟨f, s', _, _, hsome, _⟩
      · exact absurd hempty (by decide)
      · have hcon := hsome.symm.trans hdry
        cases hcon
    · rw [hrun] at hfailed
      cases hfailed
  · exact hloads

omit [Build] in
theorem load_image_establishes_threeBytes : let _ : Build := debugBuild
    ∃ loaded s', (loadImage threeBytes ⟨0, 0⟩ .derive ⟨0x400000⟩ 1).run loaderSpaces =
      .ok loaded s' ∧ ∃ handle as_, Names s'.table loaded.asCap handle ∧
        s'.arena.get handle.slot = some ⟨as_⟩ ∧
        ProcessImage threeBytes ⟨0x400000⟩ 1 loaderSpaces.machine.memory as_ loaded s'.machine := by
  obtain ⟨loaded, s', _, _, _, _, hrun, _⟩ := threeBytes_loads
  have hwindow : eightFrames.stop.val ≤ directMapEnd := by decide
  have himage := @load_image_establishes debugBuild 1 1 _ _ _ _ _ _ _ _ _ _ hwindow
    eightFrames_reachable loaderSpaces_wellFormed.1 loaderSpaces_wellFormed.2 hrun
  exact ⟨loaded, s', hrun, himage⟩

omit [Build] in
theorem frame_budget_exact_threeBytes : let _ : Build := debugBuild
    ∃ loaded s', (loadImage threeBytes ⟨0, 0⟩ .derive ⟨0x400000⟩ 1).run loaderSpaces =
      .ok loaded s' ∧ s'.machine.frames.freeCount + 6 = 7 := by
  have hbudget := @frame_budget_exact debugBuild _ _ _ _ loaderSpaces (by decide)
    eightFrames_reachable loaderSpaces_wellFormed.1 loaderSpaces_wellFormed.2
  obtain ⟨loaded, s', _, _, _, _, hrun, _⟩ := threeBytes_loads
  have hcount := (hbudget.2 threeBytes ⟨0, 0⟩ .derive ⟨0x400000⟩ 1).2.2 loaded s' hrun
  exact ⟨loaded, s', hrun, hcount⟩

end Tyrne
