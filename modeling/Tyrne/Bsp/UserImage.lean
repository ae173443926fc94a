import Tyrne.Bsp.ProcessImage
import Tyrne.Sched.Calls
import Tyrne.Syscall.Transfers

/-!
# User access to a loaded image

The loader, the scheduler and the user copies agree on one span. A task sees the image from its
entry on and zeros after it, up to the top of its stack; it may write the stack, and what it has
written there is all that it sees changed.
-/

namespace Tyrne

open Radix Tree Spaces

/-! ## What a store shows -/

section Stored

variable {AS : Type} [Mmu AS] {taskAs : AS} {m : Memory} {ptr len lo n va pa : ℕ}
  {buffer : List (BitVec 8)}

/-- On distinct frames a store writes the bytes of its range in the view of the user. -/
theorem userByte_stored (hkeeps : KeepsTranslation taskAs m)
    (hgrants : GrantsRange taskAs m true ptr buffer.length)
    (hdistinct : DistinctFrames taskAs m lo n)
    (hrange : lo ≤ ptr ∧ ptr + buffer.length ≤ lo + n) (hva : lo ≤ va ∧ va < lo + n)
    (hpa : userAddr taskAs m va = some pa) :
    userByte taskAs (m.storeBytes (userAddr taskAs m) ptr buffer) va =
      Memory.writeBytes (userByte taskAs m) ptr buffer va := by
  obtain ⟨_, hsame⟩ := hkeeps.stored hgrants le_rfl
  have hthere := hpa
  rw [← userAddr_congr hsame] at hthere
  have hplace : ∀ i < buffer.length, userAddr taskAs m (ptr + i) = some pa → ptr + i = va := by
    intro i hi heq
    have hi' : lo + (ptr + i - lo) = ptr + i := by omega
    have hva' : lo + (va - lo) = va := by omega
    rw [← hi'] at heq
    have hpa' := hpa
    rw [← hva'] at hpa'
    have hij : ptr + i - lo = va - lo := hdistinct.injective (by omega) (by omega) heq hpa'
    omega
  rw [userByte_eq hthere]
  unfold Memory.writeBytes
  by_cases hin : ptr ≤ va ∧ va - ptr < buffer.length
  · have hself : ptr + (va - ptr) = va := by omega
    rw [if_pos hin.1, List.getElem?_eq_getElem hin.2, Option.getD_some]
    apply Memory.storeBytes_get hin.2
    · rw [hself]
      exact hpa
    · intro i hi hlater heq
      have hsame := hplace i hi heq
      omega
  · have hother : m.storeBytes (userAddr taskAs m) ptr buffer pa = m pa := by
      apply Memory.storeBytes_other
      intro j hj heq
      have hsame := hplace j hj heq
      omega
    rw [hother, userByte_eq hpa]
    split
    · rw [List.getElem?_eq_none (by omega)]
      rfl
    · rfl

/-- What a range reads as. -/
theorem userBytes_view {v : Memory} (hview : ∀ j < len, userByte taskAs m (ptr + j) = v (ptr + j)) :
    userBytes taskAs m ptr len = v.readBytes ptr len := by
  unfold userBytes Memory.readBytes
  apply List.map_congr_left
  intro j hj
  exact hview j (List.mem_range.mp hj)

end Stored

/-! ## The view of the task -/

/-- What the task is to see at an address of its window: the image, and zeros after it. -/
def ImageSlice.view (image : ImageSlice) (base : VirtAddr) (m : Memory) : Memory :=
  fun va => image.byteAt m (va - base.val)

/-- The frame is a table of the address space, or a page of it. -/
def TaskFrame [Build] (as_ : QemuVirtAddressSpace) (m : Memory) (a : ℕ) : Prop :=
  a ∈ tableFrames m as_.root.asUsize ∨
    ∃ page f flags, userPage as_ m page = some (f, flags) ∧ f.asUsize = a

/-- Of the memory of the task nothing has been written since `m₁`. -/
def Unwritten [Build] (as_ : QemuVirtAddressSpace) (m₁ m : Memory) : Prop :=
  ∀ a, TaskFrame as_ m₁ a → ∀ b, InFrame a b → m b = m₁ b

/-- The first address that the task may reach, or write. -/
def ImageSlice.spanFrom (image : ImageSlice) (base : VirtAddr) (requireWrite : Bool) : ℕ :=
  if requireWrite then base.val + image.pages * pageSize else base.val

theorem ImageSlice.le_spanFrom {image : ImageSlice} {base : VirtAddr} {requireWrite : Bool} :
    base.val ≤ image.spanFrom base requireWrite := by
  unfold ImageSlice.spanFrom
  split
  · exact Nat.le_add_right _ _
  · exact le_rfl

theorem ImageSlice.pageMap_some {image : ImageSlice} {frame : ℕ → PhysFrame} {k i q : ℕ}
    {entry : PhysFrame × MappingFlags} (h : image.pageMap frame k i q = some entry) :
    ∃ j < i, q = k + j ∧ entry = (frame j, image.flagsAt j) := by
  unfold ImageSlice.pageMap at h
  obtain ⟨hin, hentry⟩ := Option.ite_none_right_eq_some.mp h
  exact ⟨q - k, by omega, by omega, (Option.some.inj hentry).symm⟩

/-- The page of an address below 2^48. -/
theorem pageOf_pageBase {va : ℕ} (hva : va < 2 ^ 48) : pageOf ⟨pageBase va⟩ = va / pageSize := by
  unfold pageOf pageBase pageSize
  dsimp only
  omega

section View

variable [Build] {N R : ℕ} {extent : PhysFrameRange} {reserved : List PhysFrameRange}
  {haccepts : Accepts N R extent reserved} {hwindow : extent.stop.val ≤ directMapEnd}
  {image : ImageSlice} {frame : ℕ → PhysFrame} {stackPages ptr len : ℕ} {base : VirtAddr}
  {s s' : Spaces QemuVirtAddressSpace (Supply (Pmm N R))} {parent : CapHandle}
  {newRights : CapRights} {loaded : LoadedImage} {root : PhysFrame} {handle : AddressSpaceHandle}
  {t : PageTree} {m : Memory}
  (h : Loads haccepts hwindow image base stackPages s parent newRights loaded s' root
    handle frame t)
  (hholds : Holds m t)

include h hholds

theorem Loads.translate_memory (va : VirtAddr) :
    (Mmu.translate (⟨root⟩ : QemuVirtAddressSpace) va).run m = .returned ((image.pageMap frame
      (base.val / pageSize) (image.pages + stackPages)).translation (pageOf va)) m := by
  have hrun : (QemuVirtMmu.translate ⟨root⟩ va).run m =
      .returned (PageTree.translation t (pageOf va)) m :=
    Tyrne.translate_run hholds h.root va
  rw [h.loading.refines.translation] at hrun
  exact hrun

/-- The pages of the task are the pages of the span. -/
theorem Loads.userPage_eq (page : ℕ) : userPage (⟨root⟩ : QemuVirtAddressSpace) m page =
    image.pageMap frame (base.val / pageSize) (image.pages + stackPages) (pageOf ⟨page⟩) := by
  unfold userPage
  rw [h.translate_memory hholds]
  unfold PageMap.translation
  cases hpage : image.pageMap frame (base.val / pageSize) (image.pages + stackPages)
    (pageOf ⟨page⟩) with
  | none => rfl
  | some entry =>
    obtain ⟨j, _, _, rfl⟩ := ImageSlice.pageMap_some hpage
    rw [Option.elim_some, ImageSlice.flagsAt_named]
    rfl

omit hholds in
/-- The frames of the pages lie in the direct map. -/
theorem Loads.page_window {j : ℕ} (hj : j < image.pages + stackPages) :
    (frame j).asUsize < directMapEnd := by
  have hframes := (mem_usableFrames.mp (h.loading.leaf j hj)).1
  have hcontains := ((PhysFrameRange.mem_frames haccepts.aligned).mp hframes).1
  have hlt : (frame j).asUsize < extent.stop.val := hcontains.2
  exact hlt.trans_le hwindow

theorem Loads.translates : Translates (⟨root⟩ : QemuVirtAddressSpace) m := by
  intro va
  rw [h.translate_memory hholds]
  unfold PageMap.translation
  cases hpage : image.pageMap frame (base.val / pageSize) (image.pages + stackPages)
    (pageOf va) with
  | none => exact Or.inr ⟨_, rfl⟩
  | some entry =>
    obtain ⟨j, hj, _, rfl⟩ := ImageSlice.pageMap_some hpage
    exact Or.inl ⟨_, _, rfl, h.page_window hj⟩

/-- The task writes to its pages only, which are no tables. -/
theorem Loads.holds_written {m' : Memory}
    (hkept : ∀ pa, ¬ Writable (⟨root⟩ : QemuVirtAddressSpace) m pa → m' pa = m pa) :
    Holds m' t := by
  have hoff : Memory.AgreesOff
      {a | ∃ j < image.pages + stackPages, (frame j).asUsize = a} m m' := by
    intro pa hout
    apply hkept
    intro hwritable
    obtain ⟨va, _, haddr⟩ := hwritable
    unfold userAddr at haddr
    rw [h.userPage_eq hholds] at haddr
    obtain ⟨entry, hpage, rfl⟩ := Option.map_eq_some_iff.mp haddr
    obtain ⟨j, hj, _, rfl⟩ := ImageSlice.pageMap_some hpage
    have hlt : va % pageSize < pageSize := Nat.mod_lt _ (by decide)
    exact hout _ ⟨j, hj, rfl⟩ ⟨Nat.le_add_right _ _, Nat.add_lt_add_left hlt _⟩
  apply hholds.agreesOff hoff
  · rintro b ⟨j, _, rfl⟩
    exact (frame j).aligned
  · rintro a ha ⟨j, hj, rfl⟩
    exact h.loading.apart j hj ha

theorem Loads.keepsTranslation : KeepsTranslation (⟨root⟩ : QemuVirtAddressSpace) m := by
  intro m' hkept
  have hholds' := h.holds_written hholds hkept
  refine ⟨h.translates hholds', fun page => ?_⟩
  rw [h.userPage_eq hholds', h.userPage_eq hholds]

theorem Loads.distinctFrames : DistinctFrames (⟨root⟩ : QemuVirtAddressSpace) m base.val
    ((image.pages + stackPages) * pageSize) := by
  intro i hi j hj f flags flags' hpage hpage'
  have hspan := h.checks.span
  rw [h.userPage_eq hholds, pageOf_pageBase (by omega)] at hpage
  rw [h.userPage_eq hholds, pageOf_pageBase (by omega)] at hpage'
  obtain ⟨a, ha, heq, hentry⟩ := ImageSlice.pageMap_some hpage
  obtain ⟨b, hb, heq', hentry'⟩ := ImageSlice.pageMap_some hpage'
  cases hentry
  have hframe := congrArg Prod.fst hentry'
  have hsame := h.loading.distinct a ha b hb (congrArg PhysFrame.asUsize hframe)
  unfold pageBase pageSize at *
  omega

/-! ### What the task may reach -/

theorem Loads.grants_iff {requireWrite : Bool} {va : ℕ} (hva : va < 2 ^ 48) :
    Grants (⟨root⟩ : QemuVirtAddressSpace) m requireWrite va ↔
      image.spanFrom base requireWrite ≤ va ∧
      va < base.val + (image.pages + stackPages) * pageSize := by
  have haligned := h.checks.aligned
  unfold Grants
  rw [h.userPage_eq hholds, pageOf_pageBase hva]
  constructor
  · rintro ⟨f, flags, hpage, _, hwrite⟩
    obtain ⟨j, hj, heq, hentry⟩ := ImageSlice.pageMap_some hpage
    cases hentry
    have hstack : requireWrite = true → image.pages ≤ j := by
      intro hreq
      by_contra hlt
      have hcon := hwrite hreq
      unfold ImageSlice.flagsAt at hcon
      rw [if_pos (not_le.mp hlt)] at hcon
      exact absurd hcon (by decide)
    unfold ImageSlice.spanFrom
    cases requireWrite with
    | false =>
      rw [if_neg Bool.false_ne_true]
      unfold pageSize at *
      omega
    | true =>
      have hstack := hstack rfl
      rw [if_pos rfl]
      unfold pageSize at *
      omega
  · intro hin
    have hbase : base.val ≤ va := ImageSlice.le_spanFrom.trans hin.1
    obtain ⟨j, hpage⟩ : ∃ j, va / pageSize = base.val / pageSize + j :=
      Nat.exists_eq_add_of_le (Nat.div_le_div_right hbase)
    have hj : j < image.pages + stackPages := by
      unfold pageSize at *
      omega
    rw [hpage, ImageSlice.pageMap_page hj]
    refine ⟨_, _, rfl, ?_, fun hreq => ?_⟩
    · unfold ImageSlice.flagsAt
      split
      · decide
      · decide
    · have hstack : ¬ j < image.pages := by
        have hfrom := hin.1
        unfold ImageSlice.spanFrom at hfrom
        rw [if_pos hreq] at hfrom
        unfold pageSize at *
        omega
      unfold ImageSlice.flagsAt
      rw [if_neg hstack]
      decide

/-- The window and the pages agree on what the task may reach. -/
theorem Loads.copyable_iff {requireWrite : Bool} (hlen : 0 < len) :
    Copyable (⟨root⟩ : QemuVirtAddressSpace) m
      ⟨loaded.entryVa.val, loaded.stackTopVa.val - loaded.entryVa.val⟩ requireWrite ptr len ↔
      image.spanFrom base requireWrite ≤ ptr ∧ ptr + len ≤ loaded.stackTopVa.val := by
  have hspan := h.checks.span
  have htop := h.top
  have hbase : base.val ≤ image.spanFrom base requireWrite := ImageSlice.le_spanFrom
  unfold Copyable
  rw [h.entry]
  constructor
  · rintro ⟨hcontains, hgrants⟩
    have hend := (hcontains.resolve_left (by omega)).2.2.2
    dsimp only at hend
    have hfirst := (h.grants_iff hholds (by omega)).mp (hgrants 0 hlen)
    omega
  · rintro ⟨hfrom, hto⟩
    refine ⟨Or.inr ⟨by omega, ?_, ?_, ?_⟩, fun j hj => ?_⟩
    · dsimp only
      omega
    · exact hbase.trans hfrom
    · dsimp only
      omega
    · exact (h.grants_iff hholds (by omega)).mpr (by omega)

/-! ### What the task sees -/

variable (hcontent : ∀ j < image.pages + stackPages, ∀ off < pageSize,
  m ((frame j).asUsize + off) = s'.machine.memory ((frame j).asUsize + off))

/-- An address of the span is behind the page's frame. -/
theorem Loads.userAddr_span {off : ℕ} (hoff : off < (image.pages + stackPages) * pageSize) :
    userAddr (⟨root⟩ : QemuVirtAddressSpace) m (base.val + off) =
      some ((frame (off / pageSize)).asUsize + off % pageSize) := by
  have hspan := h.checks.span
  have haligned := h.checks.aligned
  obtain ⟨_, hmod, hin⟩ := h.pageOf_span hoff
  have hpage : (base.val + off) / pageSize = base.val / pageSize + off / pageSize := by
    unfold pageSize at *
    omega
  unfold userAddr
  rw [h.userPage_eq hholds, pageOf_pageBase (by omega), hpage, ImageSlice.pageMap_page hin, hmod]
  rfl

include hcontent in
theorem Loads.userByte_view {va : ℕ} (hva : base.val ≤ va ∧ va < loaded.stackTopVa.val) :
    userByte (⟨root⟩ : QemuVirtAddressSpace) m va = image.view base s.machine.memory va := by
  have htop := h.top
  obtain ⟨off, rfl⟩ := Nat.exists_eq_add_of_le hva.1
  have hoff : off < (image.pages + stackPages) * pageSize := by omega
  have hlt : off % pageSize < pageSize := Nat.mod_lt _ (by decide)
  have hin := (h.pageOf_span hoff).2.2
  rw [Tyrne.userByte_eq (h.userAddr_span hholds hoff), hcontent _ hin _ hlt,
    h.loading.content _ hin _ hlt, Nat.div_add_mod']
  unfold ImageSlice.view
  rw [Nat.add_sub_cancel_left]

omit hholds in
/-- As long as its memory is as the loader has left it, the task has its tables and its bytes. -/
theorem Loads.of_unwritten (hsame : Unwritten ⟨root⟩ s'.machine.memory m) :
    Holds m t ∧ ∀ j < image.pages + stackPages, ∀ off < pageSize,
      m ((frame j).asUsize + off) = s'.machine.memory ((frame j).asUsize + off) := by
  have hloaded : Holds s'.machine.memory t := h.loading.owns.holds
  have htables : ∀ a, t.IsTable a → TaskFrame ⟨root⟩ s'.machine.memory a := by
    intro a ha
    have heq : tableFrames s'.machine.memory root.asUsize = {a | t.IsTable a} := by
      rw [h.root]
      exact hloaded.tableFrames_eq
    refine Or.inl ?_
    rw [heq]
    exact ha
  constructor
  · apply hloaded.agreesOff (S := {a | a % pageSize = 0 ∧ ¬ TaskFrame ⟨root⟩ s'.machine.memory a})
    · intro x hout
      have hin : InFrame (pageBase x) x := by
        unfold InFrame pageBase pageSize
        omega
      have htask : TaskFrame ⟨root⟩ s'.machine.memory (pageBase x) := by
        by_contra hnot
        exact hout _ ⟨pageBase_mod x, hnot⟩ hin
      exact hsame _ htask x hin
    · exact fun b hb => hb.1
    · exact fun a ha hb => hb.2 (htables a ha)
  · intro j hj off hoff
    have hspan := h.checks.span
    have haligned := h.checks.aligned
    have hin : InFrame (frame j).asUsize ((frame j).asUsize + off) :=
      ⟨Nat.le_add_right _ _, Nat.add_lt_add_left hoff _⟩
    refine hsame _ (Or.inr ⟨base.val + j * pageSize, frame j, image.flagsAt j, ?_, rfl⟩) _ hin
    have hpage : pageOf ⟨base.val + j * pageSize⟩ = base.val / pageSize + j := by
      unfold pageOf pageSize at *
      dsimp only
      omega
    rw [h.userPage_eq hloaded, hpage, ImageSlice.pageMap_page hj]

end View

/-! ## The copies -/

/-- A range of the window `[entry, stack top)`, or of its part from `lo` on. -/
def LoadedImage.Within (loaded : LoadedImage) (lo ptr len : ℕ) : Prop :=
  lo ≤ ptr ∧ ptr + len ≤ loaded.stackTopVa.val

/-- What the copies do with the kernel buffer `buffer` and the user memory from `ptr` on: they
succeed just on the ranges of the span, and of its stack; the task sees the image, zeros after
it, and what was written. -/
structure SeesImage [Build] (image : ImageSlice) (base : VirtAddr) (m₀ : Memory)
    (loaded : LoadedImage) (as_ : QemuVirtAddressSpace) (window : UserAccessWindow) (m : Memory)
    (ptr : ℕ) (buffer : List (BitVec 8)) : Prop where
  read : loaded.Within loaded.entryVa.val ptr buffer.length →
    (copyFromUser as_ window ptr).run ⟨m, buffer⟩ =
      .ok () ⟨m, (image.view base m₀).readBytes ptr buffer.length⟩
  unread : ¬ loaded.Within loaded.entryVa.val ptr buffer.length →
    (copyFromUser as_ window ptr).run ⟨m, buffer⟩ = .err .faultAddress ⟨m, buffer⟩
  written : loaded.Within (base.val + image.pages * pageSize) ptr buffer.length →
    ∃ m', (copyToUser as_ window ptr).run ⟨m, buffer⟩ = .ok () ⟨m', buffer⟩ ∧
      ∀ ptr' dst, 0 < dst.length →
        (loaded.Within loaded.entryVa.val ptr' dst.length →
          (copyFromUser as_ window ptr').run ⟨m', dst⟩ =
            .ok () ⟨m', ((image.view base m₀).writeBytes ptr buffer).readBytes ptr' dst.length⟩) ∧
        (¬ loaded.Within loaded.entryVa.val ptr' dst.length →
          (copyFromUser as_ window ptr').run ⟨m', dst⟩ = .err .faultAddress ⟨m', dst⟩)
  unwritten : ¬ loaded.Within (base.val + image.pages * pageSize) ptr buffer.length →
    (copyToUser as_ window ptr).run ⟨m, buffer⟩ = .err .faultAddress ⟨m, buffer⟩

section Copies

variable [Build] {N R : ℕ} {extent : PhysFrameRange} {reserved : List PhysFrameRange}
  {haccepts : Accepts N R extent reserved} {hwindow : extent.stop.val ≤ directMapEnd}
  {image : ImageSlice} {frame : ℕ → PhysFrame} {stackPages ptr len : ℕ} {base : VirtAddr}
  {s s' : Spaces QemuVirtAddressSpace (Supply (Pmm N R))} {parent : CapHandle}
  {newRights : CapRights} {loaded : LoadedImage} {root : PhysFrame} {handle : AddressSpaceHandle}
  {t : PageTree} {m : Memory} {buffer : List (BitVec 8)}
  (h : Loads haccepts hwindow image base stackPages s parent newRights loaded s' root
    handle frame t)
  (hholds : Holds m t)

include h hholds

/-- The task sees `v`, and reads it from the ranges of the span. -/
theorem Loads.copyFromUser_cases {v : Memory} (hview : ∀ va, base.val ≤ va →
    va < loaded.stackTopVa.val → userByte (⟨root⟩ : QemuVirtAddressSpace) m va = v va)
    (hlen : 0 < buffer.length) :
    (loaded.Within loaded.entryVa.val ptr buffer.length →
      (copyFromUser (⟨root⟩ : QemuVirtAddressSpace)
        ⟨loaded.entryVa.val, loaded.stackTopVa.val - loaded.entryVa.val⟩ ptr).run ⟨m, buffer⟩ =
          .ok () ⟨m, v.readBytes ptr buffer.length⟩) ∧
    (¬ loaded.Within loaded.entryVa.val ptr buffer.length →
      (copyFromUser (⟨root⟩ : QemuVirtAddressSpace)
        ⟨loaded.entryVa.val, loaded.stackTopVa.val - loaded.entryVa.val⟩ ptr).run ⟨m, buffer⟩ =
          .err .faultAddress ⟨m, buffer⟩) := by
  have htranslates := h.translates hholds
  have hspan : image.spanFrom base false = loaded.entryVa.val := by
    rw [h.entry]
    exact if_neg Bool.false_ne_true
  have hcopyable : Copyable _ _ _ false ptr _ ↔ _ := h.copyable_iff hholds hlen
  rw [hspan] at hcopyable
  refine ⟨fun hin => ?_, fun hout => ?_⟩
  · obtain ⟨hcontains, hgrants⟩ := hcopyable.mpr hin
    rw [copyFromUser_ok htranslates hcontains hgrants]
    have hfrom : base.val ≤ ptr := by
      rw [← h.entry]
      exact hin.1
    have hto := hin.2
    rw [userBytes_view fun j hj => hview _ (by omega) (by omega)]
  · exact copyFromUser_err htranslates fun hcon => hout (hcopyable.mp hcon)

/-- Where the task sees the image, the copies agree with the loader. -/
theorem Loads.seesImage (hview : ∀ va, base.val ≤ va → va < loaded.stackTopVa.val →
    userByte (⟨root⟩ : QemuVirtAddressSpace) m va = image.view base s.machine.memory va)
    (hlen : 0 < buffer.length) : SeesImage image base s.machine.memory loaded ⟨root⟩
      ⟨loaded.entryVa.val, loaded.stackTopVa.val - loaded.entryVa.val⟩ m ptr buffer := by
  have htranslates := h.translates hholds
  have hkeeps := h.keepsTranslation hholds
  have hcopyable : Copyable _ _ _ true ptr _ ↔ _ := h.copyable_iff hholds hlen
  obtain ⟨hreads, hfaults⟩ : (loaded.Within loaded.entryVa.val ptr _ → _) ∧ _ :=
    h.copyFromUser_cases hholds hview hlen
  have hstack : image.spanFrom base true = base.val + image.pages * pageSize := if_pos rfl
  have htop := h.top
  rw [hstack] at hcopyable
  refine ⟨hreads, hfaults, fun hin => ?_, fun hout => ?_⟩
  · have hok := hcopyable.mpr hin
    have hholds' : Holds
        (m.storeBytes (userAddr (⟨root⟩ : QemuVirtAddressSpace) m) ptr buffer) t := by
      apply h.holds_written hholds
      intro pa hnot
      apply Memory.storeBytes_other
      intro j hj hplace
      exact hnot ⟨ptr + j, hok.2 j hj, hplace⟩
    refine ⟨_, copyToUser_ok htranslates hkeeps hok, fun ptr' dst hdst => ?_⟩
    refine h.copyFromUser_cases hholds' (fun va hfrom hto => ?_) hdst
    obtain ⟨off, rfl⟩ := Nat.exists_eq_add_of_le hfrom
    have hoff : off < (image.pages + stackPages) * pageSize := by omega
    have hstart : base.val + image.pages * pageSize ≤ ptr := hin.1
    have hend : ptr + buffer.length ≤ loaded.stackTopVa.val := hin.2
    rw [userByte_stored hkeeps hok.2 (h.distinctFrames hholds) (by omega) (by omega)
      (h.userAddr_span hholds hoff)]
    unfold Memory.writeBytes
    rw [hview _ hfrom hto]
  · exact copyToUser_err htranslates fun hcon => hout (hcopyable.mp hcon)

end Copies

/-! ## Registration -/

/-- A registration records the window of the task and its address space. -/
theorem addUserTask_binds [Build] {h : TaskHandle} {space : AddressSpaceHandle}
    {userEntry userSp kernelStackTop : ℕ} {capTable : TablePtr} :
    Prog.Triple (fun _ => True)
      (Scheduler.addUserTask h space userEntry userSp kernelStackTop capTable)
      (fun _ sched => sched.taskAddressSpaceHandles h.slot.index = some space ∧
        sched.taskUserWindows h.slot.index = some ⟨userEntry, userSp - userEntry⟩)
      fun _ _ => True := by
  have hany : ∀ m : Scheduler.SchedM Unit,
      Prog.Triple (fun _ => True) m (fun _ _ => True) fun _ _ => True :=
    fun m s _ => ⟨fun _ _ _ => trivial, fun _ _ _ => trivial⟩
  unfold Scheduler.addUserTask
  refine (hany _).bind fun _ => (hany _).bind fun _ => (hany _).bind fun _ => ?_
  refine (hany _).bind fun _ => (hany _).bind fun _ => (hany _).bind fun _ => ?_
  refine (hany _).bind fun _ => ?_
  refine Prog.Triple.bind (Q := fun _ sched =>
    sched.taskAddressSpaceHandles h.slot.index = some space) ?_ fun _ => ?_
  · exact writeCell_triple fun _ _ => Function.update_self ..
  refine Prog.Triple.bind (Q := fun _ sched =>
    sched.taskAddressSpaceHandles h.slot.index = some space) ?_ fun _ => ?_
  · exact writeCell_triple fun _ hspace => hspace
  · exact writeCell_triple fun _ hspace => ⟨hspace, Function.update_self ..⟩

/-- After a load, and with the task registered on the window that the load has returned, the copies
agree with the loader on every range, as long as nothing has written to the task's memory. -/
theorem user_access_agrees [Build] {N R : ℕ} {extent : PhysFrameRange}
    {reserved : List PhysFrameRange} {image : ImageSlice} {base : VirtAddr} {stackPages : ℕ}
    {s s' : Spaces QemuVirtAddressSpace (Supply (Pmm N R))} {parent : CapHandle}
    {newRights : CapRights} {loaded : LoadedImage} {sched sched' : Scheduler} {h : TaskHandle}
    {handle : AddressSpaceHandle} {kernelStackTop : ℕ} {capTable : TablePtr}
    (hwindow : extent.stop.val ≤ directMapEnd)
    (hreach : s.machine.frames.Reachable extent reserved) (htable : s.table.WellFormed)
    (harena : s.arena.WellFormed)
    (hload : (loadImage image parent newRights base stackPages).run s = .ok loaded s')
    (hnames : Names s'.table loaded.asCap handle)
    (hadd : (Scheduler.addUserTask h handle loaded.entryVa.val loaded.stackTopVa.val kernelStackTop
      capTable).run sched = .ok () sched') :
    ∃ as_ window, s'.arena.get handle.slot = some ⟨as_⟩ ∧
      sched'.taskAddressSpaceHandles h.slot.index = some handle ∧
      sched'.taskUserWindows h.slot.index = some window ∧
      ∀ m, Unwritten as_ s'.machine.memory m → ∀ ptr buffer, 0 < buffer.length →
        SeesImage image base s.machine.memory loaded as_ window m ptr buffer := by
  obtain ⟨_, root, handle', frame, t, hloads⟩ := loads_of_ok hwindow hreach htable harena hload
  obtain ⟨hnames', hlive⟩ := hloads.names
  have hsame : handle = handle' := hnames.unique hnames'
  subst hsame
  obtain ⟨hspace, hbound⟩ := (addUserTask_binds sched trivial).1 _ _ hadd
  refine ⟨⟨root⟩, _, hlive, hspace, hbound, fun m hunwritten ptr buffer hlen => ?_⟩
  obtain ⟨hholds, hcontent⟩ := hloads.of_unwritten hunwritten
  refine hloads.seesImage hholds (fun va hfrom hto => ?_) hlen
  exact hloads.userByte_view hholds hcontent ⟨hfrom, hto⟩

/-- The task of the three bytes is registered. -/
theorem threeBytes_added {loaded : LoadedImage} (handle : AddressSpaceHandle)
    (htop : loaded.stackTopVa.val = 0x402000) : let _ : Build := debugBuild
    ∃ sched,
      (Scheduler.addUserTask ⟨⟨0, 0⟩⟩ handle loaded.entryVa.val loaded.stackTopVa.val 65536 1).run
      Scheduler.new = .ok () sched := by
  intro _
  have hnew : Scheduler.new.ready.Represents [] := SchedQueue.new_represents (by decide)
  have hsp : loaded.stackTopVa.val % 16 = 0 := by
    rw [htop]
  have hstack : 65536 ≠ 0 ∧ 65536 % 16 = 0 := by decide
  have htask : (⟨⟨0, 0⟩⟩ : TaskHandle).slot.index.toNat < taskArenaCapacity := by decide
  have htable : (1 : TablePtr) ≠ 0 := by decide
  obtain ⟨_, sched, _, hadd, _⟩ : ∃ r sched, r.Represents [⟨⟨0, 0⟩⟩] ∧
      (Scheduler.addUserTask ⟨⟨0, 0⟩⟩ handle loaded.entryVa.val loaded.stackTopVa.val 65536 1).run
        Scheduler.new = .ok () sched ∧ Scheduler.Registers _ _ _ r _ _ sched :=
    Scheduler.addUserTask_run hnew (by decide) htask hstack hsp htable
  exact ⟨sched, hadd⟩

theorem user_access_agrees_threeBytes : let _ : Build := debugBuild
    ∃ loaded s' handle sched as_ window,
      (loadImage threeBytes ⟨0, 0⟩ .derive ⟨0x400000⟩ 1).run loaderSpaces = .ok loaded s' ∧
      (Scheduler.addUserTask ⟨⟨0, 0⟩⟩ handle loaded.entryVa.val loaded.stackTopVa.val 65536 1).run
        Scheduler.new = .ok () sched ∧
      sched.taskUserWindows 0 = some window ∧
      SeesImage threeBytes ⟨0x400000⟩ loaderSpaces.machine.memory loaded as_ window
        s'.machine.memory 0x400000 [0, 0, 0, 0] := by
  obtain ⟨loaded, s', root, handle, frame, t, hrun, hloads⟩ := threeBytes_loads
  have hnames := @Loads.names debugBuild _ _ _ _ _ _ _ _ _ _ _ _ _ _ _ _ _ _ hloads
  have htop := @Loads.top debugBuild _ _ _ _ _ _ _ _ _ _ _ _ _ _ _ _ _ _ hloads
  obtain ⟨sched, hadd⟩ := threeBytes_added handle htop
  have hwindow : eightFrames.stop.val ≤ directMapEnd := by decide
  obtain ⟨as_, window, _, _, hbound, hagrees⟩ :=
    @user_access_agrees debugBuild _ _ _ _ _ _ _ _ _ _ _
    _ _ _ _ _ _ _ hwindow eightFrames_reachable loaderSpaces_wellFormed.1 loaderSpaces_wellFormed.2
    hrun hnames.1 hadd
  exact ⟨loaded, s', handle, sched, as_, window, hrun, hadd, hbound,
    hagrees _ (fun _ _ _ _ => rfl) _ _ (by decide)⟩

end Tyrne
