import Tyrne.Cap.Ops
import Tyrne.Obj.TaskLoader

/-!
# What the loader has checked

The checks of `load_image` change nothing. Once they have passed the span lies below 2^48, the
manager has a frame for every page and every table of it, and no frame that the manager can
hand out overlaps the image.
-/

namespace Tyrne

/-- The errors of a load that has begun to take pages. -/
def LoadError.IsLate : LoadError → Prop
  | .outOfFrames => True
  | .mapFailed _ => True
  | _ => False

/-- What the checks of `load_image` establish. -/
structure LoadChecks {AS : Type} {N R : ℕ} (extent : PhysFrameRange)
    (reserved : List PhysFrameRange) (s : Spaces AS (Supply (Pmm N R))) (image : ImageSlice)
    (base : VirtAddr) (stackPages : ℕ) : Prop where
  nonempty : 0 < image.len
  stack : 0 < stackPages
  aligned : base.val % pageSize = 0
  span : base.val + (image.pages + stackPages) * pageSize ≤ 2 ^ 48
  budget : framesNeeded base image.pages stackPages ≤ s.machine.frames.freeCount
  window : physOf image.ptr < directMapEnd
  apart : ∀ a ∈ usableFrames extent reserved,
    ¬ FrameOverlaps a (physOf image.ptr) (physOf image.ptr + image.len)

section Pages

variable {image : ImageSlice} {base : VirtAddr} {i a b n : ℕ}

theorem ImageSlice.pages_eq (image : ImageSlice) :
    image.pages = (image.len + pageSize - 1) / pageSize := divCeil_eq image.len

/-- The pages of the image are those that hold a byte of it. -/
theorem ImageSlice.lt_pages : i < image.pages ↔ i * pageSize < image.len := by
  rw [image.pages_eq]
  unfold pageSize
  omega

/-- A span that saturates does not end below 2^48. -/
theorem span_of_saturating (hend : ¬ spanEnd base a b > userspaceVaLimit) :
    base.val + (a + b) * pageSize ≤ 2 ^ 48 := by
  unfold spanEnd saturatingAdd saturatingMul userspaceVaLimit pageSize at hend
  unfold pageSize
  have hlimit : (1 <<< 48 : ℕ) = 2 ^ 48 := rfl
  rw [hlimit] at hend
  omega

/-- The end of the image does not saturate. -/
theorem saturatingAdd_image {base : ℕ} (hspan : base + (image.pages + b) * pageSize ≤ 2 ^ 48)
    (hwindow : physOf image.ptr < directMapEnd) :
    saturatingAdd (physOf image.ptr) image.len = physOf image.ptr + image.len := by
  apply saturatingAdd_eq
  rw [image.pages_eq] at hspan
  unfold directMapEnd at hwindow
  unfold pageSize at hspan
  omega

/-- The address of a page of a span below 2^48. -/
theorem pageVa_val (hspan : base.val + n * pageSize ≤ 2 ^ 48) (hi : i ≤ n) :
    (pageVa base i).val = base.val + i * pageSize := by
  unfold pageSize at hspan
  unfold pageVa pageSize
  dsimp only
  rw [saturatingMul_eq (by omega), saturatingAdd_eq (by omega)]

/-- A page of the span. -/
theorem pageVa_page (haligned : base.val % pageSize = 0)
    (hspan : base.val + n * pageSize ≤ 2 ^ 48) (hi : i < n) :
    (pageVa base i).val % pageSize = 0 ∧ (pageVa base i).val < 2 ^ 48 ∧
      (pageVa base i).val / pageSize = base.val / pageSize + i := by
  have hval := pageVa_val hspan hi.le
  rw [hval]
  unfold pageSize at *
  omega

/-- Pages counted from a page of the span are pages of the span. -/
theorem pageVa_pageVa (hspan : base.val + n * pageSize ≤ 2 ^ 48)
    (hle : a + b ≤ n) : pageVa (pageVa base a) b = pageVa base (a + b) := by
  have hstart := pageVa_val hspan (show a ≤ n by omega)
  have hsum := pageVa_val hspan hle
  have hrest : (pageVa base a).val + b * pageSize ≤ 2 ^ 48 := by
    unfold pageSize at *
    omega
  have hval := pageVa_val hrest (Nat.le_refl b)
  have heq : (pageVa (pageVa base a) b).val = (pageVa base (a + b)).val := by
    rw [hval, hstart, hsum, Nat.add_mul, Nat.add_assoc]
  cases hleft : pageVa (pageVa base a) b
  cases hright : pageVa base (a + b)
  rw [hleft, hright] at heq
  exact congrArg VirtAddr.mk heq

end Pages

variable {AS : Type} {N R : ℕ} {extent : PhysFrameRange} {reserved : List PhysFrameRange}
  {s : Spaces AS (Supply (Pmm N R))} {image : ImageSlice} {base : VirtAddr} {stackPages : ℕ}
  {A : SetAllocator ℕ}

open LoaderM

/-- The checks change nothing: they fail, they panic on an image outside the direct map, or they
pass. -/
theorem checkLoad_cases (hmodels : Models extent reserved s.machine.frames A)
    (haccepts : Accepts N R extent reserved) (image : ImageSlice) (parent : CapHandle)
    (base : VirtAddr) (stackPages : ℕ) :
    (∃ e, ¬ e.IsLate ∧ (checkLoad image parent base stackPages).run s = .err e s) ∨
    (∃ cause, (checkLoad image parent base stackPages).run s = .panic cause) ∨
    (checkLoad image parent base stackPages).run s = .ok () s ∧
      LoadChecks extent reserved s image base stackPages := by
  unfold checkLoad
  generalize htop : spanEnd base image.pages stackPages = top
  generalize hlimit : userspaceVaLimit = limit
  generalize hneeded : framesNeeded base image.pages stackPages = needed
  by_cases himage : image.len ≠ 0
  swap
  · rw [Prog.require_neg himage]
    exact Or.inl ⟨.invalidImage, id, rfl⟩
  rw [Prog.require_pos himage, Prog.pure_bind_run]
  by_cases hstack : stackPages ≠ 0
  swap
  · rw [Prog.require_neg hstack]
    exact Or.inl ⟨.invalidStackSize, id, rfl⟩
  rw [Prog.require_pos hstack, Prog.pure_bind_run]
  by_cases haligned : base.val % pageSize = 0
  swap
  · rw [Prog.require_neg haligned]
    exact Or.inl ⟨.misalignedImageBaseVa base, id, rfl⟩
  rw [Prog.require_pos haligned, Prog.pure_bind_run]
  rcases CapabilityTable.lookup_cases s.table parent with ⟨c, _, hlookup⟩ | ⟨_, hlookup⟩
  swap
  · exact Or.inl ⟨.invalidParentCap .invalidHandle, id, Prog.bind_err (Prog.zoom_err hlookup)⟩
  have hparent : (onTable (CapabilityTable.lookup parent) : LoaderM AS N R _).run s =
      .ok c.capability s := Prog.zoom_ok hlookup
  rw [Prog.bind_ok hparent]
  by_cases hkind : c.capability.object.kind = .addressSpace
  swap
  · rw [Prog.require_neg hkind]
    exact Or.inl ⟨.invalidParentCap .wrongKind, id, rfl⟩
  rw [Prog.require_pos hkind, Prog.pure_bind_run]
  by_cases hend : top > limit
  · rw [Prog.require_neg (not_not.mpr hend)]
    exact Or.inl ⟨.invalidImageBaseVa base _, id, rfl⟩
  rw [Prog.require_pos hend, Prog.pure_bind_run, Prog.get_bind_run]
  by_cases hbudget : needed > s.machine.frames.stats.freeFrames
  · rw [Prog.require_neg (not_not.mpr hbudget)]
    exact Or.inl ⟨.frameBudgetExceeded _ _, id, rfl⟩
  rw [Prog.require_pos hbudget, Prog.pure_bind_run]
  by_cases hwindow : physOf image.ptr < directMapEnd
  swap
  · rw [kernelVaToPhys_neg hwindow]
    exact Or.inr (Or.inl ⟨_, Prog.panic_bind_run _⟩)
  rw [kernelVaToPhys_pos hwindow, Prog.pure_bind_run]
  have hspan : base.val + (image.pages + stackPages) * pageSize ≤ 2 ^ 48 :=
    span_of_saturating (by rw [htop, hlimit]; exact hend)
  have hsum := saturatingAdd_image hspan hwindow
  rw [hsum]
  obtain ⟨b, hwalk, hanswer⟩ := couldYieldPaOverlapping_run (ε := LoadError) hmodels haccepts
    (physOf image.ptr) (physOf image.ptr + image.len) s
  rw [Prog.bind_ok hwalk]
  cases b with
  | true =>
    rw [Prog.require_neg (by decide)]
    exact Or.inl ⟨.imageOverlapsAllocatableMemory, id, rfl⟩
  | false =>
    rw [Prog.require_pos rfl]
    refine Or.inr (Or.inr ⟨rfl, ?_⟩)
    refine ⟨Nat.pos_of_ne_zero himage, Nat.pos_of_ne_zero hstack, haligned, hspan,
      hneeded ▸ Nat.not_lt.mp hbudget, hwindow, fun a ha hoverlaps => ?_⟩
    exact absurd (hanswer.mpr ⟨a, ha, hoverlaps⟩) (by decide)

end Tyrne
