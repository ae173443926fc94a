import Tyrne.Hal.Hardware
import Tyrne.Mm.Runs
import Mathlib.Data.Set.Card

/-!
# The memory manager as a source of frames

The frames that the manager offers are those whose bit is clear. It keeps the contract of
a source of frames in every state that models an allocator.
-/

namespace Tyrne

open PhysFrameRange

variable {N R : ℕ} {extent : PhysFrameRange} {reserved : List PhysFrameRange}

/-- The frames whose bit is clear. -/
def Pmm.freeFrames (pmm : Pmm N R) : Set ℕ :=
  {a | ∃ i < pmm.extent.frameCount, pmm.extent.frameAddr i = a ∧ Bitmap.test pmm.bitmap i = false}

section Free

variable {pmm : Pmm N R} {A : SetAllocator ℕ} {a : ℕ}

/-- They are the frames that the allocator has available. -/
theorem Models.mem_freeFrames (hmodels : Models extent reserved pmm A)
    (haligned : extent.IsAligned) : a ∈ pmm.freeFrames ↔ a ∈ A.available := by
  constructor
  · intro hmem
    obtain ⟨i, hi, rfl, hbit⟩ := hmem
    rw [hmodels.extent_eq] at hi ⊢
    by_contra hnot
    rw [(hmodels.bits i hi).mpr hnot] at hbit
    cases hbit
  · intro ha
    obtain ⟨i, hi, haddr, hbit⟩ := hmodels.index_of_available haligned ha
    refine ⟨i, ?_, ?_, hbit⟩
    · rw [hmodels.extent_eq]
      exact hi
    · rw [hmodels.extent_eq, haddr]

theorem Models.freeFrames_window (hmodels : Models extent reserved pmm A)
    (haligned : extent.IsAligned) (hwindow : extent.stop.val ≤ directMapEnd)
    (ha : a ∈ pmm.freeFrames) : a % pageSize = 0 ∧ a < directMapEnd := by
  obtain ⟨i, hi, haddr, _⟩ :=
    hmodels.index_of_available haligned ((hmodels.mem_freeFrames haligned).mp ha)
  obtain ⟨hend, hpage⟩ := frameAddr_bound haligned hi
  have hpos : 0 < pageSize := by decide
  rw [← haddr]
  exact ⟨hpage, by omega⟩

/-- They are as many as the free count says. -/
theorem Models.freeFrames_ncard (hmodels : Models extent reserved pmm A)
    (haligned : extent.IsAligned) :
    pmm.freeFrames.Finite ∧ pmm.freeFrames.ncard = pmm.freeCount := by
  have hset : pmm.freeFrames = (A.available : Set ℕ) := by
    ext a
    exact hmodels.mem_freeFrames haligned
  rw [hset, Set.ncard_coe_finset, hmodels.freeCount]
  exact ⟨A.available.finite_toSet, rfl⟩

theorem Models.outstanding_aligned (hmodels : Models extent reserved pmm A)
    (haligned : extent.IsAligned) (ha : a ∈ A.outstanding) : a % pageSize = 0 := by
  have husable := A.outstanding_subset ha
  rw [hmodels.usable] at husable
  exact ((mem_frames haligned).mp (mem_usableFrames.mp husable).1).2

/-- Zeroing a frame that was free changes nothing outside the free frames. -/
theorem zeroFrame_agreesOff {S : Set ℕ} {m : Memory} (ha : a ∈ S) :
    Memory.AgreesOff S m (m.zeroFrame a) :=
  fun _ hb => if_neg (hb a ha)

end Free

/-- The manager of an extent inside the direct map. -/
def pmmSource [Build] (haccepts : Accepts N R extent reserved)
    (hwindow : extent.stop.val ≤ directMapEnd) : FrameSource (Supply (Pmm N R)) where
  alloc := Pmm.allocFrame
  Valid s := ∃ A, Models extent reserved s.frames A
  offers s := s.frames.freeFrames
  in_window hvalid ha := by
    obtain ⟨A, hmodels⟩ := hvalid
    exact hmodels.freeFrames_window haccepts.aligned hwindow ha
  alloc_cases {s} hvalid := by
    obtain ⟨A, hmodels⟩ := hvalid
    rcases hmodels.allocFrame_run haccepts hwindow with ⟨_, hrun⟩ |
      ⟨f, s', husable, hleast, hrun, hmodels', hmemory⟩
    · exact Or.inl ⟨s, hrun, ⟨A, hmodels⟩, rfl, Memory.AgreesOff.refl _ _⟩
    · have hf : f.asUsize ∈ s.frames.freeFrames :=
        (hmodels.mem_freeFrames haccepts.aligned).mpr hleast.1
      have hmem : Hardware.memory s' = (Hardware.memory s).zeroFrame f.asUsize := hmemory
      refine Or.inr ⟨f, s', hrun, ⟨_, hmodels'⟩, hf, ?_, fun a ha => ?_, ?_⟩
      · ext a
        rw [hmodels'.mem_freeFrames haccepts.aligned, SetAllocator.available_take,
          Finset.mem_erase, Set.mem_sdiff, hmodels.mem_freeFrames haccepts.aligned, and_comm]
        rfl
      · rw [hmem]
        exact if_pos ha
      · rw [hmem]
        exact zeroFrame_agreesOff hf
  store_keeps _ hvalid _ := ⟨hvalid, rfl⟩

theorem pmmSource_tidy [Build] (haccepts : Accepts N R extent reserved)
    (hwindow : extent.stop.val ≤ directMapEnd) : (pmmSource haccepts hwindow).Tidy where
  refused {s s'} hvalid hrun := by
    obtain ⟨A, hmodels⟩ := hvalid
    have hrun' : (Pmm.allocFrame : Prog _ MmuError _).run s = .ok none s' := hrun
    rcases hmodels.allocFrame_run haccepts hwindow with ⟨_, hdry⟩ | ⟨f, s₁, _, _, hsome, _⟩
    · rw [hdry] at hrun'
      cases hrun'
      rfl
    · rw [hsome] at hrun'
      cases hrun'
  handed {s s' f} hvalid hrun := by
    obtain ⟨A, hmodels⟩ := hvalid
    have hrun' : (Pmm.allocFrame : Prog _ MmuError _).run s = .ok (some f) s' := hrun
    rcases hmodels.allocFrame_run haccepts hwindow with ⟨_, hdry⟩ | ⟨g, s₁, _, _, hsome, _, hmemory⟩
    · rw [hdry] at hrun'
      cases hrun'
    · rw [hsome] at hrun'
      cases hrun'
      show Memory.AgreesOff _ s.memory s'.memory
      rw [hmemory]
      exact zeroFrame_agreesOff rfl
  flushed _ hvalid := ⟨hvalid, rfl⟩
  flushedAll hvalid := ⟨hvalid, rfl⟩

theorem Models.offers_ncard [Build] {s : Supply (Pmm N R)} {A : SetAllocator ℕ}
    (hmodels : Models extent reserved s.frames A) (haccepts : Accepts N R extent reserved)
    (hwindow : extent.stop.val ≤ directMapEnd) :
    ((pmmSource haccepts hwindow).offers s).ncard = s.frames.freeCount :=
  (hmodels.freeFrames_ncard haccepts.aligned).2

/-- The manager refuses only when no frame is free. -/
theorem pmmSource_lasting [Build] (haccepts : Accepts N R extent reserved)
    (hwindow : extent.stop.val ≤ directMapEnd) : (pmmSource haccepts hwindow).Lasting where
  finite hvalid := by
    obtain ⟨A, hmodels⟩ := hvalid
    exact (hmodels.freeFrames_ncard haccepts.aligned).1
  refused {s s'} hvalid hrun := by
    obtain ⟨A, hmodels⟩ := hvalid
    have hrun' : (Pmm.allocFrame : Prog _ MmuError _).run s = .ok none s' := hrun
    rcases hmodels.allocFrame_run haccepts hwindow with ⟨hempty, _⟩ | ⟨f, s₁, _, _, hsome, _⟩
    · ext a
      rw [show a ∈ (pmmSource haccepts hwindow).offers s ↔ a ∈ A.available from
        hmodels.mem_freeFrames haccepts.aligned, hempty]
      simp
    · rw [hsome] at hrun'
      cases hrun'

theorem twoFrames_models : let _ : Build := debugBuild
    Accepts 1 1 twoFrames firstReserved ∧
      Models twoFrames firstReserved twoFramesPmm (freshAllocator twoFrames firstReserved) := by
  intro _
  have hnew : (Pmm.new twoFrames firstReserved : Prog Unit PmmError (Pmm 1 1)).run () =
      .ok twoFramesPmm () := by
    with_unfolding_all rfl
  rcases new_cases (N := 1) (R := 1) twoFrames firstReserved (by decide) () with ⟨err, herr⟩ |
    ⟨pmm, hok, haccepts, hmodels⟩
  · rw [hnew] at herr
    cases herr
  · rw [hnew] at hok
    cases hok
    exact ⟨haccepts, hmodels⟩

/-- The manager of two frames, the first of them reserved. -/
def twoFramesSource : let _ : Build := debugBuild
    FrameSource (Supply (Pmm 1 1)) :=
  let _ : Build := debugBuild
  pmmSource twoFrames_models.1 (by decide)

/-- Eight frames, of which `firstReserved` reserves one. -/
def eightFrames : PhysFrameRange := ⟨⟨0⟩, ⟨32768⟩⟩

def eightFramesPmm : Pmm 1 1 where
  bitmap := Bitmap.insert (fun _ => 0) 0
  extent := eightFrames
  reservedRanges := Function.update (fun _ => none) 0 (some ⟨⟨0⟩, ⟨4096⟩⟩)
  hint := 1
  freeCount := 7
  reservedCount := 1
  allocatedCount := 0

theorem eightFrames_models : let _ : Build := debugBuild
    Accepts 1 1 eightFrames firstReserved ∧
      Models eightFrames firstReserved eightFramesPmm
        (freshAllocator eightFrames firstReserved) := by
  intro _
  have hnew : (Pmm.new eightFrames firstReserved : Prog Unit PmmError (Pmm 1 1)).run () =
      .ok eightFramesPmm () := by
    with_unfolding_all rfl
  rcases new_cases (N := 1) (R := 1) eightFrames firstReserved (by decide) () with ⟨err, herr⟩ |
    ⟨pmm, hok, haccepts, hmodels⟩
  · rw [hnew] at herr
    cases herr
  · rw [hnew] at hok
    cases hok
    exact ⟨haccepts, hmodels⟩

def eightFramesSource : let _ : Build := debugBuild
    FrameSource (Supply (Pmm 1 1)) :=
  let _ : Build := debugBuild
  pmmSource eightFrames_models.1 (by decide)

theorem eightFramesSource_lasting : let _ : Build := debugBuild
    eightFramesSource.Lasting := by
  intro _
  exact pmmSource_lasting eightFrames_models.1 (by decide)

/-- At the start the source offers all frames but the first. -/
theorem eightFramesSource_start (m : Memory) : let _ : Build := debugBuild
    eightFramesSource.Valid ⟨eightFramesPmm, m⟩ ∧ 0 ∉ eightFramesSource.offers ⟨eightFramesPmm, m⟩ ∧
      (eightFramesSource.offers ⟨eightFramesPmm, m⟩).ncard = 7 := by
  intro _
  obtain ⟨haccepts, hmodels⟩ := eightFrames_models
  refine ⟨⟨_, hmodels⟩, fun hmem => ?_, ?_⟩
  · have hfree := (hmodels.mem_freeFrames (by decide)).mp hmem
    exact absurd hfree (by decide)
  · exact Models.offers_ncard (s := ⟨eightFramesPmm, m⟩) hmodels haccepts (by decide)

end Tyrne
