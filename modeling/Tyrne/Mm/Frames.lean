import Mathlib.Data.Finset.Card
import Tyrne.Mm.Pmm

/-!
# The frames of a range

A page-aligned range is a finite set of frame addresses, numbered from its start. The
frames of an extent that lie in none of the reserved ranges are the usable ones.
-/

namespace Tyrne

namespace PhysFrameRange

variable {extent range a b : PhysFrameRange} {i j pa : ℕ}

/-- The address of frame `i` of the range. -/
def frameAddr (extent : PhysFrameRange) (i : ℕ) : ℕ := extent.start.val + i * pageSize

/-- The addresses of the frames of the range. -/
def frames (extent : PhysFrameRange) : Finset ℕ :=
  (Finset.range extent.frameCount).image extent.frameAddr

theorem frameAddr_inj : extent.frameAddr i = extent.frameAddr j ↔ i = j := by
  unfold frameAddr pageSize
  omega

theorem frameAddr_lt : extent.frameAddr i < extent.frameAddr j ↔ i < j := by
  unfold frameAddr pageSize
  omega

theorem card_frames (extent : PhysFrameRange) : extent.frames.card = extent.frameCount := by
  unfold frames
  rw [Finset.card_image_of_injective _ fun i j h => frameAddr_inj.mp h, Finset.card_range]

theorem frameAddr_mem : extent.frameAddr i ∈ extent.frames ↔ i < extent.frameCount := by
  unfold frames
  rw [Finset.mem_image]
  constructor
  · intro hmem
    obtain ⟨j, hj, heq⟩ := hmem
    rw [← frameAddr_inj.mp heq]
    exact Finset.mem_range.mp hj
  · intro hi
    exact ⟨i, Finset.mem_range.mpr hi, rfl⟩

/-- The frames of an aligned range are the aligned addresses in it. -/
theorem mem_frames (haligned : range.IsAligned) :
    pa ∈ range.frames ↔ range.Contains ⟨pa⟩ ∧ pa % pageSize = 0 := by
  unfold frames frameAddr frameCount lenBytes Contains
  unfold IsAligned at haligned
  unfold pageSize at *
  simp only [Finset.mem_image, Finset.mem_range]
  constructor
  · intro hmem
    obtain ⟨i, hi, rfl⟩ := hmem
    omega
  · intro hmem
    refine ⟨(pa - range.start.val) / 4096, ?_, ?_⟩ <;> omega

/-- The number of a frame from its address. -/
theorem frameAddr_index (haligned : extent.IsAligned) (hmem : pa ∈ extent.frames) :
    extent.frameAddr ((pa - extent.start.val) / pageSize) = pa ∧
      (pa - extent.start.val) / pageSize < extent.frameCount := by
  obtain ⟨hcontains, hpa⟩ := (mem_frames haligned).mp hmem
  unfold frameAddr frameCount lenBytes
  unfold Contains at hcontains
  unfold IsAligned at haligned
  unfold pageSize at *
  dsimp only at hcontains
  omega

/-- A frame number is small and its address is below the end of the extent. -/
theorem frameAddr_bound (haligned : extent.IsAligned) (hi : i < extent.frameCount) :
    extent.frameAddr i + pageSize ≤ extent.stop.val ∧ extent.frameAddr i % pageSize = 0 := by
  unfold frameAddr
  unfold frameCount lenBytes at hi
  unfold IsAligned at haligned
  unfold pageSize at *
  omega

/-- The range lies in the extent, on frame boundaries. -/
structure Within (extent range : PhysFrameRange) : Prop where
  aligned : range.IsAligned
  start_le : extent.start.val ≤ range.start.val
  stop_le : range.stop.val ≤ extent.stop.val
  ordered : range.start.val ≤ range.stop.val

/-- The first frame number of a range inside the extent, and the one past its last. -/
def startIdx (extent range : PhysFrameRange) : ℕ :=
  (range.start.val - extent.start.val) / pageSize

/-- The frames of the extent that the range contains are a run of frame numbers. -/
theorem Within.contains_iff (haligned : extent.IsAligned) (hwithin : extent.Within range) :
    range.Contains ⟨extent.frameAddr i⟩ ↔
      startIdx extent range ≤ i ∧ i < startIdx extent range + range.frameCount := by
  obtain ⟨hrange, hstart, _, hordered⟩ := hwithin
  unfold startIdx frameAddr frameCount lenBytes Contains
  unfold IsAligned at haligned hrange
  unfold pageSize at *
  dsimp only
  omega

/-- The number one past the last frame, from the end of the range. -/
theorem Within.stopIdx (haligned : extent.IsAligned) (hwithin : extent.Within range) :
    (range.stop.val - extent.start.val) / pageSize = startIdx extent range + range.frameCount := by
  obtain ⟨hrange, hstart, _, hordered⟩ := hwithin
  unfold startIdx frameCount lenBytes
  unfold IsAligned at haligned hrange
  unfold pageSize at *
  omega

theorem Within.bound (haligned : extent.IsAligned) (hwithin : extent.Within range) :
    startIdx extent range + range.frameCount ≤ extent.frameCount := by
  obtain ⟨hrange, hstart, hstop, hordered⟩ := hwithin
  unfold startIdx frameCount lenBytes
  unfold IsAligned at haligned hrange
  unfold pageSize at *
  omega

theorem Within.filter_eq (haligned : extent.IsAligned) (hwithin : extent.Within range) :
    extent.frames.filter (fun a => range.Contains ⟨a⟩) = range.frames := by
  obtain ⟨hrange, hstart, hstop, _⟩ := hwithin
  ext a
  rw [Finset.mem_filter, mem_frames haligned, mem_frames hrange]
  unfold Contains
  dsimp only
  omega

/-- No address is in two ranges that do not overlap. -/
theorem not_contains_both (hnot : ¬ a.Overlaps b) {addr : PhysAddr} (ha : a.Contains addr) :
    ¬ b.Contains addr := by
  unfold Contains Overlaps at *
  omega

end PhysFrameRange

open PhysFrameRange

variable {extent : PhysFrameRange} {reserved : List PhysFrameRange}

/-- The address lies in one of the ranges. -/
def Reserved (reserved : List PhysFrameRange) (pa : ℕ) : Prop :=
  ∃ range ∈ reserved, range.Contains ⟨pa⟩

instance (reserved : List PhysFrameRange) (pa : ℕ) : Decidable (Reserved reserved pa) :=
  inferInstanceAs (Decidable (∃ range ∈ reserved, range.Contains ⟨pa⟩))

/-- The frames of the extent that lie in a reserved range. -/
def reservedFrames (extent : PhysFrameRange) (reserved : List PhysFrameRange) : Finset ℕ :=
  extent.frames.filter (Reserved reserved)

/-- The frames of the extent that lie in no reserved range. -/
def usableFrames (extent : PhysFrameRange) (reserved : List PhysFrameRange) : Finset ℕ :=
  extent.frames.filter fun a => ¬ Reserved reserved a

theorem mem_usableFrames {a : ℕ} :
    a ∈ usableFrames extent reserved ↔ a ∈ extent.frames ∧ ¬ Reserved reserved a :=
  Finset.mem_filter

theorem card_reserved_add_usable (extent : PhysFrameRange) (reserved : List PhysFrameRange) :
    (reservedFrames extent reserved).card + (usableFrames extent reserved).card =
      extent.frameCount := by
  rw [← card_frames]
  exact Finset.card_filter_add_card_filter_not _

theorem not_reserved_nil {pa : ℕ} : ¬ Reserved [] pa := by
  simp [Reserved]

theorem reservedFrames_nil : reservedFrames extent [] = ∅ :=
  Finset.filter_false_of_mem fun _ _ => not_reserved_nil

theorem reserved_append {done : List PhysFrameRange} {range : PhysFrameRange} {pa : ℕ} :
    Reserved (done ++ [range]) pa ↔ Reserved done pa ∨ range.Contains ⟨pa⟩ := by
  simp [Reserved, or_and_right, exists_or]

/-- One more range reserves its own frames, when it overlaps none of the others. -/
theorem card_reservedFrames_append {done : List PhysFrameRange} {range : PhysFrameRange}
    (haligned : extent.IsAligned) (hwithin : extent.Within range)
    (hdisjoint : ∀ other ∈ done, ¬ other.Overlaps range) :
    (reservedFrames extent (done ++ [range])).card =
      (reservedFrames extent done).card + range.frameCount := by
  have hsplit : reservedFrames extent (done ++ [range]) =
      reservedFrames extent done ∪ extent.frames.filter fun a => range.Contains ⟨a⟩ := by
    ext a
    simp only [reservedFrames, Finset.mem_filter, Finset.mem_union, reserved_append]
    tauto
  have hapart : Disjoint (reservedFrames extent done)
      (extent.frames.filter fun a => range.Contains ⟨a⟩) := by
    apply Finset.disjoint_filter.mpr
    intro a _ hdone
    obtain ⟨other, hother, hcontains⟩ := hdone
    exact not_contains_both (hdisjoint other hother) hcontains
  rw [hsplit, Finset.card_union_of_disjoint hapart, hwithin.filter_eq haligned, card_frames]

end Tyrne
