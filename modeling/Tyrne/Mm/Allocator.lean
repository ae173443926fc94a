import Tyrne.Library.SetAllocator
import Tyrne.Mm.Frames

/-!
# The memory manager as a set allocator

`Pmm::new` accepts an extent and reserved ranges that lie in it apart from one another. A
manager built so models the allocator of the frames that no reserved range contains: a bit
is set exactly when its frame is not available, everything before the hint is set, and the
counters are the numbers of frames in each state.
-/

namespace Tyrne

open PhysFrameRange

variable {N R : ℕ} {extent : PhysFrameRange} {reserved : List PhysFrameRange}

/-- What `Pmm::new` has checked. -/
structure Accepts (N R : ℕ) (extent : PhysFrameRange) (reserved : List PhysFrameRange) : Prop where
  aligned : extent.IsAligned
  covered : extent.frameCount ≤ N * 8
  capacity : reserved.length ≤ R
  within : ∀ range ∈ reserved, extent.Within range
  disjoint : reserved.Pairwise fun a b => ¬ a.Overlaps b

/-- The manager models the allocator. -/
structure Models (extent : PhysFrameRange) (reserved : List PhysFrameRange) (pmm : Pmm N R)
    (A : SetAllocator ℕ) : Prop where
  extent_eq : pmm.extent = extent
  populated : ∀ range, range ∈ pmm.populated ↔ range ∈ reserved
  usable : A.usable = usableFrames extent reserved
  bits : ∀ i < extent.frameCount,
    (Bitmap.test pmm.bitmap i = true ↔ extent.frameAddr i ∉ A.available)
  hint_le : pmm.hint ≤ extent.frameCount
  hint : ∀ i < pmm.hint, Bitmap.test pmm.bitmap i = true
  reservedCount : pmm.reservedCount = (reservedFrames extent reserved).card
  allocatedCount : pmm.allocatedCount = A.outstanding.card
  freeCount : pmm.freeCount = A.available.card

/-- Nothing is outstanding. -/
def freshAllocator (extent : PhysFrameRange) (reserved : List PhysFrameRange) : SetAllocator ℕ where
  usable := usableFrames extent reserved
  outstanding := ∅
  outstanding_subset := Finset.empty_subset _

/-! ## Bit operations in range -/

section Bits

variable {σ ε : Type} {bitmap : Bitmap.Bytes} {idx lo n : ℕ}

theorem byte_lt (hidx : idx < N * 8) : idx / 8 < N := by omega

variable [Build]

theorem setBit_run (hidx : idx < N * 8) (s : σ) :
    (setBit N bitmap idx : Prog σ ε _).run s = .ok (Bitmap.insert bitmap idx) s := by
  unfold setBit
  rw [debugAssert_pos (byte_lt hidx), Prog.pure_bind_run, if_pos (byte_lt hidx)]
  rfl

theorem readBit_run (hidx : idx < N * 8) (s : σ) :
    (readBit N bitmap idx : Prog σ ε _).run s = .ok (Bitmap.test bitmap idx) s := by
  unfold readBit
  rw [debugAssert_pos (byte_lt hidx), Prog.pure_bind_run, if_pos (byte_lt hidx)]
  rfl

theorem clearBit_run (hidx : idx < N * 8) (s : σ) :
    (clearBit N bitmap idx : Prog σ ε _).run s = .ok (Bitmap.erase bitmap idx) s := by
  unfold clearBit
  rw [debugAssert_pos (byte_lt hidx), Prog.pure_bind_run, if_pos (byte_lt hidx)]
  rfl

theorem findClear_run (hend : lo + n ≤ N * 8) (s : σ) :
    (findClear N bitmap lo n : Prog σ ε _).run s = .ok (Bitmap.firstClear bitmap lo n) s := by
  induction n generalizing lo with
  | zero => rfl
  | succ n ih =>
    unfold findClear Bitmap.firstClear
    rw [Prog.bind_ok (readBit_run (by omega) s)]
    cases Bitmap.test bitmap lo with
    | true =>
      rw [if_pos rfl, if_pos rfl]
      exact ih (by omega)
    | false => rfl

/-- The loop sets the bits `start + off, …, start + off + n - 1`. -/
theorem markFrames_run {total start : ℕ} (hcovered : total ≤ N * 8) (hlt : total < 2 ^ 64)
    (bitmap : Bitmap.Bytes) (off : ℕ) (hend : start + off + n ≤ total) (s : σ) :
    ∃ bitmap', (Pmm.markFrames N start off n bitmap).run s = .ok bitmap' s ∧
      ∀ j, Bitmap.test bitmap' j =
        (Bitmap.test bitmap j || decide (start + off ≤ j ∧ j < start + off + n)) := by
  induction n generalizing off bitmap with
  | zero =>
    refine ⟨bitmap, rfl, fun j => ?_⟩
    have hempty : ¬ (start + off ≤ j ∧ j < start + off + 0) := by omega
    rw [decide_eq_false hempty, Bool.or_false]
  | succ n ih =>
    have hsum : saturatingAdd start off = start + off := saturatingAdd_eq (by omega)
    obtain ⟨bitmap', hrun, hbits⟩ := ih (Bitmap.insert bitmap (start + off)) (off + 1) (by omega)
    refine ⟨bitmap', ?_, fun j => ?_⟩
    · unfold Pmm.markFrames
      rw [hsum, Prog.bind_ok (setBit_run (by omega) s)]
      exact hrun
    · rw [hbits, Bitmap.test_insert]
      have hrange : (j = start + off ∨ start + (off + 1) ≤ j ∧ j < start + (off + 1) + n) ↔
          (start + off ≤ j ∧ j < start + off + (n + 1)) := by omega
      rw [← decide_eq_decide.mpr hrange, Bool.decide_or]
      cases Bitmap.test bitmap j <;> simp

end Bits

/-! ## Construction -/

section New

variable {σ : Type} {s : σ}

theorem checkRange_cases (extent range : PhysFrameRange) (s : σ) :
    (∃ err, (Pmm.checkRange extent range).run s = .err err s) ∨
    (Pmm.checkRange extent range).run s = .ok () s ∧ extent.Within range := by
  unfold Pmm.checkRange
  by_cases haligned : range.IsAligned
  · rw [Prog.require_pos haligned]
    by_cases hinside : range.start.val < extent.start.val ∨ range.stop.val > extent.stop.val
    · exact Or.inl ⟨_, by rw [Prog.pure_bind_run, Prog.require_neg (not_not.mpr hinside)]; rfl⟩
    · by_cases hinverted : range.stop.val < range.start.val
      · refine Or.inl ⟨.outOfRange, ?_⟩
        rw [Prog.pure_bind_run, Prog.require_pos hinside, Prog.pure_bind_run,
          Prog.require_neg (not_not.mpr hinverted)]
        rfl
      · refine Or.inr ⟨?_, haligned, ?_, ?_, ?_⟩
        · rw [Prog.pure_bind_run, Prog.require_pos hinside, Prog.pure_bind_run,
            Prog.require_pos hinverted]
          rfl
        · omega
        · omega
        · omega
  · exact Or.inl ⟨_, by rw [Prog.require_neg haligned]; rfl⟩

theorem checkRanges_cases (extent : PhysFrameRange) (reserved : List PhysFrameRange) (s : σ) :
    (∃ err, (Pmm.checkRanges extent reserved).run s = .err err s) ∨
    (Pmm.checkRanges extent reserved).run s = .ok () s ∧
      ∀ range ∈ reserved, extent.Within range := by
  induction reserved with
  | nil => exact Or.inr ⟨rfl, by simp⟩
  | cons range rest ih =>
    unfold Pmm.checkRanges
    rcases checkRange_cases extent range s with ⟨err, hrun⟩ | ⟨hrun, hwithin⟩
    · exact Or.inl ⟨err, Prog.bind_err hrun⟩
    · rw [Prog.bind_ok hrun]
      rcases ih with hfail | ⟨hrest, hall⟩
      · exact Or.inl hfail
      · exact Or.inr ⟨hrest, List.forall_mem_cons.mpr ⟨hwithin, hall⟩⟩

/-- The loop over the reserved ranges has done the ranges `done`. -/
structure Pmm.Reserving.Done (extent : PhysFrameRange) (done : List PhysFrameRange)
    (acc : Pmm.Reserving) : Prop where
  bits : ∀ i, Bitmap.test acc.bitmap i = true ↔ Reserved done (extent.frameAddr i)
  ranges : ∀ k, acc.reservedRanges k = done[k]?
  count : acc.reservedCount = (reservedFrames extent done).card

variable [Build]

theorem reserveRanges_run (haligned : extent.IsAligned) (hcovered : extent.frameCount ≤ N * 8)
    (hlt : extent.frameCount < 2 ^ 64) {rest done : List PhysFrameRange} {acc : Pmm.Reserving}
    (hdone : acc.Done extent done) (hwithin : ∀ range ∈ rest, extent.Within range)
    (hdisjoint : (done ++ rest).Pairwise fun a b => ¬ a.Overlaps b)
    (hcapacity : done.length + rest.length ≤ R) : ∃ acc',
      (Pmm.reserveRanges N R extent done.length rest acc).run s = .ok acc' s ∧
      acc'.Done extent (done ++ rest) := by
  induction rest generalizing done acc with
  | nil => exact ⟨acc, rfl, by rwa [List.append_nil]⟩
  | cons range rest ih =>
    obtain ⟨hbits, hranges, hcount⟩ := hdone
    have hrange := hwithin range List.mem_cons_self
    have hbound := hrange.bound haligned
    obtain ⟨bitmap', hmark, hmarked⟩ := markFrames_run hcovered hlt acc.bitmap 0
      (by rwa [Nat.add_zero] : startIdx extent range + 0 + range.frameCount ≤ _) s
    have hapart : ∀ other ∈ done, ¬ other.Overlaps range := fun other hother =>
      (List.pairwise_append.mp hdisjoint).2.2 other hother range List.mem_cons_self
    have hcard := card_reservedFrames_append haligned hrange hapart
    have htotal : (reservedFrames extent (done ++ [range])).card ≤ extent.frameCount := by
      rw [← card_frames]
      exact Finset.card_filter_le _ _
    have hnext : Pmm.Reserving.Done extent (done ++ [range])
        ⟨bitmap', Function.update acc.reservedRanges done.length (some range),
          saturatingAdd acc.reservedCount range.frameCount⟩ := by
      refine ⟨fun i => ?_, fun k => ?_, ?_⟩
      · rw [hmarked, reserved_append, hrange.contains_iff haligned, Bool.or_eq_true, hbits,
          decide_eq_true_eq, Nat.add_zero]
      · by_cases hk : k = done.length
        · subst hk
          simp
        · have hother := Function.update_of_ne hk (some range) acc.reservedRanges
          dsimp only
          rw [hother, hranges]
          simp only [List.getElem?_append]
          split
          · rfl
          · next hge =>
            rw [List.getElem?_eq_none (by omega), List.getElem?_eq_none (by simp; omega)]
      · rw [hcard, ← hcount]
        apply saturatingAdd_eq
        omega
    have hrest : ((done ++ [range]) ++ rest).Pairwise fun a b => ¬ a.Overlaps b := by
      rwa [List.append_assoc]
    obtain ⟨acc', hrun, hall⟩ := ih hnext
      (fun other hother => hwithin other (List.mem_cons_of_mem range hother)) hrest
      (by simp only [List.length_append, List.length_cons, List.length_nil] at hcapacity ⊢; omega)
    refine ⟨acc', ?_, by rwa [List.append_assoc] at hall⟩
    unfold Pmm.reserveRanges
    refine Eq.trans (Prog.bind_ok hmark) ?_
    rw [if_pos (by simp only [List.length_cons] at hcapacity; omega)]
    rw [List.length_append] at hrun
    exact hrun

omit [Build] in
theorem frameCount_lt (hstop : extent.stop.val < 2 ^ 64) : extent.frameCount < 2 ^ 64 := by
  unfold frameCount lenBytes pageSize
  omega

omit [Build] in
theorem stop_lt (hwindow : extent.stop.val ≤ directMapEnd) : extent.stop.val < 2 ^ 64 := by
  unfold directMapEnd at hwindow
  omega

omit [Build] in
theorem populated_iff {pmm : Pmm N R} (hranges : ∀ k, pmm.reservedRanges k = reserved[k]?)
    (hcapacity : reserved.length ≤ R) (range : PhysFrameRange) :
    range ∈ pmm.populated ↔ range ∈ reserved := by
  unfold Pmm.populated
  rw [List.mem_filterMap, List.mem_iff_getElem?]
  simp only [List.mem_range, hranges]
  constructor
  · intro hmem
    obtain ⟨k, _, hk⟩ := hmem
    exact ⟨k, hk⟩
  · intro hmem
    obtain ⟨k, hk⟩ := hmem
    obtain ⟨hlt, _⟩ := List.getElem?_eq_some_iff.mp hk
    exact ⟨k, by omega, hk⟩

/-- A successful construction models the allocator in which nothing is outstanding, and has set
no bit past the last frame. -/
theorem new_builds (extent : PhysFrameRange) (reserved : List PhysFrameRange)
    (hstop : extent.stop.val < 2 ^ 64) (s : σ) :
    (∃ err, (Pmm.new extent reserved : Prog σ PmmError (Pmm N R)).run s = .err err s) ∨
    ∃ pmm, (Pmm.new extent reserved : Prog σ PmmError (Pmm N R)).run s = .ok pmm s ∧
      Accepts N R extent reserved ∧
      Models extent reserved pmm (freshAllocator extent reserved) ∧
      ∀ i, Bitmap.test pmm.bitmap i = true → i < extent.frameCount := by
  have hlt := frameCount_lt hstop
  unfold Pmm.new
  by_cases haligned : extent.IsAligned
  swap
  · exact Or.inl ⟨.misalignedAddress, by rw [Prog.require_neg haligned]; rfl⟩
  rw [Prog.require_pos haligned, Prog.pure_bind_run]
  dsimp only
  by_cases hlarge : extent.frameCount > saturatingMul N 8
  · exact Or.inl ⟨.outOfRange, by rw [Prog.require_neg (not_not.mpr hlarge)]; rfl⟩
  rw [Prog.require_pos hlarge, Prog.pure_bind_run]
  by_cases hmany : reserved.length > R
  · exact Or.inl ⟨.tooManyReservedRanges, by rw [Prog.require_neg (not_not.mpr hmany)]; rfl⟩
  rw [Prog.require_pos hmany, Prog.pure_bind_run]
  rcases checkRanges_cases extent reserved s with ⟨err, hrun⟩ | ⟨hrun, hwithin⟩
  · exact Or.inl ⟨err, Prog.bind_err hrun⟩
  rw [Prog.bind_ok hrun]
  by_cases hdisjoint : reserved.Pairwise fun a b => ¬ a.Overlaps b
  swap
  · exact Or.inl ⟨.overlappingReservedRanges, by rw [Prog.require_neg hdisjoint]; rfl⟩
  rw [Prog.require_pos hdisjoint, Prog.pure_bind_run]
  right
  have hcovered : extent.frameCount ≤ N * 8 := by
    have hle := saturatingMul_le N 8
    omega
  have hstart : Pmm.Reserving.Done extent [] ⟨fun _ => 0, fun _ => none, 0⟩ :=
    ⟨fun i => iff_of_false (by rw [Bitmap.test_empty]; decide) not_reserved_nil, fun k => rfl,
      by rw [reservedFrames_nil]; rfl⟩
  obtain ⟨acc, hacc, hbits, hranges, hcount⟩ := reserveRanges_run haligned hcovered hlt hstart
    hwithin hdisjoint (by simpa using hmany) (s := s)
  rw [List.nil_append] at hbits hranges hcount
  refine ⟨_, Eq.trans (Prog.bind_ok hacc)
    (Prog.bind_ok (findClear_run (by simpa using hcovered) s)),
    ⟨haligned, hcovered, by omega, hwithin, hdisjoint⟩, ?_, fun i hi => ?_⟩
  swap
  · obtain ⟨range, hrange, hcontains⟩ := (hbits i).mp hi
    have hbound := (hwithin range hrange).bound haligned
    have hindex := ((hwithin range hrange).contains_iff haligned).mp hcontains
    omega
  have hcards := card_reserved_add_usable extent reserved
  have havailable : (freshAllocator extent reserved).available = usableFrames extent reserved :=
    Finset.sdiff_empty
  refine ⟨rfl, populated_iff hranges (by omega), rfl, fun i hi => ?_, ?_, fun i hi => ?_, hcount,
    rfl, ?_⟩
  · rw [havailable, mem_usableFrames, hbits]
    simp [frameAddr_mem.mpr hi]
  · cases hfirst : Bitmap.firstClear acc.bitmap 0 extent.frameCount with
    | none => exact le_rfl
    | some k =>
      obtain ⟨_, hk, _⟩ := Bitmap.firstClear_eq_some.mp hfirst
      exact (Nat.zero_add extent.frameCount ▸ hk).le
  · cases hfirst : Bitmap.firstClear acc.bitmap 0 extent.frameCount with
    | none =>
      rw [hfirst] at hi
      exact Bitmap.firstClear_eq_none.mp hfirst i (Nat.zero_le i) (by simpa using hi)
    | some k =>
      rw [hfirst] at hi
      exact (Bitmap.firstClear_eq_some.mp hfirst).2.2.2 i (Nat.zero_le i) hi
  · rw [havailable]
    dsimp only
    omega

/-- With the extent inside the direct map. -/
theorem new_cases (extent : PhysFrameRange) (reserved : List PhysFrameRange)
    (hwindow : extent.stop.val ≤ directMapEnd) (s : σ) :
    (∃ err, (Pmm.new extent reserved : Prog σ PmmError (Pmm N R)).run s = .err err s) ∨
    ∃ pmm, (Pmm.new extent reserved : Prog σ PmmError (Pmm N R)).run s = .ok pmm s ∧
      Accepts N R extent reserved ∧
      Models extent reserved pmm (freshAllocator extent reserved) := by
  rcases new_builds (N := N) (R := R) extent reserved (stop_lt hwindow) s with hfail |
    ⟨pmm, hrun, haccepts, hmodels, _⟩
  · exact Or.inl hfail
  · exact Or.inr ⟨pmm, hrun, haccepts, hmodels⟩

omit [Build] in
theorem checkRanges_run (hwithin : ∀ range ∈ reserved, extent.Within range) (s : σ) :
    (Pmm.checkRanges extent reserved).run s = .ok () s := by
  induction reserved with
  | nil => rfl
  | cons range rest ih =>
    obtain ⟨haligned, hstart, hstop, hordered⟩ := hwithin range List.mem_cons_self
    unfold Pmm.checkRanges Pmm.checkRange
    rw [Prog.require_pos haligned, Prog.require_pos (by omega), Prog.require_pos (by omega)]
    exact ih fun other hother => hwithin other (List.mem_cons_of_mem range hother)

/-- What passes the checks is built. -/
theorem new_ok (haccepts : Accepts N R extent reserved) (hwindow : extent.stop.val ≤ directMapEnd)
    (s : σ) : ∃ pmm, (Pmm.new extent reserved : Prog σ PmmError (Pmm N R)).run s = .ok pmm s ∧
      Models extent reserved pmm (freshAllocator extent reserved) := by
  have hlt := frameCount_lt (stop_lt hwindow)
  have hcovered := haccepts.covered
  have hcapacity := haccepts.capacity
  have hsmall : ¬ extent.frameCount > saturatingMul N 8 := by
    unfold saturatingMul
    omega
  rcases new_cases (N := N) (R := R) extent reserved hwindow s with ⟨err, herr⟩ |
    ⟨pmm, hrun, _, hmodels⟩
  swap
  · exact ⟨pmm, hrun, hmodels⟩
  have hstart : Pmm.Reserving.Done extent [] ⟨fun _ => 0, fun _ => none, 0⟩ :=
    ⟨fun i => iff_of_false (by rw [Bitmap.test_empty]; decide) not_reserved_nil, fun k => rfl,
      by rw [reservedFrames_nil]; rfl⟩
  obtain ⟨acc, hacc, -⟩ := reserveRanges_run haccepts.aligned hcovered hlt hstart haccepts.within
    haccepts.disjoint (by simpa using hcapacity) (s := s)
  unfold Pmm.new at herr
  rw [Prog.require_pos haccepts.aligned, Prog.pure_bind_run] at herr
  dsimp only at herr
  rw [Prog.require_pos hsmall, Prog.pure_bind_run, Prog.require_pos (Nat.not_lt.mpr hcapacity),
    Prog.pure_bind_run, Prog.bind_ok (checkRanges_run haccepts.within s),
    Prog.require_pos haccepts.disjoint, Prog.pure_bind_run] at herr
  have hfirst : (firstZeroBit N acc.bitmap extent.frameCount : Prog σ PmmError _).run s = .ok _ s :=
    findClear_run (by simpa using hcovered) s
  have hfailed := (Prog.bind_ok hacc).symm.trans herr
  rw [Prog.bind_ok hfirst] at hfailed
  cases hfailed

end New

/-! ## Allocation -/

namespace Models

variable {pmm : Pmm N R} {A : SetAllocator ℕ}

theorem mem_available_iff (hmodels : Models extent reserved pmm A) {a : ℕ} :
    a ∈ A.available ↔ (a ∈ extent.frames ∧ ¬ Reserved reserved a) ∧ a ∉ A.outstanding := by
  rw [SetAllocator.mem_available, hmodels.usable, mem_usableFrames]

/-- An available frame has a number, and its bit is clear. -/
theorem index_of_available (hmodels : Models extent reserved pmm A) (haligned : extent.IsAligned)
    {a : ℕ} (ha : a ∈ A.available) : ∃ i < extent.frameCount,
      extent.frameAddr i = a ∧ Bitmap.test pmm.bitmap i = false := by
  obtain ⟨⟨hmem, _⟩, _⟩ := hmodels.mem_available_iff.mp ha
  obtain ⟨haddr, hlt⟩ := frameAddr_index haligned hmem
  refine ⟨_, hlt, haddr, ?_⟩
  rw [← Bool.not_eq_true, hmodels.bits _ hlt, haddr]
  exact not_not.mpr ha

variable [Build] {σ ε : Type}

/-- The scan finds the least available frame. -/
theorem findFrame_run (hmodels : Models extent reserved pmm A)
    (haccepts : Accepts N R extent reserved) (s : σ) :
    A.available = ∅ ∧ (pmm.findFrame : Prog σ ε _).run s = .ok none s ∨
    ∃ i < extent.frameCount, IsLeast (A.available : Set ℕ) (extent.frameAddr i) ∧
      (pmm.findFrame : Prog σ ε _).run s = .ok (some i) s := by
  have hhint := hmodels.hint_le
  have hcovered := haccepts.covered
  have htotal := hmodels.extent_eq
  have hscan : (findClear N pmm.bitmap pmm.hint (pmm.extent.frameCount - pmm.hint) :
      Prog σ ε _).run s = .ok _ s := findClear_run (by rw [htotal]; omega) s
  unfold Pmm.findFrame
  rw [Prog.bind_ok hscan]
  cases hfirst : Bitmap.firstClear pmm.bitmap pmm.hint (pmm.extent.frameCount - pmm.hint) with
  | none =>
    left
    have hset : ∀ i < extent.frameCount, Bitmap.test pmm.bitmap i = true := by
      intro i hi
      by_cases hlow : i < pmm.hint
      · exact hmodels.hint i hlow
      · exact Bitmap.firstClear_eq_none.mp hfirst i (by omega) (by rw [htotal]; omega)
    constructor
    · apply Finset.eq_empty_of_forall_notMem
      intro a ha
      obtain ⟨i, hi, _, hclear⟩ := hmodels.index_of_available haccepts.aligned ha
      rw [hset i hi] at hclear
      cases hclear
    · by_cases hpos : pmm.hint > 0
      · have hprefix : Bitmap.firstClear pmm.bitmap 0 pmm.hint = none :=
          Bitmap.firstClear_eq_none.mpr fun j _ hj => hmodels.hint j (by omega)
        rw [if_pos ⟨rfl, hpos⟩, findClear_run (by omega) s, hprefix]
      · rw [if_neg fun hboth => hpos hboth.2]
        rfl
  | some i =>
    right
    obtain ⟨hlo, hhi, hclear, hset⟩ := Bitmap.firstClear_eq_some.mp hfirst
    have hlt : i < extent.frameCount := by
      rw [htotal] at hhi
      omega
    have hmem : extent.frameAddr i ∈ A.available := by
      by_contra hnot
      rw [(hmodels.bits i hlt).mpr hnot] at hclear
      cases hclear
    refine ⟨i, hlt, ⟨hmem, fun a ha => ?_⟩, ?_⟩
    · obtain ⟨j, _, rfl, hfree⟩ := hmodels.index_of_available haccepts.aligned ha
      by_contra hbelow
      have hji : j < i := frameAddr_lt.mp (not_le.mp hbelow)
      have hused : Bitmap.test pmm.bitmap j = true := by
        by_cases hlow : j < pmm.hint
        · exact hmodels.hint j hlow
        · exact hset j (by omega) hji
      rw [hused] at hfree
      cases hfree
    · rw [if_neg fun hboth => by cases hboth.1]
      rfl

omit [Build] in
/-- What taking frame `i` leaves. -/
theorem taken (hmodels : Models extent reserved pmm A) (hlt : extent.frameCount < 2 ^ 64)
    {i : ℕ} (hi : i < extent.frameCount)
    (hleast : IsLeast (A.available : Set ℕ) (extent.frameAddr i))
    (husable : extent.frameAddr i ∈ A.usable) :
    Models extent reserved ({ pmm with
      bitmap := Bitmap.insert pmm.bitmap i
      hint := saturatingAdd i 1
      freeCount := pmm.freeCount - 1
      allocatedCount := saturatingAdd pmm.allocatedCount 1 } : Pmm N R)
      (A.take (extent.frameAddr i) husable) := by
  have hhint : saturatingAdd i 1 = i + 1 := saturatingAdd_eq (by omega)
  have hout := (SetAllocator.mem_available.mp hleast.1).2
  have hcards := A.card_available
  have htotal : A.usable.card ≤ extent.frameCount := by
    rw [hmodels.usable, ← card_frames]
    exact Finset.card_filter_le _ _
  have hfewer : A.outstanding.card < A.usable.card := by
    have hpos := Finset.card_pos.mpr ⟨_, hleast.1⟩
    omega
  have hallocated := hmodels.allocatedCount
  refine ⟨hmodels.extent_eq, hmodels.populated, hmodels.usable, fun j hj => ?_, ?_, fun j hj => ?_,
    hmodels.reservedCount, ?_, ?_⟩
  · rw [SetAllocator.available_take, Finset.mem_erase, Ne, frameAddr_inj, Bitmap.test_insert,
      Bool.or_eq_true, decide_eq_true_eq, hmodels.bits j hj, not_and_or, not_not]
  · dsimp only
    omega
  · dsimp only at hj ⊢
    rw [Bitmap.test_insert, Bool.or_eq_true, decide_eq_true_eq]
    by_cases heq : j = i
    · exact Or.inl heq
    · right
      have hji : j < i := by omega
      rw [hmodels.bits j (by omega)]
      intro hmem
      have hle := hleast.2 hmem
      have hlow : extent.frameAddr j < extent.frameAddr i := frameAddr_lt.mpr hji
      omega
  · dsimp only
    rw [saturatingAdd_eq (by omega), hallocated]
    exact (Finset.card_insert_of_notMem hout).symm
  · rw [SetAllocator.available_take, Finset.card_erase_of_mem hleast.1]
    exact congrArg (· - 1) hmodels.freeCount

/-- An allocation takes the least available frame and zeroes it, or finds none. It panics on a
frame outside the direct map. The provider has no errors, so their type does not matter. -/
theorem allocFrame_cases {s : Supply (Pmm N R)} (hmodels : Models extent reserved s.frames A)
    (haccepts : Accepts N R extent reserved) (hstop : extent.stop.val < 2 ^ 64) :
    (A.available = ∅ ∧ ∀ ε, (Pmm.allocFrame : Prog _ ε _).run s = .ok none s) ∨
    (directMapEnd < extent.stop.val ∧
      ∀ ε, ∃ cause, (Pmm.allocFrame : Prog _ ε _).run s = .panic cause) ∨
    ∃ (f : PhysFrame) (s' : Supply (Pmm N R)) (husable : f.addr.val ∈ A.usable),
      IsLeast (A.available : Set ℕ) f.addr.val ∧
      (∀ ε, (Pmm.allocFrame : Prog _ ε _).run s = .ok (some f) s') ∧
      Models extent reserved s'.frames (A.take f.addr.val husable) ∧
      s'.memory = s.memory.zeroFrame f.addr.val := by
  by_cases hempty : A.available = ∅
  · refine Or.inl ⟨hempty, fun ε => ?_⟩
    unfold Pmm.allocFrame
    rw [Prog.get_bind_run]
    rcases hmodels.findFrame_run (ε := ε) haccepts s with ⟨_, hrun⟩ | ⟨i, _, hleast, _⟩
    · exact Prog.bind_ok hrun
    · have hmem : extent.frameAddr i ∈ A.available := hleast.1
      rw [hempty] at hmem
      exact absurd hmem (Finset.notMem_empty _)
  obtain ⟨i, hi, hleast⟩ : ∃ i < extent.frameCount,
      IsLeast (A.available : Set ℕ) (extent.frameAddr i) := by
    rcases hmodels.findFrame_run (ε := Unit) haccepts s with ⟨hnone, _⟩ | ⟨i, hi, hleast, _⟩
    · exact absurd hnone hempty
    · exact ⟨i, hi, hleast⟩
  have hfound : ∀ ε, (s.frames.findFrame : Prog _ ε _).run s = .ok (some i) s := by
    intro ε
    rcases hmodels.findFrame_run (ε := ε) haccepts s with ⟨hnone, _⟩ | ⟨j, _, hleast', hrun⟩
    · exact absurd hnone hempty
    · rw [frameAddr_inj.mp (hleast'.unique hleast)] at hrun
      exact hrun
  obtain ⟨hbelow, hpage⟩ := frameAddr_bound haccepts.aligned hi
  have hcovered := haccepts.covered
  have hlt := frameCount_lt hstop
  have hpos : 0 < pageSize := by decide
  have haddr : saturatingAdd s.frames.extent.start.val (saturatingMul i pageSize) =
      extent.frameAddr i := by
    unfold frameAddr at hbelow ⊢
    rw [hmodels.extent_eq, saturatingMul_eq (by omega), saturatingAdd_eq (by omega)]
  right
  by_cases hmapped : extent.frameAddr i < directMapEnd
  · right
    have husable := (SetAllocator.mem_available.mp hleast.1).1
    refine ⟨⟨⟨extent.frameAddr i⟩, hpage⟩, ⟨_, s.memory.zeroFrame (extent.frameAddr i)⟩, husable,
      hleast, fun ε => ?_, hmodels.taken hlt hi hleast husable, rfl⟩
    unfold Pmm.allocFrame
    rw [Prog.get_bind_run]
    dsimp only
    rw [Prog.bind_ok (hfound ε)]
    dsimp only
    rw [haddr, PhysFrame.fromAligned_eq hpage]
    dsimp only
    rw [physToKernelVa_pos hmapped, Prog.pure_bind_run, Prog.bind_ok (setBit_run (by omega) s),
      physOf_directMap hmapped]
    rfl
  · refine Or.inl ⟨by omega, fun ε => ?_⟩
    unfold Pmm.allocFrame
    rw [Prog.get_bind_run]
    dsimp only
    rw [Prog.bind_ok (hfound ε)]
    dsimp only
    rw [haddr, PhysFrame.fromAligned_eq hpage]
    dsimp only
    rw [physToKernelVa_neg hmapped]
    exact ⟨_, Prog.panic_bind_run _⟩

/-- With the extent inside the direct map. -/
theorem allocFrame_run {s : Supply (Pmm N R)} (hmodels : Models extent reserved s.frames A)
    (haccepts : Accepts N R extent reserved) (hwindow : extent.stop.val ≤ directMapEnd) :
    A.available = ∅ ∧ (Pmm.allocFrame : Prog _ ε _).run s = .ok none s ∨
    ∃ (f : PhysFrame) (s' : Supply (Pmm N R)) (husable : f.addr.val ∈ A.usable),
      IsLeast (A.available : Set ℕ) f.addr.val ∧
      (Pmm.allocFrame : Prog _ ε _).run s = .ok (some f) s' ∧
      Models extent reserved s'.frames (A.take f.addr.val husable) ∧
      s'.memory = s.memory.zeroFrame f.addr.val := by
  rcases hmodels.allocFrame_cases haccepts (stop_lt hwindow) with ⟨hempty, hrun⟩ |
    ⟨houtside, _⟩ | ⟨f, s', husable, hleast, hrun, hrest⟩
  · exact Or.inl ⟨hempty, hrun ε⟩
  · omega
  · exact Or.inr ⟨f, s', husable, hleast, hrun ε, hrest⟩

omit [Build] in
/-- What freeing frame `i` leaves. -/
theorem released (hmodels : Models extent reserved pmm A) (hlt : extent.frameCount < 2 ^ 64)
    {i : ℕ} (hi : i < extent.frameCount) (hout : extent.frameAddr i ∈ A.outstanding) :
    Models extent reserved ({ pmm with
      bitmap := Bitmap.erase pmm.bitmap i
      hint := if i < pmm.hint then i else pmm.hint
      freeCount := saturatingAdd pmm.freeCount 1
      allocatedCount := pmm.allocatedCount - 1 } : Pmm N R) (A.release (extent.frameAddr i)) := by
  have husable := A.outstanding_subset hout
  have hcards := A.card_available
  have hhint := hmodels.hint_le
  have htotal : A.usable.card ≤ extent.frameCount := by
    rw [hmodels.usable, ← card_frames]
    exact Finset.card_filter_le _ _
  have hnot : extent.frameAddr i ∉ A.available := fun hmem =>
    (SetAllocator.mem_available.mp hmem).2 hout
  have hfree := hmodels.freeCount
  refine ⟨hmodels.extent_eq, hmodels.populated, hmodels.usable, fun j hj => ?_, ?_, fun j hj => ?_,
    hmodels.reservedCount, ?_, ?_⟩
  · rw [SetAllocator.available_release husable, Finset.mem_insert, frameAddr_inj,
      Bitmap.test_erase, Bool.and_eq_true, decide_eq_true_eq, hmodels.bits j hj, not_or]
  · dsimp only
    split <;> omega
  · dsimp only at hj ⊢
    have hji : j ≠ i ∧ j < pmm.hint := by split at hj <;> omega
    rw [Bitmap.test_erase, Bool.and_eq_true, decide_eq_true_eq]
    exact ⟨hji.1, hmodels.hint j hji.2⟩
  · dsimp only
    rw [hmodels.allocatedCount]
    exact (Finset.card_erase_of_mem hout).symm
  · dsimp only
    have hpos := Finset.card_pos.mpr ⟨_, hout⟩
    rw [SetAllocator.available_release husable, Finset.card_insert_of_notMem hnot,
      saturatingAdd_eq (by omega), hfree]

/-- A frame is freed when it is outstanding, and otherwise nothing changes. -/
theorem freeFrame_cases (hmodels : Models extent reserved pmm A)
    (haccepts : Accepts N R extent reserved) (hstop : extent.stop.val < 2 ^ 64)
    (f : PhysFrame) :
    f.addr.val ∉ A.outstanding ∧ (∃ err, (Pmm.freeFrame f).run pmm = .err err pmm) ∨
    f.addr.val ∈ A.outstanding ∧ ∃ pmm', (Pmm.freeFrame f).run pmm = .ok () pmm' ∧
      Models extent reserved pmm' (A.release f.addr.val) := by
  have hlt := frameCount_lt hstop
  have hcovered := haccepts.covered
  have hin : f.addr.val ∈ A.outstanding → f.addr.val ∈ extent.frames ∧
      ¬ Reserved reserved f.addr.val := by
    intro hout
    have hmem := A.outstanding_subset hout
    rw [hmodels.usable] at hmem
    exact mem_usableFrames.mp hmem
  unfold Pmm.freeFrame
  rw [Prog.get_bind_run]
  dsimp only
  rw [hmodels.extent_eq]
  by_cases hcontains : extent.Contains f.addr
  swap
  · left
    refine ⟨fun hout => hcontains ((mem_frames haccepts.aligned).mp (hin hout).1).1, .outOfRange,
      ?_⟩
    rw [Prog.require_neg hcontains]
    rfl
  rw [Prog.require_pos hcontains, Prog.pure_bind_run]
  have hranges : (∃ range ∈ pmm.populated, range.Contains f.addr) ↔
      Reserved reserved f.addr.val := by
    simp only [hmodels.populated]
    rfl
  by_cases hreserved : ∃ range ∈ pmm.populated, range.Contains f.addr
  · left
    refine ⟨fun hout => (hin hout).2 (hranges.mp hreserved), .doubleFree, ?_⟩
    rw [Prog.require_neg (not_not.mpr hreserved)]
    rfl
  rw [Prog.require_pos hreserved, Prog.pure_bind_run]
  have hmem : f.addr.val ∈ extent.frames := (mem_frames haccepts.aligned).mpr ⟨hcontains, f.aligned⟩
  obtain ⟨haddr, hidx⟩ := frameAddr_index haccepts.aligned hmem
  generalize (f.addr.val - extent.start.val) / pageSize = i at haddr hidx ⊢
  rw [Prog.bind_ok (readBit_run (by omega) pmm)]
  have hbit := hmodels.bits i hidx
  rw [haddr, hmodels.mem_available_iff, not_and_not_right] at hbit
  have hout : Bitmap.test pmm.bitmap i = true ↔ f.addr.val ∈ A.outstanding :=
    hbit.trans ⟨fun h => h ⟨hmem, fun h' => hreserved (hranges.mpr h')⟩, fun h _ => h⟩
  by_cases hset : Bitmap.test pmm.bitmap i = true
  · right
    refine ⟨hout.mp hset, _, ?_, haddr ▸ hmodels.released hlt hidx (haddr ▸ hout.mp hset)⟩
    rw [Prog.require_pos hset, Prog.pure_bind_run, Prog.bind_ok (clearBit_run (by omega) pmm),
      ← hmodels.extent_eq]
    rfl
  · left
    refine ⟨fun h => hset (hout.mpr h), .doubleFree, ?_⟩
    rw [Prog.require_neg hset]
    rfl

theorem freeFrame_run (hmodels : Models extent reserved pmm A)
    (haccepts : Accepts N R extent reserved) (hwindow : extent.stop.val ≤ directMapEnd)
    (f : PhysFrame) :
    f.addr.val ∉ A.outstanding ∧ (∃ err, (Pmm.freeFrame f).run pmm = .err err pmm) ∨
    f.addr.val ∈ A.outstanding ∧ ∃ pmm', (Pmm.freeFrame f).run pmm = .ok () pmm' ∧
      Models extent reserved pmm' (A.release f.addr.val) :=
  hmodels.freeFrame_cases haccepts (stop_lt hwindow) f

end Models

end Tyrne
