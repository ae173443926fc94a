import Tyrne.Mm.Runs

/-!
# What the memory manager may still hand out

`could_yield_pa_overlapping` walks the frame numbers of a range with a cursor that jumps
over reserved ranges. Its answer does not depend on what is allocated: it says whether a
usable frame overlaps the range, which is whether some continuation hands one out.
-/

namespace Tyrne

open PhysFrameRange

/-- The cursor of the walk, or that a frame outside the reserved ranges was found. -/
inductive YieldWalk
  | scanning (cursor : ℕ)
  | found

namespace YieldWalk

/-- `cursor < end_idx`, while nothing was found. -/
def Goes (endIdx : ℕ) : YieldWalk → Prop
  | .scanning cursor => cursor < endIdx
  | .found => False

instance (endIdx : ℕ) : DecidablePred (Goes endIdx)
  | .scanning cursor => inferInstanceAs (Decidable (cursor < endIdx))
  | .found => inferInstanceAs (Decidable False)

end YieldWalk

/-- `usize::div_ceil`. -/
def divCeil (a b : ℕ) : ℕ := if a % b > 0 then a / b + 1 else a / b

namespace Pmm

variable {N R : ℕ} {σ ε : Type}

def rangeStartIdx (pmm : Pmm N R) (range : PhysFrameRange) : ℕ :=
  (range.start.val - pmm.extent.start.val) / pageSize

def rangeEndIdx (pmm : Pmm N R) (range : PhysFrameRange) : ℕ :=
  (range.stop.val - pmm.extent.start.val) / pageSize

/-- The end of the first reserved range that covers the cursor. -/
def coveringEnd (pmm : Pmm N R) (cursor : ℕ) : Option ℕ :=
  (pmm.populated.find? fun range =>
    pmm.rangeStartIdx range ≤ cursor ∧ cursor < pmm.rangeEndIdx range).map pmm.rangeEndIdx

/-- One turn of the walk. -/
def yieldStep (pmm : Pmm N R) : YieldWalk → Prog σ ε YieldWalk
  | .scanning cursor =>
    match pmm.coveringEnd cursor with
    | some rEndIdx => return .scanning rEndIdx
    | none => return .found
  | .found => return .found

/-- Whether a frame that may be handed out overlaps `[start, stop)`. -/
def couldYieldPaOverlapping (pmm : Pmm N R) (start stop : ℕ) : Prog σ ε Bool :=
  if start ≥ stop then
    return false
  else
    let extentStart := pmm.extent.start.val
    let extentEnd := pmm.extent.stop.val
    if stop ≤ extentStart ∨ start ≥ extentEnd then
      return false
    else do
      let clippedStart := if start > extentStart then start else extentStart
      let clippedEnd := if stop < extentEnd then stop else extentEnd
      let startIdx := (clippedStart - extentStart) / pageSize
      let endIdx := divCeil (clippedEnd - extentStart) pageSize
      let walk ← Prog.loop (YieldWalk.Goes endIdx) pmm.yieldStep (endIdx - startIdx + 1)
        (.scanning startIdx)
      match walk with
      | .found => return true
      | .scanning _ => return false

end Pmm

/-- The frame at `base` has an address in `[start, stop)`. -/
def FrameOverlaps (base start stop : ℕ) : Prop := ∃ a, InFrame base a ∧ start ≤ a ∧ a < stop

theorem frameOverlaps_iff {base start stop : ℕ} :
    FrameOverlaps base start stop ↔ start < stop ∧ base < stop ∧ start < base + pageSize := by
  unfold FrameOverlaps InFrame pageSize
  constructor
  · intro hoverlaps
    obtain ⟨a, ha⟩ := hoverlaps
    omega
  · intro hbounds
    exact ⟨max base start, by omega⟩

variable {N R : ℕ} {extent : PhysFrameRange} {reserved : List PhysFrameRange} {pmm : Pmm N R}
  {A : SetAllocator ℕ} {start stop i cursor : ℕ} {σ ε : Type}

/-! ## The walk -/

theorem divCeil_eq (a : ℕ) : divCeil a pageSize = (a + pageSize - 1) / pageSize := by
  unfold divCeil pageSize
  split <;> omega

/-- The frames of the extent that overlap the range are a run of frame numbers. -/
theorem overlaps_frameAddr_iff (haligned : extent.IsAligned) (hi : i < extent.frameCount)
    (hrange : start < stop) : FrameOverlaps (extent.frameAddr i) start stop ↔
      (max start extent.start.val - extent.start.val) / pageSize ≤ i ∧
        i < divCeil (min stop extent.stop.val - extent.start.val) pageSize := by
  rw [frameOverlaps_iff, divCeil_eq]
  unfold frameAddr
  unfold frameCount lenBytes at hi
  unfold IsAligned at haligned
  unfold pageSize at *
  omega

/-- The frame numbers of the window are those of frames of the extent. -/
theorem window_le (haligned : extent.IsAligned) :
    divCeil (min stop extent.stop.val - extent.start.val) pageSize ≤ extent.frameCount := by
  rw [divCeil_eq]
  unfold frameCount lenBytes
  unfold IsAligned at haligned
  unfold pageSize at *
  omega

/-- A reserved range that covers the cursor covers the frames up to its end. -/
theorem coveringEnd_some {next : ℕ} (hmodels : Models extent reserved pmm A)
    (haccepts : Accepts N R extent reserved) (hnext : pmm.coveringEnd cursor = some next) :
    cursor < next ∧ ∀ j, cursor ≤ j → j < next → Reserved reserved (extent.frameAddr j) := by
  obtain ⟨range, hfind, rfl⟩ := Option.map_eq_some_iff.mp hnext
  have hcovers := List.find?_some hfind
  have hmem := (hmodels.populated range).mp (List.mem_of_find?_eq_some hfind)
  have hwithin := haccepts.within range hmem
  unfold Pmm.rangeStartIdx Pmm.rangeEndIdx at *
  rw [hmodels.extent_eq] at *
  rw [decide_eq_true_iff] at hcovers
  refine ⟨hcovers.2, fun j hle hlt => ⟨range, hmem, ?_⟩⟩
  rw [hwithin.contains_iff haccepts.aligned, ← hwithin.stopIdx haccepts.aligned]
  exact ⟨hcovers.1.trans hle, hlt⟩

/-- A frame that no range covers is usable. -/
theorem coveringEnd_none (hmodels : Models extent reserved pmm A)
    (haccepts : Accepts N R extent reserved) (hnone : pmm.coveringEnd cursor = none) :
    ¬ Reserved reserved (extent.frameAddr cursor) := by
  intro hreserved
  obtain ⟨range, hmem, hcontains⟩ := hreserved
  have hwithin := haccepts.within range hmem
  have hnot := List.find?_eq_none.mp (Option.map_eq_none_iff.mp hnone) range
    ((hmodels.populated range).mpr hmem)
  rw [hwithin.contains_iff haccepts.aligned, ← hwithin.stopIdx haccepts.aligned] at hcontains
  apply hnot
  rw [decide_eq_true_iff]
  unfold Pmm.rangeStartIdx Pmm.rangeEndIdx
  rw [hmodels.extent_eq]
  exact hcontains

/-- What the walk knows: the frames before the cursor are reserved, or one of the window
is not. -/
def WalkInv (extent : PhysFrameRange) (reserved : List PhysFrameRange) (startIdx endIdx : ℕ) :
    YieldWalk → Prop
  | .scanning cursor => startIdx ≤ cursor ∧
      ∀ j, startIdx ≤ j → j < cursor → Reserved reserved (extent.frameAddr j)
  | .found => ∃ j, startIdx ≤ j ∧ j < endIdx ∧ ¬ Reserved reserved (extent.frameAddr j)

/-- What is left of the window. -/
def YieldWalk.left (endIdx : ℕ) : YieldWalk → ℕ
  | .scanning cursor => endIdx - cursor
  | .found => 0

/-- The walk ends, with whether a frame of the window is not reserved. -/
theorem walk_run (hmodels : Models extent reserved pmm A) (haccepts : Accepts N R extent reserved)
    (first last : ℕ) (s : σ) :
    ∃ walk, (Prog.loop (YieldWalk.Goes last) pmm.yieldStep (last - first + 1) (.scanning first) :
        Prog σ ε YieldWalk).run s = .ok walk s ∧
      (walk = .found ↔ ∃ j, first ≤ j ∧ j < last ∧ ¬ Reserved reserved (extent.frameAddr j)) := by
  have hstep : ∀ (w : YieldWalk) (t : σ), (WalkInv extent reserved first last w ∧ t = s) →
      w.Goes last → ∃ w' t', (pmm.yieldStep w : Prog σ ε YieldWalk).run t = .ok w' t' ∧
        w'.left last < w.left last ∧ (WalkInv extent reserved first last w' ∧ t' = s) := by
    intro w t hinv hgoes
    obtain ⟨hw, rfl⟩ := hinv
    cases w with
    | found => exact hgoes.elim
    | scanning cursor =>
      have hlast : cursor < last := hgoes
      unfold Pmm.yieldStep
      dsimp only
      cases hnext : pmm.coveringEnd cursor with
      | some next =>
        obtain ⟨hlt, hcovered⟩ := coveringEnd_some hmodels haccepts hnext
        refine ⟨.scanning next, t, rfl, ?_, ⟨hw.1.trans hlt.le, fun j hle hj => ?_⟩, rfl⟩
        · show last - next < last - cursor
          omega
        · rcases Nat.lt_or_ge j cursor with hbefore | hafter
          · exact hw.2 j hle hbefore
          · exact hcovered j hafter hj
      | none =>
        have hfree := coveringEnd_none hmodels haccepts hnext
        refine ⟨.found, t, rfl, ?_, ⟨cursor, hw.1, hlast, hfree⟩, rfl⟩
        show 0 < last - cursor
        omega
  have hstart : WalkInv extent reserved first last (.scanning first) :=
    ⟨le_rfl, fun j hle hj => by omega⟩
  have hfuel : (YieldWalk.scanning first).left last < last - first + 1 := Nat.lt_succ_self _
  obtain ⟨w, t, hrun, ⟨hw, rfl⟩, hends⟩ := Prog.loop_ok hstep ⟨hstart, rfl⟩ hfuel
  refine ⟨w, hrun, ?_⟩
  cases w with
  | found => exact iff_of_true rfl hw
  | scanning cursor =>
    refine iff_of_false nofun fun hcon => ?_
    obtain ⟨j, hle, hj, hfree⟩ := hcon
    have hend : ¬ cursor < last := hends
    exact hfree (hw.2 j hle (by omega))

/-- The answer is whether a usable frame overlaps the range. -/
theorem couldYieldPaOverlapping_run (hmodels : Models extent reserved pmm A)
    (haccepts : Accepts N R extent reserved) (start stop : ℕ) (s : σ) :
    ∃ b, (pmm.couldYieldPaOverlapping start stop : Prog σ ε Bool).run s = .ok b s ∧
      (b = true ↔ ∃ a ∈ usableFrames extent reserved, FrameOverlaps a start stop) := by
  have haligned := haccepts.aligned
  unfold Pmm.couldYieldPaOverlapping
  rw [hmodels.extent_eq]
  by_cases hempty : start ≥ stop
  · rw [if_pos hempty]
    refine ⟨false, rfl, iff_of_false nofun fun hcon => ?_⟩
    obtain ⟨a, -, hoverlaps⟩ := hcon
    have hbounds := frameOverlaps_iff.mp hoverlaps
    omega
  rw [if_neg hempty]
  dsimp only
  by_cases hapart : stop ≤ extent.start.val ∨ start ≥ extent.stop.val
  · rw [if_pos hapart]
    refine ⟨false, rfl, iff_of_false nofun fun hcon => ?_⟩
    obtain ⟨a, hmem, hoverlaps⟩ := hcon
    obtain ⟨hcontains, hpage⟩ := (mem_frames haligned).mp (mem_usableFrames.mp hmem).1
    have hbounds := frameOverlaps_iff.mp hoverlaps
    unfold Contains IsAligned at *
    unfold pageSize at *
    dsimp only at hcontains
    omega
  rw [if_neg hapart]
  have hfirst : (if start > extent.start.val then start else extent.start.val) =
      max start extent.start.val := by
    split <;> omega
  have hlast : (if stop < extent.stop.val then stop else extent.stop.val) =
      min stop extent.stop.val := by
    split <;> omega
  rw [hfirst, hlast]
  have hwindow : (∃ a ∈ usableFrames extent reserved, FrameOverlaps a start stop) ↔
      ∃ j, (max start extent.start.val - extent.start.val) / pageSize ≤ j ∧
        j < divCeil (min stop extent.stop.val - extent.start.val) pageSize ∧
        ¬ Reserved reserved (extent.frameAddr j) := by
    constructor
    · intro hex
      obtain ⟨a, hmem, hoverlaps⟩ := hex
      obtain ⟨hframe, hfree⟩ := mem_usableFrames.mp hmem
      obtain ⟨haddr, hi⟩ := frameAddr_index haligned hframe
      rw [← haddr, overlaps_frameAddr_iff haligned hi (by omega)] at hoverlaps
      rw [← haddr] at hfree
      exact ⟨_, hoverlaps.1, hoverlaps.2, hfree⟩
    · intro hex
      obtain ⟨j, hle, hj, hfree⟩ := hex
      have hi := hj.trans_le (window_le haligned)
      refine ⟨extent.frameAddr j, mem_usableFrames.mpr ⟨frameAddr_mem.mpr hi, hfree⟩, ?_⟩
      exact (overlaps_frameAddr_iff haligned hi (by omega)).mpr ⟨hle, hj⟩
  obtain ⟨walk, hrun, hfound⟩ := walk_run (ε := ε) hmodels haccepts
    ((max start extent.start.val - extent.start.val) / pageSize)
    (divCeil (min stop extent.stop.val - extent.start.val) pageSize) s
  rw [Prog.bind_ok hrun, hwindow, ← hfound]
  cases walk with
  | found => exact ⟨true, rfl, iff_of_true rfl rfl⟩
  | scanning cursor => exact ⟨false, rfl, iff_of_false nofun nofun⟩

/-! ## The future -/

variable [Build] {s s' : Supply (Pmm N R)} {evs : List (PmmEvent N R)}

/-- Every step of the set allocator is a call of the manager. -/
theorem exists_step_of_models {A' : SetAllocator ℕ} {op : SetAllocator.Op ℕ}
    {r : SetAllocator.Reply ℕ} (hmodels : Models extent reserved s.frames A)
    (haccepts : Accepts N R extent reserved) (hwindow : extent.stop.val ≤ directMapEnd)
    (hop : op = .alloc ∨ ∃ f : PhysFrame, op = .free f.addr.val)
    (hstep : SetAllocator.Step A (op, r) A') :
    ∃ ev s', PmmStep s ev s' ∧ Models extent reserved s'.frames A' := by
  have hcall : ∀ call : PmmOp, (∀ reply s', PmmEvent.spec ⟨s, call, reply, s'⟩ =
      (op, (PmmEvent.spec ⟨s, call, reply, s'⟩).2)) →
      ∃ ev s', PmmStep s ev s' ∧ Models extent reserved s'.frames A' := by
    intro call hspec
    obtain ⟨reply, s', hrun, heffect⟩ := PmmEffect.of_exec hmodels haccepts hwindow call
    let ev : PmmEvent N R := ⟨s, call, reply, s'⟩
    have hev : PmmEffect extent reserved s A ev.op ev.reply s' := heffect
    obtain ⟨A₁, hone, hmodels', -⟩ := hev.simulates hmodels
    rw [hspec] at hone
    rw [hone.unique hstep] at hmodels'
    exact ⟨ev, s', ⟨rfl, rfl, hrun⟩, hmodels'⟩
  rcases hop with rfl | ⟨f, rfl⟩
  · refine hcall .alloc fun reply s' => ?_
    cases reply with
    | error err => rfl
    | ok reply => cases reply <;> rfl
  · refine hcall (.free f) fun reply s' => ?_
    cases reply <;> rfl

/-- What the set allocator can reach, the manager can. -/
theorem exists_run_of_models {A' : SetAllocator ℕ}
    {es : List (SetAllocator.Op ℕ × SetAllocator.Reply ℕ)}
    (hmodels : Models extent reserved s.frames A) (haccepts : Accepts N R extent reserved)
    (hwindow : extent.stop.val ≤ directMapEnd) (hrun : Run SetAllocator.Step A es A') :
    ∃ evs s', Run PmmStep s evs s' ∧ Models extent reserved s'.frames A' := by
  induction hrun generalizing s with
  | nil A => exact ⟨[], s, .nil s, hmodels⟩
  | @cons A A₁ A' e es hstep hrest ih =>
    have hgo : (∃ ev s₁, PmmStep s ev s₁ ∧ Models extent reserved s₁.frames A₁) →
        ∃ evs s', Run PmmStep s evs s' ∧ Models extent reserved s'.frames A' := by
      intro hone
      obtain ⟨ev, s₁, hcall, hmodels₁⟩ := hone
      obtain ⟨evs, s', hevs, hmodels'⟩ := ih hmodels₁
      exact ⟨ev :: evs, s', .cons hcall hevs, hmodels'⟩
    have husable : A.outstanding ⊆ usableFrames extent reserved :=
      hmodels.usable ▸ A.outstanding_subset
    have hone := hstep
    cases hstep with
    | alloc => exact hgo (exists_step_of_models hmodels haccepts hwindow (Or.inl rfl) hone)
    | exhausted => exact ih hmodels
    | refused => exact ih hmodels
    | @free a hout =>
      have hframe := (mem_usableFrames.mp (husable hout)).1
      have hpage : a % pageSize = 0 := ((mem_frames haccepts.aligned).mp hframe).2
      exact hgo (exists_step_of_models hmodels haccepts hwindow (Or.inr ⟨⟨⟨a⟩, hpage⟩, rfl⟩) hone)

/-- A continuation after which an allocation returns a frame that overlaps the range. -/
def YieldsLater (s : Supply (Pmm N R)) (start stop : ℕ) : Prop :=
  ∃ evs s' f s'', Run PmmStep s evs s' ∧
    (Pmm.allocFrame : Prog _ PmmError _).run s' = .ok (some f) s'' ∧
    FrameOverlaps f.addr.val start stop

theorem yieldsLater_iff (hmodels : Models extent reserved s.frames A)
    (haccepts : Accepts N R extent reserved) (hwindow : extent.stop.val ≤ directMapEnd)
    (start stop : ℕ) :
    YieldsLater s start stop ↔ ∃ a ∈ usableFrames extent reserved, FrameOverlaps a start stop := by
  constructor
  · intro hlater
    obtain ⟨evs, s', f, s'', hrun, halloc, hoverlaps⟩ := hlater
    obtain ⟨A', -, hmodels', -⟩ := simulates_of_run hmodels haccepts (stop_lt hwindow) hrun
    rcases hmodels'.allocFrame_run (ε := PmmError) haccepts hwindow with ⟨-, hnone⟩ |
      ⟨g, t, husable, -, hsome, -, -⟩
    · rw [hnone] at halloc
      cases halloc
    · rw [hsome] at halloc
      cases halloc
      exact ⟨_, hmodels'.usable ▸ husable, hoverlaps⟩
  · intro hex
    obtain ⟨a, ha, hoverlaps⟩ := hex
    rw [← hmodels.usable] at ha
    obtain ⟨es, A', habstract, hleast⟩ := SetAllocator.exists_run_of_usable ha
    obtain ⟨evs, s', hrun, hmodels'⟩ := exists_run_of_models hmodels haccepts hwindow habstract
    rcases hmodels'.allocFrame_run (ε := PmmError) haccepts hwindow with ⟨hempty, -⟩ |
      ⟨g, t, -, hleast', hsome, -, -⟩
    · have hmem : a ∈ A'.available := hleast.1
      rw [hempty] at hmem
      exact absurd hmem (Finset.notMem_empty _)
    · rw [hleast.unique hleast'] at hoverlaps
      exact ⟨evs, s', g, t, hrun, hsome, hoverlaps⟩

/-- In every state that calls reach from a manager that `Pmm::new` has built, for any two
bounds: the walk ends, with a cursor that each jump increases; the answer is whether a
usable frame overlaps the range, and whether some continuation hands one out. -/
theorem couldYield_decides {pmm : Pmm N R} {m : Memory} (hwindow : extent.stop.val ≤ directMapEnd)
    (hnew : (Pmm.new extent reserved : Prog Unit PmmError (Pmm N R)).run () = .ok pmm ())
    (hrun : Run PmmStep ⟨pmm, m⟩ evs s) (start stop : ℕ) :
    (∀ cursor next, s.frames.coveringEnd cursor = some next → cursor < next) ∧
    ∃ b, (s.frames.couldYieldPaOverlapping start stop : Prog Unit PmmError Bool).run () =
        .ok b () ∧
      (b = true ↔ ∃ a ∈ usableFrames extent reserved, FrameOverlaps a start stop) ∧
      (b = true ↔ YieldsLater s start stop) := by
  rcases new_cases (N := N) (R := R) extent reserved hwindow () with ⟨err, herr⟩ |
    ⟨pmm', hok, haccepts, hmodels₀⟩
  · rw [herr] at hnew
    cases hnew
  · obtain rfl : pmm' = pmm := (Result.ok.inj (hok.symm.trans hnew)).1
    have hfresh : Models extent reserved (⟨pmm', m⟩ : Supply (Pmm N R)).frames
        (freshAllocator extent reserved) := hmodels₀
    obtain ⟨A, -, hmodels, -⟩ := simulates_of_run hfresh haccepts (stop_lt hwindow) hrun
    obtain ⟨b, hwalk, hanswer⟩ := couldYieldPaOverlapping_run (ε := PmmError) hmodels haccepts
      start stop ()
    refine ⟨fun cursor next hnext => (coveringEnd_some hmodels haccepts hnext).1, b, hwalk,
      hanswer, ?_⟩
    rw [yieldsLater_iff hmodels haccepts hwindow]
    exact hanswer

omit [Build] in
/-- The first of two frames is reserved: the range `[1, 2)` in it is safe, the range
`[4095, 4097)` reaches the second. -/
theorem couldYield_decides_twoFrames : let _ : Build := debugBuild
    ¬ YieldsLater (N := 1) (R := 1) ⟨twoFramesPmm, fun _ => 1⟩ 1 2 ∧
    YieldsLater (N := 1) (R := 1) ⟨twoFramesPmm, fun _ => 1⟩ 4095 4097 := by
  intro _
  have hnew : (Pmm.new twoFrames firstReserved : Prog Unit PmmError (Pmm 1 1)).run () =
      .ok twoFramesPmm () := by
    with_unfolding_all rfl
  have hrun : Run PmmStep ⟨twoFramesPmm, fun _ => 1⟩ [] ⟨twoFramesPmm, fun _ => 1⟩ := .nil _
  obtain ⟨-, b, hb, -, hlater⟩ := couldYield_decides (by decide) hnew hrun 1 2
  obtain ⟨-, b', hb', -, hlater'⟩ := couldYield_decides (by decide) hnew hrun 4095 4097
  have hfalse : (twoFramesPmm.couldYieldPaOverlapping 1 2 : Prog Unit PmmError Bool).run () =
      .ok false () := by
    with_unfolding_all rfl
  have htrue : (twoFramesPmm.couldYieldPaOverlapping 4095 4097 : Prog Unit PmmError Bool).run () =
      .ok true () := by
    with_unfolding_all rfl
  rw [hfalse] at hb
  rw [htrue] at hb'
  cases hb
  cases hb'
  exact ⟨fun hcon => (nomatch hlater.mpr hcon), hlater'.mp rfl⟩

end Tyrne
