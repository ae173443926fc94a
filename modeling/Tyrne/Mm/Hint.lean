import Tyrne.Mm.Runs

/-!
# The allocation hint

Everything before the hint is set, so the second pass of an allocation finds nothing and the
forward pass alone is the first fit over all frames. No bit past the last frame is ever set.
-/

namespace Tyrne

open PhysFrameRange PmmEvent

variable {N R : ℕ} {extent : PhysFrameRange} {reserved : List PhysFrameRange} [Build]
  {pmm : Pmm N R} {s s' : Supply (Pmm N R)} {A : SetAllocator ℕ} {evs : List (PmmEvent N R)}

omit [Build] in
/-- No bit past the last frame is set. -/
def Pmm.Tight (pmm : Pmm N R) : Prop :=
  ∀ i, Bitmap.test pmm.bitmap i = true → i < pmm.extent.frameCount

/-! ## No bit past the last frame -/

/-- An allocation sets at most the bit it has found. -/
theorem Pmm.Tight.allocFrame {ε : Type} {found : Option PhysFrame} (htight : s.frames.Tight)
    (hmodels : Models extent reserved s.frames A) (haccepts : Accepts N R extent reserved)
    (hrun : (Pmm.allocFrame : Prog _ ε _).run s = .ok found s') : s'.frames.Tight := by
  unfold Pmm.allocFrame at hrun
  rw [Prog.get_bind_run] at hrun
  dsimp only at hrun
  rcases hmodels.findFrame_run (ε := ε) haccepts s with ⟨_, hfind⟩ | ⟨i, hi, _, hfind⟩
  · rw [Prog.bind_ok hfind] at hrun
    obtain ⟨_, rfl⟩ := Result.ok.inj hrun
    exact htight
  · rw [Prog.bind_ok hfind] at hrun
    dsimp only at hrun
    split at hrun
    · obtain ⟨_, rfl⟩ := Result.ok.inj hrun
      exact htight
    · obtain ⟨_, t, _, hrun⟩ := Prog.bind_eq_ok.mp hrun
      have hcovered := haccepts.covered
      rw [Prog.bind_ok (setBit_run (by omega) t)] at hrun
      obtain ⟨_, rfl⟩ := Result.ok.inj hrun
      intro j hj
      have hextent := hmodels.extent_eq
      dsimp only at hj ⊢
      rw [Bitmap.test_insert, Bool.or_eq_true, decide_eq_true_eq] at hj
      rcases hj with rfl | hj
      · rw [hextent]
        exact hi
      · exact htight j hj

/-- A free sets none. -/
theorem Pmm.Tight.freeFrame {pmm' : Pmm N R} {f : PhysFrame} (htight : pmm.Tight)
    (hrun : (Pmm.freeFrame f).run pmm = .ok () pmm') : pmm'.Tight := by
  unfold Pmm.freeFrame at hrun
  rw [Prog.get_bind_run] at hrun
  dsimp only at hrun
  generalize hidx : (f.addr.val - pmm.extent.start.val) / pageSize = i at hrun
  obtain ⟨_, s₁, h₁, hrun⟩ := Prog.bind_eq_ok.mp hrun
  obtain ⟨_, s₂, h₂, hrun⟩ := Prog.bind_eq_ok.mp hrun
  obtain ⟨_, s₃, h₃, hrun⟩ := Prog.bind_eq_ok.mp hrun
  obtain ⟨_, s₄, h₄, hrun⟩ := Prog.bind_eq_ok.mp hrun
  obtain ⟨bitmap, s₅, hclear, hrun⟩ := Prog.bind_eq_ok.mp hrun
  obtain ⟨_, rfl⟩ := Result.ok.inj hrun
  have hbits : bitmap = Bitmap.erase pmm.bitmap i := by
    unfold clearBit debugAssert at hclear
    split at hclear
    · cases hclear
    · rw [Prog.pure_bind_run] at hclear
      split at hclear
      · exact (Result.ok.inj hclear).1.symm
      · cases hclear
  intro j hj
  dsimp only at hj ⊢
  rw [hbits, Bitmap.test_erase, Bool.and_eq_true] at hj
  exact htight j hj.2

theorem Pmm.Tight.step {ev : PmmEvent N R} (htight : s.frames.Tight)
    (hmodels : Models extent reserved s.frames A) (haccepts : Accepts N R extent reserved)
    (hstop : extent.stop.val < 2 ^ 64) (hstep : PmmStep s ev s') : s'.frames.Tight := by
  have heffect := PmmEffect.of_step hmodels haccepts hstop hstep
  obtain ⟨-, -, hexec⟩ := hstep
  cases hop : ev.op with
  | alloc =>
    rw [hop] at heffect hexec
    cases hreply : ev.reply with
    | error err =>
      rw [hreply] at heffect
      cases heffect
    | ok r =>
      rw [hreply] at hexec
      obtain ⟨found, t, hrun, hrest⟩ := Prog.bind_eq_ok.mp hexec
      obtain ⟨-, rfl⟩ := Result.ok.inj hrest
      exact htight.allocFrame hmodels haccepts hrun
  | free f =>
    rw [hop] at heffect hexec
    cases hreply : ev.reply with
    | error err =>
      rw [hreply] at heffect
      cases heffect
      exact htight
    | ok r =>
      rw [hreply] at hexec
      obtain ⟨_, t, hrun, hrest⟩ := Prog.bind_eq_ok.mp hexec
      obtain ⟨-, rfl⟩ := Result.ok.inj hrest
      obtain ⟨pmm', hfree, rfl⟩ := Prog.zoom_eq_ok.mp hrun
      exact htight.freeFrame hfree

theorem Pmm.Tight.run (htight : s.frames.Tight) (hmodels : Models extent reserved s.frames A)
    (haccepts : Accepts N R extent reserved) (hstop : extent.stop.val < 2 ^ 64)
    (hrun : Run PmmStep s evs s') : s'.frames.Tight := by
  induction hrun generalizing A with
  | nil s => exact htight
  | cons hstep _ ih =>
    have heffect := PmmEffect.of_step hmodels haccepts hstop hstep
    obtain ⟨A₁, -, hmodels₁, -⟩ := heffect.simulates hmodels
    exact ih (htight.step hmodels haccepts hstop hstep) hmodels₁

/-! ## The scan from the hint -/

section Scan

variable {σ ε : Type}

/-- The second pass finds nothing. -/
theorem Models.wrap_run (hmodels : Models extent reserved pmm A)
    (haccepts : Accepts N R extent reserved) (s : σ) :
    (findClear N pmm.bitmap 0 pmm.hint : Prog σ ε _).run s = .ok none s := by
  have hcovered := haccepts.covered
  have hle := hmodels.hint_le
  rw [findClear_run (by omega) s, Bitmap.firstClear_eq_none.mpr fun j _ hj =>
    hmodels.hint j (by omega)]

/-- So the search is the forward pass. -/
theorem Models.findFrame_forward (hmodels : Models extent reserved pmm A)
    (haccepts : Accepts N R extent reserved) (s : σ) :
    (pmm.findFrame : Prog σ ε _).run s =
      (findClear N pmm.bitmap pmm.hint (pmm.extent.frameCount - pmm.hint)).run s := by
  have hcovered := haccepts.covered
  have hle := hmodels.hint_le
  have hextent := hmodels.extent_eq
  have hscan : (findClear N pmm.bitmap pmm.hint (pmm.extent.frameCount - pmm.hint) :
      Prog σ ε _).run s = .ok _ s := findClear_run (by rw [hextent]; omega) s
  unfold Pmm.findFrame
  rw [Prog.bind_ok hscan, hscan]
  split
  · rename_i hnone
    rw [hmodels.wrap_run haccepts s, hnone.1]
  · rfl

/-- And the forward pass is the first fit over all frames. -/
theorem Models.forward_firstFit (hmodels : Models extent reserved pmm A)
    (haccepts : Accepts N R extent reserved) (s : σ) :
    (findClear N pmm.bitmap pmm.hint (pmm.extent.frameCount - pmm.hint) : Prog σ ε _).run s =
      (firstZeroBit N pmm.bitmap pmm.extent.frameCount).run s := by
  have hcovered := haccepts.covered
  have hle := hmodels.hint_le
  have hextent := hmodels.extent_eq
  unfold firstZeroBit
  rw [findClear_run (by rw [hextent]; omega) s, findClear_run (by rw [hextent]; omega) s,
    Bitmap.firstClear_skip hmodels.hint (by rw [hextent]; exact hle)]

end Scan

omit [Build] in
theorem Models.hint_le_of_clear (hmodels : Models extent reserved pmm A) {i : ℕ}
    (hclear : Bitmap.test pmm.bitmap i = false) : pmm.hint ≤ i := by
  by_contra hbelow
  have hset := hmodels.hint i (not_le.mp hbelow)
  rw [hset] at hclear
  cases hclear

/-- The hint of a manager whose frames `out` are outstanding passes over no free frame, and the
forward scan from it is the first fit. -/
structure Pmm.HintSound (extent : PhysFrameRange) (reserved : List PhysFrameRange)
    (out : Finset ℕ) (pmm : Pmm N R) : Prop where
  extent_eq : pmm.extent = extent
  hint_le : pmm.hint ≤ extent.frameCount
  hint_le_free : ∀ i < extent.frameCount, extent.frameAddr i ∈ usableFrames extent reserved →
    extent.frameAddr i ∉ out → pmm.hint ≤ i
  hint_le_clear : ∀ i, Bitmap.test pmm.bitmap i = false → pmm.hint ≤ i
  wrap : ∀ {σ ε : Type} (s : σ),
    (findClear N pmm.bitmap 0 pmm.hint : Prog σ ε _).run s = .ok none s
  forward : ∀ {σ ε : Type} (s : σ), (pmm.findFrame : Prog σ ε _).run s =
    (findClear N pmm.bitmap pmm.hint (extent.frameCount - pmm.hint)).run s
  firstFit : ∀ {σ ε : Type} (s : σ), (pmm.findFrame : Prog σ ε _).run s =
    (firstZeroBit N pmm.bitmap extent.frameCount).run s
  tight : ∀ i, extent.frameCount ≤ i → Bitmap.test pmm.bitmap i = false

theorem Models.hintSound (hmodels : Models extent reserved pmm A)
    (haccepts : Accepts N R extent reserved) (htight : pmm.Tight) :
    pmm.HintSound extent reserved A.outstanding := by
  have hextent := hmodels.extent_eq
  refine ⟨hextent, hmodels.hint_le, fun i hi husable hout => ?_, fun i => hmodels.hint_le_of_clear,
    hmodels.wrap_run haccepts, fun s => ?_, fun s => ?_, fun i hi => ?_⟩
  · apply hmodels.hint_le_of_clear
    rw [← Bool.not_eq_true, hmodels.bits i hi]
    exact not_not.mpr (SetAllocator.mem_available.mpr ⟨hmodels.usable ▸ husable, hout⟩)
  · exact hextent ▸ hmodels.findFrame_forward haccepts s
  · exact hextent ▸ (hmodels.findFrame_forward haccepts s).trans
      (hmodels.forward_firstFit haccepts s)
  · rw [← Bool.not_eq_true]
    intro hset
    have hlt := htight i hset
    rw [hextent] at hlt
    omega

/-- Every manager that allocations and frees reach from a new one has a sound hint. -/
theorem hint_sound {m : Memory} (hstop : extent.stop.val < 2 ^ 64)
    (hnew : (Pmm.new extent reserved : Prog Unit PmmError (Pmm N R)).run () = .ok pmm ())
    (hrun : Run PmmStep ⟨pmm, m⟩ evs s) :
    s.frames.HintSound extent reserved (outstanding evs) := by
  rcases new_builds (N := N) (R := R) extent reserved hstop () with ⟨err, herr⟩ |
    ⟨pmm', hok, haccepts, hmodels₀, htight₀⟩
  · rw [herr] at hnew
    cases hnew
  · obtain rfl : pmm' = pmm := (Result.ok.inj (hok.symm.trans hnew)).1
    have hfresh : Models extent reserved (⟨pmm', m⟩ : Supply (Pmm N R)).frames
        (freshAllocator extent reserved) := hmodels₀
    have htight : (⟨pmm', m⟩ : Supply (Pmm N R)).frames.Tight := by
      intro i hi
      rw [show (⟨pmm', m⟩ : Supply (Pmm N R)).frames.extent = extent from hfresh.extent_eq]
      exact htight₀ i hi
    obtain ⟨A, -, hmodels, hout⟩ := simulates_of_run hfresh haccepts hstop hrun
    have hsound := hmodels.hintSound haccepts (htight.run hfresh haccepts hstop hrun)
    have hsame : A.outstanding = outstanding evs := hout
    rwa [hsame] at hsound

omit [Build] in
/-- After one allocation of the two frames. -/
theorem hint_sound_twoFrames : let _ : Build := debugBuild
    twoFramesTaken.frames.HintSound twoFrames firstReserved {4096} := by
  intro _
  have hnew : (Pmm.new twoFrames firstReserved : Prog Unit PmmError (Pmm 1 1)).run () =
      .ok twoFramesPmm () := by
    with_unfolding_all rfl
  have hrun : Run PmmStep ⟨twoFramesPmm, fun _ => 1⟩
      [⟨⟨twoFramesPmm, fun _ => 1⟩, .alloc, .ok (.frame (some secondFrame)), twoFramesTaken⟩]
      twoFramesTaken :=
    .cons ⟨rfl, rfl, Prog.bind_ok allocFrame_twoFrames⟩ (.nil _)
  exact hint_sound (by decide) hnew hrun

end Tyrne
