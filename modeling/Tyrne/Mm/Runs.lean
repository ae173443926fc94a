import Tyrne.Mm.Allocator

/-!
# Runs of the memory manager

Any sequence of allocations and frees, with any arguments, from a manager that
`Pmm::new` has built. Every step is a step of the set allocator of the usable frames.
-/

namespace Tyrne

open PhysFrameRange

variable {N R : ℕ} {extent : PhysFrameRange} {reserved : List PhysFrameRange}

inductive PmmOp
  | alloc
  | free (frame : PhysFrame)

inductive PmmReply
  | frame (frame : Option PhysFrame)
  | freed

/-- One call of a run, with the states before and after it. -/
structure PmmEvent (N R : ℕ) where
  before : Supply (Pmm N R)
  op : PmmOp
  reply : Except PmmError PmmReply
  after : Supply (Pmm N R)

namespace PmmEvent

/-- The frames that are outstanding after the event, from those before it. -/
def hold (out : Finset ℕ) (ev : PmmEvent N R) : Finset ℕ :=
  match ev.op, ev.reply with
  | .alloc, .ok (.frame (some f)) => insert f.addr.val out
  | .free f, .ok _ => out.erase f.addr.val
  | _, _ => out

/-- The frames that the events have handed out and not taken back. -/
def outstanding (evs : List (PmmEvent N R)) : Finset ℕ := evs.foldl hold ∅

/-- The event as an operation of the set allocator. -/
def spec (ev : PmmEvent N R) : SetAllocator.Op ℕ × SetAllocator.Reply ℕ :=
  match ev.op, ev.reply with
  | .alloc, .ok (.frame found) => (.alloc, .allocated (found.map (·.addr.val)))
  | .alloc, _ => (.alloc, .refused)
  | .free f, .ok _ => (.free f.addr.val, .freed)
  | .free f, .error _ => (.free f.addr.val, .refused)

end PmmEvent

namespace PmmEvent

theorem spec_alloc {ev : PmmEvent N R} {found : Option PhysFrame} (hop : ev.op = .alloc)
    (hreply : ev.reply = .ok (.frame found)) :
    ev.spec = (.alloc, .allocated (found.map (·.addr.val))) := by
  unfold spec
  rw [hop, hreply]

/-- Only a successful free is a free of the set allocator. -/
theorem freed_of_spec {ev : PmmEvent N R} {f : PhysFrame}
    (hspec : ev.spec = (.free f.addr.val, .freed)) :
    ev.op = .free f ∧ ∃ r, ev.reply = .ok r := by
  obtain ⟨before, op, reply, after⟩ := ev
  cases op with
  | alloc => cases reply with
    | error err => exact nomatch (Prod.mk.inj hspec).1
    | ok r => cases r with
      | frame found => exact nomatch (Prod.mk.inj hspec).1
      | freed => exact nomatch (Prod.mk.inj hspec).1
  | free g => cases reply with
    | error err => exact nomatch (Prod.mk.inj hspec).2
    | ok r =>
      have hval := SetAllocator.Op.free.inj (Prod.mk.inj hspec).1
      have heq : g = f := PhysFrame.ext_val hval
      exact ⟨congrArg PmmOp.free heq, r, rfl⟩

end PmmEvent

open PmmEvent

variable [Build]

def PmmOp.exec : PmmOp → Prog (Supply (Pmm N R)) PmmError PmmReply
  | .alloc => do return .frame (← Pmm.allocFrame)
  | .free frame => do
    Prog.zoom Supply.frames (fun frames s => { s with frames }) id (Pmm.freeFrame frame)
    return .freed

/-- The call returned. -/
structure PmmStep (s : Supply (Pmm N R)) (ev : PmmEvent N R) (s' : Supply (Pmm N R)) : Prop where
  before : ev.before = s
  after : ev.after = s'
  exec : ev.op.exec.run s = .returned ev.reply s'

variable {s s' : Supply (Pmm N R)} {ev : PmmEvent N R} {evs : List (PmmEvent N R)}
  {A : SetAllocator ℕ}

/-! ## What a step does -/

/-- The effect of a call on the manager and on memory. -/
inductive PmmEffect (extent : PhysFrameRange) (reserved : List PhysFrameRange)
    (s : Supply (Pmm N R)) (A : SetAllocator ℕ) :
    PmmOp → Except PmmError PmmReply → Supply (Pmm N R) → Prop
  | allocated {f : PhysFrame} {s' : Supply (Pmm N R)} (husable : f.addr.val ∈ A.usable) :
      IsLeast (A.available : Set ℕ) f.addr.val →
      Models extent reserved s'.frames (A.take f.addr.val husable) →
      s'.memory = s.memory.zeroFrame f.addr.val →
      PmmEffect extent reserved s A .alloc (.ok (.frame (some f))) s'
  | exhausted : A.available = ∅ → PmmEffect extent reserved s A .alloc (.ok (.frame none)) s
  | freed {f : PhysFrame} {pmm' : Pmm N R} : f.addr.val ∈ A.outstanding →
      Models extent reserved pmm' (A.release f.addr.val) →
      PmmEffect extent reserved s A (.free f) (.ok .freed) { s with frames := pmm' }
  | refused {f : PhysFrame} {err : PmmError} : f.addr.val ∉ A.outstanding →
      PmmEffect extent reserved s A (.free f) (.error err) s

/-- Every call returns, with one of the effects. -/
theorem PmmEffect.of_exec (hmodels : Models extent reserved s.frames A)
    (haccepts : Accepts N R extent reserved) (hwindow : extent.stop.val ≤ directMapEnd)
    (op : PmmOp) :
    ∃ reply s', op.exec.run s = .returned reply s' ∧ PmmEffect extent reserved s A op reply s' := by
  cases op with
  | alloc =>
    rcases hmodels.allocFrame_run (ε := PmmError) haccepts hwindow with ⟨hempty, hrun⟩ |
      ⟨f, s', husable, hleast, hrun, hmodels', hmemory⟩
    · exact ⟨.ok (.frame none), s, Prog.bind_ok hrun, .exhausted hempty⟩
    · exact ⟨.ok (.frame (some f)), s', Prog.bind_ok hrun,
        .allocated husable hleast hmodels' hmemory⟩
  | free f =>
    rcases hmodels.freeFrame_run haccepts hwindow f with ⟨hnot, err, hrun⟩ |
      ⟨hout, pmm', hrun, hmodels'⟩
    · exact ⟨.error err, s, Prog.bind_err (Prog.zoom_err hrun), .refused hnot⟩
    · exact ⟨.ok .freed, _, Prog.bind_ok (Prog.zoom_ok hrun), .freed hout hmodels'⟩

/-- What a call that returned has done, wherever the extent lies. -/
theorem PmmEffect.of_step (hmodels : Models extent reserved s.frames A)
    (haccepts : Accepts N R extent reserved) (hstop : extent.stop.val < 2 ^ 64)
    (hstep : PmmStep s ev s') : PmmEffect extent reserved s A ev.op ev.reply s' := by
  obtain ⟨-, -, hexec⟩ := hstep
  cases hop : ev.op with
  | alloc =>
    rw [hop] at hexec
    rcases hmodels.allocFrame_cases haccepts hstop with ⟨hempty, hrun⟩ | ⟨_, hpanic⟩ |
      ⟨f, t, husable, hleast, hrun, hmodels', hmemory⟩
    · have hends : (PmmOp.alloc.exec : Prog (Supply (Pmm N R)) _ _).run s =
          .returned (.ok (.frame none)) s := Prog.bind_ok (hrun PmmError)
      obtain ⟨hreply, rfl⟩ := Result.returned_inj.mp (hexec.symm.trans hends)
      exact hreply ▸ .exhausted hempty
    · obtain ⟨cause, hrun⟩ := hpanic PmmError
      have hends := hexec.symm.trans (Prog.bind_panic hrun)
      cases hreply : ev.reply <;> rw [hreply] at hends <;> cases hends
    · have hends : PmmOp.alloc.exec.run s = .returned (.ok (.frame (some f))) t :=
        Prog.bind_ok (hrun PmmError)
      obtain ⟨hreply, rfl⟩ := Result.returned_inj.mp (hexec.symm.trans hends)
      exact hreply ▸ .allocated husable hleast hmodels' hmemory
  | free f =>
    rw [hop] at hexec
    rcases hmodels.freeFrame_cases haccepts hstop f with ⟨hnot, err, hrun⟩ |
      ⟨hout, pmm', hrun, hmodels'⟩
    · have hends : (PmmOp.free f).exec.run s = .returned (.error err) s :=
        Prog.bind_err (Prog.zoom_err hrun)
      obtain ⟨hreply, rfl⟩ := Result.returned_inj.mp (hexec.symm.trans hends)
      exact hreply ▸ .refused hnot
    · have hends : (PmmOp.free f).exec.run s = .returned (.ok .freed) { s with frames := pmm' } :=
        Prog.bind_ok (Prog.zoom_ok hrun)
      obtain ⟨hreply, rfl⟩ := Result.returned_inj.mp (hexec.symm.trans hends)
      exact hreply ▸ .freed hout hmodels'

omit [Build] in
/-- A call is a step of the set allocator, which the manager goes on to model. -/
theorem PmmEffect.simulates (hmodels : Models extent reserved s.frames A)
    (heffect : PmmEffect extent reserved s A ev.op ev.reply s') :
    ∃ A', SetAllocator.Step A ev.spec A' ∧ Models extent reserved s'.frames A' ∧
      A'.outstanding = hold A.outstanding ev := by
  obtain ⟨before, op, reply, after⟩ := ev
  dsimp only at heffect
  cases heffect with
  | allocated husable hleast hmodels' => exact ⟨_, .alloc husable hleast, hmodels', rfl⟩
  | exhausted hempty => exact ⟨A, .exhausted hempty, hmodels, rfl⟩
  | freed hout hmodels' => exact ⟨_, .free hout, hmodels', rfl⟩
  | refused hnot => exact ⟨A, .refused hnot, hmodels, rfl⟩

/-! ## Whole runs -/

/-- A run of the manager is a run of the set allocator. -/
theorem simulates_of_run (hmodels : Models extent reserved s.frames A)
    (haccepts : Accepts N R extent reserved) (hstop : extent.stop.val < 2 ^ 64)
    (hrun : Run PmmStep s evs s') : ∃ A', Run SetAllocator.Step A (evs.map spec) A' ∧
      Models extent reserved s'.frames A' ∧ A'.outstanding = evs.foldl hold A.outstanding := by
  induction hrun generalizing A with
  | nil s => exact ⟨A, .nil A, hmodels, rfl⟩
  | cons hstep _ ih =>
    have heffect := PmmEffect.of_step hmodels haccepts hstop hstep
    obtain ⟨A₁, hone, hmodels₁, hout⟩ := heffect.simulates hmodels
    obtain ⟨A', hrest, hmodels', hout'⟩ := ih hmodels₁
    exact ⟨A', .cons hone hrest, hmodels', by rw [hout', hout]; rfl⟩

/-- What an allocation returns when `out` is outstanding: the lowest usable frame that is
not, all of it zero and the rest of memory as it was; or nothing when there is none. -/
def AllocatesLeast (extent : PhysFrameRange) (reserved : List PhysFrameRange) (out : Finset ℕ)
    (s : Supply (Pmm N R)) : Prop :=
  ∃ found s', (Pmm.allocFrame : Prog _ PmmError _).run s = .ok found s' ∧
    match found with
    | some f => IsLeast {a | a ∈ usableFrames extent reserved ∧ a ∉ out} f.addr.val ∧
        (∀ a, InFrame f.addr.val a → s'.memory a = 0) ∧
        ∀ a, ¬ InFrame f.addr.val a → s'.memory a = s.memory a
    | none => (∀ a ∈ usableFrames extent reserved, a ∈ out) ∧ s' = s

/-- A free goes through for a frame of `out`, and for any other it is an error that
changes nothing. -/
def FreesOutstanding (out : Finset ℕ) (pmm : Pmm N R) : Prop :=
  ∀ f : PhysFrame, if f.addr.val ∈ out then ∃ pmm', (Pmm.freeFrame f).run pmm = .ok () pmm'
    else ∃ err, (Pmm.freeFrame f).run pmm = .err err pmm

omit [Build] in
/-- The counters are the numbers of frames in each state. -/
def CountsFrames (extent : PhysFrameRange) (reserved : List PhysFrameRange) (out : Finset ℕ)
    (stats : PmmStats) : Prop :=
  stats.totalFrames = extent.frames.card ∧
  stats.reservedFrames = (reservedFrames extent reserved).card ∧
  stats.allocatedFrames = out.card ∧
  stats.freeFrames = (usableFrames extent reserved \ out).card ∧
  stats.totalFrames = stats.reservedFrames + stats.allocatedFrames + stats.freeFrames

theorem Models.allocatesLeast (hmodels : Models extent reserved s.frames A)
    (haccepts : Accepts N R extent reserved) (hwindow : extent.stop.val ≤ directMapEnd) :
    AllocatesLeast extent reserved A.outstanding s := by
  have havailable : ∀ a, a ∈ A.available ↔
      a ∈ usableFrames extent reserved ∧ a ∉ A.outstanding := by
    intro a
    rw [SetAllocator.mem_available, hmodels.usable]
  rcases hmodels.allocFrame_run (ε := PmmError) haccepts hwindow with ⟨hempty, hrun⟩ |
    ⟨f, s', _, hleast, hrun, _, hmemory⟩
  · refine ⟨none, s, hrun, fun a ha => ?_, rfl⟩
    by_contra hnot
    have hmem := (havailable a).mpr ⟨ha, hnot⟩
    rw [hempty] at hmem
    exact Finset.notMem_empty a hmem
  · refine ⟨some f, s', hrun, ⟨(havailable _).mp hleast.1, fun a ha => ?_⟩, fun a ha => ?_,
      fun a ha => ?_⟩
    · exact hleast.2 ((havailable a).mpr ha)
    · rw [hmemory]
      exact if_pos ha
    · rw [hmemory]
      exact if_neg ha

theorem Models.freesOutstanding (hmodels : Models extent reserved s.frames A)
    (haccepts : Accepts N R extent reserved) (hwindow : extent.stop.val ≤ directMapEnd) :
    FreesOutstanding A.outstanding s.frames := by
  intro f
  rcases hmodels.freeFrame_run haccepts hwindow f with ⟨hnot, hrefused⟩ | ⟨hout, pmm', hrun, _⟩
  · rw [if_neg hnot]
    exact hrefused
  · rw [if_pos hout]
    exact ⟨pmm', hrun⟩

omit [Build] in
theorem Models.countsFrames {pmm : Pmm N R} (hmodels : Models extent reserved pmm A) :
    CountsFrames extent reserved A.outstanding pmm.stats := by
  obtain ⟨hextent, _, husable, _, _, _, hreserved, hallocated, hfree⟩ := hmodels
  have hcards := A.card_available
  have htotal := card_reserved_add_usable extent reserved
  have hsdiff : (usableFrames extent reserved \ A.outstanding).card = A.available.card := by
    rw [← husable]
    rfl
  have hframes := card_frames extent
  unfold CountsFrames Pmm.stats
  dsimp only
  rw [hextent, hreserved, hallocated, hfree, hsdiff]
  rw [husable] at hcards
  exact ⟨hframes.symm, rfl, rfl, rfl, by omega⟩

/-- Between two allocations that return the same frame it was freed. -/
theorem Models.freed_between (hmodels : Models extent reserved s.frames A)
    (haccepts : Accepts N R extent reserved) (hwindow : extent.stop.val ≤ directMapEnd)
    {past mid rest : List (PmmEvent N R)} {ev₁ ev₂ : PmmEvent N R} {f : PhysFrame}
    (hrun : Run PmmStep s (past ++ ev₁ :: (mid ++ ev₂ :: rest)) s')
    (hfirst : ev₁.op = .alloc ∧ ev₁.reply = .ok (.frame (some f)))
    (hagain : ev₂.op = .alloc ∧ ev₂.reply = .ok (.frame (some f))) :
    ∃ ev ∈ mid, ev.op = .free f ∧ ∃ r, ev.reply = .ok r := by
  obtain ⟨s₁, hpast, hrest⟩ := hrun.split
  obtain ⟨A₁, _, hmodels₁, _⟩ := simulates_of_run hmodels haccepts (stop_lt hwindow) hpast
  cases hrest with
  | cons hone hrest =>
    obtain ⟨s₃, hmid, hrest⟩ := hrest.split
    cases hrest with
    | cons htwo _ =>
      have heffect₁ := PmmEffect.of_step hmodels₁ haccepts (stop_lt hwindow) hone
      obtain ⟨A₂, hstep₁, hmodels₂, _⟩ := heffect₁.simulates hmodels₁
      obtain ⟨A₃, hmid', hmodels₃, _⟩ := simulates_of_run hmodels₂ haccepts (stop_lt hwindow) hmid
      have heffect₂ := PmmEffect.of_step hmodels₃ haccepts (stop_lt hwindow) htwo
      obtain ⟨A₄, hstep₂, _, _⟩ := heffect₂.simulates hmodels₃
      rw [spec_alloc hfirst.1 hfirst.2] at hstep₁
      rw [spec_alloc hagain.1 hagain.2] at hstep₂
      have hfreed := SetAllocator.Run.freed_between hstep₁ hmid' hstep₂
      obtain ⟨ev, hev, hspec⟩ := List.mem_map.mp hfreed
      refine ⟨ev, hev, ?_⟩
      exact freed_of_spec hspec

/-- Every run of allocations and frees from a manager that `Pmm::new` has built ends in a
state whose next allocation returns the lowest usable frame that is not outstanding,
zeroed; whose next free succeeds exactly for an outstanding frame; and whose statistics are
the true numbers. No frame is handed out twice without being freed in between. -/
theorem pmm_refines {pmm : Pmm N R} {m : Memory} (hwindow : extent.stop.val ≤ directMapEnd)
    (hnew : (Pmm.new extent reserved : Prog Unit PmmError (Pmm N R)).run () = .ok pmm ())
    (hrun : Run PmmStep ⟨pmm, m⟩ evs s) :
    AllocatesLeast extent reserved (outstanding evs) s ∧
    FreesOutstanding (outstanding evs) s.frames ∧
    CountsFrames extent reserved (outstanding evs) s.frames.stats ∧
    outstanding evs ⊆ usableFrames extent reserved ∧
    ∀ past mid rest ev₁ ev₂ f, evs = past ++ ev₁ :: (mid ++ ev₂ :: rest) →
      ev₁.op = .alloc ∧ ev₁.reply = .ok (.frame (some f)) →
      ev₂.op = .alloc ∧ ev₂.reply = .ok (.frame (some f)) →
      ∃ ev ∈ mid, ev.op = .free f ∧ ∃ r, ev.reply = .ok r := by
  rcases new_cases (N := N) (R := R) extent reserved hwindow () with ⟨err, herr⟩ |
    ⟨pmm', hok, haccepts, hmodels₀⟩
  · rw [herr] at hnew
    cases hnew
  · have hsame := hok.symm.trans hnew
    obtain rfl : pmm' = pmm := (Result.ok.inj hsame).1
    have hfresh : Models extent reserved (⟨pmm', m⟩ : Supply (Pmm N R)).frames
        (freshAllocator extent reserved) := hmodels₀
    obtain ⟨A, _, hmodels, hout⟩ := simulates_of_run hfresh haccepts (stop_lt hwindow) hrun
    have hsame : A.outstanding = outstanding evs := hout
    rw [← hsame]
    refine ⟨hmodels.allocatesLeast haccepts hwindow, hmodels.freesOutstanding haccepts hwindow,
      hmodels.countsFrames, hmodels.usable ▸ A.outstanding_subset, ?_⟩
    intro past mid rest ev₁ ev₂ f hsplit hfirst hagain
    rw [hsplit] at hrun
    exact hfresh.freed_between haccepts hwindow hrun hfirst hagain

/-- A run of calls leaves this manager, from one that `Pmm::new` has built. -/
def Pmm.Reachable (extent : PhysFrameRange) (reserved : List PhysFrameRange) (pmm : Pmm N R) :
    Prop :=
  ∃ (pmm₀ : Pmm N R) (m : Memory) (evs : List (PmmEvent N R)) (s : Supply (Pmm N R)),
    (Pmm.new extent reserved : Prog Unit PmmError (Pmm N R)).run () = .ok pmm₀ () ∧
      Run PmmStep ⟨pmm₀, m⟩ evs s ∧ s.frames = pmm

/-- The empty run. -/
theorem Pmm.Reachable.of_new {pmm : Pmm N R}
    (hnew : (Pmm.new extent reserved : Prog Unit PmmError (Pmm N R)).run () = .ok pmm ()) :
    pmm.Reachable extent reserved :=
  ⟨pmm, fun _ => 0, [], ⟨pmm, fun _ => 0⟩, hnew, .nil _, rfl⟩

theorem Pmm.Reachable.models {pmm : Pmm N R} (h : pmm.Reachable extent reserved)
    (hstop : extent.stop.val < 2 ^ 64) :
    Accepts N R extent reserved ∧ ∃ A, Models extent reserved pmm A := by
  obtain ⟨pmm₀, m, evs, s, hnew, hrun, rfl⟩ := h
  rcases new_builds (N := N) (R := R) extent reserved hstop () with ⟨err, herr⟩ |
    ⟨pmm, hok, haccepts, hmodels₀, _⟩
  · rw [herr] at hnew
    cases hnew
  · have hsame := hok.symm.trans hnew
    obtain rfl : pmm = pmm₀ := (Result.ok.inj hsame).1
    have hfresh : Models extent reserved (⟨pmm, m⟩ : Supply (Pmm N R)).frames
        (freshAllocator extent reserved) := hmodels₀
    obtain ⟨A, _, hmodels, _⟩ := simulates_of_run hfresh haccepts hstop hrun
    exact ⟨haccepts, A, hmodels⟩

/-- Two frames, the first of them reserved. -/
def twoFrames : PhysFrameRange := ⟨⟨0⟩, ⟨8192⟩⟩

def firstReserved : List PhysFrameRange := [⟨⟨0⟩, ⟨4096⟩⟩]

def twoFramesPmm : Pmm 1 1 where
  bitmap := Bitmap.insert (fun _ => 0) 0
  extent := twoFrames
  reservedRanges := Function.update (fun _ => none) 0 (some ⟨⟨0⟩, ⟨4096⟩⟩)
  hint := 1
  freeCount := 1
  reservedCount := 1
  allocatedCount := 0

def secondFrame : PhysFrame := ⟨⟨4096⟩, rfl⟩

/-- The second frame has been handed out. -/
def twoFramesTaken : Supply (Pmm 1 1) where
  frames :=
    { twoFramesPmm with
      bitmap := Bitmap.insert twoFramesPmm.bitmap 1
      hint := 2
      freeCount := 0
      allocatedCount := 1 }
  memory := Memory.zeroFrame (fun _ => 1) (physOf 18446744069414588416)

omit [Build] in
theorem allocFrame_twoFrames : let _ : Build := debugBuild
    (Pmm.allocFrame : Prog _ PmmError _).run ⟨twoFramesPmm, fun _ => 1⟩ =
      .ok (some secondFrame) twoFramesTaken := by
  intro _
  have hframe : PhysFrame.fromAligned
      ⟨saturatingAdd twoFrames.start.val (saturatingMul 1 pageSize)⟩ = some secondFrame := by
    decide +kernel
  have hfound : (Pmm.findFrame twoFramesPmm : Prog (Supply (Pmm 1 1)) PmmError _).run
      ⟨twoFramesPmm, fun _ => 1⟩ = .ok (some 1) ⟨twoFramesPmm, fun _ => 1⟩ := by
    with_unfolding_all rfl
  unfold Pmm.allocFrame
  rw [Prog.bind_ok rfl, Prog.bind_ok hfound]
  dsimp only [twoFramesPmm]
  rw [hframe]
  with_unfolding_all rfl

omit [Build] in
theorem pmm_refines_twoFrames : let _ : Build := debugBuild
    AllocatesLeast twoFrames firstReserved {4096} twoFramesTaken ∧
    FreesOutstanding {4096} twoFramesTaken.frames := by
  intro _
  have hnew : (Pmm.new twoFrames firstReserved : Prog Unit PmmError (Pmm 1 1)).run () =
      .ok twoFramesPmm () := by
    with_unfolding_all rfl
  have hrun : Run PmmStep ⟨twoFramesPmm, fun _ => 1⟩
      [⟨⟨twoFramesPmm, fun _ => 1⟩, .alloc, .ok (.frame (some secondFrame)), twoFramesTaken⟩]
      twoFramesTaken :=
    .cons ⟨rfl, rfl, Prog.bind_ok allocFrame_twoFrames⟩ (.nil _)
  obtain ⟨hleast, hfrees, -⟩ := pmm_refines (by decide) hnew hrun
  exact ⟨hleast, hfrees⟩

end Tyrne
