import Tyrne.Obj.Rollback

/-!
# The MMUs of the tests

`FakeMmu` keeps the mappings of an address space in a map and has no tables. `OutOfFramesMmu` goes
on to pull one frame for each mapping, which stands for a table, and fails when there is none.
-/

namespace Tyrne

/-- `pulled` are the frames that stand for tables. The MMU itself does not keep them. -/
structure FakeAddressSpace where
  root : PhysFrame
  mappings : VirtAddr → Option (PhysFrame × MappingFlags)
  pulled : List ℕ

namespace FakeMmu

def map (va : VirtAddr) (pa : PhysFrame) (flags : MappingFlags) :
    Prog FakeAddressSpace MmuError MapperFlush := do
  Prog.require (va.val % pageSize = 0) .misalignedAddress
  Prog.require (¬ (flags.contains .device ∧ flags.contains .execute)) .invalidFlags
  let as_ ← Prog.get
  Prog.require (as_.mappings va = none) .alreadyMapped
  Prog.modify fun as_ =>
    { as_ with mappings := Function.update as_.mappings va (some (pa, flags)) }
  return ⟨va⟩

def unmap (va : VirtAddr) : Prog FakeAddressSpace MmuError (MapperFlush × PhysFrame) := do
  Prog.require (va.val % pageSize = 0) .misalignedAddress
  let as_ ← Prog.get
  let (pa, _) ← Prog.okOr (as_.mappings va) .notMapped
  Prog.modify fun as_ => { as_ with mappings := Function.update as_.mappings va none }
  return (⟨va⟩, pa)

def translate (as_ : FakeAddressSpace) (va : VirtAddr) :
    Prog Memory MmuError (PhysFrame × MappingFlags) :=
  let pageBase : VirtAddr := ⟨va.val / pageSize * pageSize⟩
  Prog.okOr (as_.mappings pageBase) .notMapped

end FakeMmu

namespace OutOfFramesMmu

variable {σ ε α : Type}

/-- A call of the inner `FakeMmu`. -/
def inner (m : Prog FakeAddressSpace ε α) : Prog (FakeAddressSpace × σ) ε α :=
  Prog.zoom Prod.fst (fun as_ x => (as_, x.2)) id m

def map (va : VirtAddr) (pa : PhysFrame) (flags : MappingFlags)
    (frames : Prog σ MmuError (Option PhysFrame)) :
    Prog (FakeAddressSpace × σ) MmuError MapperFlush := do
  let flush ← inner (FakeMmu.map va pa flags)
  match ← Prog.zoom Prod.snd (fun s x => (x.1, s)) id frames with
  | none => do
    let _ ← inner (FakeMmu.unmap va).attempt
    Prog.fail .outOfFrames
  | some frame => do
    Prog.modify fun x => ({ x.1 with pulled := x.1.pulled ++ [frame.asUsize] }, x.2)
    return flush

end OutOfFramesMmu

instance : Mapper FakeAddressSpace where
  translate := FakeMmu.translate
  createAddressSpace root := ⟨root, fun _ => none, []⟩
  map := OutOfFramesMmu.map
  unmap va := OutOfFramesMmu.inner (FakeMmu.unmap va)
  invalidateTlbAddress _ := return ()

/-! ## The contract -/

namespace FakeMmu

variable {as_ : FakeAddressSpace} {va : VirtAddr} {pa : PhysFrame} {flags : MappingFlags}

theorem map_cases (as_ : FakeAddressSpace) (pa : PhysFrame) (flags : MappingFlags)
    (haligned : va.val % pageSize = 0) :
    (∃ e, (map va pa flags).run as_ = .err e as_) ∨
    as_.mappings va = none ∧ (map va pa flags).run as_ = .ok ⟨va⟩
      { as_ with mappings := Function.update as_.mappings va (some (pa, flags)) } := by
  unfold map
  rw [Prog.require_pos haligned, Prog.pure_bind_run]
  by_cases hflags : flags.contains .device ∧ flags.contains .execute
  · rw [Prog.require_neg (not_not.mpr hflags)]
    exact Or.inl ⟨_, rfl⟩
  rw [Prog.require_pos hflags, Prog.pure_bind_run, Prog.get_bind_run]
  by_cases hnone : as_.mappings va = none
  · rw [Prog.require_pos hnone]
    exact Or.inr ⟨hnone, rfl⟩
  · rw [Prog.require_neg hnone]
    exact Or.inl ⟨_, rfl⟩

theorem unmap_run (haligned : va.val % pageSize = 0) (hsome : as_.mappings va = some (pa, flags)) :
    (unmap va).run as_ = .ok (⟨va⟩, pa)
      { as_ with mappings := Function.update as_.mappings va none } := by
  unfold unmap
  rw [Prog.require_pos haligned, Prog.pure_bind_run, Prog.get_bind_run, hsome]
  rfl

end FakeMmu

namespace OutOfFramesMmu

variable [Build] {N R : ℕ} {extent : PhysFrameRange} {reserved : List PhysFrameRange}
  {as_ as' : FakeAddressSpace} {s s' : Supply (Pmm N R)} {A : SetAllocator ℕ} {va : VirtAddr}
  {pa : PhysFrame} {flags : MappingFlags}

/-- A `map` fails and has changed nothing, or it has one more mapping and one more frame. -/
theorem map_cases (as_ : FakeAddressSpace) (pa : PhysFrame) (flags : MappingFlags)
    (hmodels : Models extent reserved s.frames A) (haccepts : Accepts N R extent reserved)
    (hstop : extent.stop.val < 2 ^ 64) (haligned : va.val % pageSize = 0) :
    (∃ e, (map va pa flags Pmm.allocFrame).run (as_, s) = .err e (as_, s)) ∨
    (∃ f s', (Pmm.allocFrame : Prog _ MmuError _).run s = .ok (some f) s' ∧
      (map va pa flags Pmm.allocFrame).run (as_, s) = .ok ⟨va⟩
        (⟨as_.root, Function.update as_.mappings va (some (pa, flags)),
          as_.pulled ++ [f.asUsize]⟩, s')) ∨
    ∃ cause, (map va pa flags Pmm.allocFrame).run (as_, s) = .panic cause := by
  unfold map
  rcases FakeMmu.map_cases as_ pa flags haligned with ⟨e, hrun⟩ | ⟨hnone, hrun⟩
  · have hinner : (inner (FakeMmu.map va pa flags)).run (as_, s) = .err e (as_, s) :=
      Prog.zoom_err hrun
    exact Or.inl ⟨e, Prog.bind_err hinner⟩
  have hinner : (inner (FakeMmu.map va pa flags)).run (as_, s) = .ok ⟨va⟩
      ({ as_ with mappings := Function.update as_.mappings va (some (pa, flags)) }, s) :=
    Prog.zoom_ok hrun
  rw [Prog.bind_ok hinner]
  rcases hmodels.allocFrame_cases haccepts hstop with ⟨_, halloc⟩ | ⟨_, hpanic⟩ |
    ⟨f, s', _, _, halloc, _⟩
  · left
    have hundo : (FakeMmu.unmap va).run
        { as_ with mappings := Function.update as_.mappings va (some (pa, flags)) } =
          .ok (⟨va⟩, pa) as_ := by
      rw [FakeMmu.unmap_run haligned (Function.update_self ..), Function.update_idem, ← hnone,
        Function.update_eq_self]
    refine ⟨.outOfFrames, ?_⟩
    rw [Prog.bind_ok (Prog.zoom_ok (halloc _))]
    exact Prog.bind_ok (Prog.zoom_ok (Prog.attempt_ok hundo))
  · obtain ⟨cause, hpanic⟩ := hpanic MmuError
    exact Or.inr (Or.inr ⟨cause, Prog.bind_panic (Prog.zoom_panic hpanic)⟩)
  · refine Or.inr (Or.inl ⟨f, s', halloc _, ?_⟩)
    rw [Prog.bind_ok (Prog.zoom_ok (halloc _))]
    rfl

/-- The frame behind a page, by the number of the page. -/
def mapping (as_ : FakeAddressSpace) (q : ℕ) : Option PhysFrame :=
  (as_.mappings ⟨q * pageSize⟩).map Prod.fst

omit [Build] in
theorem mapping_update {x : Option (PhysFrame × MappingFlags)} {pulled : List ℕ}
    (haligned : va.val % pageSize = 0) :
    mapping ⟨as_.root, Function.update as_.mappings va x, pulled⟩ =
      Function.update (mapping as_) (va.val / pageSize) (x.map Prod.fst) := by
  have hva : va = ⟨va.val / pageSize * pageSize⟩ := by
    cases va
    rw [VirtAddr.mk.injEq, Nat.div_mul_cancel (Nat.dvd_of_mod_eq_zero haligned)]
  funext q
  unfold mapping
  dsimp only
  by_cases hq : q = va.val / pageSize
  · rw [hq, ← hva, Function.update_self, Function.update_self]
  · have hne : (⟨q * pageSize⟩ : VirtAddr) ≠ va := by
      intro heq
      apply hq
      rw [← heq]
      exact (Nat.mul_div_cancel q (by decide)).symm
    rw [Function.update_of_ne hne, Function.update_of_ne hq]

/-- The root, and the frames that stand for tables. -/
def tables (as_ : FakeAddressSpace) : Set ℕ := {a | a = as_.root.asUsize ∨ a ∈ as_.pulled}

/-- `OutOfFramesMmu` meets the contract. -/
def contract (haccepts : Accepts N R extent reserved) (hstop : extent.stop.val < 2 ^ 64) :
    MmuContract FakeAddressSpace N R extent reserved where
  Sound _ _ := True
  tables as_ _ := tables as_
  mapping as_ _ := mapping as_
  create _ _ := by
    refine ⟨trivial, ?_, rfl⟩
    ext a
    simp [tables, Mapper.createAddressSpace]
  keep _ _ := ⟨trivial, rfl, rfl⟩
  untranslated {as_ m va} _ _ hnone x m' htranslate := by
    have hpage : as_.mappings ⟨va.val / pageSize * pageSize⟩ = none :=
      Option.map_eq_none_iff.mp hnone
    have hrun : (Mmu.translate as_ va).run m = .err .notMapped m := by
      show (FakeMmu.translate as_ va).run m = _
      unfold FakeMmu.translate
      dsimp only
      rw [hpage]
      rfl
    rw [hrun] at htranslate
    cases htranslate
  map_ok {as_ as' s s' A va pa flags token} _ hmodels _ haligned _ _ _ hrun := by
    rcases map_cases as_ pa flags hmodels haccepts hstop haligned with ⟨e, herr⟩ |
      ⟨f, s₁, halloc, hok⟩ | ⟨cause, hpanic⟩
    · cases herr.symm.trans hrun
    · cases hok.symm.trans hrun
      refine ⟨trivial, mapping_update haligned, [f.asUsize], .pull rfl halloc (.keep rfl), ?_⟩
      ext a
      simp [tables]
      tauto
    · cases hpanic.symm.trans hrun
  map_err {as_ as' s s' A va pa flags e} _ hmodels _ haligned _ _ _ hrun := by
    rcases map_cases as_ pa flags hmodels haccepts hstop haligned with ⟨e, herr⟩ |
      ⟨f, s₁, halloc, hok⟩ | ⟨cause, hpanic⟩
    · cases herr.symm.trans hrun
      exact ⟨trivial, rfl, [], .keep rfl, by simp⟩
    · cases hok.symm.trans hrun
    · cases hpanic.symm.trans hrun
  unmap {as_ s A va pa} _ _ _ haligned _ hmapped := by
    obtain ⟨⟨pa', flags⟩, hsome, rfl⟩ := Option.map_eq_some_iff.mp hmapped
    rw [Nat.div_mul_cancel (Nat.dvd_of_mod_eq_zero haligned)] at hsome
    exact ⟨⟨va⟩, _, s, Prog.zoom_ok (FakeMmu.unmap_run haligned hsome), rfl, trivial,
      mapping_update haligned, rfl⟩
  flush _ _ := rfl

end OutOfFramesMmu

/-! ## An example -/

/-- Nine frames, the first one reserved. -/
def nineFrames : PhysFrameRange := ⟨⟨0⟩, ⟨36864⟩⟩

def nineFramesPmm : Pmm 2 1 where
  bitmap := Bitmap.insert (fun _ => 0) 0
  extent := nineFrames
  reservedRanges := Function.update (fun _ => none) 0 (some ⟨⟨0⟩, ⟨4096⟩⟩)
  hint := 1
  freeCount := 8
  reservedCount := 1
  allocatedCount := 0

theorem nineFrames_reachable : let _ : Build := debugBuild
    nineFramesPmm.Reachable nineFrames firstReserved := by
  intro _
  have hnew : (Pmm.new nineFrames firstReserved : Prog Unit PmmError (Pmm 2 1)).run () =
      .ok nineFramesPmm () := by
    with_unfolding_all rfl
  exact .of_new hnew

/-- An image of one byte above the frames. -/
def oneByte : ImageSlice := ⟨0xFFFF_FFFF_0001_0000, 1⟩

def fakeSpaces : Spaces FakeAddressSpace (Supply (Pmm 2 1)) where
  table := Spaces.bootSpaces.table
  arena := Arena.new.allocated 0 ⟨⟨⟨⟨0x40000⟩, rfl⟩, fun _ => none, []⟩⟩
  machine := ⟨nineFramesPmm, fun _ => 1⟩

/-- The image and three pages of stack pass the checks, since they need three tables. This MMU
pulls a table for each page, and the last page fails with its frame in flight. -/
theorem load_image_rolls_back_oneByte : let _ : Build := debugBuild
    ∃ s', (loadImage oneByte ⟨0, 0⟩ .derive ⟨0x400000⟩ 3).run fakeSpaces =
        .err (.mapFailed (.mmuMapError .outOfFrames)) s' ∧
      ∃ haccepts : Accepts 2 1 nineFrames firstReserved, ∃ hd root handle as_ pulled,
        Abandoned (OutOfFramesMmu.contract haccepts (by decide)) fakeSpaces ⟨0x400000⟩ 4 hd root
          handle as_ pulled s' := by
  have hfails : ((@loadImage FakeAddressSpace 2 1 debugBuild _ oneByte ⟨0, 0⟩ .derive ⟨0x400000⟩
      3).run fakeSpaces).failure = some (.mapFailed (.mmuMapError .outOfFrames)) := by
    decide +kernel
  obtain ⟨s', hrun⟩ := Result.exists_of_failure hfails
  have hstop : nineFrames.stop.val < 2 ^ 64 := by decide
  obtain ⟨haccepts, _⟩ := @Pmm.Reachable.models _ _ _ _ debugBuild _ nineFrames_reachable hstop
  have hrolls := (@load_image_rolls_back debugBuild _ _ _ _ _ _ _ _ _ _ _ _ _ _
    (@OutOfFramesMmu.contract debugBuild _ _ _ _ haccepts hstop) hstop nineFrames_reachable
    Spaces.bootSpaces_wellFormed.1 ((Arena.new_wellFormed (by decide)).allocated rfl) hrun).2
      trivial
  obtain ⟨hd, _, root, handle, as_, pulled, _, _, hleft⟩ := hrolls
  exact ⟨s', hrun, haccepts, hd, root, handle, as_, pulled, hleft⟩

end Tyrne
