import Tyrne.Bsp.Mapping
import Tyrne.Syscall.Transfers

/-!
# User copies over page tables

A copy to user memory through the page tables of the board. `cap_map` takes any frame, so a
writable user page may be mapped to a table of its own address space, and a copy through such a
page may unmap the pages that it comes to next. A copy that meets no table is safe.
-/

namespace Tyrne

open Radix Tree

/-! ## Translation only reads -/

section Keeps

variable {σ ε : Type} {as_ : QemuVirtAddressSpace}

theorem debugAssert_keeps [Build] (c : Prop) [Decidable c] (message : String) :
    (debugAssert c message : Prog σ ε Unit).Keeps id :=
  .ite (Prog.keeps_panic _) (Prog.keeps_pure _)

theorem physToKernelVa_keeps (pa : ℕ) : (physToKernelVa pa : Prog σ ε ℕ).Keeps id :=
  .ite (Prog.keeps_pure _) (Prog.keeps_panic _)

theorem readVolatile_keeps [Hardware σ] (ptr : ℕ) :
    (readVolatile ptr : Prog σ ε (BitVec 64)).Keeps id := by
  intro s s' hs
  cases hs
  rfl

theorem walkOrAllocTable_keeps [Build] [Hardware σ] (parentTable : PhysFrame) (idx : ℕ) :
    (walkOrAllocTable parentTable idx nullFrameProvider true : Prog σ MmuError _).Keeps id := by
  unfold walkOrAllocTable
  refine (debugAssert_keeps _ _).bind fun _ => ?_
  refine (physToKernelVa_keeps _).bind fun parentPtr => ?_
  refine (readVolatile_keeps _).bind fun existing => ?_
  apply Prog.Keeps.ite
  · exact .ite (Prog.keeps_fail _) (Prog.keeps_okOr _ _)
  · exact Prog.keeps_fail _

theorem translate_keeps [Build] (va : VirtAddr) : (Mmu.translate as_ va).Keeps id := by
  refine (walkOrAllocTable_keeps _ _).bind fun l1 => ?_
  refine (walkOrAllocTable_keeps _ _).bind fun l2 => ?_
  refine (walkOrAllocTable_keeps _ _).bind fun l3Table => ?_
  refine (physToKernelVa_keeps _).bind fun l3Ptr => ?_
  refine (readVolatile_keeps _).bind fun leaf => ?_
  refine (Prog.keeps_require _ _).bind fun _ => ?_
  refine (Prog.keeps_require _ _).bind fun _ => ?_
  refine (Prog.keeps_require _ _).bind fun _ => ?_
  exact (Prog.keeps_okOr _ _).bind fun frame => Prog.keeps_pure _

end Keeps

/-! ## Ranges that meet no table -/

section Tables

variable [Build] {as_ : QemuVirtAddressSpace} {m m' : Memory} {t : PageTree} {ptr len : ℕ}
  {window : UserAccessWindow} {buffer : List (BitVec 8)}

/-- The pages of the range are mapped to no table of `t`. -/
def MeetsNoTable (as_ : QemuVirtAddressSpace) (m : Memory) (t : PageTree) (ptr len : ℕ) : Prop :=
  ∀ j < len, ∀ frame flags, userPage as_ m (pageBase (ptr + j)) = some (frame, flags) →
    ¬ t.IsTable frame.asUsize

/-- The memory decides the translation by the tables that it holds. -/
theorem Holds.translates_same (hholds : Holds m t) (hholds' : Holds m' t)
    (hroot : as_.root.asUsize = t.root) (htranslates : Translates as_ m) :
    Translates as_ m' ∧ ∀ page, userPage as_ m' page = userPage as_ m page := by
  have hrun : ∀ va, (Mmu.translate as_ va).run m =
      .returned (PageTree.translation t (pageOf va)) m := translate_run hholds hroot
  have hrun' : ∀ va, (Mmu.translate as_ va).run m' =
      .returned (PageTree.translation t (pageOf va)) m' := translate_run hholds' hroot
  constructor
  · intro va
    have hva := htranslates va
    rw [hrun] at hva
    rw [hrun']
    cases hpage : PageTree.translation t (pageOf va) with
    | error err => exact Or.inr ⟨err, rfl⟩
    | ok entry =>
      obtain ⟨frame, flags⟩ := entry
      rw [hpage] at hva
      rcases hva with ⟨frame', flags', heq, hlt⟩ | ⟨err, hcon⟩
      · cases heq
        exact Or.inl ⟨frame, flags, rfl, hlt⟩
      · cases hcon
  · intro page
    unfold userPage
    rw [hrun, hrun']
    cases PageTree.translation t (pageOf ⟨page⟩) with
    | error err => rfl
    | ok entry => rfl

/-- Bytes stored in a range that meets no table leave the translation as it is. -/
theorem MeetsNoTable.stored (hapart : MeetsNoTable as_ m t ptr len) (hholds : Holds m t)
    (hroot : as_.root.asUsize = t.root) (htranslates : Translates as_ m)
    {bytes : List (BitVec 8)} (hle : bytes.length ≤ len) :
    Translates as_ (m.storeBytes (userAddr as_ m) ptr bytes) ∧
      ∀ page, userPage as_ (m.storeBytes (userAddr as_ m) ptr bytes) page =
        userPage as_ m page := by
  let S : Set ℕ := {a | ∃ j < len, ∃ frame flags,
    userPage as_ m (pageBase (ptr + j)) = some (frame, flags) ∧ frame.asUsize = a}
  have hoff : Memory.AgreesOff S m (m.storeBytes (userAddr as_ m) ptr bytes) := by
    intro pa hout
    apply Memory.storeBytes_other
    intro j hj hplace
    obtain ⟨⟨frame, flags⟩, hpage, rfl⟩ := Option.map_eq_some_iff.mp hplace
    have hlt : (ptr + j) % pageSize < pageSize := Nat.mod_lt _ (by decide)
    exact hout _ ⟨j, by omega, frame, flags, hpage, rfl⟩
      ⟨Nat.le_add_right _ _, Nat.add_lt_add_left hlt _⟩
  have hholds' : Holds (m.storeBytes (userAddr as_ m) ptr bytes) t := by
    apply hholds.agreesOff hoff
    · rintro b ⟨_, _, frame, _, _, rfl⟩
      exact frame.aligned
    · rintro a ha ⟨j, hj, frame, flags, hpage, rfl⟩
      exact hapart j hj frame flags hpage ha
  exact hholds.translates_same hholds' hroot htranslates

/-- The copies to user memory over the tables of the board, up to `len` bytes: the bad ones are
those that disturb a page of their range. -/
theorem copies_decided (htranslates : Translates as_ m) :
    (∀ buffer, buffer.length ≤ len → CopiesOut as_ m window ptr buffer) ↔
      ∀ buffer, buffer.length ≤ len → Copyable as_ m window true ptr buffer.length →
        Undisturbed as_ m ptr buffer :=
  copiesOut_iff htranslates translate_keeps

/-- A copy to a range that meets no table of the address space does all of its work or none. On
distinct frames it is read back. -/
theorem copies_off_tables (hholds : Holds m t) (hroot : as_.root.asUsize = t.root)
    (htranslates : Translates as_ m) (hapart : MeetsNoTable as_ m t ptr buffer.length) :
    CopiesOut as_ m window ptr buffer ∧
      (Copyable as_ m window true ptr buffer.length → DistinctFrames as_ m ptr buffer.length →
        ∀ dst : List (BitVec 8), dst.length = buffer.length →
          (copyFromUser as_ window ptr).run ⟨m.storeBytes (userAddr as_ m) ptr buffer, dst⟩ =
            .ok () ⟨m.storeBytes (userAddr as_ m) ptr buffer, buffer⟩) := by
  have hstored : ∀ bytes : List (BitVec 8), bytes.length ≤ buffer.length →
      Translates as_ (m.storeBytes (userAddr as_ m) ptr bytes) ∧
        ∀ page, userPage as_ (m.storeBytes (userAddr as_ m) ptr bytes) page =
          userPage as_ m page := fun _ hle => hapart.stored hholds hroot htranslates hle
  have hwhole := hstored buffer le_rfl
  constructor
  · refine ⟨fun hok => ?_, copyToUser_err htranslates⟩
    exact (Undisturbed.of_same hok.2 fun _ => hstored _ (List.length_take_le' ..)).copyToUser_ok
      htranslates hok
  · intro hok hdistinct dst hlength
    exact copyFromUser_stored hok.1 hdistinct hwhole.1 (.of_same hok.2 hwhole.2) hlength

end Tables

/-! ## A page on its own table -/

theorem lowRoot_aligned : 0 % pageSize = 0 := rfl

theorem tableFrame_aligned : 0x3000 % pageSize = 0 := rfl

def lowRoot : QemuVirtAddressSpace := ⟨⟨⟨0⟩, lowRoot_aligned⟩⟩

def tableFrame : PhysFrame := ⟨⟨0x3000⟩, tableFrame_aligned⟩

def userFrame : PhysFrame := ⟨⟨0x4000⟩, lowFrame_aligned⟩

def userWrite : MappingFlags := .union .user .write

/-- Two user pages, the first one on the table that holds the entries of both. -/
def mapOwnTable [Build] : Prog (Supply (Pmm 1 1)) MmuError Unit := do
  let _ ← QemuVirtMmu.map lowRoot ⟨0x1FE000⟩ tableFrame userWrite Pmm.allocFrame
  let _ ← QemuVirtMmu.map lowRoot ⟨0x1FF000⟩ userFrame userWrite Pmm.allocFrame
  return ()

/-- The memory after both are mapped. -/
def ownTable : Memory :=
  match (@mapOwnTable debugBuild).run ⟨eightFramesPmm, fun _ => 0⟩ with
  | .ok _ s => s.memory
  | _ => fun _ => 0

/-- The calls that have mapped them. -/
def ownTableEvents : List MapEvent :=
  [⟨.map ⟨0x1FE000⟩ tableFrame userWrite, .ok none⟩,
    ⟨.map ⟨0x1FF000⟩ userFrame userWrite, .ok none⟩]

theorem ownTableEvents_frame {page : ℕ} {entry : PhysFrame × MappingFlags}
    (hpage : mappings ownTableEvents page = some entry) : entry.1.asUsize < directMapEnd := by
  have hmappings : mappings ownTableEvents =
      Function.update (Function.update (fun _ => none : PageMap) 0x1FE
        (some (tableFrame, userWrite))) 0x1FF (some (userFrame, userWrite)) := rfl
  rw [hmappings] at hpage
  by_cases hsecond : page = 0x1FF
  · rw [hsecond, Function.update_self] at hpage
    cases hpage
    decide
  · rw [Function.update_of_ne hsecond] at hpage
    by_cases hfirst : page = 0x1FE
    · rw [hfirst, Function.update_self] at hpage
      cases hpage
      decide
    · rw [Function.update_of_ne hfirst] at hpage
      cases hpage

theorem mapOwnTable_run : let _ : Build := debugBuild
    ∃ s, mapOwnTable.run ⟨eightFramesPmm, fun _ => 0⟩ = .ok () s ∧ s.memory = ownTable ∧
      Reflects eightFramesSource lowRoot s (mappings ownTableEvents) := by
  intro _
  obtain ⟨hvalid, hapart, hseven⟩ := eightFramesSource_start fun _ => 0
  have hflags : ¬ (userWrite.contains .device ∧ userWrite.contains .execute) := by decide
  have hfirst : (MapOp.map ⟨0x1FE000⟩ tableFrame userWrite).Below := ⟨by decide, by decide⟩
  have hsecond : (MapOp.map ⟨0x1FF000⟩ userFrame userWrite).Below := ⟨by decide, by decide⟩
  have h₀ : Reflects eightFramesSource lowRoot ⟨eightFramesPmm, fun _ => 0⟩ (mappings []) :=
    .of_zero (by decide) (fun _ _ => rfl) hvalid hapart
  obtain ⟨s₁, hstep₁, hleft⟩ := h₀.maps eightFramesSource_lasting hfirst rfl hflags rfl (by omega)
  have h₁ := h₀.step hstep₁
  obtain ⟨s₂, hstep₂, _⟩ :=
    h₁.maps eightFramesSource_lasting hsecond rfl hflags (by decide) (by omega)
  have hrun : mapOwnTable.run ⟨eightFramesPmm, fun _ => 0⟩ = .ok () s₂ := by
    obtain ⟨token₁, _, hmap₁, hend₁⟩ := Prog.bind_eq_ok.mp hstep₁.2
    obtain ⟨token₂, _, hmap₂, hend₂⟩ := Prog.bind_eq_ok.mp hstep₂.2
    cases hend₁
    cases hend₂
    exact (Prog.bind_ok hmap₁).trans (Prog.bind_ok hmap₂)
  refine ⟨s₂, hrun, ?_, h₁.step hstep₂⟩
  unfold ownTable
  rw [hrun]

theorem ownTable_translates : let _ : Build := debugBuild
    Translates lowRoot ownTable := by
  intro _
  obtain ⟨s, _, hmemory, t, howns, hroot, hrefines⟩ := mapOwnTable_run
  have htranslates : ∀ m, Holds m t → Translates lowRoot m := by
    intro m hholds va
    have hrun : (Mmu.translate lowRoot va).run m =
        .returned (PageTree.translation t (pageOf va)) m := translate_run hholds hroot va
    rw [hrun, hrefines.translation]
    unfold PageMap.translation
    cases hpage : mappings ownTableEvents (pageOf va) with
    | none => exact Or.inr ⟨_, rfl⟩
    | some entry => exact Or.inl ⟨_, _, rfl, ownTableEvents_frame hpage⟩
  exact htranslates _ (hmemory ▸ howns.holds)

theorem ownTable_copyable : let _ : Build := debugBuild
    Copyable lowRoot ownTable ⟨0x1FE000, 0x2000⟩ true 0x1FEFF8 9 := by
  intro _
  have hfirst : Grants lowRoot ownTable true 0x1FE000 :=
    ⟨tableFrame, userWrite.named, by decide +kernel, by decide, fun _ => by decide⟩
  have hsecond : Grants lowRoot ownTable true 0x1FF000 :=
    ⟨userFrame, userWrite.named, by decide +kernel, by decide, fun _ => by decide⟩
  refine ⟨Or.inr ⟨by decide, by decide, by decide, by decide⟩, fun j hj => ?_⟩
  unfold Grants at *
  rcases Nat.lt_or_ge j 8 with hlow | hhigh
  · have hbase : pageBase (0x1FEFF8 + j) = pageBase 0x1FE000 := by
      unfold pageBase pageSize
      omega
    rw [hbase]
    exact hfirst
  · have hbase : pageBase (0x1FEFF8 + j) = pageBase 0x1FF000 := by
      unfold pageBase pageSize
      omega
    rw [hbase]
    exact hsecond

/-- Nine zero bytes that start with the entry of the second page. The first eight are stored and
unmap it, and the copy fails in front of the ninth. -/
theorem copyToUser_ownTable : let _ : Build := debugBuild
    Translates lowRoot ownTable ∧
      Copyable lowRoot ownTable ⟨0x1FE000, 0x2000⟩ true 0x1FEFF8 9 ∧
      ∃ s, (copyToUser lowRoot ⟨0x1FE000, 0x2000⟩ 0x1FEFF8).run
          ⟨ownTable, List.replicate 9 0⟩ = .err .faultAddress s ∧
        ownTable 0x3FF8 = 71 ∧ s.memory 0x3FF8 = 0 := by
  intro _
  refine ⟨ownTable_translates, ownTable_copyable, ?_⟩
  have hfailure : ((copyToUser lowRoot ⟨0x1FE000, 0x2000⟩ 0x1FEFF8).run
      ⟨ownTable, List.replicate 9 0⟩).failure = some .faultAddress := by
    decide +kernel
  have hbyte : ((copyToUser lowRoot ⟨0x1FE000, 0x2000⟩ 0x1FEFF8).run
      ⟨ownTable, List.replicate 9 0⟩).state.map (fun s => s.memory 0x3FF8) = some 0 := by
    decide +kernel
  obtain ⟨s, hrun⟩ := Result.exists_of_failure hfailure
  rw [hrun] at hbyte
  exact ⟨s, hrun, by decide +kernel, Option.some.inj hbyte⟩

end Tyrne
