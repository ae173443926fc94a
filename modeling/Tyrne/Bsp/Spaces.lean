import Tyrne.Bsp.Translation
import Tyrne.Mm.Gated

/-!
# Gated calls over the page tables of QEMU virt

An address space of QEMU virt is the address of its root, which no call changes. So a gated
call leaves the arena as it is, and does to the machine what the MMU does to it.
-/

namespace Tyrne

open CapabilityTable

namespace Spaces

section Calls

variable [Build] {σ : Type} [Hardware σ] {s : Spaces QemuVirtAddressSpace σ} {hd : CapHandle}
  {h : AddressSpaceHandle} {as_ : QemuVirtAddressSpace} {va : VirtAddr} {pa : PhysFrame}
  {flags : MappingFlags} {frames : Prog σ MmuError (Option PhysFrame)} {m : σ} {e : MmuError}

omit [Build] [Hardware σ] in
theorem onHardware_run {AS ε α : Type} (p : AS → Prog σ ε α) (inner : AS) (m : σ) :
    (onHardware p).run (inner, m) =
      (Prog.zoom Prod.snd (fun s x => (x.1, s)) id (p inner)).run (inner, m) := rfl

omit [Build] [Hardware σ] in
/-- Run on the root of a live address space. -/
theorem onInner_ok {α : Type} {p : QemuVirtAddressSpace → Prog σ MmuError α} {a : α}
    {store : AddressSpace QemuVirtAddressSpace → AddressSpaceArena QemuVirtAddressSpace}
    {mapErr : MmuError → AddressSpaceError} (hstore : store ⟨as_⟩ = s.arena)
    (hrun : (p as_).run s.machine = .ok a m) :
    (onInner as_ store mapErr (onHardware p)).run s = .ok a { s with machine := m } := by
  have hinner : (onHardware p).run (as_, s.machine) = .ok a (as_, m) := by
    rw [onHardware_run]
    exact Prog.zoom_ok hrun
  unfold onInner
  refine Eq.trans (Prog.zoom_ok hinner) ?_
  rw [hstore]

omit [Build] [Hardware σ] in
theorem onInner_err {α : Type} {p : QemuVirtAddressSpace → Prog σ MmuError α}
    {store : AddressSpace QemuVirtAddressSpace → AddressSpaceArena QemuVirtAddressSpace}
    {mapErr : MmuError → AddressSpaceError} (hstore : store ⟨as_⟩ = s.arena)
    (hrun : (p as_).run s.machine = .err e m) :
    (onInner as_ store mapErr (onHardware p)).run s = .err (mapErr e) { s with machine := m } := by
  have hinner : (onHardware p).run (as_, s.machine) = .err e (as_, m) := by
    rw [onHardware_run]
    exact Prog.zoom_err hrun
  unfold onInner
  refine Eq.trans (Prog.zoom_err hinner) ?_
  rw [hstore]

omit [Build] [Hardware σ] in
/-- The live address space that a gated call gets. -/
theorem getMut_live (hlive : s.arena.get h.slot = some ⟨as_⟩) :
    ∃ store, getAddressSpaceMut s.arena h = some (⟨as_⟩, store) ∧ store ⟨as_⟩ = s.arena :=
  Arena.getMut_same hlive

/-- A gated `map` that goes through. -/
theorem capMap_ok {token : MapperFlush} (hnames : Names s.table hd h)
    (hlive : s.arena.get h.slot = some ⟨as_⟩)
    (hrun : (QemuVirtMmu.map as_ va pa flags frames).run s.machine = .ok token m) :
    ∃ m', (QemuVirtMmu.invalidateTlbAddress token.virtAddr : Prog σ AddressSpaceError _).run m =
      .ok () m' ∧ (capMap hd frames va pa flags).run s = .ok () { s with machine := m' } := by
  obtain ⟨store, hmut, hstore⟩ := getMut_live hlive
  refine ⟨_, rfl, ?_⟩
  unfold capMap
  rw [Prog.bind_ok (resolve_ok hnames), Prog.get_bind_run, hmut, Prog.okOr_some, Prog.pure_bind_run]
  exact Prog.bind_ok
    (onInner_ok (p := fun as_ => QemuVirtMmu.map as_ va pa flags frames) hstore hrun)

theorem capMap_err (hnames : Names s.table hd h) (hlive : s.arena.get h.slot = some ⟨as_⟩)
    (hrun : (QemuVirtMmu.map as_ va pa flags frames).run s.machine = .err e m) :
    (capMap hd frames va pa flags).run s = .err (.mmuMapError e) { s with machine := m } := by
  obtain ⟨store, hmut, hstore⟩ := getMut_live hlive
  unfold capMap
  rw [Prog.bind_ok (resolve_ok hnames), Prog.get_bind_run, hmut, Prog.okOr_some, Prog.pure_bind_run]
  exact Prog.bind_err (onInner_err
    (p := fun as_ => QemuVirtMmu.map as_ va pa flags frames) hstore hrun)

/-- A gated `unmap` that goes through. -/
theorem capUnmap_ok {token : MapperFlush} {f : PhysFrame} (hnames : Names s.table hd h)
    (hlive : s.arena.get h.slot = some ⟨as_⟩)
    (hrun : (QemuVirtMmu.unmap as_ va).run s.machine = .ok (token, f) m) :
    ∃ m', (QemuVirtMmu.invalidateTlbAddress token.virtAddr : Prog σ AddressSpaceError _).run m =
      .ok () m' ∧ (capUnmap hd va).run s = .ok f { s with machine := m' } := by
  obtain ⟨store, hmut, hstore⟩ := getMut_live hlive
  refine ⟨_, rfl, ?_⟩
  unfold capUnmap
  rw [Prog.bind_ok (resolve_ok hnames), Prog.get_bind_run, hmut, Prog.okOr_some, Prog.pure_bind_run]
  exact Prog.bind_ok (onInner_ok (p := fun as_ => QemuVirtMmu.unmap as_ va) hstore hrun)

theorem capUnmap_err (hnames : Names s.table hd h) (hlive : s.arena.get h.slot = some ⟨as_⟩)
    (hrun : (QemuVirtMmu.unmap as_ va).run s.machine = .err e m) :
    (capUnmap hd va).run s = .err (.mmuUnmapError e) { s with machine := m } := by
  obtain ⟨store, hmut, hstore⟩ := getMut_live hlive
  unfold capUnmap
  rw [Prog.bind_ok (resolve_ok hnames), Prog.get_bind_run, hmut, Prog.okOr_some, Prog.pure_bind_run]
  exact Prog.bind_err (onInner_err (p := fun as_ => QemuVirtMmu.unmap as_ va) hstore hrun)

omit [Build] [Hardware σ] in
theorem getMut_stale (hstale : s.arena.get h.slot = none) :
    getAddressSpaceMut s.arena h = none := by
  unfold getAddressSpaceMut Arena.getMut
  rw [hstale]
  rfl

/-- A gated call on a handle of the arena that is not live. -/
theorem capMap_stale (hnames : Names s.table hd h) (hstale : s.arena.get h.slot = none) :
    (capMap hd frames va pa flags).run s = .err .staleHandle s := by
  unfold capMap
  rw [Prog.bind_ok (resolve_ok hnames), Prog.get_bind_run, getMut_stale hstale]
  rfl

theorem capUnmap_stale (hnames : Names s.table hd h) (hstale : s.arena.get h.slot = none) :
    (capUnmap hd va).run s = .err .staleHandle s := by
  unfold capUnmap
  rw [Prog.bind_ok (resolve_ok hnames), Prog.get_bind_run, getMut_stale hstale]
  rfl

end Calls

end Spaces

end Tyrne
