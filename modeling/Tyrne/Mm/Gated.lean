import Tyrne.Mm.Creation

/-!
# Gated calls

A gated call finds the address space that a capability names, edits it through the MMU, and writes
it back to the arena.
-/

namespace Tyrne

open CapabilityTable

/-- The capability at the handle names the address space. -/
def Names (t : CapabilityTable) (hd : CapHandle) (h : AddressSpaceHandle) : Prop :=
  ∃ c, (lookup hd).run t = .ok c t ∧ c.object = .addressSpace h

theorem Names.unique {t : CapabilityTable} {hd : CapHandle} {h h' : AddressSpaceHandle}
    (hnames : Names t hd h) (hnames' : Names t hd h') : h = h' := by
  obtain ⟨c, hlookup, hobject⟩ := hnames
  obtain ⟨c', hlookup', hobject'⟩ := hnames'
  rw [hlookup] at hlookup'
  cases hlookup'
  rw [hobject] at hobject'
  exact CapObject.addressSpace.inj hobject'

namespace Spaces

section Resolve

variable {AS σ : Type} {s : Spaces AS σ} {hd : CapHandle} {h : AddressSpaceHandle}

theorem resolve_ok (hnames : Names s.table hd h) : (resolveAddressSpaceCap hd).run s = .ok h s := by
  obtain ⟨c, hlookup, hobject⟩ := hnames
  unfold resolveAddressSpaceCap
  rw [Prog.bind_ok (onTable_read hlookup), hobject]
  rfl

theorem resolve_err (hnone : ∀ h, ¬ Names s.table hd h) :
    ∃ e, (resolveAddressSpaceCap hd).run s = .err e s := by
  unfold resolveAddressSpaceCap
  rcases lookup_cases s.table hd with ⟨e, _, hlookup⟩ | ⟨_, hlookup⟩
  · rw [Prog.bind_ok (onTable_read hlookup)]
    cases hobject : e.capability.object with
    | addressSpace h => exact absurd ⟨_, hlookup, hobject⟩ (hnone h)
    | task _ => exact ⟨_, rfl⟩
    | endpoint _ => exact ⟨_, rfl⟩
    | notification _ => exact ⟨_, rfl⟩
    | debugConsole => exact ⟨_, rfl⟩
  · exact ⟨_, Prog.bind_err (Prog.zoom_err hlookup)⟩

end Resolve

section Edit

variable {AS σ : Type} [Mapper AS] [Hardware σ] {s : Spaces AS σ} {hd : CapHandle}
  {h : AddressSpaceHandle} {inner inner' : AS} {va : VirtAddr} {pa : PhysFrame}
  {flags : MappingFlags} {frames : Prog σ MmuError (Option PhysFrame)} {m m' : σ} {e : MmuError}
  {token : MapperFlush} {cause : Panic}

omit [Mapper AS] [Hardware σ] in
/-- What is written back to the arena is what the handle names then. -/
theorem getMut_store (hlive : s.arena.get h.slot = some ⟨inner⟩) :
    ∃ store, getAddressSpaceMut s.arena h = some (⟨inner⟩, store) ∧
      ∀ inner', (store ⟨inner'⟩).get h.slot = some ⟨inner'⟩ := by
  obtain ⟨hbound, hgen, _⟩ := Arena.get_eq_some_iff.mp hlive
  unfold getAddressSpaceMut Arena.getMut
  rw [hlive]
  refine ⟨_, rfl, fun inner' => Arena.get_eq_some_iff.mpr ⟨hbound, ?_, ?_⟩⟩
  · unfold Arena.setSlot
    dsimp only
    rw [Function.update_self]
    exact hgen
  · unfold Arena.setSlot
    dsimp only
    rw [Function.update_self]

/-- The address space of the handle, and the machine, have been edited. -/
structure Edited (s : Spaces AS σ) (h : AddressSpaceHandle) (inner' : AS) (m' : σ)
    (s' : Spaces AS σ) : Prop where
  table : s'.table = s.table
  live : s'.arena.get h.slot = some ⟨inner'⟩
  machine : s'.machine = m'

section Inner

variable {α : Type} {p : Prog (AS × σ) MmuError α} {x : α}
  {store : AddressSpace AS → AddressSpaceArena AS} {mapErr : MmuError → AddressSpaceError}

omit [Mapper AS] [Hardware σ] in
theorem onInner_returns (hrun : p.run (inner, s.machine) = .ok x (inner', m')) :
    (onInner inner store mapErr p).run s =
    .ok x { s with arena := store ⟨inner'⟩, machine := m' } := by
  simp [onInner, Prog.zoom, hrun]

omit [Mapper AS] [Hardware σ] in
theorem onInner_fails (hrun : p.run (inner, s.machine) = .err e (inner', m')) :
    (onInner inner store mapErr p).run s =
      .err (mapErr e) { s with arena := store ⟨inner'⟩, machine := m' } := by
  simp [onInner, Prog.zoom, hrun]

omit [Mapper AS] [Hardware σ] in
theorem onInner_panics (hrun : p.run (inner, s.machine) = .panic cause) :
    (onInner inner store mapErr p).run s = .panic cause := by
  simp [onInner, Prog.zoom, hrun]

end Inner

/-- A gated `map` is the `map` of the MMU on the address space that the handle names. -/
theorem capMap_ends (hnames : Names s.table hd h) (hlive : s.arena.get h.slot = some ⟨inner⟩)
    (hflush : ∀ (token : MapperFlush) m,
      (token.flush AS : Prog σ AddressSpaceError Unit).run m = .ok () m) (va : VirtAddr)
    (pa : PhysFrame) (flags : MappingFlags) (frames : Prog σ MmuError (Option PhysFrame)) :
    (∃ token inner' m' s', (Mapper.map va pa flags frames).run (inner, s.machine) =
        .ok token (inner', m') ∧
      (capMap hd frames va pa flags).run s = .ok () s' ∧ Edited s h inner' m' s') ∨
    (∃ e inner' m' s', (Mapper.map va pa flags frames).run (inner, s.machine) =
        .err e (inner', m') ∧
      (capMap hd frames va pa flags).run s = .err (.mmuMapError e) s' ∧ Edited s h inner' m' s') ∨
    ∃ cause, (capMap hd frames va pa flags).run s = .panic cause := by
  obtain ⟨store, hmut, hstore⟩ := getMut_store hlive
  unfold capMap
  rw [Prog.bind_ok (resolve_ok hnames), Prog.get_bind_run, hmut, Prog.okOr_some, Prog.pure_bind_run]
  dsimp only
  cases hrun : (Mapper.map va pa flags frames).run (inner, s.machine) with
  | ok token x =>
    obtain ⟨inner', m'⟩ := x
    refine Or.inl ⟨token, inner', m', { s with arena := store ⟨inner'⟩, machine := m' }, rfl, ?_,
      rfl, hstore inner', rfl⟩
    rw [Prog.bind_ok (onInner_returns hrun)]
    exact Prog.zoom_ok (hflush token m')
  | err e x =>
    obtain ⟨inner', m'⟩ := x
    exact Or.inr (Or.inl ⟨e, inner', m', { s with arena := store ⟨inner'⟩, machine := m' }, rfl,
      Prog.bind_err (onInner_fails hrun), rfl, hstore inner', rfl⟩)
  | panic cause => exact Or.inr (Or.inr ⟨cause, Prog.bind_panic (onInner_panics hrun)⟩)

/-- A gated `unmap` that goes through. -/
theorem capUnmap_edits (hnames : Names s.table hd h) (hlive : s.arena.get h.slot = some ⟨inner⟩)
    (hflush : ∀ (token : MapperFlush) m,
      (token.flush AS : Prog σ AddressSpaceError Unit).run m = .ok () m)
    (hrun : (Mapper.unmap va).run (inner, s.machine) = .ok (token, pa) (inner', m')) :
    ∃ s', (capUnmap hd va).run s = .ok pa s' ∧ Edited s h inner' m' s' := by
  obtain ⟨store, hmut, hstore⟩ := getMut_store hlive
  refine ⟨{ s with arena := store ⟨inner'⟩, machine := m' }, ?_, rfl, hstore inner', rfl⟩
  have hdone : (onMachine (token.flush AS) : Prog (Spaces AS σ) AddressSpaceError Unit).run
      { s with arena := store ⟨inner'⟩, machine := m' } =
        .ok () { s with arena := store ⟨inner'⟩, machine := m' } := Prog.zoom_ok (hflush token m')
  unfold capUnmap
  rw [Prog.bind_ok (resolve_ok hnames), Prog.get_bind_run, hmut, Prog.okOr_some, Prog.pure_bind_run]
  dsimp only
  rw [Prog.bind_ok (onInner_returns hrun)]
  dsimp only
  rw [Prog.bind_ok hdone]
  rfl

end Edit

end Spaces

end Tyrne
