import Tyrne.Bsp.Mmu
import Tyrne.Cap.Runs
import Tyrne.Mm.Source
import Tyrne.Mm.Spaces

/-!
# Creating an address space is atomic

The checks of `cap_create_address_space` all come before its first change of the state,
and once they pass only the frame provider can refuse. The arm that undoes the creation
after a failed derivation is never taken.
-/

namespace Tyrne

open CapabilityTable

/-- A provider in the state `s` hands out a zeroed frame, or has none and changes nothing. -/
def Supplies {σ ε : Type} [Hardware σ] (pmm : Prog σ ε (Option PhysFrame)) (s : σ) : Prop :=
  pmm.run s = .ok none s ∨ ∃ root s', pmm.run s = .ok (some root) s' ∧
    ∀ a, InFrame root.asUsize a → Hardware.memory s' a = 0

theorem Models.supplies [Build] {N R : ℕ} {extent : PhysFrameRange} {reserved : List PhysFrameRange}
    {s : Supply (Pmm N R)} {A : SetAllocator ℕ} {ε : Type}
    (hmodels : Models extent reserved s.frames A) (haccepts : Accepts N R extent reserved)
    (hwindow : extent.stop.val ≤ directMapEnd) :
    Supplies (Pmm.allocFrame : Prog (Supply (Pmm N R)) ε _) s := by
  rcases hmodels.allocFrame_run haccepts hwindow with ⟨_, hrun⟩ |
    ⟨root, s', _, _, hrun, _, hmemory⟩
  · exact Or.inl hrun
  · refine Or.inr ⟨root, s', hrun, fun a ha => ?_⟩
    show s'.memory a = 0
    rw [hmemory]
    exact if_pos ha

namespace Spaces

variable {AS σ : Type} {s s' : Spaces AS σ} {parent hd : CapHandle} {newRights : CapRights}
  {pmm : Prog σ MmuError (Option PhysFrame)} {e : SlotEntry}

/-- The checks of a creation, for a parent handle that names `e`. -/
structure CreateChecks (s : Spaces AS σ) (parent : CapHandle) (newRights : CapRights)
    (e : SlotEntry) : Prop where
  resolves : Resolves s.table parent e
  kind : e.capability.object.kind = .addressSpace
  derive : e.capability.rights.contains .derive
  contains : e.capability.rights.contains newRights
  depth : ¬ saturatingAdd e.depth 1 > maxDerivationDepth
  arena : ¬ s.arena.isFull
  table : ¬ s.table.isFull

/-- The depth check of the creation is that of the derivation. -/
theorem saturatingAdd_depth {d : ℕ} :
    ¬ saturatingAdd d 1 > maxDerivationDepth ↔ d + 1 ≤ maxDerivationDepth := by
  unfold saturatingAdd maxDerivationDepth
  omega

theorem onTable_run {α : Type} {m : TableM α} {a : α} {t : CapabilityTable}
    (h : m.run s.table = .ok a t) : (onTable m).run s = .ok a { s with table := t } :=
  Prog.zoom_ok h

theorem onTable_read {α : Type} {m : TableM α} {a : α} (h : m.run s.table = .ok a s.table) :
    (onTable m).run s = .ok a s :=
  Prog.zoom_ok h

theorem onArena_run {α : Type} {m : Prog (AddressSpaceArena AS) AddressSpaceError α} {a : α}
    {arena : AddressSpaceArena AS} (h : m.run s.arena = .ok a arena) :
    (onArena m).run s = .ok a { s with arena } :=
  Prog.zoom_ok h

theorem onFrames_run {α : Type} {m : Prog σ MmuError α} {a : α} {machine : σ}
    (h : m.run s.machine = .ok a machine) : (onFrames m).run s = .ok a { s with machine } :=
  Prog.zoom_ok h

/-- The checks pass for the entry that the parent handle names, or one fails and nothing has
changed. -/
theorem checkCreation_cases (s : Spaces AS σ) (parent : CapHandle) (newRights : CapRights) :
    (∃ e, CreateChecks s parent newRights e ∧ (checkCreation parent newRights).run s = .ok () s) ∨
    (∀ e, ¬ CreateChecks s parent newRights e) ∧
      ∃ err, (checkCreation parent newRights).run s = .err err s := by
  have hfails {err : AddressSpaceError}
      (hrun : (checkCreation parent newRights).run s = .err err s)
      (hnot : ∀ e, Resolves s.table parent e → ¬ CreateChecks s parent newRights e) :
      (∀ e, ¬ CreateChecks s parent newRights e) ∧
        ∃ err, (checkCreation parent newRights).run s = .err err s :=
    ⟨fun e h => hnot e h.resolves h, err, hrun⟩
  unfold checkCreation at hfails ⊢
  rcases lookup_cases s.table parent with ⟨e, he, hlookup⟩ | ⟨hnone, hlookup⟩
  swap
  · right
    exact hfails (Prog.bind_err (Prog.zoom_err hlookup)) fun e he _ => hnone e he
  rw [Prog.bind_ok (onTable_read hlookup)] at hfails ⊢
  by_cases hkind : e.capability.object.kind = .addressSpace
  swap
  · rw [Prog.require_neg hkind] at hfails ⊢
    exact Or.inr (hfails rfl fun e' he' h => hkind (he.unique he' ▸ h.kind))
  by_cases hderive : e.capability.rights.contains .derive
  swap
  · rw [Prog.require_pos hkind, Prog.require_neg hderive] at hfails ⊢
    exact Or.inr (hfails rfl fun e' he' h => hderive (he.unique he' ▸ h.derive))
  by_cases hrights : e.capability.rights.contains newRights
  swap
  · rw [Prog.require_pos hkind, Prog.require_pos hderive, Prog.require_neg hrights] at hfails ⊢
    exact Or.inr (hfails rfl fun e' he' h => hrights (he.unique he' ▸ h.contains))
  rw [Prog.require_pos hkind, Prog.require_pos hderive, Prog.require_pos hrights,
    Prog.pure_bind_run, Prog.pure_bind_run, Prog.pure_bind_run,
    Prog.bind_ok (onTable_read (depthOf_ok he))] at hfails ⊢
  by_cases hdepth : saturatingAdd e.depth 1 > maxDerivationDepth
  · rw [Prog.require_neg (not_not.mpr hdepth)] at hfails ⊢
    exact Or.inr (hfails rfl fun e' he' h => h.depth (he.unique he' ▸ hdepth))
  rw [Prog.require_pos hdepth, Prog.pure_bind_run, Prog.get_bind_run] at hfails ⊢
  by_cases harena : s.arena.isFull
  · rw [Prog.require_neg (not_not.mpr harena)] at hfails ⊢
    exact Or.inr (hfails rfl fun _ _ h => h.arena harena)
  by_cases htable : s.table.isFull
  · rw [Prog.require_pos harena, Prog.require_neg (not_not.mpr htable)] at hfails ⊢
    exact Or.inr (hfails rfl fun _ _ h => h.table htable)
  rw [Prog.require_pos harena, Prog.require_pos htable]
  exact Or.inl ⟨e, ⟨he, hkind, hderive, hrights, hdepth, harena, htable⟩, rfl⟩

/-- With the checks passed a derivation goes through, for any object. -/
theorem CreateChecks.capDerive_run (h : CreateChecks s parent newRights e)
    (htable : s.table.WellFormed) (object : CapObject) :
    ∃ n, s.table.freeHead = some n ∧ (capDerive parent newRights object).run s.table =
      .ok ⟨n, (s.table.slots n).generation⟩
        (s.table.installed n (childEntry s.table parent.index e newRights object)) := by
  obtain ⟨n, hn⟩ := Option.ne_none_iff_exists'.mp h.table
  have hpass : firstError (s.table.deriveChecks parent newRights) = none := by
    unfold deriveChecks
    rw [firstError_pass h.resolves.handleCheck,
      firstError_pass (by rw [h.resolves.rightsCheck, decide_eq_true h.derive]),
      firstError_pass (by rw [h.resolves.rightsCheck, decide_eq_true h.contains]),
      firstError_pass
        (by rw [h.resolves.depthCheck, decide_eq_true (saturatingAdd_depth.mp h.depth)]),
      firstError_pass (roomCheck_pass hn), firstError_nil]
  rcases CapabilityTable.capDerive_run htable parent newRights object with
    ⟨err, hfirst, _⟩ | ⟨e', n', _, he, hn', _, _, _, hrun⟩
  · rw [hpass] at hfirst
    cases hfirst
  · rw [h.resolves.unique he]
    exact ⟨n', hn', hrun⟩

variable [Build] [Mapper AS]

/-- With the checks passed the provider decides. -/
theorem CreateChecks.mint_run (h : CreateChecks s parent newRights e) (htable : s.table.WellFormed)
    (harena : s.arena.WellFormed) (pmm : Prog σ MmuError (Option PhysFrame)) :
    (∀ m, pmm.run s.machine = .ok none m →
      (mintAddressSpace parent newRights pmm).run s = .err .outOfFrames { s with machine := m }) ∧
    ∃ n head, s.table.freeHead = some n ∧ s.arena.Vacant head ∧ s.arena.freeHead = some head ∧
      ∀ root m, pmm.run s.machine = .ok (some root) m →
        (mintAddressSpace parent newRights pmm).run s =
          .ok ⟨n, (s.table.slots n).generation⟩
            ⟨s.table.installed n (childEntry s.table parent.index e newRights
                (.addressSpace ⟨⟨head, (s.arena.slots head).generation⟩⟩)),
              s.arena.allocated head ⟨Mapper.createAddressSpace root⟩, m⟩ := by
  refine ⟨fun m hpull => ?_, ?_⟩
  · unfold mintAddressSpace
    rw [Prog.bind_ok (onFrames_run hpull)]
    rfl
  obtain ⟨head, hhead⟩ := Option.ne_none_iff_exists'.mp h.arena
  obtain ⟨n, hn⟩ := Option.ne_none_iff_exists'.mp h.table
  refine ⟨n, head, hn, harena.head_vacant hhead, hhead, fun root m hpull => ?_⟩
  have hallocated (value : AddressSpace AS) : (createAddressSpace value).run s.arena =
      .ok ⟨⟨head, (s.arena.slots head).generation⟩⟩ (s.arena.allocated head value) := by
    unfold createAddressSpace
    rcases harena.allocate_run (ε := AddressSpaceError) value with
      ⟨hfull, _⟩ | ⟨head', _, hhead', hrun⟩
    · exact absurd (harena.head_vacant hhead) (hfull head)
    · rw [hhead] at hhead'
      cases hhead'
      rw [Prog.bind_ok hrun]
      rfl
  obtain ⟨n', hn', hderived⟩ := h.capDerive_run htable
    (.addressSpace ⟨⟨head, (s.arena.slots head).generation⟩⟩)
  rw [hn] at hn'
  cases hn'
  have hslot : (onArena (createAddressSpace ⟨Mapper.createAddressSpace root⟩)).run
      { s with machine := m } = .ok ⟨⟨head, (s.arena.slots head).generation⟩⟩
        ⟨s.table, s.arena.allocated head ⟨Mapper.createAddressSpace root⟩, m⟩ :=
    onArena_run (hallocated _)
  have htake : (onTable (capDerive parent newRights
        (.addressSpace ⟨⟨head, (s.arena.slots head).generation⟩⟩)).attempt).run
      ⟨s.table, s.arena.allocated head ⟨Mapper.createAddressSpace root⟩, m⟩ =
        .ok (.ok ⟨n, (s.table.slots n).generation⟩) _ :=
    onTable_run (Prog.attempt_ok hderived)
  unfold mintAddressSpace
  rw [Prog.bind_ok (onFrames_run hpull), Prog.okOr_some, Prog.pure_bind_run, Prog.bind_ok hslot,
    Prog.bind_ok htake]
  rfl

/-- The creation of an address space over `root`: one frame pulled, one arena slot taken, and
one capability added, a child of the parent's slot. -/
structure Created (s : Spaces AS σ) (parent : CapHandle) (newRights : CapRights)
    (pmm : Prog σ MmuError (Option PhysFrame)) [Hardware σ] (hd : CapHandle)
    (s' : Spaces AS σ) (root : PhysFrame) (handle : AddressSpaceHandle) : Prop where
  pulled : pmm.run s.machine = .ok (some root) s'.machine
  zeroed : ∀ a, InFrame root.asUsize a → Hardware.memory s'.machine a = 0
  vacant : s.arena.Vacant handle.slot.index
  space : s'.arena.get handle.slot = some ⟨Mapper.createAddressSpace root⟩
  spaces : ∀ id, id ≠ handle.slot → s'.arena.get id = s.arena.get id
  free : ¬ s.table.Occupied hd.index
  cap : (lookup hd).run s'.table = .ok ⟨newRights, .addressSpace handle⟩ s'.table
  caps : ∀ hd', hd' ≠ hd → ∀ c,
    (lookup hd').run s'.table = .ok c s'.table ↔ (lookup hd').run s.table = .ok c s.table
  child : s'.table.parentAt hd.index = some parent.index
  parents : ∀ i, i ≠ hd.index → s'.table.parentAt i = s.table.parentAt i
  narrower : ∃ c, (lookup parent).run s.table = .ok c s.table ∧ c.rights.contains newRights

omit [Build] in
theorem CreateChecks.created [Hardware σ] {n head : Index} {root : PhysFrame} {m : σ}
    (h : CreateChecks s parent newRights e) (htable : s.table.WellFormed)
    (hn : s.table.freeHead = some n) (hvacant : s.arena.Vacant head)
    (hpull : pmm.run s.machine = .ok (some root) m)
    (hzero : ∀ a, InFrame root.asUsize a → Hardware.memory m a = 0) :
    Created s parent newRights pmm ⟨n, (s.table.slots n).generation⟩
      ⟨s.table.installed n (childEntry s.table parent.index e newRights
          (.addressSpace ⟨⟨head, (s.arena.slots head).generation⟩⟩)),
        s.arena.allocated head ⟨Mapper.createAddressSpace root⟩, m⟩
      root ⟨⟨head, (s.arena.slots head).generation⟩⟩ where
  pulled := hpull
  zeroed := hzero
  vacant := hvacant
  space := by rw [Arena.get_allocated_eq hvacant, if_pos rfl]
  spaces id hid := by rw [Arena.get_allocated_eq hvacant, if_neg hid]
  free hocc := ne_of_vacant_of_occupied (htable.freeHead_vacant hn) hocc rfl
  cap := lookup_installed htable hn
  caps hd' hne c := by
    by_cases hindex : hd'.index = n
    · have hstale : hd'.generation ≠ (s.table.slots n).generation := by
        intro hgen
        apply hne
        obtain ⟨i, g⟩ := hd'
        dsimp only at hindex hgen
        rw [hindex, hgen]
      have hnot : ∀ e', ¬ Resolves s.table hd' e' := by
        intro e' he'
        have hocc := he'.generation
        rw [hindex] at hocc
        exact hstale hocc.symm
      have hnot' : ∀ e',
          ¬ Resolves (s.table.installed n (childEntry s.table parent.index e newRights
          (.addressSpace ⟨⟨head, (s.arena.slots head).generation⟩⟩))) hd' e' := by
        intro e' he'
        have hocc := he'.generation
        rw [installed_generation, hindex] at hocc
        exact hstale hocc.symm
      rw [lookup_err hnot, lookup_err hnot']
      simp
    · exact lookup_congr installed_generation (by rw [installed_nodeAt, if_neg hindex])
  child := by
    rw [installed_parentAt, if_pos rfl]
    rfl
  parents i hi := by rw [installed_parentAt, if_neg hi]
  narrower := ⟨e.capability, lookup_ok h.resolves, h.contains⟩

omit [Build] in
/-- A capability that has just been created has no children. -/
theorem Created.leaf [Hardware σ] {root : PhysFrame} {handle : AddressSpaceHandle}
    (h : Created s parent newRights pmm hd s' root handle) (htable : s.table.WellFormed)
    (htable' : s'.table.WellFormed) :
    s'.table.firstChildAt hd.index = none := by
  refine (htable'.children hd.index).head_none_iff.mpr fun i hi => ?_
  by_cases hindex : i = hd.index
  · obtain ⟨c, hlookup, _⟩ := h.narrower
    obtain ⟨e, he, _⟩ := lookup_eq_ok_iff.mp hlookup
    rw [hindex, h.child] at hi
    refine h.free ?_
    rw [← Option.some.inj hi]
    simp [Occupied, he.entry]
  · rw [h.parents i hindex] at hi
    exact h.free (htable.parent_occupied hi)

/-- Dropping it leaves the capabilities that were there before. -/
theorem Created.drop [Hardware σ] {root : PhysFrame} {handle : AddressSpaceHandle}
    (h : Created s parent newRights pmm hd s' root handle) (htable : s.table.WellFormed)
    (htable' : s'.table.WellFormed) :
    ∃ t, (capDrop hd).run s'.table = .ok () t ∧ ∀ hd' c,
      (lookup hd').run t = .ok c t ↔ (lookup hd').run s.table = .ok c s.table := by
  obtain ⟨e, he, _⟩ := lookup_eq_ok_iff.mp h.cap
  have hleaf : e.firstChild = none :=
    (read_of_entry (g := SlotEntry.firstChild) he.entry).symm.trans (h.leaf htable htable')
  rcases capDrop_run htable' hd with ⟨err, hfails, _⟩ | ⟨e', t, _, _, _, hunlink, hrun⟩
  · unfold dropChecks at hfails
    rw [firstError_pass he.handleCheck,
      firstError_pass (by rw [he.leafCheck, decide_eq_true hleaf]), firstError_nil] at hfails
    cases hfails
  refine ⟨t.freed hd.index, hrun, fun hd' c => ?_⟩
  by_cases hindex : hd'.index = hd.index
  · constructor
    · intro hok
      obtain ⟨e'', he'', _⟩ := lookup_eq_ok_iff.mp hok
      have hnode := read_of_entry (g := fun e => some e.node) he''.entry
      rw [hindex] at hnode
      have hnone := (freed_nodeAt (t := t) (i := hd.index) (j := hd.index)).trans (if_pos rfl)
      cases hnode.symm.trans hnone
    · intro hok
      obtain ⟨e'', he'', _⟩ := lookup_eq_ok_iff.mp hok
      refine absurd ?_ h.free
      rw [← hindex]
      simp [Occupied, he''.entry]
  · have hne : hd' ≠ hd := fun heq => hindex (congrArg CapHandle.index heq)
    rw [← h.caps hd' hne c]
    apply lookup_congr
    · rw [freed_generation, if_neg hindex, hunlink.generation]
    · rw [freed_nodeAt, if_neg hindex, hunlink.nodeAt]

/-- With the checks passed a creation goes through, or the provider has no frame. -/
theorem CreateChecks.capCreate_cases [Hardware σ] (h : CreateChecks s parent newRights e)
    (hchecked : (checkCreation parent newRights).run s = .ok () s) (htable : s.table.WellFormed)
    (harena : s.arena.WellFormed) (hpmm : Supplies pmm s.machine) :
    ((capCreateAddressSpace parent newRights pmm).run s = .err .outOfFrames s ∧
      pmm.run s.machine = .ok none s.machine) ∨
    ∃ hd s' root handle, (capCreateAddressSpace parent newRights pmm).run s = .ok hd s' ∧
      Created s parent newRights pmm hd s' root handle ∧
      s'.table.WellFormed ∧ s'.arena.WellFormed := by
  unfold capCreateAddressSpace
  rw [Prog.bind_ok hchecked]
  obtain ⟨hnone, n, head, hn, hvacant, hhead, hsome⟩ := h.mint_run htable harena pmm
  rcases hpmm with hdry | ⟨root, m, hpull, hzero⟩
  · exact Or.inl ⟨hnone _ hdry, hdry⟩
  · refine Or.inr ⟨_, _, root, _, hsome root m hpull, h.created htable hn hvacant hpull hzero, ?_⟩
    refine ⟨htable.installed hn ?_, harena.allocated hhead⟩
    exact WellFormed.childEntry_leaf h.resolves.entry h.contains (saturatingAdd_depth.mp h.depth)

/-- A creation changes nothing, or creates a space. -/
theorem capCreate_cases [Hardware σ] (parent : CapHandle) (newRights : CapRights)
    (htable : s.table.WellFormed) (harena : s.arena.WellFormed) (hpmm : Supplies pmm s.machine) :
    (∃ err, (capCreateAddressSpace parent newRights pmm).run s = .err err s) ∨
    ∃ hd s' root handle, (capCreateAddressSpace parent newRights pmm).run s = .ok hd s' ∧
      Created s parent newRights pmm hd s' root handle ∧
      s'.table.WellFormed ∧ s'.arena.WellFormed := by
  rcases checkCreation_cases s parent newRights with ⟨e, hchecks, hchecked⟩ | ⟨_, err, hfailed⟩
  · rcases hchecks.capCreate_cases hchecked htable harena hpmm with ⟨hrun, _⟩ | hok
    · exact Or.inl ⟨_, hrun⟩
    · exact Or.inr hok
  · exact Or.inl ⟨err, Prog.bind_err hfailed⟩

/-- Over the manager of any extent, a creation changes nothing, creates a space, or panics. -/
theorem capCreate_ends {N R : ℕ} {extent : PhysFrameRange} {reserved : List PhysFrameRange}
    {s : Spaces AS (Supply (Pmm N R))} {A : SetAllocator ℕ} (parent : CapHandle)
    (newRights : CapRights) (htable : s.table.WellFormed) (harena : s.arena.WellFormed)
    (hmodels : Models extent reserved s.machine.frames A) (haccepts : Accepts N R extent reserved)
    (hstop : extent.stop.val < 2 ^ 64) :
    (∃ err, (capCreateAddressSpace parent newRights Pmm.allocFrame).run s = .err err s) ∨
    (∃ cause, (capCreateAddressSpace parent newRights Pmm.allocFrame).run s = .panic cause) ∨
    ∃ hd s' root handle,
      (capCreateAddressSpace parent newRights Pmm.allocFrame).run s = .ok hd s' ∧
      Created s parent newRights Pmm.allocFrame hd s' root handle ∧ s'.table.WellFormed := by
  have hcreate (hpmm : Supplies (Pmm.allocFrame : Prog _ MmuError _) s.machine) :=
    capCreate_cases parent newRights htable harena hpmm
  have hsupplies : Supplies (Pmm.allocFrame : Prog _ MmuError _) s.machine ∨
      ∃ cause, (Pmm.allocFrame : Prog _ MmuError _).run s.machine = .panic cause := by
    rcases hmodels.allocFrame_cases haccepts hstop with ⟨_, hrun⟩ | ⟨_, hpanic⟩ |
      ⟨root, m, _, _, hrun, _, hmemory⟩
    · exact Or.inl (Or.inl (hrun _))
    · exact Or.inr (hpanic _)
    · refine Or.inl (Or.inr ⟨root, m, hrun _, fun a ha => ?_⟩)
      show m.memory a = 0
      rw [hmemory]
      exact if_pos ha
  rcases hsupplies with hpmm | ⟨cause, hpanic⟩
  · rcases hcreate hpmm with herr | ⟨hd, s', root, handle, hrun, hcreated, htable', _⟩
    · exact Or.inl herr
    · exact Or.inr (Or.inr ⟨hd, s', root, handle, hrun, hcreated, htable'⟩)
  rcases checkCreation_cases s parent newRights with ⟨e, _, hchecked⟩ | ⟨_, err, hfailed⟩
  · refine Or.inr (Or.inl ⟨cause, ?_⟩)
    unfold capCreateAddressSpace mintAddressSpace
    rw [Prog.bind_ok hchecked]
    exact Prog.bind_panic (Prog.zoom_panic hpanic)
  · exact Or.inl ⟨err, Prog.bind_err hfailed⟩

/-- A creation fails and leaves the table, the arena and the machine as they were, or it takes
one frame, one arena slot and one table slot. Once its checks have passed a derivation goes
through, and only the provider can refuse. -/
theorem capCreate_atomic [Hardware σ] (parent : CapHandle) (newRights : CapRights)
    (htable : s.table.WellFormed) (harena : s.arena.WellFormed) (hpmm : Supplies pmm s.machine) :
    ((∃ err, (capCreateAddressSpace parent newRights pmm).run s = .err err s) ∨
      ∃ hd s' root handle, (capCreateAddressSpace parent newRights pmm).run s = .ok hd s' ∧
        Created s parent newRights pmm hd s' root handle) ∧
    ((checkCreation parent newRights).run s = .ok () s →
      (∀ object, ∃ hd t, (capDerive parent newRights object).run s.table = .ok hd t) ∧
      ∀ err s', (capCreateAddressSpace parent newRights pmm).run s = .err err s' →
        err = .outOfFrames ∧ pmm.run s.machine = .ok none s.machine) := by
  refine ⟨?_, fun hchecked => ?_⟩
  · rcases capCreate_cases parent newRights htable harena hpmm with
      herr | ⟨hd, s', root, handle, hrun, hcreated, _⟩
    · exact Or.inl herr
    · exact Or.inr ⟨hd, s', root, handle, hrun, hcreated⟩
  rcases checkCreation_cases s parent newRights with ⟨e, hchecks, _⟩ | ⟨_, err, hfailed⟩
  swap
  · rw [hchecked] at hfailed
    cases hfailed
  refine ⟨fun object => ?_, fun err s' hfails => ?_⟩
  · obtain ⟨n, _, hderive⟩ := hchecks.capDerive_run htable object
    exact ⟨_, _, hderive⟩
  · rcases hchecks.capCreate_cases hchecked htable harena hpmm with ⟨hrun, hdry⟩ |
      ⟨_, _, _, _, hrun, _⟩
    · rw [hrun] at hfails
      cases hfails
      exact ⟨rfl, hdry⟩
    · rw [hrun] at hfails
      cases hfails

/-! ## An example -/

/-- A table that holds one capability, for the one address space of the arena. -/
def bootSpaces : Spaces QemuVirtAddressSpace (Supply (Pmm 1 1)) where
  table := CapabilityTable.new.installed 0 (rootEntry ⟨.derive, .addressSpace ⟨⟨0, 0⟩⟩⟩)
  arena := Arena.new.allocated 0 ⟨⟨⟨⟨0⟩, rfl⟩⟩⟩
  machine := ⟨twoFramesPmm, fun _ => 1⟩

omit [Build] [Mapper AS] in
theorem bootSpaces_wellFormed : bootSpaces.table.WellFormed ∧ bootSpaces.arena.WellFormed :=
  ⟨new_wellFormed.installed rfl (rootEntry_leaf _ _),
    (Arena.new_wellFormed (by decide)).allocated rfl⟩

omit [Build] [Mapper AS] in
theorem bootSpaces_checks : CreateChecks bootSpaces ⟨0, 0⟩ .derive
    (rootEntry ⟨.derive, .addressSpace ⟨⟨0, 0⟩⟩⟩) where
  resolves := ⟨by decide, rfl, rfl⟩
  kind := rfl
  derive := CapRights.contains_refl _
  contains := CapRights.contains_refl _
  depth := saturatingAdd_depth.mpr (by decide)
  arena := by decide
  table := by decide

omit [Build] [Mapper AS] in
/-- A space is created over the last frame. -/
theorem bootSpaces_created : let _ : Build := debugBuild
    ∃ hd s' root handle,
      (capCreateAddressSpace ⟨0, 0⟩ .derive Pmm.allocFrame).run bootSpaces = .ok hd s' ∧
      Created bootSpaces ⟨0, 0⟩ .derive Pmm.allocFrame hd s' root handle := by
  intro _
  obtain ⟨haccepts, hmodels⟩ := twoFrames_models
  have hwindow : twoFrames.stop.val ≤ directMapEnd := by decide
  have hmodels' : Models twoFrames firstReserved bootSpaces.machine.frames _ := hmodels
  have hchecked : (checkCreation ⟨0, 0⟩ .derive).run bootSpaces = .ok () bootSpaces := by
    rcases checkCreation_cases bootSpaces ⟨0, 0⟩ .derive with ⟨e, _, hrun⟩ | ⟨hnone, _⟩
    · exact hrun
    · exact absurd bootSpaces_checks (hnone _)
  rcases bootSpaces_checks.capCreate_cases hchecked bootSpaces_wellFormed.1 bootSpaces_wellFormed.2
    (hmodels.supplies haccepts hwindow) with ⟨_, hdry⟩ | ⟨hd, s', root, handle, hrun, hcreated, _⟩
  · rcases hmodels'.allocFrame_run (ε := MmuError) haccepts hwindow with ⟨hempty, _⟩ |
      ⟨f, s', _, _, hsome, _⟩
    · exact absurd hempty (by decide)
    · have hcon := hsome.symm.trans hdry
      cases hcon
  · exact ⟨hd, s', root, handle, hrun, hcreated⟩

omit [Build] [Mapper AS] in
theorem capCreate_atomic_boot : let _ : Build := debugBuild
    ∃ hd s' root handle,
      (capCreateAddressSpace ⟨0, 0⟩ .derive Pmm.allocFrame).run bootSpaces = .ok hd s' ∧
      Created bootSpaces ⟨0, 0⟩ .derive Pmm.allocFrame hd s' root handle := by
  intro _
  obtain ⟨haccepts, hmodels⟩ := twoFrames_models
  have hpmm := hmodels.supplies (ε := MmuError) (s := bootSpaces.machine) haccepts (by decide)
  rcases (capCreate_atomic ⟨0, 0⟩ .derive bootSpaces_wellFormed.1 bootSpaces_wellFormed.2 hpmm).1
    with ⟨err, hrun⟩ | hok
  · obtain ⟨_, _, _, _, hcreated, _⟩ := bootSpaces_created
    rw [hrun] at hcreated
    cases hcreated
  · exact hok

end Spaces

end Tyrne
