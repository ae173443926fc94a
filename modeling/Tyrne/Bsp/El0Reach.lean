import Tyrne.Bsp.HardwareWalk
import Tyrne.Bsp.Isolation

/-!
# What EL0 reaches

Any number of address spaces over one memory manager, and any run of the calls over them. With
the root of a space in `TTBR0_EL1`, the hardware gives EL0 the pages that were mapped through
capabilities to that space. As long as only allocated leaf frames are mapped, and only unmapped
ones freed, no page is a table of any space, or a free frame.
-/

namespace Tyrne

open Radix Tree Spaces

section Defs

variable {N R : ℕ}

open scoped Classical in
/-- The pages of the space `h` after the event. -/
noncomputable def SpaceEvent.applyTo (h : AddressSpaceHandle) (pages : PageMap)
    (ev : SpaceEvent N R) : PageMap :=
  match ev.op, ev.reply with
  | .create _ _, .ok (.space cap) => if Names ev.after.table cap h then fun _ => none else pages
  | .map cap va pa flags, .ok _ =>
    if Names ev.before.table cap h then
      Function.update pages (va.val / pageSize) (some (pa, flags))
    else
      pages
  | .unmap cap va, .ok _ =>
    if Names ev.before.table cap h then Function.update pages (va.val / pageSize) none else pages
  | _, _ => pages

/-- The pages mapped through capabilities to the space `h`, with the frame and the flags of the
last `map`. -/
noncomputable def spacePages (h : AddressSpaceHandle) (evs : List (SpaceEvent N R)) : PageMap :=
  evs.foldl (SpaceEvent.applyTo h) fun _ => none

theorem spacePages_snoc (h : AddressSpaceHandle) (past : List (SpaceEvent N R))
    (ev : SpaceEvent N R) :
    spacePages h (past ++ [ev]) = ev.applyTo h (spacePages h past) := by
  unfold spacePages
  rw [List.foldl_append]
  rfl

/-- How the loader uses the calls: addresses are below 2^48, only leaf frames are mapped, and
none is freed while it is mapped. -/
def SpaceOp.Careful (leaves : Finset ℕ) (past : List (SpaceEvent N R)) : SpaceOp → Prop
  | .map _ va pa flags => (MapOp.map va pa flags).Below ∧ pa.asUsize ∈ heldLeaves leaves past
  | .unmap _ va => (MapOp.unmap va).Below
  | .freeLeaf f => ∀ h ∈ createdSpaces past, ∀ k entry, spacePages h past k = some entry →
    entry.1.asUsize ≠ f.asUsize
  | _ => True

/-- All calls of the run are careful. -/
def CarefulRun (leaves : Finset ℕ) (evs : List (SpaceEvent N R)) : Prop :=
  ∀ past ev rest, evs = past ++ ev :: rest → ev.op.Careful leaves past

theorem CarefulRun.snoc {leaves : Finset ℕ} {past : List (SpaceEvent N R)} {ev : SpaceEvent N R}
    (h : CarefulRun leaves (past ++ [ev])) :
    CarefulRun leaves past ∧ ev.op.Careful leaves past := by
  refine ⟨fun before ev' rest heq => h before ev' (rest ++ [ev]) ?_, h past ev [] rfl⟩
  rw [heq, List.append_assoc, List.cons_append]

variable {h : AddressSpaceHandle} {pages : PageMap} {ev : SpaceEvent N R}

/-- An event that neither edits nor creates the space. -/
theorem applyTo_other (hedits : ¬ ev.EditsSpace h) (hcreates : ¬ ev.Creates h) :
    ev.applyTo h pages = pages := by
  obtain ⟨before, op, reply, after⟩ := ev
  unfold SpaceEvent.applyTo
  cases op with
  | create parent newRights =>
    cases reply with
    | error e => rfl
    | ok r =>
      cases r with
      | space cap =>
        exact if_neg fun hnames => hcreates ⟨parent, newRights, cap, rfl, rfl, hnames⟩
      | _ => rfl
  | map cap va pa flags =>
    cases reply with
    | error e => rfl
    | ok r => exact if_neg fun hnames => hedits ⟨cap, rfl, hnames⟩
  | unmap cap va =>
    cases reply with
    | error e => rfl
    | ok r => exact if_neg fun hnames => hedits ⟨cap, rfl, hnames⟩
  | allocLeaf => rfl
  | freeLeaf f => rfl
  | switchTable table => rfl

/-- A new space has no pages. -/
theorem applyTo_creates (hcreates : ev.Creates h) : ev.applyTo h pages = fun _ => none := by
  obtain ⟨before, op, reply, after⟩ := ev
  obtain ⟨parent, newRights, cap, hop, hreply, hnames⟩ := hcreates
  dsimp only at hop hreply
  subst hop hreply
  exact if_pos hnames

/-- A page is as before, or the event maps it through a capability to the space. -/
theorem applyTo_some {k : ℕ} {entry : PhysFrame × MappingFlags}
    (hentry : ev.applyTo h pages k = some entry) :
    pages k = some entry ∨ ∃ cap va flags r, ev.op = .map cap va entry.1 flags ∧
      ev.reply = .ok r ∧ Names ev.before.table cap h := by
  obtain ⟨before, op, reply, after⟩ := ev
  unfold SpaceEvent.applyTo at hentry
  cases op with
  | create parent newRights =>
    cases reply with
    | error e => exact Or.inl hentry
    | ok r =>
      cases r with
      | space cap =>
        dsimp only at hentry
        split at hentry
        · cases hentry
        · exact Or.inl hentry
      | _ => exact Or.inl hentry
  | map cap va pa flags =>
    cases reply with
    | error e => exact Or.inl hentry
    | ok r =>
      dsimp only at hentry
      split at hentry
      · next hnames =>
        by_cases hk : k = va.val / pageSize
        · rw [hk, Function.update_self] at hentry
          cases hentry
          exact Or.inr ⟨cap, va, flags, r, rfl, rfl, hnames⟩
        · rw [Function.update_of_ne hk] at hentry
          exact Or.inl hentry
      · exact Or.inl hentry
  | unmap cap va =>
    cases reply with
    | error e => exact Or.inl hentry
    | ok r =>
      dsimp only at hentry
      split at hentry
      · by_cases hk : k = va.val / pageSize
        · rw [hk, Function.update_self] at hentry
          cases hentry
        · rw [Function.update_of_ne hk] at hentry
          exact Or.inl hentry
      · exact Or.inl hentry
  | allocLeaf => exact Or.inl hentry
  | freeLeaf f => exact Or.inl hentry
  | switchTable table => exact Or.inl hentry

end Defs

/-! ## One call -/

section Calls

variable [Build] {N R : ℕ} {extent : PhysFrameRange} {reserved : List PhysFrameRange}
  {haccepts : Accepts N R extent reserved} {hwindow : extent.stop.val ≤ directMapEnd}
  {leaves : Finset ℕ} {past : List (SpaceEvent N R)} {s s' : SpaceSystem N R}
  {T T' : AddressSpaceHandle → PageTree} {ev : SpaceEvent N R} {h : AddressSpaceHandle}

/-- The event is a `map` or an `unmap` of the machine on the space `h`, up to a flush. -/
def PerformsOn (src : FrameSource (Supply (Pmm N R))) (s : SpaceSystem N R)
    (h : AddressSpaceHandle) (ev : SpaceEvent N R) (s' : SpaceSystem N R) : Prop :=
  ∃ as_ ev' m, s.arena.get h.slot = some ⟨as_⟩ ∧ MapStep src as_ s.machine ev' m ∧
    Hardware.memory s'.machine = Hardware.memory m ∧
    ∀ pages, ev.applyTo h pages = ev'.apply pages

theorem performsOn_map (hsep : Separate haccepts hwindow leaves past s T)
    (hh : h ∈ createdSpaces past) {cap : CapHandle} (hnames : Names s.table cap h)
    {va : VirtAddr} {pa : PhysFrame} {flags : MappingFlags}
    {reply : Except AddressSpaceError SpaceReply} (hbelow : (MapOp.map va pa flags).Below)
    (hrun : (SpaceOp.map cap va pa flags).exec.run s = .returned reply s') :
    PerformsOn (pmmSource haccepts hwindow) s h ⟨s, .map cap va pa flags, reply, s'⟩ s' := by
  obtain ⟨as_, hlive, hroot⟩ := hsep.family.live h hh
  have hend := map_run (hsep.family.owns h hh) hroot va pa flags
  cases hmap : (QemuVirtMmu.map as_ va pa flags (pmmSource haccepts hwindow).alloc).run
      s.machine with
  | panic p =>
    rw [hmap] at hend
    cases hend
  | err e m =>
    have hcall : (capMap cap Pmm.allocFrame va pa flags).run s = _ :=
      capMap_err hnames hlive hmap
    have hgate : (SpaceOp.map cap va pa flags).exec.run s = _ := Prog.bind_err hcall
    rw [hrun] at hgate
    cases reply with
    | ok r => cases hgate
    | error e' =>
      cases hgate
      exact ⟨as_, ⟨.map va pa flags, .error e⟩, m, hlive, ⟨hbelow, Prog.bind_err hmap⟩, rfl,
        fun _ => rfl⟩
  | ok token m =>
    obtain ⟨m', hflush, hcall⟩ := capMap_ok hnames hlive hmap
    have hcall' : (capMap cap Pmm.allocFrame va pa flags).run s = _ := hcall
    have hgate : (SpaceOp.map cap va pa flags).exec.run s = _ := Prog.bind_ok hcall'
    rw [hrun] at hgate
    cases hflush
    cases reply with
    | error e' => cases hgate
    | ok r =>
      cases hgate
      exact ⟨as_, ⟨.map va pa flags, .ok none⟩, m, hlive, ⟨hbelow, Prog.bind_ok hmap⟩, rfl,
        fun _ => if_pos hnames⟩

theorem performsOn_unmap (hsep : Separate haccepts hwindow leaves past s T)
    (hh : h ∈ createdSpaces past) {cap : CapHandle} (hnames : Names s.table cap h)
    {va : VirtAddr} {reply : Except AddressSpaceError SpaceReply} (hbelow : (MapOp.unmap va).Below)
    (hrun : (SpaceOp.unmap cap va).exec.run s = .returned reply s') :
    PerformsOn (pmmSource haccepts hwindow) s h ⟨s, .unmap cap va, reply, s'⟩ s' := by
  obtain ⟨as_, hlive, hroot⟩ := hsep.family.live h hh
  have hend := unmap_run (hsep.family.owns h hh).holds hroot va
  cases hunmap : (QemuVirtMmu.unmap as_ va : Prog (Supply (Pmm N R)) MmuError _).run
      s.machine with
  | panic p =>
    rw [hunmap] at hend
    cases hend
  | err e m =>
    have hcall : (capUnmap cap va).run s = _ := capUnmap_err hnames hlive hunmap
    have hgate : (SpaceOp.unmap cap va).exec.run s = _ := Prog.bind_err hcall
    rw [hrun] at hgate
    cases reply with
    | ok r => cases hgate
    | error e' =>
      cases hgate
      exact ⟨as_, ⟨.unmap va, .error e⟩, m, hlive, ⟨hbelow, Prog.bind_err hunmap⟩, rfl,
        fun _ => rfl⟩
  | ok x m =>
    obtain ⟨m', hflush, hcall⟩ := capUnmap_ok (f := x.2) hnames hlive hunmap
    have hgate : (SpaceOp.unmap cap va).exec.run s = _ := Prog.bind_ok hcall
    rw [hrun] at hgate
    cases hflush
    cases reply with
    | error e' => cases hgate
    | ok r =>
      cases hgate
      exact ⟨as_, ⟨.unmap va, .ok (some x.2)⟩, m, hlive, ⟨hbelow, Prog.bind_ok hunmap⟩, rfl,
        fun _ => if_pos hnames⟩

/-- A careful call that edits a space is a call on its tables. -/
theorem performsOn_of_edits (hsep : Separate haccepts hwindow leaves past s T)
    (hstep : SpaceStep leaves past s ev s') (hcareful : ev.op.Careful leaves past)
    (hedits : ev.EditsSpace h) :
    h ∈ createdSpaces past ∧ PerformsOn (pmmSource haccepts hwindow) s h ev s' := by
  obtain ⟨before, op, reply, after⟩ := ev
  obtain ⟨rfl, rfl, hallowed, hexec⟩ := hstep
  obtain ⟨cap, htarget, hnames⟩ := hedits
  cases op with
  | map cap' va pa flags =>
    cases htarget
    have hh := hallowed h hnames
    exact ⟨hh, performsOn_map hsep hh hnames hcareful.1 hexec⟩
  | unmap cap' va =>
    cases htarget
    have hh := hallowed h hnames
    exact ⟨hh, performsOn_unmap hsep hh hnames hcareful hexec⟩
  | create _ _ => cases htarget
  | allocLeaf => cases htarget
  | freeLeaf _ => cases htarget
  | switchTable _ => cases htarget

omit [Build] in
/-- A call that ends in an error of its first part, in the state it began in. -/
theorem gate_err {α : Type} {c : Prog (SpaceSystem N R) AddressSpaceError α}
    {g : α → Prog (SpaceSystem N R) AddressSpaceError SpaceReply} {e : AddressSpaceError}
    {reply : Except AddressSpaceError SpaceReply} (herr : c.run s = .err e s)
    (hexec : (c >>= g).run s = .returned reply s') : s' = s := by
  have hgate : (c >>= g).run s = .returned (.error e) s := Prog.bind_err herr
  rw [hexec, Result.returned_inj] at hgate
  exact hgate.2

/-- Any other call writes frames on offer at most. -/
theorem unedited_memory (hsep : Separate haccepts hwindow leaves past s T)
    (hstep : SpaceStep leaves past s ev s') (hnot : ∀ h, ¬ ev.EditsSpace h) :
    Memory.AgreesOff ((pmmSource haccepts hwindow).offers s.machine) s.machine.memory
      s'.machine.memory := by
  obtain ⟨before, op, reply, after⟩ := ev
  obtain ⟨hbefore, hafter, hallowed, hexec⟩ := hstep
  dsimp only at hbefore hafter hallowed hexec
  subst hbefore hafter
  cases op with
  | create parent newRights =>
    obtain ⟨A, hmodels⟩ := hsep.valid
    have hpmm : Supplies (Pmm.allocFrame : Prog (Supply (Pmm N R)) MmuError _) before.machine :=
      hmodels.supplies haccepts hwindow
    rcases capCreate_cases parent newRights hsep.table hsep.arena hpmm with ⟨err, hrun⟩ |
      ⟨hd, s₁, root, handle, hrun, hcreated, -⟩
    · rw [gate_err hrun hexec]
      exact Memory.AgreesOff.refl _ _
    · have hgate : (SpaceOp.create parent newRights).exec.run before =
          .returned (.ok (.space hd)) s₁ := Prog.bind_ok hrun
      rw [hexec, Result.returned_inj] at hgate
      have hpulled : (pmmSource haccepts hwindow).alloc.run before.machine =
          .ok (some root) s₁.machine := hcreated.pulled
      rw [hgate.2]
      exact (FrameSource.alloc_some hsep.valid hpulled).2.2.2.2
  | map cap va pa flags =>
    have hnone : ∀ h, ¬ Names before.table cap h := fun h hnames => hnot h ⟨cap, rfl, hnames⟩
    obtain ⟨e, hrun⟩ := capMap_unnamed hnone Pmm.allocFrame va pa flags
    rw [gate_err hrun hexec]
    exact Memory.AgreesOff.refl _ _
  | unmap cap va =>
    have hnone : ∀ h, ¬ Names before.table cap h := fun h hnames => hnot h ⟨cap, rfl, hnames⟩
    obtain ⟨e, hrun⟩ := capUnmap_unnamed hnone va
    rw [gate_err hrun hexec]
    exact Memory.AgreesOff.refl _ _
  | allocLeaf =>
    obtain ⟨r, m, halloc, hoff⟩ : ∃ r m,
        (pmmSource haccepts hwindow).alloc.run before.machine = .ok r m ∧
        Memory.AgreesOff ((pmmSource haccepts hwindow).offers before.machine)
          before.machine.memory m.memory := by
      rcases (pmmSource haccepts hwindow).alloc_cases hsep.valid with ⟨m, hrun, -, -, hoff⟩ |
        ⟨f, m, hrun, -, -, -, -, hoff⟩
      · exact ⟨_, m, hrun, hoff⟩
      · exact ⟨_, m, hrun, hoff⟩
    have hgate : SpaceOp.allocLeaf.exec.run before =
        .returned (.ok (.leaf r)) { before with machine := m } := Prog.bind_ok (onFrames_run halloc)
    rw [hexec, Result.returned_inj] at hgate
    rw [hgate.2]
    exact hoff
  | freeLeaf f =>
    obtain ⟨A, hmodels⟩ := hsep.valid
    have hsame : ∃ r s₁, (freeLeafFrame f).run before = .ok r s₁ ∧
        s₁.machine.memory = before.machine.memory := by
      rcases hmodels.freeFrame_run haccepts hwindow f with ⟨_, err, hrun⟩ | ⟨_, pmm', hrun, _⟩
      · exact ⟨_, before, Prog.zoom_ok (Prog.attempt_err hrun), rfl⟩
      · exact ⟨_, _, Prog.zoom_ok (Prog.attempt_ok hrun), rfl⟩
    obtain ⟨r, s₁, hrun, hmemory⟩ := hsame
    have hgate : (SpaceOp.freeLeaf f).exec.run before = .returned (.ok (.freed r)) s₁ :=
      Prog.bind_ok hrun
    rw [hexec, Result.returned_inj] at hgate
    rw [hgate.2, hmemory]
    exact Memory.AgreesOff.refl _ _
  | switchTable table =>
    have hgate : (SpaceOp.switchTable table).exec.run before =
        .returned (.ok .switched) { before with table } := rfl
    rw [hexec, Result.returned_inj] at hgate
    rw [hgate.2]
    exact Memory.AgreesOff.refl _ _

/-- A new space has a handle of its own and a zeroed root. -/
theorem created_fresh (hsep : Separate haccepts hwindow leaves past s T)
    (hstep : SpaceStep leaves past s ev s') (hcreates : ev.Creates h) :
    h ∉ createdSpaces past ∧ ∃ root : PhysFrame, s'.arena.get h.slot = some ⟨⟨root⟩⟩ ∧
      root.asUsize < directMapEnd ∧ ∀ a, InFrame root.asUsize a → s'.machine.memory a = 0 := by
  obtain ⟨before, op, reply, after⟩ := ev
  obtain ⟨hbefore, hafter, hallowed, hexec⟩ := hstep
  dsimp only at hbefore hafter hallowed hexec
  subst hbefore hafter
  obtain ⟨parent, newRights, cap, hop, hreply, hnames⟩ := hcreates
  dsimp only at hop hreply hnames
  subst hop hreply
  obtain ⟨A, hmodels⟩ := hsep.valid
  have hpmm : Supplies (Pmm.allocFrame : Prog (Supply (Pmm N R)) MmuError _) before.machine :=
    hmodels.supplies haccepts hwindow
  rcases capCreate_cases parent newRights hsep.table hsep.arena hpmm with ⟨err, hrun⟩ |
    ⟨hd, s₁, root, handle, hrun, hcreated, -⟩
  · have hgate : (SpaceOp.create parent newRights).exec.run before =
        .returned (.error err) before := Prog.bind_err hrun
    rw [hexec, Result.returned_inj] at hgate
    cases hgate.1
  · have hgate : (SpaceOp.create parent newRights).exec.run before =
        .returned (.ok (.space hd)) s₁ := Prog.bind_ok hrun
    rw [hexec, Result.returned_inj] at hgate
    obtain ⟨hcap, rfl⟩ := hgate
    cases hcap
    obtain rfl : h = handle := hnames.unique ⟨_, hcreated.cap, rfl⟩
    have hpulled : (pmmSource haccepts hwindow).alloc.run before.machine =
        .ok (some root) after.machine := hcreated.pulled
    obtain ⟨-, hoffered, -⟩ := FrameSource.alloc_some hsep.valid hpulled
    refine ⟨fun hh => ?_, root, hcreated.space,
      ((pmmSource haccepts hwindow).in_window hsep.valid hoffered).2, hcreated.zeroed⟩
    obtain ⟨as_, hget, _⟩ := hsep.family.live h hh
    obtain ⟨_, _, hentry⟩ := Arena.get_eq_some_iff.mp hget
    rw [hcreated.vacant.2] at hentry
    cases hentry

omit [Build] in
/-- A held frame stays held, unless it is freed. -/
theorem heldLeaves_keeps {a : ℕ} (ha : a ∈ heldLeaves leaves past)
    (hfree : ∀ f, ev.op = .freeLeaf f → a ≠ f.asUsize) : a ∈ heldLeaves leaves (past ++ [ev]) := by
  rw [heldLeaves_snoc]
  unfold SpaceEvent.hold
  split
  · exact Finset.mem_insert_of_mem ha
  · next f _ hop _ => exact Finset.mem_erase.mpr ⟨hfree f hop, ha⟩
  · exact ha

/-! ## The invariant -/

/-- The tables of each space hold its pages and forbid nothing, and the pages are held leaf
frames. -/
structure Reach (leaves : Finset ℕ) (past : List (SpaceEvent N R)) (s : SpaceSystem N R)
    (T : AddressSpaceHandle → PageTree) : Prop where
  refines : ∀ h ∈ createdSpaces past, Refines (T h) (spacePages h past)
  plain : ∀ h ∈ createdSpaces past, Plain s.machine.memory (T h)
  held : ∀ h ∈ createdSpaces past, ∀ k entry, spacePages h past k = some entry →
    entry.1.asUsize ∈ heldLeaves leaves past

/-- The space that a call edits. -/
theorem Reach.edited (hreach : Reach leaves past s T)
    (hsep : Separate haccepts hwindow leaves past s T)
    (hsep' : Separate haccepts hwindow leaves (past ++ [ev]) s' T')
    (harena : s'.arena.get h.slot = s.arena.get h.slot) (hh : h ∈ createdSpaces past)
    (hperforms : PerformsOn (pmmSource haccepts hwindow) s h ev s') :
    Refines (T' h) (spacePages h (past ++ [ev])) ∧ Plain s'.machine.memory (T' h) := by
  obtain ⟨as_, ev', m, hget, hstep, hmemory, happly⟩ := hperforms
  obtain ⟨as₁, hget₁, hroot⟩ := hsep.family.live h hh
  obtain ⟨as₂, hget₂, hroot'⟩ := hsep'.family.live h (by
    rw [createdSpaces_snoc]
    exact Or.inl hh)
  rw [harena] at hget₂
  rw [hget] at hget₁ hget₂
  cases hget₁
  cases hget₂
  have howns := hsep.family.owns h hh
  have hwalkable : Walkable as_ (Hardware.memory s.machine) (spacePages h past) (T h) :=
    ⟨howns.holds, hroot.symm, hreach.refines h hh, hreach.plain h hh⟩
  obtain ⟨t', -, hholds, hroot'', hrefines, hplain⟩ := hwalkable.step howns hstep
  rw [← hmemory] at hholds hplain
  have hholds' := (hsep'.family.owns h (by
    rw [createdSpaces_snoc]
    exact Or.inl hh)).holds
  rw [spacePages_snoc, happly]
  have hsame : (T' h).root = t'.root := hroot'.symm.trans hroot''.symm
  exact ⟨hrefines.of_holds hholds hholds' hsame, hplain.of_holds hholds hholds' hsame⟩

/-- A careful step keeps the trees of the spaces apart, and each of them the tree of what its
own history has mapped, on leaf frames that are still held. -/
theorem Reach.step (hreach : Reach leaves past s T)
    (hsep : Separate haccepts hwindow leaves past s T) (hstep : SpaceStep leaves past s ev s')
    (hcareful : ev.op.Careful leaves past) :
    ∃ T', Separate haccepts hwindow leaves (past ++ [ev]) s' T' ∧
      Reach leaves (past ++ [ev]) s' T' := by
  obtain ⟨T', hsep', harena, hothers, hwrites⟩ := hsep.step hstep
  have hkept : ∀ h ∈ createdSpaces past, h ∈ createdSpaces (past ++ [ev]) := by
    intro h hh
    rw [createdSpaces_snoc]
    exact Or.inl hh
  -- a space is edited, or new, or neither
  have hpages : ∀ h ∈ createdSpaces (past ++ [ev]),
      Refines (T' h) (spacePages h (past ++ [ev])) ∧ Plain s'.machine.memory (T' h) := by
    intro h hh
    by_cases hcreates : ev.Creates h
    · obtain ⟨-, root, hget, hroot, hzero⟩ := created_fresh hsep hstep hcreates
      obtain ⟨as_, hget', hroot'⟩ := hsep'.family.live h hh
      rw [hget] at hget'
      cases hget'
      have hempty := holds_empty root.aligned hroot hzero
      have hholds := (hsep'.family.owns h hh).holds
      rw [spacePages_snoc, applyTo_creates hcreates]
      exact ⟨refines_empty.of_holds hempty hholds hroot'.symm,
        (Plain.of_zero hzero).of_holds hempty hholds hroot'.symm⟩
    · have hold : h ∈ createdSpaces past := by
        rw [createdSpaces_snoc] at hh
        exact hh.resolve_right hcreates
      by_cases hedits : ev.EditsSpace h
      · exact hreach.edited hsep hsep' (harena h hold) hold
          (performsOn_of_edits hsep hstep hcareful hedits).2
      · rw [hothers h hold hedits, spacePages_snoc, applyTo_other hedits hcreates]
        refine ⟨hreach.refines h hold, (hreach.plain h hold).congr fun a i ha hi => ?_⟩
        have haligned := (hsep.family.owns h hold).holds.aligned a ha
        by_cases hsome : ∃ h', ev.EditsSpace h'
        · obtain ⟨h', hedits'⟩ := hsome
          have hh' := hkept h' (performsOn_of_edits hsep hstep hcareful hedits').1
          have hne : h ≠ h' := fun heq => hedits (heq ▸ hedits')
          refine readWord_agreesOff (hwrites h' hedits')
            (fun b hb => (hsep'.family.owns h' hh').holds.aligned b hb) haligned ?_ hi
          refine hsep'.family.apart h (hkept h hold) h' hh' hne a ?_
          rw [hothers h hold hedits]
          exact ha
        · rw [not_exists] at hsome
          exact readWord_agreesOff (unedited_memory hsep hstep hsome)
            (fun b hb => ((pmmSource haccepts hwindow).in_window hsep.valid hb).1) haligned
            ((hsep.family.owns h hold).apart a ha) hi
  refine ⟨T', hsep', fun h hh => (hpages h hh).1, fun h hh => (hpages h hh).2, ?_⟩
  intro h hh k entry hentry
  rw [spacePages_snoc] at hentry
  by_cases hcreates : ev.Creates h
  · rw [applyTo_creates hcreates] at hentry
    cases hentry
  · have hold : h ∈ createdSpaces past := by
      rw [createdSpaces_snoc] at hh
      exact hh.resolve_right hcreates
    rcases applyTo_some hentry with hbefore | ⟨cap, va, flags, r, hop, -, -⟩
    · refine heldLeaves_keeps (hreach.held h hold k entry hbefore) fun f hop => ?_
      rw [hop] at hcareful
      exact hcareful h hold k entry hbefore
    · rw [hop] at hcareful
      refine heldLeaves_keeps hcareful.2 fun f hfree => ?_
      rw [hop] at hfree
      cases hfree

/-- So it is after any run of careful steps from a start without spaces. -/
theorem Reach.of_run {s₀ : SpaceSystem N R} (hstart : Separate haccepts hwindow leaves [] s₀ T)
    (hrun : SpaceRun leaves s₀ past s) (hcareful : CarefulRun leaves past) :
    ∃ T, Separate haccepts hwindow leaves past s T ∧ Reach leaves past s T := by
  induction hrun with
  | nil =>
    have hnone : ∀ h, h ∉ createdSpaces ([] : List (SpaceEvent N R)) := by
      rintro h ⟨_, hev, _⟩
      cases hev
    exact ⟨T, hstart, fun h hh => absurd hh (hnone h), fun h hh => absurd hh (hnone h),
      fun h hh => absurd hh (hnone h)⟩
  | snoc _ hstep ih =>
    obtain ⟨hpast, hnow⟩ := hcareful.snoc
    obtain ⟨T', hsep, hreach⟩ := ih hpast
    exact hreach.step hsep hstep hnow

omit [Build] in
/-- An address that the map gives lies in a page of it. -/
theorem PageMap.walk_some {pages : PageMap} {limit va : ℕ} {tr : Translation}
    (h : pages.walk limit va = some tr) : ∃ entry, pages (va / pageSize) = some entry ∧
      tr = ⟨entry.1.asUsize + va % pageSize, entry.2.attributes⟩ := by
  unfold PageMap.walk at h
  obtain ⟨entry, hentry, hbelow⟩ := Option.bind_eq_some_iff.mp h
  obtain ⟨-, htr⟩ := Option.ite_none_right_eq_some.mp hbelow
  cases htr
  exact ⟨entry, hentry, rfl⟩

omit [Build] in
/-- The pages of the two spaces: one page of the first. -/
theorem twoSpaces_pages :
    spacePages firstSpace twoSpacesCalls =
      (Function.update (fun _ => none) 0x400 (some (leafFrame, writable)) : PageMap) ∧
    spacePages secondSpace twoSpacesCalls = fun _ => none := by
  have hpages : ∀ h, spacePages h twoSpacesCalls = mapCall.applyTo h (allocCall.applyTo h
      (createSecond.applyTo h (createFirst.applyTo h fun _ => none))) := fun _ => rfl
  have hnone : ∀ {h} (pages : PageMap), allocCall.applyTo h pages = pages := fun _ => rfl
  have hmap : ∀ pages, mapCall.applyTo firstSpace pages =
      Function.update pages 0x400 (some (leafFrame, writable)) := fun _ => if_pos mapCall_names
  have hsecond : ¬ createSecond.Creates firstSpace :=
    fun hcreates => absurd (hcreates.unique createSecond_creates) (by decide)
  have hother : ¬ mapCall.EditsSpace secondSpace :=
    fun hedits => absurd (hedits.unique mapCall_edits) (by decide)
  have hedits : ∀ h, ¬ createSecond.EditsSpace h := by
    rintro h ⟨_, htarget, _⟩
    cases htarget
  have hcreates : ∀ h, ¬ mapCall.Creates h := by
    rintro h ⟨_, _, _, hop, _⟩
    cases hop
  constructor
  · rw [hpages, hmap, hnone, applyTo_other (hedits _) hsecond, applyTo_creates createFirst_creates]
  · rw [hpages, applyTo_other hother (hcreates _), hnone, applyTo_creates createSecond_creates]

omit [Build] in
theorem twoSpaces_careful : CarefulRun ∅ twoSpacesCalls := by
  have hbelow : (MapOp.map ⟨0x400000⟩ leafFrame writable).Below := ⟨by decide, by decide⟩
  have hheld : leafFrame.asUsize ∈ heldLeaves ∅ [createFirst, createSecond, allocCall] :=
    Finset.mem_insert_self _ _
  intro past ev rest heq
  match past, heq with
  | [], heq => cases heq; trivial
  | [_], heq => cases heq; trivial
  | [_, _], heq => cases heq; trivial
  | [_, _, _], heq => cases heq; exact ⟨hbelow, hheld⟩
  | _ :: _ :: _ :: _ :: past, heq =>
    have hlength := congrArg List.length heq
    simp [twoSpacesCalls] at hlength

omit [Build] in
set_option maxRecDepth 20000 in
theorem twoSpaces_live :
    pageMapped.arena.get firstSpace.slot = some ⟨⟨⟨⟨4096⟩, rfl⟩⟩⟩ ∧
    pageMapped.arena.get secondSpace.slot = some ⟨⟨⟨⟨8192⟩, rfl⟩⟩⟩ :=
  ⟨by with_unfolding_all rfl, by with_unfolding_all rfl⟩

/-- The core after the calls, with a root in `TTBR0_EL1`. -/
def regimeOf (s : SpaceSystem 1 1) (root : ℕ) : Regime :=
  ⟨s.machine.memory, mairEl1Value, tcrEl1Value, BitVec.ofNat 64 root, 0, 0⟩

end Calls

end Tyrne
