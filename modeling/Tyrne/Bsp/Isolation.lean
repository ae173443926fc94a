import Tyrne.Bsp.Family
import Mathlib.Order.CompletePartialOrder

/-!
# Isolation of address spaces

Any number of address spaces created over one memory manager, and any run of gated `map` and
`unmap` calls over them. Leaf frames come from the same manager and go back to it, and the
calls may go through the capability table of any task. No frame is ever a table of two
spaces, so a call on one of them changes the translation of no address in another.
-/

namespace Tyrne

open Radix Tree Spaces

/-- The stores of the system, over a memory manager. -/
abbrev SpaceSystem (N R : ℕ) := Spaces QemuVirtAddressSpace (Supply (Pmm N R))

inductive SpaceOp
  | create (parent : CapHandle) (newRights : CapRights)
  | map (cap : CapHandle) (va : VirtAddr) (pa : PhysFrame) (flags : MappingFlags)
  | unmap (cap : CapHandle) (va : VirtAddr)
  | allocLeaf
  | freeLeaf (frame : PhysFrame)
  /-- Another table is current: that of another task, or this one after other operations. -/
  | switchTable (table : CapabilityTable)

inductive SpaceReply
  | space (cap : CapHandle)
  | mapped
  | unmapped (frame : PhysFrame)
  | leaf (frame : Option PhysFrame)
  | freed (result : Except PmmError Unit)
  | switched

/-- The capability that a `map` or an `unmap` goes through. -/
def SpaceOp.target : SpaceOp → Option CapHandle
  | .map cap _ _ _ => some cap
  | .unmap cap _ => some cap
  | _ => none

structure SpaceEvent (N R : ℕ) where
  before : SpaceSystem N R
  op : SpaceOp
  reply : Except AddressSpaceError SpaceReply
  after : SpaceSystem N R

section Defs

variable {N R : ℕ}

/-- Free a frame of the manager. -/
def freeLeafFrame [Build] (frame : PhysFrame) :
    Prog (SpaceSystem N R) AddressSpaceError (Except PmmError Unit) :=
  Prog.zoom (fun s => s.machine.frames)
    (fun frames s => { s with machine := { s.machine with frames } }) id
      (Pmm.freeFrame frame).attempt

def SpaceOp.exec [Build] : SpaceOp → Prog (SpaceSystem N R) AddressSpaceError SpaceReply
  | .create parent newRights => do
    return .space (← capCreateAddressSpace parent newRights Pmm.allocFrame)
  | .map cap va pa flags => do
    capMap cap Pmm.allocFrame va pa flags
    return .mapped
  | .unmap cap va => do return .unmapped (← capUnmap cap va)
  | .allocLeaf => do return .leaf (← onFrames Pmm.allocFrame)
  | .freeLeaf frame => do return .freed (← freeLeafFrame frame)
  | .switchTable table => do
    Prog.modify fun s => { s with table }
    return .switched

/-- The event creates the space. -/
def SpaceEvent.Creates (ev : SpaceEvent N R) (h : AddressSpaceHandle) : Prop :=
  ∃ parent newRights cap, ev.op = .create parent newRights ∧ ev.reply = .ok (.space cap) ∧
    Names ev.after.table cap h

/-- The address spaces that the events have created. -/
def createdSpaces (evs : List (SpaceEvent N R)) : Set AddressSpaceHandle :=
  {h | ∃ ev ∈ evs, ev.Creates h}

/-- The leaf frames held after the event. -/
def SpaceEvent.hold (leaves : Finset ℕ) (ev : SpaceEvent N R) : Finset ℕ :=
  match ev.op, ev.reply with
  | .allocLeaf, .ok (.leaf (some f)) => insert f.asUsize leaves
  | .freeLeaf f, .ok (.freed (.ok _)) => leaves.erase f.asUsize
  | _, _ => leaves

/-- The leaf frames held after the events: the frames that were out before, and those
allocated since, but for the freed ones. -/
def heldLeaves (leaves : Finset ℕ) (evs : List (SpaceEvent N R)) : Finset ℕ :=
  evs.foldl SpaceEvent.hold leaves

/-- The calls of a run are over the created spaces, only held leaf frames are freed, and tables
are well-formed. -/
def SpaceOp.Allowed (leaves : Finset ℕ) (past : List (SpaceEvent N R)) (s : SpaceSystem N R) :
    SpaceOp → Prop
  | .create _ _ => True
  | .map cap _ _ _ => ∀ h, Names s.table cap h → h ∈ createdSpaces past
  | .unmap cap _ => ∀ h, Names s.table cap h → h ∈ createdSpaces past
  | .allocLeaf => True
  | .freeLeaf frame => frame.asUsize ∈ heldLeaves leaves past
  | .switchTable table => table.WellFormed

/-- The event edits the space that its capability names. -/
def SpaceEvent.EditsSpace (ev : SpaceEvent N R) (h : AddressSpaceHandle) : Prop :=
  ∃ cap, ev.op.target = some cap ∧ Names ev.before.table cap h

/-- One allowed call that returned. -/
structure SpaceStep [Build] (leaves : Finset ℕ) (past : List (SpaceEvent N R))
    (s : SpaceSystem N R) (ev : SpaceEvent N R) (s' : SpaceSystem N R) : Prop where
  before : ev.before = s
  after : ev.after = s'
  allowed : ev.op.Allowed leaves past s
  exec : ev.op.exec.run s = .returned ev.reply s'

/-- A run: every call is allowed after those before it. -/
inductive SpaceRun [Build] (leaves : Finset ℕ) (s₀ : SpaceSystem N R) :
    List (SpaceEvent N R) → SpaceSystem N R → Prop
  | nil : SpaceRun leaves s₀ [] s₀
  | snoc {evs : List (SpaceEvent N R)} {s s' : SpaceSystem N R} {ev : SpaceEvent N R}
      (hrun : SpaceRun leaves s₀ evs s) (hstep : SpaceStep leaves evs s ev s') :
      SpaceRun leaves s₀ (evs ++ [ev]) s'

/-- The table frames of an address space, as the memory has them. -/
def tablesAt (s : SpaceSystem N R) (h : AddressSpaceHandle) : Set ℕ :=
  {a | ∃ as_ : QemuVirtAddressSpace, s.arena.get h.slot = some ⟨as_⟩ ∧
    a ∈ tableFrames s.machine.memory as_.root.asUsize}

/-- What `translate` returns for an address of an address space. -/
def TranslatesTo [Build] (s : SpaceSystem N R) (h : AddressSpaceHandle) (va : VirtAddr)
    (r : Except MmuError (PhysFrame × MappingFlags)) : Prop :=
  ∃ as_ : QemuVirtAddressSpace, s.arena.get h.slot = some ⟨as_⟩ ∧
    (QemuVirtMmu.translate as_ va).run s.machine = .returned r s.machine

/-- No frame is a table of two of the created spaces. -/
def SpacesApart (evs : List (SpaceEvent N R)) (s : SpaceSystem N R) : Prop :=
  ∀ h ∈ createdSpaces evs, ∀ h' ∈ createdSpaces evs, h ≠ h' →
    Disjoint (tablesAt s h) (tablesAt s h')

/-- The next call leaves the translations of the spaces that it does not edit, and writes only
tables of the one that it edits. -/
def EditsAlone [Build] (leaves : Finset ℕ) (evs : List (SpaceEvent N R)) (s : SpaceSystem N R) :
    Prop :=
  ∀ ev s', SpaceStep leaves evs s ev s' →
    (∀ h ∈ createdSpaces evs, ¬ ev.EditsSpace h →
      ∀ va, ∃ r, TranslatesTo s h va r ∧ TranslatesTo s' h va r) ∧
    ∀ h, ev.EditsSpace h → Memory.AgreesOff (tablesAt s' h) s.machine.memory s'.machine.memory

end Defs

/-! ## The invariant -/

section Invariant

variable [Build] {N R : ℕ} {extent : PhysFrameRange} {reserved : List PhysFrameRange}
  {haccepts : Accepts N R extent reserved} {hwindow : extent.stop.val ≤ directMapEnd}
  {leaves : Finset ℕ} {past : List (SpaceEvent N R)} {s s' : SpaceSystem N R}
  {T : AddressSpaceHandle → PageTree} {ev : SpaceEvent N R} {h : AddressSpaceHandle}

/-- The created spaces own their tables, and the held leaf frames are none of them. -/
structure Separate (haccepts : Accepts N R extent reserved)
    (hwindow : extent.stop.val ≤ directMapEnd) (leaves : Finset ℕ) (past : List (SpaceEvent N R))
    (s : SpaceSystem N R) (T : AddressSpaceHandle → PageTree) : Prop where
  table : s.table.WellFormed
  arena : s.arena.WellFormed
  valid : (pmmSource haccepts hwindow).Valid s.machine
  family : Family (pmmSource haccepts hwindow) (createdSpaces past) s.arena s.machine T
  unoffered : ∀ a ∈ heldLeaves leaves past, a ∉ (pmmSource haccepts hwindow).offers s.machine
  leaves : ∀ a ∈ heldLeaves leaves past, ∀ h ∈ createdSpaces past, ¬ (T h).IsTable a

omit [Build] in
theorem createdSpaces_snoc :
    createdSpaces (past ++ [ev]) = createdSpaces past ∪ {h | ev.Creates h} := by
  ext h
  simp only [createdSpaces, List.mem_append, List.mem_singleton, Set.mem_union, Set.mem_ofPred_eq]
  constructor
  · rintro ⟨ev', hev' | rfl, hcreates⟩
    · exact Or.inl ⟨ev', hev', hcreates⟩
    · exact Or.inr hcreates
  · rintro (⟨ev', hev', hcreates⟩ | hcreates)
    · exact ⟨ev', Or.inl hev', hcreates⟩
    · exact ⟨ev, Or.inr rfl, hcreates⟩

omit [Build] in
theorem createdSpaces_same (hnot : ∀ h, ¬ ev.Creates h) :
    createdSpaces (past ++ [ev]) = createdSpaces past := by
  rw [createdSpaces_snoc, Set.union_eq_left]
  exact fun h hh => absurd hh (hnot h)

omit [Build] in
theorem heldLeaves_snoc : heldLeaves leaves (past ++ [ev]) = ev.hold (heldLeaves leaves past) := by
  unfold heldLeaves
  rw [List.foldl_append]
  rfl

omit [Build] in
/-- An event creates one space at most. -/
theorem SpaceEvent.Creates.unique {h' : AddressSpaceHandle} (hcreates : ev.Creates h)
    (hcreates' : ev.Creates h') : h = h' := by
  obtain ⟨_, _, cap, _, hreply, hnames⟩ := hcreates
  obtain ⟨_, _, cap', _, hreply', hnames'⟩ := hcreates'
  rw [hreply] at hreply'
  cases hreply'
  exact hnames.unique hnames'

omit [Build] in
/-- An event edits one space at most. -/
theorem SpaceEvent.EditsSpace.unique {h' : AddressSpaceHandle} (hedits : ev.EditsSpace h)
    (hedits' : ev.EditsSpace h') : h = h' := by
  obtain ⟨cap, htarget, hnames⟩ := hedits
  obtain ⟨cap', htarget', hnames'⟩ := hedits'
  rw [htarget] at htarget'
  cases htarget'
  exact hnames.unique hnames'

/-- What a step keeps, and what it writes. -/
structure StepEffect (haccepts : Accepts N R extent reserved)
    (hwindow : extent.stop.val ≤ directMapEnd) (leaves : Finset ℕ) (past : List (SpaceEvent N R))
    (s : SpaceSystem N R) (T : AddressSpaceHandle → PageTree) (ev : SpaceEvent N R)
    (s' : SpaceSystem N R) (T' : AddressSpaceHandle → PageTree) : Prop where
  separate : Separate haccepts hwindow leaves (past ++ [ev]) s' T'
  arena : ∀ h ∈ createdSpaces past, s'.arena.get h.slot = s.arena.get h.slot
  others : ∀ h ∈ createdSpaces past, ¬ ev.EditsSpace h → T' h = T h
  writes : ∀ h, ev.EditsSpace h →
    Memory.AgreesOff {a | (T' h).IsTable a} s.machine.memory s'.machine.memory

/-- A call that changes nothing. -/
theorem Separate.idle (hsep : Separate haccepts hwindow leaves past s T)
    (hnot : ∀ h, ¬ ev.Creates h)
    (hhold : ev.hold (heldLeaves leaves past) = heldLeaves leaves past) :
    StepEffect haccepts hwindow leaves past s T ev s T := by
  refine ⟨?_, fun _ _ => rfl, fun _ _ _ => rfl, fun _ _ => Memory.AgreesOff.refl _ _⟩
  constructor
  · exact hsep.table
  · exact hsep.arena
  · exact hsep.valid
  · rw [createdSpaces_same hnot]
    exact hsep.family
  · rw [heldLeaves_snoc, hhold]
    exact hsep.unoffered
  · rw [heldLeaves_snoc, hhold, createdSpaces_same hnot]
    exact hsep.leaves

/-- A call that edits one space. -/
theorem Separate.edit (hsep : Separate haccepts hwindow leaves past s T)
    (hh : h ∈ createdSpaces past)
    (hedits : EditsSpace (pmmSource haccepts hwindow) s T h s')
    (honly : ∀ h', ev.EditsSpace h' ↔ h' = h) (hnot : ∀ h, ¬ ev.Creates h)
    (hhold : ev.hold (heldLeaves leaves past) = heldLeaves leaves past) :
    ∃ T', StepEffect haccepts hwindow leaves past s T ev s' T' := by
  obtain ⟨htable, harena, t', hedits⟩ := hedits
  have hfam := hsep.family.edits hh hedits
  refine ⟨Function.update T h t', ?_, fun h' _ => ?_, fun h' hh' hnot' => ?_, fun h' hh' => ?_⟩
  · constructor
    · rw [htable]
      exact hsep.table
    · rw [harena]
      exact hsep.arena
    · exact hedits.owns.valid
    · rw [createdSpaces_same hnot, harena]
      exact hfam
    · rw [heldLeaves_snoc, hhold]
      exact fun a ha hmem => hsep.unoffered a ha (hedits.offers hmem)
    · rw [heldLeaves_snoc, hhold, createdSpaces_same hnot]
      intro a ha h' hh' hcon
      by_cases hne : h' = h
      · rw [hne, Function.update_self] at hcon
        exact (hedits.spares (hsep.leaves a ha h hh) (hsep.unoffered a ha)).1 hcon
      · rw [Function.update_of_ne hne] at hcon
        exact hsep.leaves a ha h' hh' hcon
  · rw [harena]
  · exact Function.update_of_ne (fun heq => hnot' ((honly h').mpr heq)) _ _
  · rw [(honly h').mp hh', Function.update_self]
    exact hedits.memory

/-! ## The calls -/

theorem Separate.create (hsep : Separate haccepts hwindow leaves past s T) (parent : CapHandle)
    (newRights : CapRights) :
    ∃ reply s', (SpaceOp.create parent newRights).exec.run s = .returned reply s' ∧
      ∃ T', StepEffect haccepts hwindow leaves past s T ⟨s, .create parent newRights, reply, s'⟩
        s' T' := by
  obtain ⟨A, hmodels⟩ := hsep.valid
  have hpmm : Supplies (Pmm.allocFrame : Prog (Supply (Pmm N R)) MmuError _) s.machine :=
    hmodels.supplies haccepts hwindow
  rcases capCreate_cases parent newRights hsep.table hsep.arena hpmm with ⟨err, hrun⟩ |
    ⟨hd, s', root, handle, hrun, hcreated, hwf⟩
  · refine ⟨.error err, s, Prog.bind_err hrun, T, hsep.idle ?_ rfl⟩
    rintro h ⟨_, _, _, _, hreply, _⟩
    cases hreply
  have hpulled : (pmmSource haccepts hwindow).alloc.run s.machine = .ok (some root) s'.machine :=
    hcreated.pulled
  have hvacant : handle ∉ createdSpaces past := by
    intro hh
    obtain ⟨as_, hget, _⟩ := hsep.family.live handle hh
    obtain ⟨_, _, hentry⟩ := Arena.get_eq_some_iff.mp hget
    rw [hcreated.vacant.2] at hentry
    cases hentry
  have hother : ∀ h ∈ createdSpaces past, h ≠ handle := by
    rintro h hh rfl
    exact hvacant hh
  have hslots : ∀ h ∈ createdSpaces past, s'.arena.get h.slot = s.arena.get h.slot := by
    intro h hh
    apply hcreated.spaces
    intro heq
    apply hvacant
    obtain ⟨id⟩ := h
    obtain ⟨id'⟩ := handle
    dsimp only at heq
    rw [← heq]
    exact hh
  have hspaces : createdSpaces (past ++ [⟨s, .create parent newRights, .ok (.space hd), s'⟩]) =
      insert handle (createdSpaces past) := by
    rw [createdSpaces_snoc, Set.union_comm, Set.insert_eq]
    congr 1
    ext h
    constructor
    · rintro ⟨_, _, cap, _, hreply, hnames⟩
      cases hreply
      exact hnames.unique ⟨_, hcreated.cap, rfl⟩
    · rintro rfl
      exact ⟨_, _, _, rfl, rfl, _, hcreated.cap, rfl⟩
  have hheld : heldLeaves leaves (past ++ [⟨s, .create parent newRights, .ok (.space hd), s'⟩]) =
      heldLeaves leaves past := heldLeaves_snoc
  obtain ⟨hvalid', hoffered, hoffers, _, _⟩ := FrameSource.alloc_some hsep.valid hpulled
  refine ⟨.ok (.space hd), s', Prog.bind_ok hrun,
    Function.update T handle (Tree.empty 512 3 _ _ root.asUsize), ?_, hslots, ?_, ?_⟩
  · constructor
    · exact hwf.1
    · exact hwf.2
    · exact hvalid'
    · rw [hspaces]
      exact hsep.family.create hsep.valid hpulled hvacant hcreated.space hcreated.spaces
    · rw [hheld, hoffers]
      exact fun a ha hmem => hsep.unoffered a ha hmem.1
    · rw [hheld, hspaces]
      intro a ha h hh hcon
      rcases Set.mem_insert_iff.mp hh with rfl | hold
      · rw [Function.update_self] at hcon
        rw [isTable_empty.mp hcon] at ha
        exact hsep.unoffered _ ha hoffered
      · rw [Function.update_of_ne (hother h hold)] at hcon
        exact hsep.leaves a ha h hold hcon
  · exact fun h hh _ => Function.update_of_ne (hother h hh) _ _
  · rintro h ⟨_, htarget, _⟩
    cases htarget

/-- A call through a capability that names a space of the family, or none. -/
theorem Separate.gated {α : Type} {op : SpaceOp} {cap : CapHandle}
    {m : Prog (SpaceSystem N R) AddressSpaceError α} {mk : α → SpaceReply}
    (hsep : Separate haccepts hwindow leaves past s T) (htarget : op.target = some cap)
    (hexec : op.exec = m >>= fun a => return mk a)
    (hallowed : ∀ h, Names s.table cap h → h ∈ createdSpaces past)
    (hnamed : ∀ h ∈ createdSpaces past, Names s.table cap h → ∃ r s', m.run s = .returned r s' ∧
      EditsSpace (pmmSource haccepts hwindow) s T h s')
    (hunnamed : (∀ h, ¬ Names s.table cap h) → ∃ e, m.run s = .err e s) :
    ∃ reply s', op.exec.run s = .returned reply s' ∧
      ∃ T', StepEffect haccepts hwindow leaves past s T ⟨s, op, reply, s'⟩ s' T' := by
  have hnot : ∀ reply s' h, ¬ SpaceEvent.Creates ⟨s, op, reply, s'⟩ h := by
    rintro reply s' h ⟨_, _, _, hop, _⟩
    have hop' : op = _ := hop
    rw [hop'] at htarget
    cases htarget
  have hhold : ∀ reply s', SpaceEvent.hold (heldLeaves leaves past) ⟨s, op, reply, s'⟩ =
      heldLeaves leaves past := by
    intro reply s'
    cases op with
    | map _ _ _ _ => rfl
    | unmap _ _ => rfl
    | create _ _ => cases htarget
    | allocLeaf => cases htarget
    | freeLeaf _ => cases htarget
    | switchTable _ => cases htarget
  rw [hexec]
  by_cases hsome : ∃ h, Names s.table cap h
  · obtain ⟨h, hnames⟩ := hsome
    have hh := hallowed h hnames
    obtain ⟨r, s', hrun, hedits⟩ := hnamed h hh hnames
    have honly : ∀ reply h', SpaceEvent.EditsSpace ⟨s, op, reply, s'⟩ h' ↔ h' = h := by
      intro reply h'
      constructor
      · rintro ⟨cap', htarget', hnames'⟩
        cases htarget.symm.trans htarget'
        exact hnames'.unique hnames
      · rintro rfl
        exact ⟨cap, htarget, hnames⟩
    cases r with
    | ok a => exact ⟨.ok (mk a), s', Prog.bind_ok hrun,
        hsep.edit hh hedits (honly _) (hnot _ _) (hhold _ _)⟩
    | error e => exact ⟨.error e, s', Prog.bind_err hrun,
        hsep.edit hh hedits (honly _) (hnot _ _) (hhold _ _)⟩
  · rw [not_exists] at hsome
    obtain ⟨e, hrun⟩ := hunnamed hsome
    exact ⟨.error e, s, Prog.bind_err hrun, T, hsep.idle (hnot _ _) (hhold _ _)⟩

theorem Separate.allocLeaf (hsep : Separate haccepts hwindow leaves past s T) :
    ∃ reply s', SpaceOp.allocLeaf.exec.run s = .returned reply s' ∧
      ∃ T', StepEffect haccepts hwindow leaves past s T ⟨s, .allocLeaf, reply, s'⟩ s' T' := by
  have hnot : ∀ reply s' h, ¬ SpaceEvent.Creates ⟨s, .allocLeaf, reply, s'⟩ h := by
    rintro reply s' h ⟨_, _, _, hop, _⟩
    cases hop
  have hnone : ∀ reply s' h, ¬ SpaceEvent.EditsSpace ⟨s, .allocLeaf, reply, s'⟩ h := by
    rintro reply s' h ⟨_, htarget, _⟩
    cases htarget
  rcases (pmmSource haccepts hwindow).alloc_cases hsep.valid with ⟨m, hrun, hvalid, hoffers, _⟩ |
    ⟨f, m, hrun, hvalid, hoffered, hoffers, _⟩
  · have hcall : (SpaceOp.allocLeaf.exec).run s =
        .returned (.ok (.leaf none)) { s with machine := m } :=
      Prog.bind_ok (onFrames_run hrun)
    refine ⟨_, _, hcall, T, ?_, fun _ _ => rfl, fun _ _ _ => rfl, fun h hh =>
      absurd hh (hnone _ _ h)⟩
    constructor
    · exact hsep.table
    · exact hsep.arena
    · exact hvalid
    · rw [createdSpaces_same (hnot _ _)]
      exact hsep.family.dry hsep.valid hrun
    · rw [heldLeaves_snoc, hoffers]
      exact hsep.unoffered
    · rw [heldLeaves_snoc, createdSpaces_same (hnot _ _)]
      exact hsep.leaves
  · have hcall : (SpaceOp.allocLeaf.exec).run s =
        .returned (.ok (.leaf (some f))) { s with machine := m } :=
      Prog.bind_ok (onFrames_run hrun)
    obtain ⟨hfam, hfresh⟩ := hsep.family.alloc hsep.valid hrun
    refine ⟨_, _, hcall, T, ?_, fun _ _ => rfl, fun _ _ _ => rfl, fun h hh =>
      absurd hh (hnone _ _ h)⟩
    constructor
    · exact hsep.table
    · exact hsep.arena
    · exact hvalid
    · rw [createdSpaces_same (hnot _ _)]
      exact hfam
    · rw [heldLeaves_snoc, hoffers]
      intro a ha hmem
      rcases Finset.mem_insert.mp ha with rfl | hold
      · exact hmem.2 rfl
      · exact hsep.unoffered a hold hmem.1
    · rw [heldLeaves_snoc, createdSpaces_same (hnot _ _)]
      intro a ha h hh
      rcases Finset.mem_insert.mp ha with rfl | hold
      · exact hfresh h hh
      · exact hsep.leaves a hold h hh

theorem Separate.freeLeaf (hsep : Separate haccepts hwindow leaves past s T) (f : PhysFrame)
    (hallowed : f.asUsize ∈ heldLeaves leaves past) :
    ∃ reply s', (SpaceOp.freeLeaf f).exec.run s = .returned reply s' ∧
      ∃ T', StepEffect haccepts hwindow leaves past s T ⟨s, .freeLeaf f, reply, s'⟩ s' T' := by
  have hnot : ∀ reply s' h, ¬ SpaceEvent.Creates ⟨s, .freeLeaf f, reply, s'⟩ h := by
    rintro reply s' h ⟨_, _, _, hop, _⟩
    cases hop
  have hnone : ∀ reply s' h, ¬ SpaceEvent.EditsSpace ⟨s, .freeLeaf f, reply, s'⟩ h := by
    rintro reply s' h ⟨_, htarget, _⟩
    cases htarget
  obtain ⟨A, hmodels⟩ := hsep.valid
  rcases hmodels.freeFrame_run haccepts hwindow f with ⟨_, err, hrun⟩ | ⟨hout, pmm', hrun, hmodels'⟩
  · have hfreed : (freeLeafFrame f).run s = .ok (.error err) s :=
      Prog.zoom_ok (Prog.attempt_err hrun)
    exact ⟨.ok (.freed (.error err)), s, Prog.bind_ok hfreed, T, hsep.idle (hnot _ _) rfl⟩
  · have hfreed : (freeLeafFrame f).run s =
        .ok (.ok ()) { s with machine := { s.machine with frames := pmm' } } :=
      Prog.zoom_ok (Prog.attempt_ok hrun)
    have hoffers : ∀ a ∈ pmm'.freeFrames, a = f.asUsize ∨ a ∈ s.machine.frames.freeFrames := by
      intro a ha
      rw [hmodels'.mem_freeFrames haccepts.aligned,
        SetAllocator.available_release (A.outstanding_subset hout), Finset.mem_insert,
        ← hmodels.mem_freeFrames haccepts.aligned] at ha
      exact ha
    refine ⟨.ok (.freed (.ok ())), _, Prog.bind_ok hfreed, T, ?_, fun _ _ => rfl, fun _ _ _ => rfl,
      fun h hh => absurd hh (hnone _ _ h)⟩
    constructor
    · exact hsep.table
    · exact hsep.arena
    · exact ⟨_, hmodels'⟩
    · rw [createdSpaces_same (hnot _ _)]
      refine hsep.family.congr ⟨_, hmodels'⟩ (fun _ _ => rfl)
        (fun h hh => (hsep.family.owns h hh).holds) fun h hh a ha hmem => ?_
      rcases hoffers a hmem with rfl | hold
      · exact hsep.leaves _ hallowed h hh ha
      · exact (hsep.family.owns h hh).apart a ha hold
    · rw [heldLeaves_snoc]
      intro a ha hmem
      obtain ⟨hne, hold⟩ := Finset.mem_erase.mp ha
      rcases hoffers a hmem with heq | hfree
      · exact hne heq
      · exact hsep.unoffered a hold hfree
    · rw [heldLeaves_snoc, createdSpaces_same (hnot _ _)]
      exact fun a ha => hsep.leaves a (Finset.mem_of_mem_erase ha)

/-- Every allowed call returns, and keeps the spaces apart. -/
theorem Separate.exec (hsep : Separate haccepts hwindow leaves past s T) {op : SpaceOp}
    (hallowed : op.Allowed leaves past s) :
    ∃ reply s', op.exec.run s = .returned reply s' ∧
      ∃ T', StepEffect haccepts hwindow leaves past s T ⟨s, op, reply, s'⟩ s' T' := by
  have htidy := pmmSource_tidy haccepts hwindow
  cases op with
  | create parent newRights => exact hsep.create parent newRights
  | map cap va pa flags =>
    exact hsep.gated (m := capMap cap Pmm.allocFrame va pa flags) rfl rfl
      hallowed (fun h hh hnames => hsep.family.capMap htidy hh hnames va pa flags)
      fun hnone => capMap_unnamed hnone _ va pa flags
  | unmap cap va =>
    exact hsep.gated (m := capUnmap cap va) rfl rfl hallowed
      (fun h hh hnames => hsep.family.capUnmap htidy hh hnames va)
      fun hnone => capUnmap_unnamed hnone va
  | allocLeaf => exact hsep.allocLeaf
  | freeLeaf f => exact hsep.freeLeaf f hallowed
  | switchTable table =>
    refine ⟨.ok .switched, { s with table }, rfl, T, ?_, fun _ _ => rfl, fun _ _ _ => rfl, ?_⟩
    · have hnot : ∀ h, ¬ SpaceEvent.Creates (⟨s, .switchTable table, .ok .switched,
          { s with table }⟩ : SpaceEvent N R) h := by
        rintro h ⟨_, _, _, hop, _⟩
        cases hop
      constructor
      · exact hallowed
      · exact hsep.arena
      · exact hsep.valid
      · rw [createdSpaces_same hnot]
        exact hsep.family
      · rw [heldLeaves_snoc]
        exact hsep.unoffered
      · rw [heldLeaves_snoc, createdSpaces_same hnot]
        exact hsep.leaves
    · rintro h ⟨_, htarget, _⟩
      cases htarget

/-- A step leaves every created space a tree of its own, apart from the others, from the free
frames and from the leaves, and edits one tree at most. -/
theorem Separate.step (hsep : Separate haccepts hwindow leaves past s T)
    (hstep : SpaceStep leaves past s ev s') :
    ∃ T', StepEffect haccepts hwindow leaves past s T ev s' T' := by
  obtain ⟨before, op, reply, after⟩ := ev
  obtain ⟨rfl, rfl, hallowed, hexec⟩ := hstep
  obtain ⟨reply', s', hrun, heffect⟩ := hsep.exec hallowed
  rw [hexec, Result.returned_inj] at hrun
  obtain ⟨rfl, rfl⟩ := hrun
  exact heffect

/-! ## Runs -/

theorem Separate.start {A : SetAllocator ℕ} (htable : s.table.WellFormed)
    (harena : s.arena.WellFormed) (hmodels : Models extent reserved s.machine.frames A)
    (T : AddressSpaceHandle → PageTree) : Separate haccepts hwindow A.outstanding [] s T := by
  have hnone : ∀ h, h ∉ createdSpaces ([] : List (SpaceEvent N R)) := by
    rintro h ⟨_, hev, _⟩
    cases hev
  refine ⟨htable, harena, ⟨A, hmodels⟩, ⟨?_, ?_, ?_⟩, fun a ha hmem => ?_, ?_⟩
  · exact fun h hh => absurd hh (hnone h)
  · exact fun h hh => absurd hh (hnone h)
  · exact fun h hh => absurd hh (hnone h)
  · have hfree := (hmodels.mem_freeFrames haccepts.aligned).mp hmem
    exact (SetAllocator.mem_available.mp hfree).2 ha
  · exact fun a _ h hh => absurd hh (hnone h)

/-- So the trees of the created spaces are apart after any run. -/
theorem Separate.of_run {s₀ : SpaceSystem N R}
    (hstart : ∃ T, Separate haccepts hwindow leaves [] s₀ T)
    (hrun : SpaceRun leaves s₀ past s) : ∃ T, Separate haccepts hwindow leaves past s T := by
  induction hrun with
  | nil => exact hstart
  | snoc _ hstep ih =>
    obtain ⟨T, hsep⟩ := ih
    obtain ⟨T', heffect⟩ := hsep.step hstep
    exact ⟨T', heffect.separate⟩

theorem Separate.tablesAt_eq (hsep : Separate haccepts hwindow leaves past s T)
    (hh : h ∈ createdSpaces past) : tablesAt s h = {a | (T h).IsTable a} := by
  obtain ⟨as_, hget, _⟩ := hsep.family.live h hh
  rw [← hsep.family.tableFrames_eq hh hget]
  ext a
  constructor
  · rintro ⟨as', hget', ha⟩
    rw [hget] at hget'
    cases hget'
    exact ha
  · exact fun ha => ⟨as_, hget, ha⟩

/-- `translate` in a space of the family. -/
theorem Separate.translatesTo (hsep : Separate haccepts hwindow leaves past s T)
    (hh : h ∈ createdSpaces past) (va : VirtAddr) :
    TranslatesTo s h va (PageTree.translation (T h) (pageOf va)) := by
  obtain ⟨as_, hget, hroot⟩ := hsep.family.live h hh
  exact ⟨as_, hget, translate_run (hsep.family.owns h hh).holds hroot va⟩

theorem Separate.spacesApart (hsep : Separate haccepts hwindow leaves past s T) :
    SpacesApart past s := by
  intro h hh h' hh' hne
  rw [hsep.tablesAt_eq hh, hsep.tablesAt_eq hh', Set.disjoint_left]
  exact fun a ha => hsep.family.apart h hh h' hh' hne a ha

theorem Separate.editsAlone (hsep : Separate haccepts hwindow leaves past s T) :
    EditsAlone leaves past s := by
  intro ev s' hstep
  obtain ⟨T', hsep', harena, hothers, hwrites⟩ := hsep.step hstep
  have hkept : ∀ h ∈ createdSpaces past, h ∈ createdSpaces (past ++ [ev]) := by
    intro h hh
    rw [createdSpaces_snoc]
    exact Or.inl hh
  refine ⟨fun h hh hnot va => ?_, fun h hedits => ?_⟩
  · have hafter := hsep'.translatesTo (hkept h hh) va
    rw [hothers h hh hnot] at hafter
    exact ⟨_, hsep.translatesTo hh va, hafter⟩
  · have hh : h ∈ createdSpaces past := by
      obtain ⟨cap, htarget, hnames⟩ := hedits
      have hallowed := hstep.allowed
      rw [hstep.before] at hnames
      cases hop : ev.op with
      | map cap' va pa flags =>
        rw [hop] at htarget hallowed
        cases htarget
        exact hallowed h hnames
      | unmap cap' va =>
        rw [hop] at htarget hallowed
        cases htarget
        exact hallowed h hnames
      | create _ _ =>
        rw [hop] at htarget
        cases htarget
      | allocLeaf =>
        rw [hop] at htarget
        cases htarget
      | freeLeaf _ =>
        rw [hop] at htarget
        cases htarget
      | switchTable _ =>
        rw [hop] at htarget
        cases htarget
    rw [hsep'.tablesAt_eq (hkept h hh)]
    exact hwrites h hedits

end Invariant

/-! ## Two spaces -/

def eightFramesSpaces : SpaceSystem 1 1 :=
  { bootSpaces with machine := ⟨eightFramesPmm, fun _ => 1⟩ }

/-- The system after a call of a debug build. -/
def afterCall (s : SpaceSystem 1 1) (op : SpaceOp) : SpaceSystem 1 1 :=
  match (@SpaceOp.exec _ _ debugBuild op).run s with
  | .ok _ s' | .err _ s' => s'
  | .panic _ => s

def leafFrame : PhysFrame := ⟨⟨12288⟩, rfl⟩

def writable : MappingFlags := ⟨MappingFlags.user.bits ||| MappingFlags.write.bits⟩

def firstCreated : SpaceSystem 1 1 := afterCall eightFramesSpaces (.create ⟨0, 0⟩ .derive)

def bothCreated : SpaceSystem 1 1 := afterCall firstCreated (.create ⟨0, 0⟩ .derive)

def leafAllocated : SpaceSystem 1 1 := afterCall bothCreated .allocLeaf

def pageMapped : SpaceSystem 1 1 :=
  afterCall leafAllocated (.map ⟨1, 0⟩ ⟨0x400000⟩ leafFrame writable)

def firstSpace : AddressSpaceHandle := ⟨⟨1, 0⟩⟩

def secondSpace : AddressSpaceHandle := ⟨⟨2, 0⟩⟩

/-- Two spaces are created, a frame is allocated, and mapped into the first space. -/
def createFirst : SpaceEvent 1 1 :=
  ⟨eightFramesSpaces, .create ⟨0, 0⟩ .derive, .ok (.space ⟨1, 0⟩), firstCreated⟩

def createSecond : SpaceEvent 1 1 :=
  ⟨firstCreated, .create ⟨0, 0⟩ .derive, .ok (.space ⟨2, 0⟩), bothCreated⟩

def allocCall : SpaceEvent 1 1 :=
  ⟨bothCreated, .allocLeaf, .ok (.leaf (some leafFrame)), leafAllocated⟩

def mapCall : SpaceEvent 1 1 :=
  ⟨leafAllocated, .map ⟨1, 0⟩ ⟨0x400000⟩ leafFrame writable, .ok .mapped, pageMapped⟩

def twoSpacesCalls : List (SpaceEvent 1 1) := [createFirst, createSecond, allocCall, mapCall]

theorem createFirst_creates : createFirst.Creates firstSpace :=
  ⟨_, _, _, rfl, rfl, ⟨.derive, .addressSpace firstSpace⟩, by with_unfolding_all rfl, rfl⟩

theorem createSecond_creates : createSecond.Creates secondSpace :=
  ⟨_, _, _, rfl, rfl, ⟨.derive, .addressSpace secondSpace⟩, by with_unfolding_all rfl, rfl⟩

theorem mapCall_names : Names mapCall.before.table ⟨1, 0⟩ firstSpace :=
  ⟨⟨.derive, .addressSpace firstSpace⟩, by with_unfolding_all rfl, rfl⟩

theorem mapCall_edits : mapCall.EditsSpace firstSpace := ⟨_, rfl, mapCall_names⟩

theorem twoSpaces_created (rest : List (SpaceEvent 1 1)) :
    firstSpace ∈ createdSpaces (createFirst :: createSecond :: rest) ∧
      secondSpace ∈ createdSpaces (createFirst :: createSecond :: rest) :=
  ⟨⟨createFirst, List.mem_cons_self .., createFirst_creates⟩,
    ⟨createSecond, List.mem_cons_of_mem _ (List.mem_cons_self ..), createSecond_creates⟩⟩

set_option maxRecDepth 20000 in
theorem twoSpaces_steps : let _ : Build := debugBuild
    SpaceStep ∅ [] eightFramesSpaces createFirst firstCreated ∧
    SpaceStep ∅ [createFirst] firstCreated createSecond bothCreated ∧
    SpaceStep ∅ [createFirst, createSecond] bothCreated allocCall leafAllocated ∧
    SpaceStep ∅ [createFirst, createSecond, allocCall] leafAllocated mapCall pageMapped := by
  intro _
  refine ⟨⟨rfl, rfl, trivial, by with_unfolding_all rfl⟩,
    ⟨rfl, rfl, trivial, by with_unfolding_all rfl⟩,
    ⟨rfl, rfl, trivial, by with_unfolding_all rfl⟩,
    ⟨rfl, rfl, fun h hh => ?_, by with_unfolding_all rfl⟩⟩
  rw [hh.unique mapCall_names]
  exact (twoSpaces_created _).1

theorem twoSpaces_run : let _ : Build := debugBuild
    SpaceRun ∅ eightFramesSpaces [createFirst, createSecond, allocCall] leafAllocated ∧
      SpaceRun ∅ eightFramesSpaces twoSpacesCalls pageMapped := by
  intro _
  obtain ⟨hfirst, hsecond, halloc, hmap⟩ := twoSpaces_steps
  have hcreated : SpaceRun ∅ eightFramesSpaces [createFirst] firstCreated := .snoc .nil hfirst
  have hboth : SpaceRun ∅ eightFramesSpaces [createFirst, createSecond] bothCreated :=
    .snoc hcreated hsecond
  have hpast : SpaceRun ∅ eightFramesSpaces [createFirst, createSecond, allocCall] leafAllocated :=
    .snoc hboth halloc
  exact ⟨hpast, .snoc hpast hmap⟩

/-! ## The result -/

section Result

variable [Build] {N R : ℕ} {extent : PhysFrameRange} {reserved : List PhysFrameRange}
  {past : List (SpaceEvent N R)} {s : SpaceSystem N R}

/-- After every run of creations, `map` and `unmap` calls over the spaces of one memory manager,
the created spaces are apart, and the next call edits at most the one that it names. -/
theorem spaces_isolated {A : SetAllocator ℕ} {s₀ : SpaceSystem N R}
    (haccepts : Accepts N R extent reserved) (hwindow : extent.stop.val ≤ directMapEnd)
    (hmodels : Models extent reserved s₀.machine.frames A) (htable : s₀.table.WellFormed)
    (harena : s₀.arena.WellFormed) (hrun : SpaceRun A.outstanding s₀ past s) :
    SpacesApart past s ∧ EditsAlone A.outstanding past s := by
  have hstart : Separate haccepts hwindow A.outstanding [] s₀ fun _ => Tree.empty 512 3 _ _ 0 :=
    .start htable harena hmodels _
  obtain ⟨T, hsep⟩ := Separate.of_run ⟨_, hstart⟩ hrun
  exact ⟨hsep.spacesApart, hsep.editsAlone⟩

omit [Build] in
/-- After the map into the first space no frame is a table of both, and the second translates
as before. -/
theorem spaces_isolated_twoSpaces : let _ : Build := debugBuild
    SpaceRun ∅ eightFramesSpaces twoSpacesCalls pageMapped ∧ mapCall.reply = .ok .mapped ∧
      firstSpace ∈ createdSpaces twoSpacesCalls ∧ secondSpace ∈ createdSpaces twoSpacesCalls ∧
      Disjoint (tablesAt pageMapped firstSpace) (tablesAt pageMapped secondSpace) ∧
      (∀ va, ∃ r, TranslatesTo leafAllocated secondSpace va r ∧
        TranslatesTo pageMapped secondSpace va r) ∧
      EditsAlone ∅ twoSpacesCalls pageMapped := by
  intro _
  obtain ⟨haccepts, hmodels⟩ := eightFrames_models
  have hwindow : eightFrames.stop.val ≤ directMapEnd := by decide
  have hmodels' : Models eightFrames firstReserved eightFramesSpaces.machine.frames _ := hmodels
  obtain ⟨htable, harena⟩ := bootSpaces_wellFormed
  obtain ⟨hpast, hrun⟩ := twoSpaces_run
  obtain ⟨_, _, _, hmap⟩ := twoSpaces_steps
  obtain ⟨hfirst, hsecond⟩ := twoSpaces_created [allocCall, mapCall]
  obtain ⟨_, hbefore⟩ := spaces_isolated haccepts hwindow hmodels' htable harena hpast
  obtain ⟨hapart, halone⟩ := spaces_isolated haccepts hwindow hmodels' htable harena hrun
  have hother : ¬ mapCall.EditsSpace secondSpace :=
    fun hedits => absurd (hedits.unique mapCall_edits) (by decide)
  refine ⟨hrun, rfl, hfirst, hsecond, hapart _ hfirst _ hsecond (by decide), ?_, halone⟩
  exact (hbefore mapCall pageMapped hmap).1 secondSpace (twoSpaces_created _).2 hother

end Result

end Tyrne
