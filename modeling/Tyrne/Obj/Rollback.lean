import Tyrne.Library.Triple
import Tyrne.Mm.Contract
import Tyrne.Obj.Preflight

/-!
# What a failed load leaves

Over any MMU that meets its contract. While a load is under way the frames that it has taken are
the tables of the new address space, the frames of the pages mapped so far, and at most one frame
in flight. The rollback gives back all of them but the tables.
-/

namespace Tyrne

open CapabilityTable Spaces

/-! ## Pages on frames -/

/-- The pages from `k` on are mapped to these frames, one after the other, and no others. -/
def pagesOn (k : ℕ) (leaves : List PhysFrame) : ℕ → Option PhysFrame :=
  fun q => if k ≤ q then leaves[q - k]? else none

section Pages

variable {k q : ℕ} {leaves : List PhysFrame} {f : PhysFrame}

theorem pagesOn_nil : pagesOn k [] = fun _ => none := by
  funext q
  simp [pagesOn]

theorem pagesOn_last : pagesOn k (leaves ++ [f]) (k + leaves.length) = some f := by
  simp [pagesOn]

theorem pagesOn_other (hq : q ≠ k + leaves.length) :
    pagesOn k (leaves ++ [f]) q = pagesOn k leaves q := by
  unfold pagesOn
  split
  · by_cases hlt : q - k < leaves.length
    · rw [List.getElem?_append_left hlt]
    · rw [List.getElem?_eq_none (by simp; omega), List.getElem?_eq_none (by omega)]
  · rfl

/-- One more page. -/
theorem pagesOn_push : pagesOn k (leaves ++ [f]) =
    Function.update (pagesOn k leaves) (k + leaves.length) (some f) := by
  funext q
  by_cases hq : q = k + leaves.length
  · rw [hq, Function.update_self, pagesOn_last]
  · rw [Function.update_of_ne hq, pagesOn_other hq]

/-- The last page taken off again. -/
theorem pagesOn_pop : Function.update (pagesOn k (leaves ++ [f])) (k + leaves.length) none =
    pagesOn k leaves := by
  funext q
  by_cases hq : q = k + leaves.length
  · rw [hq, Function.update_self]
    simp [pagesOn]
  · rw [Function.update_of_ne hq, pagesOn_other hq]

end Pages

/-! ## The ledger -/

/-- The frames that a load holds. -/
def ledger (own : List ℕ) (leaves loose : List PhysFrame) : List ℕ :=
  own ++ (leaves ++ loose).map PhysFrame.asUsize

section Ledger

variable {own fs : List ℕ} {leaves loose : List PhysFrame} {f : PhysFrame}

theorem ledger_loose : ledger own leaves [f] = ledger own leaves [] ++ [f.asUsize] := by
  simp [ledger]

/-- The frame in flight becomes the last leaf. -/
theorem ledger_settle : ledger own (leaves ++ [f]) [] = ledger own leaves [f] := by
  simp [ledger]

/-- More tables. -/
theorem ledger_own : (ledger own leaves loose ++ fs).Perm (ledger (own ++ fs) leaves loose) := by
  unfold ledger
  rw [List.append_assoc, List.append_assoc]
  exact List.perm_append_comm.append_left own

end Ledger

variable [Build] {AS : Type} [Mapper AS] {N R : ℕ} {extent : PhysFrameRange}
  {reserved : List PhysFrameRange}

/-- A load is under way: `own` are the tables of the new address space, the pages from `k` on are
mapped to `leaves`, and `loose` are frames in flight. Nothing else has been taken since `A₀`. -/
structure Underway (contract : MmuContract AS N R extent reserved) (A₀ : SetAllocator ℕ)
    (t₀ : CapabilityTable) (handle : AddressSpaceHandle) (k : ℕ) (own : List ℕ)
    (leaves loose : List PhysFrame) (as_ : AS) (A : SetAllocator ℕ)
    (s : Spaces AS (Supply (Pmm N R))) : Prop where
  table : s.table = t₀
  live : s.arena.get handle.slot = some ⟨as_⟩
  sound : contract.Sound as_ s.machine.memory
  tables : contract.tables as_ s.machine.memory = {a | a ∈ own}
  mapping : contract.mapping as_ s.machine.memory = pagesOn k leaves
  models : Models extent reserved s.machine.frames A
  taken : A₀.Beyond A (ledger own leaves loose)

section Steps

variable {contract : MmuContract AS N R extent reserved} {A₀ A : SetAllocator ℕ}
  {t₀ : CapabilityTable} {handle : AddressSpaceHandle} {k : ℕ} {own : List ℕ}
  {leaves loose : List PhysFrame} {as_ : AS} {s : Spaces AS (Supply (Pmm N R))} {f : PhysFrame}
  {hd : CapHandle} {va : VirtAddr} {flags : MappingFlags}

/-- The tables are outstanding. -/
theorem Underway.own_outstanding (h : Underway contract A₀ t₀ handle k own leaves loose as_ A s) :
    ∀ a ∈ contract.tables as_ s.machine.memory, a ∈ A.outstanding := by
  intro a ha
  rw [h.tables] at ha
  exact (h.taken.outstanding a).mpr (Or.inr (List.mem_append_left _ ha))

/-- The frame in flight is outstanding, and no table. -/
theorem Underway.loose_outstanding (h : Underway contract A₀ t₀ handle k own leaves [f] as_ A s) :
    f.asUsize ∈ A.outstanding ∧ f.asUsize ∉ own := by
  have hpage : f.asUsize ∈ (leaves ++ [f]).map PhysFrame.asUsize := List.mem_map_of_mem (by simp)
  refine ⟨(h.taken.outstanding _).mpr (Or.inr (List.mem_append_right _ hpage)), fun hown => ?_⟩
  exact (List.nodup_append.mp h.taken.nodup).2.2 _ hown _ hpage rfl

/-- A write to a frame that is no table does not concern the address space. -/
theorem Underway.kept (h : Underway contract A₀ t₀ handle k own leaves loose as_ A s)
    (haccepts : Accepts N R extent reserved) {m : Memory}
    (hoff : Memory.AgreesOff {f.asUsize} s.machine.memory m) (hf : f.asUsize ∉ own) :
    contract.Sound as_ m ∧ contract.tables as_ m = {a | a ∈ own} ∧
      contract.mapping as_ m = pagesOn k leaves := by
  rw [← h.tables, ← h.mapping]
  refine contract.keep h.sound fun a ha b hb => hoff b fun c hc => ?_
  rw [Set.mem_singleton_iff.mp hc]
  have halign := h.models.outstanding_aligned haccepts.aligned (h.own_outstanding a ha)
  rw [h.tables] at ha
  exact not_inFrame_of_ne halign f.aligned (fun heq => hf (heq ▸ ha)) hb

/-- The manager has no frame, or one is in flight. -/
theorem Underway.alloc (h : Underway contract A₀ t₀ handle k own leaves [] as_ A s)
    (haccepts : Accepts N R extent reserved) (hstop : extent.stop.val < 2 ^ 64) :
    (LoaderM.allocFrame : LoaderM AS N R _).run s = .ok none s ∨
    (∃ f s' A', (LoaderM.allocFrame : LoaderM AS N R _).run s = .ok (some f) s' ∧
      Underway contract A₀ t₀ handle k own leaves [f] as_ A' s') ∨
    ∃ cause, (LoaderM.allocFrame : LoaderM AS N R _).run s = .panic cause := by
  rcases h.models.allocFrame_cases haccepts hstop with ⟨_, hrun⟩ | ⟨_, hpanic⟩ |
    ⟨f, m, husable, hleast, hrun, hmodels, hmemory⟩
  · exact Or.inl (Prog.zoom_ok (hrun _))
  · obtain ⟨cause, hrun⟩ := hpanic LoadError
    exact Or.inr (Or.inr ⟨cause, Prog.zoom_panic hrun⟩)
  have hnot : f.asUsize ∉ A.outstanding := (SetAllocator.mem_available.mp hleast.1).2
  have hown : f.asUsize ∉ own := fun hown =>
    hnot ((h.taken.outstanding _).mpr (Or.inr (List.mem_append_left _ hown)))
  have hoff : Memory.AgreesOff {f.asUsize} s.machine.memory m.memory := by
    rw [hmemory]
    exact zeroFrame_agreesOff rfl
  obtain ⟨hsound, htables, hmapping⟩ := h.kept haccepts hoff hown
  refine Or.inr (Or.inl ⟨f, { s with machine := m }, A.take f.addr.val husable,
    Prog.zoom_ok (hrun _), h.table, h.live, hsound, htables, hmapping, hmodels, ?_⟩)
  rw [ledger_loose]
  exact h.taken.trans (.of_take hnot)

/-- The frame in flight is written. -/
theorem Underway.fill (h : Underway contract A₀ t₀ handle k own leaves [f] as_ A s)
    (haccepts : Accepts N R extent reserved) {m : Memory}
    (hoff : Memory.AgreesOff {f.asUsize} s.machine.memory m) :
    Underway contract A₀ t₀ handle k own leaves [f] as_ A
      { s with machine := { s.machine with memory := m } } := by
  obtain ⟨hsound, htables, hmapping⟩ := h.kept haccepts hoff h.loose_outstanding.2
  exact ⟨h.table, h.live, hsound, htables, hmapping, h.models, h.taken⟩

/-- The frame in flight is mapped, or it is still in flight. The tables that the MMU pulled are the
space's either way. -/
theorem Underway.map (h : Underway contract A₀ t₀ handle k own leaves [f] as_ A s)
    (flags : MappingFlags) (haccepts : Accepts N R extent reserved)
    (hstop : extent.stop.val < 2 ^ 64)
    (hnames : Names s.table hd handle) (haligned : va.val % pageSize = 0)
    (hva : va.val < 2 ^ 48) (hpage : va.val / pageSize = k + leaves.length) :
    (∃ s' fs as' A', (capMap hd Pmm.allocFrame va f flags).run s = .ok () s' ∧
      Underway contract A₀ t₀ handle k (own ++ fs) (leaves ++ [f]) [] as' A' s') ∨
    (∃ e s' fs as' A', (capMap hd Pmm.allocFrame va f flags).run s = .err e s' ∧
      Underway contract A₀ t₀ handle k (own ++ fs) leaves [f] as' A' s') ∨
    ∃ cause, (capMap hd Pmm.allocFrame va f flags).run s = .panic cause := by
  obtain ⟨hout, hown⟩ := h.loose_outstanding
  have htable : f.asUsize ∉ contract.tables as_ s.machine.memory := by
    rw [h.tables]
    exact hown
  rcases capMap_ends hnames h.live contract.flush va f flags Pmm.allocFrame with
    ⟨token, as', m', s', hmap, hrun, hedited⟩ |
      ⟨e, as', m', s', hmap, hrun, hedited⟩ | hpanic
  · obtain ⟨hsound, hmapping, fs, hpulls, htables⟩ := contract.map_ok h.sound h.models
      h.own_outstanding haligned hva hout htable hmap
    obtain ⟨A', hmodels, hbeyond⟩ := hpulls.models h.models haccepts hstop
    obtain ⟨htable', hlive', rfl⟩ := hedited
    refine Or.inl
      ⟨s', fs, as', A', hrun, htable'.trans h.table, hlive', hsound, ?_, ?_, hmodels, ?_⟩
    · rw [htables, h.tables]
      ext a
      simp
    · rw [hmapping, h.mapping, hpage, pagesOn_push]
    · rw [ledger_settle]
      exact (h.taken.trans hbeyond).perm ledger_own
  · obtain ⟨hsound, hmapping, fs, hpulls, htables⟩ := contract.map_err h.sound h.models
      h.own_outstanding haligned hva hout htable hmap
    obtain ⟨A', hmodels, hbeyond⟩ := hpulls.models h.models haccepts hstop
    obtain ⟨htable', hlive', rfl⟩ := hedited
    refine Or.inr (Or.inl ⟨_, s', fs, as', A', hrun, htable'.trans h.table, hlive', hsound, ?_,
      hmapping.trans h.mapping, hmodels, ?_⟩)
    · rw [htables, h.tables]
      ext a
      simp
    · exact (h.taken.trans hbeyond).perm ledger_own
  · exact Or.inr (Or.inr hpanic)

/-- The frame in flight is given back. -/
theorem Underway.free (h : Underway contract A₀ t₀ handle k own leaves [f] as_ A s)
    (haccepts : Accepts N R extent reserved) (hstop : extent.stop.val < 2 ^ 64) :
    ∃ s', (LoaderM.freeFrame f : LoaderM AS N R Unit).run s = .ok () s' ∧
      Underway contract A₀ t₀ handle k own leaves [] as_ (A.release f.asUsize) s' := by
  have hout : f.addr.val ∈ A.outstanding := h.loose_outstanding.1
  rcases h.models.freeFrame_cases haccepts hstop f with ⟨hnot, _⟩ | ⟨_, frames, hrun, hmodels⟩
  · exact absurd hout hnot
  refine ⟨{ s with machine := { s.machine with frames } }, ?_, h.table, h.live, h.sound, h.tables,
    h.mapping, hmodels, ?_⟩
  · exact Prog.bind_ok (Prog.zoom_ok (Prog.attempt_ok hrun))
  · have htaken := h.taken
    rw [ledger_loose] at htaken
    exact htaken.release

/-- The last page is unmapped, and its frame is in flight. -/
theorem Underway.unmap (h : Underway contract A₀ t₀ handle k own (leaves ++ [f]) [] as_ A s)
    (hnames : Names s.table hd handle) (haligned : va.val % pageSize = 0)
    (hva : va.val < 2 ^ 48) (hpage : va.val / pageSize = k + leaves.length) :
    ∃ s' as', (capUnmap hd va).run s = .ok f s' ∧
      Underway contract A₀ t₀ handle k own leaves [f] as' A s' := by
  have hmapped : contract.mapping as_ s.machine.memory (va.val / pageSize) = some f := by
    rw [h.mapping, hpage, pagesOn_last]
  obtain ⟨token, as', m', hunmap, hframes, hsound, hmapping, htables⟩ :=
    contract.unmap h.sound h.models h.own_outstanding haligned hva hmapped
  obtain ⟨s', hrun, hedited⟩ := capUnmap_edits hnames h.live contract.flush hunmap
  obtain ⟨htable', hlive', rfl⟩ := hedited
  refine ⟨s', as', hrun, htable'.trans h.table, hlive', hsound, htables.trans h.tables, ?_, ?_, ?_⟩
  · rw [hmapping, h.mapping, hpage, pagesOn_pop]
  · rw [hframes]
    exact h.models
  · rw [← ledger_settle]
    exact h.taken

end Steps

/-! ## The turns of a load -/

/-- `i` pages of the space over `root` are mapped, and `loose` are frames in flight. -/
def Midway (contract : MmuContract AS N R extent reserved) (A₀ : SetAllocator ℕ)
    (t₀ : CapabilityTable) (handle : AddressSpaceHandle) (k root i : ℕ)
    (loose : List PhysFrame) (s : Spaces AS (Supply (Pmm N R))) : Prop :=
  ∃ pulled leaves as_ A, leaves.length = i ∧
    Underway contract A₀ t₀ handle k (root :: pulled) leaves loose as_ A s

section Turns

open LoaderM

variable {contract : MmuContract AS N R extent reserved} {A₀ : SetAllocator ℕ}
  {t₀ t₁ : CapabilityTable} {handle : AddressSpaceHandle} {k root i j a b n : ℕ}
  {base va : VirtAddr} {flags : MappingFlags} {hd : CapHandle} {image : ImageSlice}
  {E : LoadError → Spaces AS (Supply (Pmm N R)) → Prop}

/-- A page that is unmapped gives its frame back. -/
theorem unloadPage_triple (haccepts : Accepts N R extent reserved)
    (hstop : extent.stop.val < 2 ^ 64) (hnames : Names t₀ hd handle)
    (haligned : base.val % pageSize = 0) (hspan : base.val + n * pageSize ≤ 2 ^ 48) (hi : i < n) :
    Prog.Triple (Midway contract A₀ t₀ handle (base.val / pageSize) root (i + 1) [])
      (unloadPage hd (pageVa base i))
      (fun _ => Midway contract A₀ t₀ handle (base.val / pageSize) root i []) E := by
  apply Prog.Triple.of_ok
  rintro s ⟨pulled, leaves, as_, A, hlen, h⟩
  obtain ⟨front, f, rfl⟩ :=
    (List.eq_nil_or_concat' leaves).resolve_left (List.ne_nil_of_length_eq_add_one hlen)
  have hfront : front.length = i := by
    rw [List.length_append] at hlen
    exact Nat.succ.inj hlen
  obtain ⟨hmod, hlt, hpage⟩ := pageVa_page haligned hspan hi
  have hnext : (pageVa base i).val / pageSize = base.val / pageSize + front.length := by
    rw [hfront, hpage]
  obtain ⟨s₁, as', hunmap, hloose⟩ := h.unmap (h.table ▸ hnames) hmod hlt hnext
  obtain ⟨s₂, hfree, hdone⟩ := hloose.free haccepts hstop
  refine ⟨(), s₂, ?_, pulled, front, as', _, hfront, hdone⟩
  unfold unloadPage
  rw [Prog.bind_ok (Prog.attempt_ok hunmap)]
  exact hfree

omit [Build] in
/-- A page of the stack is a page of the span. -/
theorem pageVa_stack (hspan : base.val + (a + b) * pageSize ≤ 2 ^ 48) (hi : i < b) :
    pageVa (pageVa base a) i = pageVa base (a + i) :=
  pageVa_pageVa hspan (by omega)

theorem dropCap_triple (hdrop : (capDrop hd).run t₀ = .ok () t₁) :
    Prog.Triple (Midway contract A₀ t₀ handle k root i []) (dropCap hd)
      (fun _ => Midway contract A₀ t₁ handle k root i []) E := by
  apply Prog.Triple.of_ok
  rintro s ⟨pulled, leaves, as_, A, hlen, h⟩
  refine ⟨(), { s with table := t₁ }, ?_, pulled, leaves, as_, A, hlen, rfl, h.live, h.sound,
    h.tables, h.mapping, h.models, h.taken⟩
  rw [← h.table] at hdrop
  exact Prog.bind_ok (Prog.zoom_ok (Prog.attempt_ok hdrop))

/-- A rollback after `i` pages of the image and `j` of the stack, with `j = 0` unless all pages of
the image are mapped. -/
theorem rollback_triple (haccepts : Accepts N R extent reserved)
    (hstop : extent.stop.val < 2 ^ 64) (hnames : Names t₀ hd handle)
    (hdrop : (capDrop hd).run t₀ = .ok () t₁) (haligned : base.val % pageSize = 0)
    (hspan : base.val + (a + b) * pageSize ≤ 2 ^ 48) (hi : i ≤ a) (hj : j ≤ b)
    (hfull : j = 0 ∨ i = a) :
    Prog.Triple (Midway contract A₀ t₀ handle (base.val / pageSize) root (i + j) [])
      (rollback hd base (pageVa base a) i j)
      (fun _ => Midway contract A₀ t₁ handle (base.val / pageSize) root 0 []) E := by
  have hstack : Prog.Triple (Midway contract A₀ t₀ handle (base.val / pageSize) root (i + j) [])
      (Prog.forRev (fun q => unloadPage hd (pageVa (pageVa base a) q)) j)
      (fun _ => Midway contract A₀ t₀ handle (base.val / pageSize) root i []) E := by
    apply Prog.Triple.forRev (I := fun q =>
      Midway contract A₀ t₀ handle (base.val / pageSize) root (i + q) [])
    intro q hq
    obtain rfl : i = a := hfull.resolve_left (by omega)
    have hpage : i + q < i + b := by omega
    rw [pageVa_stack hspan (by omega)]
    exact unloadPage_triple haccepts hstop hnames haligned hspan hpage
  have himage : Prog.Triple (Midway contract A₀ t₀ handle (base.val / pageSize) root i [])
      (Prog.forRev (fun q => unloadPage hd (pageVa base q)) i)
      (fun _ => Midway contract A₀ t₀ handle (base.val / pageSize) root 0 []) E := by
    apply Prog.Triple.forRev (I := fun q =>
      Midway contract A₀ t₀ handle (base.val / pageSize) root q [])
    intro q hq
    exact unloadPage_triple haccepts hstop hnames haligned hspan (by omega)
  exact hstack.bind fun _ => himage.bind fun _ => dropCap_triple hdrop

theorem allocFrame_triple (haccepts : Accepts N R extent reserved)
    (hstop : extent.stop.val < 2 ^ 64) :
    Prog.Triple (Midway contract A₀ t₀ handle k root i []) (allocFrame : LoaderM AS N R _)
      (fun o => Midway contract A₀ t₀ handle k root i o.toList) E := by
  apply Prog.Triple.of_ends
  rintro s ⟨pulled, leaves, as_, A, hlen, h⟩
  rcases h.alloc haccepts hstop with hrun | ⟨f, s', A', hrun, hloose⟩ | hpanic
  · exact Or.inl ⟨none, s, hrun, pulled, leaves, as_, A, hlen, h⟩
  · exact Or.inl ⟨some f, s', hrun, pulled, leaves, as_, A', hlen, hloose⟩
  · exact Or.inr (Or.inr hpanic)

theorem freeFrame_triple (haccepts : Accepts N R extent reserved)
    (hstop : extent.stop.val < 2 ^ 64) {f : PhysFrame} :
    Prog.Triple (Midway contract A₀ t₀ handle k root i [f]) (freeFrame f : LoaderM AS N R Unit)
      (fun _ => Midway contract A₀ t₀ handle k root i []) E := by
  apply Prog.Triple.of_ok
  rintro s ⟨pulled, leaves, as_, A, hlen, h⟩
  obtain ⟨s', hrun, hfree⟩ := h.free haccepts hstop
  exact ⟨(), s', hrun, pulled, leaves, as_, _, hlen, hfree⟩

/-- A page is mapped, or its frame is still in flight. -/
theorem capMap_triple (haccepts : Accepts N R extent reserved)
    (hstop : extent.stop.val < 2 ^ 64) (hnames : Names t₀ hd handle)
    (haligned : base.val % pageSize = 0) (hspan : base.val + n * pageSize ≤ 2 ^ 48) (hi : i < n)
    {f : PhysFrame} :
    Prog.Triple (Midway contract A₀ t₀ handle (base.val / pageSize) root i [f])
      (capMap hd Pmm.allocFrame (pageVa base i) f flags)
      (fun _ => Midway contract A₀ t₀ handle (base.val / pageSize) root (i + 1) [])
      (fun _ => Midway contract A₀ t₀ handle (base.val / pageSize) root i [f]) := by
  apply Prog.Triple.of_ends
  rintro s ⟨pulled, leaves, as_, A, hlen, h⟩
  obtain ⟨hmod, hlt, hpage⟩ := pageVa_page haligned hspan hi
  have hnext : (pageVa base i).val / pageSize = base.val / pageSize + leaves.length := by
    rw [hlen, hpage]
  rcases h.map flags haccepts hstop (h.table ▸ hnames) hmod hlt hnext with
    ⟨s', fs, as', A', hrun, hmapped⟩ | ⟨e, s', fs, as', A', hrun, hloose⟩ | hpanic
  · refine Or.inl ⟨(), s', hrun, pulled ++ fs, leaves ++ [f], as', A', ?_, hmapped⟩
    rw [List.length_append, hlen]
    rfl
  · exact Or.inr (Or.inl ⟨e, s', hrun, pulled ++ fs, leaves, as', A', hlen, hloose⟩)
  · exact Or.inr (Or.inr hpanic)

/-- A chunk of the image goes to the frame in flight. -/
theorem copyChunk_triple (haccepts : Accepts N R extent reserved) {q : ℕ} {f : PhysFrame} :
    Prog.Triple (Midway contract A₀ t₀ handle k root i [f]) (copyChunk (image.chunk q) f)
      (fun _ => Midway contract A₀ t₀ handle k root i [f]) E := by
  apply Prog.Triple.of_ends
  rintro s ⟨pulled, leaves, as_, A, hlen, h⟩
  by_cases hwindow : f.asUsize < directMapEnd
  swap
  · unfold copyChunk
    rw [physToKernelVa_neg hwindow]
    exact Or.inr (Or.inr ⟨_, Prog.panic_bind_run _⟩)
  have hlength : (s.machine.memory.readBytes (physOf (image.chunk q).ptr)
      (image.chunk q).len).length ≤ pageSize := by
    rw [length_readBytes]
    exact Nat.min_le_left _ _
  have hoff := (writeBytes_frame (m := s.machine.memory) (a := f.asUsize) hlength).1
  refine Or.inl ⟨(), _, ?_, pulled, leaves, as_, A, hlen, h.fill haccepts hoff⟩
  unfold copyChunk
  rw [physToKernelVa_pos hwindow, Prog.pure_bind_run]
  unfold copyNonoverlapping
  rw [Prog.modify_run, physOf_directMap hwindow]

/-- A turn maps one more page, or fails late and has undone the load. -/
theorem loadPage_triple (haccepts : Accepts N R extent reserved)
    (hstop : extent.stop.val < 2 ^ 64) (hnames : Names t₀ hd handle)
    (haligned : base.val % pageSize = 0) (hspan : base.val + n * pageSize ≤ 2 ^ 48) (hi : i < n)
    {fill : PhysFrame → LoaderM AS N R Unit} {undo : LoaderM AS N R Unit}
    (hfill : ∀ f {E}, Prog.Triple (Midway contract A₀ t₀ handle (base.val / pageSize) root i [f])
      (fill f) (fun _ => Midway contract A₀ t₀ handle (base.val / pageSize) root i [f]) E)
    (hundo : ∀ {E}, Prog.Triple (Midway contract A₀ t₀ handle (base.val / pageSize) root i [])
      undo (fun _ => Midway contract A₀ t₁ handle (base.val / pageSize) root 0 []) E) :
    Prog.Triple (Midway contract A₀ t₀ handle (base.val / pageSize) root i [])
      (loadPage hd (pageVa base i) flags fill undo)
      (fun _ => Midway contract A₀ t₀ handle (base.val / pageSize) root (i + 1) [])
      fun e s => e.IsLate ∧ Midway contract A₀ t₁ handle (base.val / pageSize) root 0 [] s := by
  unfold loadPage
  refine (allocFrame_triple haccepts hstop).bind fun o => ?_
  cases o with
  | none => exact hundo.bind fun _ => Prog.Triple.fail fun s hs => ⟨trivial, hs⟩
  | some f =>
    refine (hfill f).bind fun _ => ?_
    have hmap : Prog.Triple (Midway contract A₀ t₀ handle (base.val / pageSize) root i [f])
        (capMap hd Pmm.allocFrame (pageVa base i) f flags)
        (fun _ => Midway contract A₀ t₀ handle (base.val / pageSize) root (i + 1) [])
        fun _ => Midway contract A₀ t₀ handle (base.val / pageSize) root i [f] :=
      capMap_triple haccepts hstop hnames haligned hspan hi
    refine Prog.Triple.bind (Q := fun r => r.casesOn
      (fun _ => Midway contract A₀ t₀ handle (base.val / pageSize) root i [f])
      fun _ => Midway contract A₀ t₀ handle (base.val / pageSize) root (i + 1) [])
      (hmap.attempt (fun _ _ hs => hs) fun _ _ hs => hs) fun r => ?_
    cases r with
    | ok _ => exact Prog.Triple.pure fun s hs => hs
    | error e =>
      refine (freeFrame_triple haccepts hstop).bind fun _ => ?_
      exact hundo.bind fun _ => Prog.Triple.fail fun s hs => ⟨trivial, hs⟩

/-- The loops map all pages, or fail late and have undone the load. -/
theorem loadPages_triple (haccepts : Accepts N R extent reserved)
    (hstop : extent.stop.val < 2 ^ 64) (hnames : Names t₀ hd handle)
    (hdrop : (capDrop hd).run t₀ = .ok () t₁) (haligned : base.val % pageSize = 0)
    (hspan : base.val + (a + b) * pageSize ≤ 2 ^ 48) :
    Prog.Triple (Midway contract A₀ t₀ handle (base.val / pageSize) root 0 [])
      (loadPages image hd base (pageVa base a) a b)
      (fun _ => Midway contract A₀ t₀ handle (base.val / pageSize) root (a + b) [])
      fun e s => e.IsLate ∧ Midway contract A₀ t₁ handle (base.val / pageSize) root 0 [] s := by
  have himage : Prog.Triple (Midway contract A₀ t₀ handle (base.val / pageSize) root 0 [])
      (Prog.forRange (fun i => loadPage hd (pageVa base i) (MappingFlags.user.union .execute)
        (copyChunk (image.chunk i)) (rollback hd base (pageVa base a) i 0)) 0 a)
      (fun _ => Midway contract A₀ t₀ handle (base.val / pageSize) root (0 + a) [])
      fun e s => e.IsLate ∧ Midway contract A₀ t₁ handle (base.val / pageSize) root 0 [] s := by
    apply Prog.Triple.forRange (I := fun i =>
      Midway contract A₀ t₀ handle (base.val / pageSize) root i [])
    intro i _ hi
    exact loadPage_triple haccepts hstop hnames haligned hspan (by omega)
      (fun _ _ => copyChunk_triple haccepts)
      (rollback_triple (j := 0) haccepts hstop hnames hdrop haligned hspan (by omega)
        (Nat.zero_le b) (Or.inl rfl))
  have hstack : Prog.Triple (Midway contract A₀ t₀ handle (base.val / pageSize) root (a + 0) [])
      (Prog.forRange (fun i => loadPage hd (pageVa (pageVa base a) i)
        (MappingFlags.user.union .write) (fun _ => return ())
        (rollback hd base (pageVa base a) a i)) 0 b)
      (fun _ => Midway contract A₀ t₀ handle (base.val / pageSize) root (a + (0 + b)) [])
      fun e s => e.IsLate ∧ Midway contract A₀ t₁ handle (base.val / pageSize) root 0 [] s := by
    apply Prog.Triple.forRange (I := fun i =>
      Midway contract A₀ t₀ handle (base.val / pageSize) root (a + i) [])
    intro i _ hi
    rw [pageVa_stack hspan (by omega)]
    exact loadPage_triple haccepts hstop hnames haligned hspan (by omega)
      (fun _ _ => Prog.Triple.pure fun s hs => hs)
      (rollback_triple haccepts hstop hnames hdrop haligned hspan (Nat.le_refl a) (by omega)
        (Or.inr rfl))
  rw [Nat.zero_add] at himage hstack
  exact himage.bind fun _ => hstack

end Turns

/-! ## What is left -/

/-- What a load that failed late leaves: an address space that no capability names, of which the
root and the tables that the MMU pulled stay outstanding. -/
structure Abandoned (contract : MmuContract AS N R extent reserved)
    (s : Spaces AS (Supply (Pmm N R))) (base : VirtAddr) (pages : ℕ) (hd : CapHandle)
    (root : PhysFrame) (handle : AddressSpaceHandle) (as_ : AS) (pulled : List ℕ)
    (s' : Spaces AS (Supply (Pmm N R))) : Prop where
  gone : ∀ c, (lookup hd).run s'.table ≠ .ok c s'.table
  caps : ∀ hd' c, (lookup hd').run s'.table = .ok c s'.table ↔
    (lookup hd').run s.table = .ok c s.table
  space : s'.arena.get handle.slot = some ⟨as_⟩
  tables : contract.tables as_ s'.machine.memory = {a | a ∈ root.asUsize :: pulled}
  unmapped : ∀ va : VirtAddr, base.val ≤ va.val → va.val < base.val + pages * pageSize →
    ∀ x m, (Mmu.translate as_ va).run s'.machine.memory ≠ .ok x m
  nodup : (root.asUsize :: pulled).Nodup
  taken : ∀ a ∈ root.asUsize :: pulled, a ∈ s.machine.frames.freeFrames
  free : s'.machine.frames.freeFrames =
    s.machine.frames.freeFrames \ {a | a ∈ root.asUsize :: pulled}
  allocated : s'.machine.frames.allocatedCount =
    s.machine.frames.allocatedCount + 1 + pulled.length

section Left

open LoaderM

variable {contract : MmuContract AS N R extent reserved} {A : SetAllocator ℕ}
  {s s' : Spaces AS (Supply (Pmm N R))} {image : ImageSlice} {parent hd : CapHandle}
  {newRights : CapRights} {base : VirtAddr} {stackPages : ℕ} {root : PhysFrame}
  {handle : AddressSpaceHandle} {t : CapabilityTable} {e : LoadError}

/-- A new address space without pages. -/
theorem Spaces.Created.midway (h : Created s parent newRights Pmm.allocFrame hd s' root handle)
    (hmodels : Models extent reserved s.machine.frames A)
    (haccepts : Accepts N R extent reserved) (hstop : extent.stop.val < 2 ^ 64) {k : ℕ} :
    Midway contract A s'.table handle k root.asUsize 0 [] s' := by
  have hpulled := h.pulled
  rcases hmodels.allocFrame_cases haccepts hstop with ⟨_, hrun⟩ | ⟨_, hpanic⟩ |
    ⟨f, m, husable, hleast, hrun, hmodels', _⟩
  · rw [hrun] at hpulled
    cases hpulled
  · obtain ⟨cause, hrun⟩ := hpanic MmuError
    rw [hrun] at hpulled
    cases hpulled
  rw [hrun] at hpulled
  cases hpulled
  have hnot : root.asUsize ∉ A.outstanding := (SetAllocator.mem_available.mp hleast.1).2
  have hroot : root.asUsize ∈ usableFrames extent reserved := hmodels.usable ▸ husable
  obtain ⟨hsound, htables, hmapping⟩ := contract.create hroot h.zeroed
  refine ⟨[], [], _, _, rfl, rfl, h.space, hsound, ?_, hmapping.trans pagesOn_nil.symm, hmodels',
    .of_take hnot⟩
  refine htables.trans ?_
  ext a
  simp

/-- An undone load. -/
theorem Midway.abandoned
    (hmid : Midway contract A t handle (base.val / pageSize) root.asUsize 0 [] s')
    (haccepts : Accepts N R extent reserved) (hmodels : Models extent reserved s.machine.frames A)
    (hgone : ¬ s.table.Occupied hd.index)
    (hcaps : ∀ hd' c, (lookup hd').run t = .ok c t ↔ (lookup hd').run s.table = .ok c s.table)
    {pages : ℕ} (hspan : base.val + pages * pageSize ≤ 2 ^ 48) :
    ∃ as_ pulled, Abandoned contract s base pages hd root handle as_ pulled s' := by
  obtain ⟨pulled, leaves, as_, A', hlen, h⟩ := hmid
  obtain rfl := List.length_eq_zero_iff.mp hlen
  have htaken : A.Beyond A' (root.asUsize :: pulled) := by
    have hledger := h.taken
    unfold ledger at hledger
    rwa [List.append_nil, List.map_nil, List.append_nil] at hledger
  have husable : A'.usable = A.usable := h.models.usable.trans hmodels.usable.symm
  have hfree : s'.machine.frames.freeFrames =
      s.machine.frames.freeFrames \ {a | a ∈ root.asUsize :: pulled} := by
    ext a
    rw [h.models.mem_freeFrames haccepts.aligned, htaken.available husable, Finset.mem_sdiff,
      List.mem_toFinset, Set.mem_sdiff, hmodels.mem_freeFrames haccepts.aligned]
    rfl
  refine ⟨as_, pulled, ?_, ?_, h.live, h.tables, ?_, htaken.nodup, ?_, hfree, ?_⟩
  · intro c hlookup
    rw [h.table, hcaps] at hlookup
    obtain ⟨e, he, _⟩ := lookup_eq_ok_iff.mp hlookup
    refine hgone ?_
    simp [Occupied, he.entry]
  · rw [h.table]
    exact hcaps
  · intro va _ hva
    refine contract.untranslated h.sound (hva.trans_le hspan) ?_
    rw [h.mapping, pagesOn_nil]
  · intro a ha
    rw [hmodels.mem_freeFrames haccepts.aligned, SetAllocator.mem_available]
    refine ⟨?_, htaken.fresh a ha⟩
    rw [← husable]
    exact A'.outstanding_subset ((htaken.outstanding a).mpr (Or.inr ha))
  · rw [h.models.allocatedCount, hmodels.allocatedCount, htaken.card, List.length_cons]
    omega

/-- A load that fails in its checks or in the creation of the address space has changed nothing.
One that fails later leaves the tables of the address space that it abandons, and nothing else. -/
theorem load_image_rolls_back (contract : MmuContract AS N R extent reserved)
    (hstop : extent.stop.val < 2 ^ 64) (hreach : s.machine.frames.Reachable extent reserved)
    (htable : s.table.WellFormed) (harena : s.arena.WellFormed)
    (hrun : (loadImage image parent newRights base stackPages).run s = .err e s') :
    (¬ e.IsLate → s' = s) ∧
    (e.IsLate → ∃ hd s₁ root handle as_ pulled,
      (capCreateAddressSpace parent newRights Pmm.allocFrame).run s = .ok hd s₁ ∧
      Created s parent newRights Pmm.allocFrame hd s₁ root handle ∧
      Abandoned contract s base (image.pages + stackPages) hd root handle as_ pulled s') := by
  obtain ⟨haccepts, A, hmodels⟩ := hreach.models hstop
  rcases checkLoad_cases hmodels haccepts image parent base stackPages with
    ⟨e', hearly, hfailed⟩ | ⟨cause, hpanic⟩ | ⟨hchecked, hchecks⟩
  · have hends : (loadImage image parent newRights base stackPages).run s = .err e' s :=
      Prog.bind_err hfailed
    rw [hends] at hrun
    cases hrun
    exact ⟨fun _ => rfl, fun hlate => absurd hlate hearly⟩
  · have hends : (loadImage image parent newRights base stackPages).run s = .panic cause :=
      Prog.bind_panic hpanic
    rw [hends] at hrun
    cases hrun
  unfold loadImage at hrun
  rw [Prog.bind_ok hchecked] at hrun
  rcases capCreate_ends parent newRights htable harena hmodels haccepts hstop with
    ⟨err, hcreate⟩ | ⟨cause, hcreate⟩ | ⟨hd, s₁, root, handle, hcreate, hcreated, htable₁⟩
  · have hends : (onSpaces (capCreateAddressSpace parent newRights Pmm.allocFrame)).run s =
        .err (.addressSpaceCreationFailed err) s := Prog.zoom_err hcreate
    rw [Prog.bind_err hends] at hrun
    cases hrun
    exact ⟨fun _ => rfl, fun hlate => absurd hlate id⟩
  · have hends : (onSpaces (capCreateAddressSpace parent newRights Pmm.allocFrame) :
        LoaderM AS N R _).run s = .panic cause := Prog.zoom_panic hcreate
    rw [Prog.bind_panic hends] at hrun
    cases hrun
  have hends : (onSpaces (capCreateAddressSpace parent newRights Pmm.allocFrame)).run s =
      .ok hd s₁ := Prog.zoom_ok hcreate
  rw [Prog.bind_ok hends] at hrun
  obtain ⟨t, hdrop, hcaps⟩ := hcreated.drop htable htable₁
  have hstart : Midway contract A s₁.table handle (base.val / pageSize) root.asUsize 0 [] s₁ :=
    hcreated.midway hmodels haccepts hstop
  have hnames : Names s₁.table hd handle := ⟨_, hcreated.cap, rfl⟩
  have hload : Prog.Triple
      (Midway contract A s₁.table handle (base.val / pageSize) root.asUsize 0 [])
      (loadPages image hd base (pageVa base image.pages) image.pages stackPages) _
      fun e s => e.IsLate ∧ Midway contract A t handle (base.val / pageSize) root.asUsize 0 [] s :=
    loadPages_triple haccepts hstop hnames hdrop hchecks.aligned hchecks.span
  obtain ⟨-, herr⟩ := (hload.bind (R := fun _ _ => True)
    fun _ => Prog.Triple.pure fun _ _ => trivial) s₁ hstart
  obtain ⟨hlate, hmid⟩ := herr e s' hrun
  refine ⟨fun hearly => absurd hlate hearly, fun _ => ?_⟩
  obtain ⟨as_, pulled, hleft⟩ :=
    hmid.abandoned haccepts hmodels hcreated.free hcaps hchecks.span
  exact ⟨hd, s₁, root, handle, as_, pulled, hcreate, hcreated, hleft⟩

end Left

end Tyrne
