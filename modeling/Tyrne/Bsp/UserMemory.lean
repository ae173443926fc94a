import Tyrne.Bsp.El0Reach

/-!
# The memory of user code

User code stores to whatever the hardware lets it reach, between the calls of the kernel. No
such store changes a table, so the hardware goes on walking the map of pages. A frame that the
kernel has allocated and mapped into one space only is the private memory of that space: what
its code loads from there does not depend on what the code of other spaces does.
-/

namespace Tyrne

open Radix Tree Spaces

/-! ## Events -/

/-- A call of the kernel, a byte that the kernel writes to a leaf frame, and an access of user
code in a space. -/
inductive MemoryEvent (N R : ℕ)
  | call (ev : SpaceEvent N R)
  | copy (a : ℕ) (byte : BitVec 8)
  | store (h : AddressSpaceHandle) (va : ℕ) (byte : BitVec 8)
  | load (h : AddressSpaceHandle) (va : ℕ) (byte : BitVec 8)

section Defs

variable {N R : ℕ}

def MemoryEvent.call? : MemoryEvent N R → Option (SpaceEvent N R)
  | .call ev => some ev
  | _ => none

/-- The calls among the events. -/
def calls (evs : List (MemoryEvent N R)) : List (SpaceEvent N R) :=
  evs.filterMap MemoryEvent.call?

section Calls

variable {evs : List (MemoryEvent N R)} {ev : MemoryEvent N R}

theorem calls_call (c : SpaceEvent N R) : calls (evs ++ [.call c]) = calls evs ++ [c] :=
  List.filterMap_append ..

theorem calls_other (hnot : ev.call? = none) : calls (evs ++ [ev]) = calls evs := by
  unfold calls
  rw [List.filterMap_append, List.filterMap_cons_none hnot, List.filterMap_nil, List.append_nil]

end Calls

/-- The event is not an access of another space. -/
def MemoryEvent.concerns (h : AddressSpaceHandle) : MemoryEvent N R → Bool
  | .store h' _ _ => h' = h
  | .load h' _ _ => h' = h
  | _ => true

/-- The system after a byte is written. -/
def poke (s : SpaceSystem N R) (a : ℕ) (byte : BitVec 8) : SpaceSystem N R :=
  { s with machine := { s.machine with memory := Function.update s.machine.memory a byte } }

/-- The translation registers are as the kernel sets them, with the root of `h` in
`TTBR0_EL1`. -/
structure Installs (s : SpaceSystem N R) (h : AddressSpaceHandle) (r : Regime) : Prop where
  memory : r.memory = s.machine.memory
  mair : r.mairEl1 = mairEl1Value
  tcr : Ttbr0On r.tcrEl1
  root : ∃ as_ : QemuVirtAddressSpace, s.arena.get h.slot = some ⟨as_⟩ ∧
    r.ttbr0El1 = BitVec.ofNat 64 as_.root.asUsize

/-- The hardware lets user code in the space `h` get to the address. -/
def El0Finds (limit : ℕ) (s : SpaceSystem N R) (h : AddressSpaceHandle) (va : ℕ)
    (tr : Translation) : Prop :=
  va < 2 ^ 48 ∧ tr.attributes.user ∧ ∃ r, Installs s h r ∧ r.ttbr0Walk limit va = some tr

variable [Build]

/-- One event, after the events `past`. -/
inductive MemoryStep (limit : ℕ) (leaves : Finset ℕ) (past : List (MemoryEvent N R))
    (s : SpaceSystem N R) : MemoryEvent N R → SpaceSystem N R → Prop
  | call {ev : SpaceEvent N R} {s' : SpaceSystem N R}
      (hstep : SpaceStep leaves (calls past) s ev s')
      (hcareful : ev.op.Careful leaves (calls past)) :
      MemoryStep limit leaves past s (.call ev) s'
  | copy {f : PhysFrame} {a : ℕ} (byte : BitVec 8)
      (hheld : f.asUsize ∈ heldLeaves leaves (calls past)) (ha : InFrame f.asUsize a) :
      MemoryStep limit leaves past s (.copy a byte) (poke s a byte)
  | store {h : AddressSpaceHandle} {va : ℕ} {tr : Translation} (byte : BitVec 8)
      (hh : h ∈ createdSpaces (calls past)) (hfinds : El0Finds limit s h va tr)
      (hwrite : tr.attributes.write) :
      MemoryStep limit leaves past s (.store h va byte) (poke s tr.address byte)
  | load {h : AddressSpaceHandle} {va : ℕ} {tr : Translation}
      (hh : h ∈ createdSpaces (calls past)) (hfinds : El0Finds limit s h va tr) :
      MemoryStep limit leaves past s (.load h va (s.machine.memory tr.address)) s

/-- A run: every event comes after those before it. -/
inductive MemoryRun (limit : ℕ) (leaves : Finset ℕ) (s₀ : SpaceSystem N R) :
    List (MemoryEvent N R) → SpaceSystem N R → Prop
  | nil : MemoryRun limit leaves s₀ [] s₀
  | snoc {evs : List (MemoryEvent N R)} {s s' : SpaceSystem N R} {ev : MemoryEvent N R}
      (hrun : MemoryRun limit leaves s₀ evs s) (hstep : MemoryStep limit leaves evs s ev s') :
      MemoryRun limit leaves s₀ (evs ++ [ev]) s'

end Defs

/-! ## What one space sees -/

/-- The pages of a space, the frames that no other space has had since they were allocated, and
their bytes. -/
structure UserView where
  pages : PageMap
  own : Set PhysFrame
  bytes : ℕ → BitVec 8

section View

variable {N R : ℕ}

open scoped Classical in
/-- The own frames of the space `h` after a call. -/
noncomputable def SpaceEvent.ownBy (h : AddressSpaceHandle) (own : Set PhysFrame)
    (ev : SpaceEvent N R) : Set PhysFrame :=
  match ev.op, ev.reply with
  | .allocLeaf, .ok (.leaf (some f)) => insert f own
  | .freeLeaf f, .ok (.freed (.ok _)) => own \ {f}
  | .map cap _ pa _, .ok _ => if Names ev.before.table cap h then own else own \ {pa}
  | _, _ => own

/-- An allocated frame is full of zeroes. -/
def SpaceEvent.zeroed (bytes : ℕ → BitVec 8) (ev : SpaceEvent N R) (a : ℕ) : BitVec 8 :=
  match ev.op, ev.reply with
  | .allocLeaf, .ok (.leaf (some f)) => if InFrame f.asUsize a then 0 else bytes a
  | _, _ => bytes a

namespace UserView

/-- A store of the code of the space. -/
def store (v : UserView) (va : ℕ) (byte : BitVec 8) : UserView :=
  match v.pages (va / pageSize) with
  | some entry => { v with bytes := Function.update v.bytes (entry.1.asUsize + va % pageSize) byte }
  | none => v

/-- The view of the space `h` after the event. -/
noncomputable def next (h : AddressSpaceHandle) (v : UserView) : MemoryEvent N R → UserView
  | .call ev => ⟨ev.applyTo h v.pages, ev.ownBy h v.own, ev.zeroed v.bytes⟩
  | .copy a byte => { v with bytes := Function.update v.bytes a byte }
  | .store h' va byte => if h' = h then v.store va byte else v
  | .load _ _ _ => v

/-- The view of the space `h`. -/
noncomputable def of (h : AddressSpaceHandle) (evs : List (MemoryEvent N R)) : UserView :=
  evs.foldl (next h) ⟨fun _ => none, ∅, fun _ => 0⟩

variable {h : AddressSpaceHandle} {evs : List (MemoryEvent N R)} {ev : MemoryEvent N R}

theorem of_snoc : of h (evs ++ [ev]) = next h (of h evs) ev := by
  unfold of
  rw [List.foldl_append]
  rfl

/-- The accesses of other spaces are not seen. -/
theorem of_filter : of h (evs.filter (MemoryEvent.concerns h)) = of h evs := by
  unfold of
  rw [List.foldl_filter]
  congr 1
  funext v ev
  cases ev with
  | call ev => rfl
  | copy a byte => rfl
  | store h' va byte =>
    by_cases hsame : h' = h
    · simp [MemoryEvent.concerns, hsame]
    · simp [MemoryEvent.concerns, next, hsame]
  | load h' va byte => simp [next]

theorem store_pages (v : UserView) (va : ℕ) (byte : BitVec 8) :
    (v.store va byte).pages = v.pages := by
  unfold store
  split <;> rfl

theorem store_own (v : UserView) (va : ℕ) (byte : BitVec 8) : (v.store va byte).own = v.own := by
  unfold store
  split <;> rfl

/-- Pages and frames change by calls only. -/
theorem next_other (v : UserView) (hnot : ev.call? = none) :
    (next h v ev).pages = v.pages ∧ (next h v ev).own = v.own := by
  cases ev with
  | call ev => cases hnot
  | copy a byte => exact ⟨rfl, rfl⟩
  | store h' va byte =>
    unfold next
    dsimp only
    split
    · exact ⟨store_pages _ _ _, store_own _ _ _⟩
    · exact ⟨rfl, rfl⟩
  | load h' va byte => exact ⟨rfl, rfl⟩

theorem of_pages : (of h evs).pages = spacePages h (calls evs) := by
  induction evs using List.reverseRecOn with
  | nil => rfl
  | append_singleton evs ev ih =>
    rw [of_snoc]
    cases hcall : ev.call? with
    | none => rw [(next_other _ hcall).1, calls_other hcall, ih]
    | some c =>
      cases ev with
      | call ev =>
        rw [calls_call, spacePages_snoc, ← ih]
        rfl
      | _ => cases hcall

end UserView

/-- An own frame has just been allocated, or was own before, is still held if it was, and has
not been mapped into another space. -/
theorem mem_ownBy {h : AddressSpaceHandle} {own : Set PhysFrame} {ev : SpaceEvent N R}
    {f : PhysFrame} (hf : f ∈ ev.ownBy h own) :
    (ev.op = .allocLeaf ∧ ev.reply = .ok (.leaf (some f))) ∨
      f ∈ own ∧ (∀ held : Finset ℕ, f.asUsize ∈ held → f.asUsize ∈ ev.hold held) ∧
        ∀ cap va flags r, ev.op = .map cap va f flags → ev.reply = .ok r →
          Names ev.before.table cap h := by
  obtain ⟨before, op, reply, after⟩ := ev
  unfold SpaceEvent.ownBy at hf
  cases op with
  | create parent newRights => exact Or.inr ⟨hf, fun _ hheld => hheld, nofun⟩
  | map cap va pa flags =>
    cases reply with
    | error e => exact Or.inr ⟨hf, fun _ hheld => hheld, nofun⟩
    | ok r =>
      dsimp only at hf
      split at hf
      · next hnames =>
        refine Or.inr ⟨hf, fun _ hheld => hheld, fun cap' va' flags' r' hop _ => ?_⟩
        cases hop
        exact hnames
      · refine Or.inr ⟨hf.1, fun _ hheld => hheld, fun cap' va' flags' r' hop _ => ?_⟩
        cases hop
        exact absurd rfl hf.2
  | unmap cap va => exact Or.inr ⟨hf, fun _ hheld => hheld, nofun⟩
  | allocLeaf =>
    cases reply with
    | error e => exact Or.inr ⟨hf, fun _ hheld => hheld, nofun⟩
    | ok r =>
      cases r with
      | leaf g =>
        cases g with
        | none => exact Or.inr ⟨hf, fun _ hheld => hheld, nofun⟩
        | some g =>
          rcases hf with rfl | hold
          · exact Or.inl ⟨rfl, rfl⟩
          · exact Or.inr ⟨hold, fun _ hheld => Finset.mem_insert_of_mem hheld, nofun⟩
      | _ => exact Or.inr ⟨hf, fun _ hheld => hheld, nofun⟩
  | freeLeaf g =>
    cases reply with
    | error e => exact Or.inr ⟨hf, fun _ hheld => hheld, nofun⟩
    | ok r =>
      cases r with
      | freed result =>
        cases result with
        | error e => exact Or.inr ⟨hf, fun _ hheld => hheld, nofun⟩
        | ok u =>
          refine Or.inr ⟨hf.1, fun _ hheld => Finset.mem_erase.mpr ⟨?_, hheld⟩, nofun⟩
          exact fun heq => hf.2 (PhysFrame.ext_val heq)
      | _ => exact Or.inr ⟨hf, fun _ hheld => hheld, nofun⟩
  | switchTable table => exact Or.inr ⟨hf, fun _ hheld => hheld, nofun⟩

/-- The bytes of a frame that has not just been allocated. -/
theorem zeroed_other {ev : SpaceEvent N R} {bytes : ℕ → BitVec 8} {f : PhysFrame} {a : ℕ}
    (hnot : ¬ (ev.op = .allocLeaf ∧ ev.reply = .ok (.leaf (some f))))
    (ha : InFrame f.asUsize a) : ev.zeroed bytes a = bytes a := by
  unfold SpaceEvent.zeroed
  split
  · next g hop hreply =>
    refine if_neg (not_inFrame_of_ne f.aligned g.aligned ?_ ha)
    intro heq
    obtain rfl : f = g := PhysFrame.ext_val heq
    exact hnot ⟨hop, hreply⟩
  · rfl

end View

/-! ## A byte of a leaf frame -/

section Poke

variable [Build] {N R : ℕ} {extent : PhysFrameRange} {reserved : List PhysFrameRange}
  {haccepts : Accepts N R extent reserved} {hwindow : extent.stop.val ≤ directMapEnd}
  {leaves : Finset ℕ} {past : List (SpaceEvent N R)} {s : SpaceSystem N R}
  {T : AddressSpaceHandle → PageTree} {f : PhysFrame} {a : ℕ}

omit [Build] in
theorem poke_agreesOff (ha : InFrame f.asUsize a) (byte : BitVec 8) :
    Memory.AgreesOff {f.asUsize} s.machine.memory (poke s a byte).machine.memory := by
  intro b hb
  refine Function.update_of_ne ?_ _ _
  rintro rfl
  exact hb _ rfl ha

omit [Build] in
theorem aligned_singleton (f : PhysFrame) : ∀ b ∈ ({f.asUsize} : Set ℕ), b % pageSize = 0 := by
  rintro b rfl
  exact f.aligned

/-- A byte of a held leaf frame is no byte of a table. -/
theorem Separate.poke (hsep : Separate haccepts hwindow leaves past s T)
    (hheld : f.asUsize ∈ heldLeaves leaves past) (ha : InFrame f.asUsize a) (byte : BitVec 8) :
    Separate haccepts hwindow leaves past (poke s a byte) T where
  table := hsep.table
  arena := hsep.arena
  valid := hsep.valid
  family := by
    refine hsep.family.congr hsep.valid (fun _ _ => rfl) (fun h hh => ?_)
      fun h hh => (hsep.family.owns h hh).apart
    refine (hsep.family.owns h hh).holds.agreesOff (poke_agreesOff ha byte) (aligned_singleton f)
      fun b hb => ?_
    rintro rfl
    exact hsep.leaves _ hheld h hh hb
  unoffered := hsep.unoffered
  leaves := hsep.leaves

theorem Reach.poke (hreach : Reach leaves past s T)
    (hsep : Separate haccepts hwindow leaves past s T)
    (hheld : f.asUsize ∈ heldLeaves leaves past) (ha : InFrame f.asUsize a) (byte : BitVec 8) :
    Reach leaves past (Tyrne.poke s a byte) T where
  refines := hreach.refines
  plain h hh := by
    refine (hreach.plain h hh).congr fun b i hb hi => ?_
    refine readWord_agreesOff (poke_agreesOff ha byte) (aligned_singleton f)
      ((hsep.family.owns h hh).holds.aligned b hb) ?_ hi
    rintro rfl
    exact hsep.leaves _ hheld h hh hb
  held := hreach.held

end Poke

/-! ## What the hardware gives -/

section Reached

variable [Build] {N R : ℕ} {extent : PhysFrameRange} {reserved : List PhysFrameRange}
  {haccepts : Accepts N R extent reserved} {hwindow : extent.stop.val ≤ directMapEnd}
  {limit : ℕ} {leaves : Finset ℕ} {s s' : SpaceSystem N R} {T : AddressSpaceHandle → PageTree}
  {h : AddressSpaceHandle}

theorem Installs.walk {past : List (SpaceEvent N R)} {r : Regime} {va : ℕ}
    (hinstalls : Installs s h r) (hsep : Separate haccepts hwindow leaves past s T)
    (hreach : Reach leaves past s T) (hh : h ∈ createdSpaces past)
    (hlimit : directMapEnd ≤ limit) (hva : va < 2 ^ 48) :
    r.ttbr0Walk limit va = (spacePages h past).walk limit va := by
  obtain ⟨as_, hget, httbr0⟩ := hinstalls.root
  obtain ⟨as', hget', hroot⟩ := hsep.family.live h hh
  rw [hget] at hget'
  cases hget'
  have hwalkable : Walkable as_ r.memory (spacePages h past) (T h) := by
    rw [hinstalls.memory]
    exact ⟨(hsep.family.owns h hh).holds, hroot.symm, hreach.refines h hh, hreach.plain h hh⟩
  exact hwalkable.ttbr0Walk hlimit hinstalls.mair hinstalls.tcr httbr0 hva

/-- What user code gets to is a byte of a page of its space, in a held leaf frame. -/
theorem El0Finds.page {past : List (SpaceEvent N R)} {va : ℕ} {tr : Translation}
    (hfinds : El0Finds limit s h va tr) (hsep : Separate haccepts hwindow leaves past s T)
    (hreach : Reach leaves past s T) (hh : h ∈ createdSpaces past)
    (hlimit : directMapEnd ≤ limit) :
    ∃ entry, spacePages h past (va / pageSize) = some entry ∧
      tr = ⟨entry.1.asUsize + va % pageSize, entry.2.attributes⟩ ∧
      entry.1.asUsize ∈ heldLeaves leaves past ∧ InFrame entry.1.asUsize tr.address := by
  obtain ⟨hva, -, r, hinstalls, hwalk⟩ := hfinds
  rw [hinstalls.walk hsep hreach hh hlimit hva] at hwalk
  obtain ⟨entry, hentry, rfl⟩ := PageMap.walk_some hwalk
  refine ⟨entry, hentry, rfl, hreach.held h hh _ entry hentry, Nat.le_add_right _ _, ?_⟩
  exact Nat.add_lt_add_left (Nat.mod_lt va (by decide)) _

variable {past : List (MemoryEvent N R)} {ev : MemoryEvent N R}

/-- Only a call changes what the tables are trees of. -/
theorem MemoryStep.reach (hsep : Separate haccepts hwindow leaves (calls past) s T)
    (hreach : Reach leaves (calls past) s T) (hlimit : directMapEnd ≤ limit)
    (hstep : MemoryStep limit leaves past s ev s') :
    ∃ T', Separate haccepts hwindow leaves (calls (past ++ [ev])) s' T' ∧
      Reach leaves (calls (past ++ [ev])) s' T' := by
  cases hstep with
  | call hstep hcareful =>
    rw [calls_call]
    exact hreach.step hsep hstep hcareful
  | copy byte hheld ha =>
    rw [calls_other rfl]
    exact ⟨T, hsep.poke hheld ha byte, hreach.poke hsep hheld ha byte⟩
  | store byte hh hfinds hwrite =>
    obtain ⟨entry, -, -, hheld, hin⟩ := hfinds.page hsep hreach hh hlimit
    rw [calls_other rfl]
    exact ⟨T, hsep.poke hheld hin byte, hreach.poke hsep hheld hin byte⟩
  | load hh hfinds =>
    rw [calls_other rfl]
    exact ⟨T, hsep, hreach⟩

/-- A byte of a held leaf frame is changed by no call that leaves it held. -/
theorem SpaceStep.keeps_leaf {past : List (SpaceEvent N R)} {ev : SpaceEvent N R}
    (hsep : Separate haccepts hwindow leaves past s T) (hstep : SpaceStep leaves past s ev s')
    {f : PhysFrame} (hheld : f.asUsize ∈ heldLeaves leaves past)
    (hheld' : f.asUsize ∈ heldLeaves leaves (past ++ [ev])) (hcareful : ev.op.Careful leaves past)
    {a : ℕ} (ha : InFrame f.asUsize a) : s'.machine.memory a = s.machine.memory a := by
  by_cases hedits : ∃ h, ev.EditsSpace h
  · obtain ⟨h, hedits⟩ := hedits
    obtain ⟨T', heffect⟩ := hsep.step hstep
    have hh : h ∈ createdSpaces (past ++ [ev]) := by
      rw [createdSpaces_snoc]
      exact Or.inl (performsOn_of_edits hsep hstep hcareful hedits).1
    refine heffect.writes h hedits a fun b hb => ?_
    have haligned := (heffect.separate.family.owns h hh).holds.aligned b hb
    refine not_inFrame_of_ne f.aligned haligned ?_ ha
    rintro rfl
    exact heffect.separate.leaves _ hheld' h hh hb
  · rw [not_exists] at hedits
    refine unedited_memory hsep hstep hedits a fun b hb => ?_
    have haligned := ((pmmSource haccepts hwindow).in_window hsep.valid hb).1
    refine not_inFrame_of_ne f.aligned haligned ?_ ha
    rintro rfl
    exact hsep.unoffered _ hheld hb

end Reached

/-! ## Private memory -/

section Private

variable [Build] {N R : ℕ} {extent : PhysFrameRange} {reserved : List PhysFrameRange}
  {haccepts : Accepts N R extent reserved} {hwindow : extent.stop.val ≤ directMapEnd}
  {limit : ℕ} {leaves : Finset ℕ} {s s' : SpaceSystem N R} {T : AddressSpaceHandle → PageTree}
  {h : AddressSpaceHandle} {past : List (MemoryEvent N R)}

/-- The own frames are held, mapped into no other space, and hold the bytes of the view. -/
structure Private (leaves : Finset ℕ) (h : AddressSpaceHandle) (evs : List (MemoryEvent N R))
    (s : SpaceSystem N R) : Prop where
  held : ∀ f ∈ (UserView.of h evs).own, f.asUsize ∈ heldLeaves leaves (calls evs)
  alone : ∀ h' ∈ createdSpaces (calls evs), h' ≠ h →
    ∀ k entry, spacePages h' (calls evs) k = some entry → entry.1 ∉ (UserView.of h evs).own
  bytes : ∀ f ∈ (UserView.of h evs).own, ∀ a, InFrame f.asUsize a →
    s.machine.memory a = (UserView.of h evs).bytes a

/-- An allocated leaf frame is a new one, full of zeroes. -/
theorem allocLeaf_fresh {past : List (SpaceEvent N R)} {ev : SpaceEvent N R} {f : PhysFrame}
    (hsep : Separate haccepts hwindow leaves past s T) (hstep : SpaceStep leaves past s ev s')
    (hop : ev.op = .allocLeaf) (hreply : ev.reply = .ok (.leaf (some f))) :
    f.asUsize ∉ heldLeaves leaves past ∧
      ∀ a, InFrame f.asUsize a → s'.machine.memory a = 0 := by
  have hexec := hstep.exec
  rw [hop, hreply] at hexec
  rcases (pmmSource haccepts hwindow).alloc_cases hsep.valid with ⟨m, hrun, -⟩ |
    ⟨g, m, hrun, -, hoffered, -, hzero, -⟩
  · have hgate : SpaceOp.allocLeaf.exec.run s =
        .returned (.ok (.leaf none)) { s with machine := m } := Prog.bind_ok (onFrames_run hrun)
    rw [hexec, Result.returned_inj] at hgate
    cases hgate.1
  · have hgate : SpaceOp.allocLeaf.exec.run s =
        .returned (.ok (.leaf (some g))) { s with machine := m } := Prog.bind_ok (onFrames_run hrun)
    rw [hexec, Result.returned_inj] at hgate
    obtain ⟨hleaf, rfl⟩ := hgate
    cases hleaf
    exact ⟨fun hheld => hsep.unoffered _ hheld hoffered, hzero⟩

theorem Private.call {ev : SpaceEvent N R} (hprivate : Private leaves h past s)
    (hsep : Separate haccepts hwindow leaves (calls past) s T)
    (hreach : Reach leaves (calls past) s T) (hstep : SpaceStep leaves (calls past) s ev s')
    (hcareful : ev.op.Careful leaves (calls past)) :
    Private leaves h (past ++ [.call ev]) s' := by
  have hheld : ∀ f ∈ ev.ownBy h (UserView.of h past).own,
      f.asUsize ∈ heldLeaves leaves (calls past ++ [ev]) := by
    intro f hf
    rw [heldLeaves_snoc]
    rcases mem_ownBy hf with ⟨hop, hreply⟩ | ⟨hold, hkeeps, -⟩
    · unfold SpaceEvent.hold
      rw [hop, hreply]
      exact Finset.mem_insert_self _ _
    · exact hkeeps _ (hprivate.held f hold)
  constructor
  · rw [calls_call, UserView.of_snoc]
    exact hheld
  · rw [calls_call, UserView.of_snoc]
    intro h' hh' hne k entry hentry hown
    have hold : h' ∈ createdSpaces (calls past) := by
      rw [createdSpaces_snoc] at hh'
      refine hh'.resolve_right fun hcreates => ?_
      rw [spacePages_snoc, applyTo_creates hcreates] at hentry
      cases hentry
    rw [spacePages_snoc] at hentry
    rcases mem_ownBy hown with ⟨hop, hreply⟩ | ⟨hown', -, hmaps⟩
    · rcases applyTo_some hentry with hbefore | ⟨cap, va, flags, r, hmap, -⟩
      · exact (allocLeaf_fresh hsep hstep hop hreply).1 (hreach.held h' hold k entry hbefore)
      · rw [hop] at hmap
        cases hmap
    · rcases applyTo_some hentry with hbefore | ⟨cap, va, flags, r, hmap, hreply, hnames⟩
      · exact hprivate.alone h' hold hne k entry hbefore hown'
      · exact hne (hnames.unique (hmaps cap va flags r hmap hreply))
  · rw [UserView.of_snoc]
    intro f hf a ha
    show s'.machine.memory a = ev.zeroed (UserView.of h past).bytes a
    by_cases hallocates : ev.op = .allocLeaf ∧ ev.reply = .ok (.leaf (some f))
    · rw [(allocLeaf_fresh hsep hstep hallocates.1 hallocates.2).2 a ha]
      unfold SpaceEvent.zeroed
      rw [hallocates.1, hallocates.2]
      exact (if_pos ha).symm
    · obtain ⟨hold, -, -⟩ := (mem_ownBy hf).resolve_left hallocates
      rw [zeroed_other hallocates ha, ← hprivate.bytes f hold a ha]
      exact hstep.keeps_leaf hsep (hprivate.held f hold) (hheld f hf) hcareful ha

omit [Build] in
/-- Events other than calls concern the bytes only. -/
theorem Private.other {ev : MemoryEvent N R} (hprivate : Private leaves h past s)
    (hnot : ev.call? = none)
    (hbytes : ∀ f ∈ (UserView.of h past).own, ∀ a, InFrame f.asUsize a →
      s'.machine.memory a = (UserView.next h (UserView.of h past) ev).bytes a) :
    Private leaves h (past ++ [ev]) s' := by
  obtain ⟨-, hown⟩ := UserView.next_other (h := h) (UserView.of h past) hnot
  rw [← UserView.of_snoc] at hown hbytes
  constructor
  · rw [hown, calls_other hnot]
    exact hprivate.held
  · rw [hown, calls_other hnot]
    exact hprivate.alone
  · rw [hown]
    exact hbytes

omit [Build] in
theorem update_agree {m m' : ℕ → BitVec 8} {a b : ℕ} {byte : BitVec 8} (h : m b = m' b) :
    Function.update m a byte b = Function.update m' a byte b := by
  by_cases hb : b = a
  · rw [hb, Function.update_self, Function.update_self]
  · rw [Function.update_of_ne hb, Function.update_of_ne hb, h]

/-- An address space keeps what is in its own frames: no step of another space, and no access
through one, changes a byte of them. -/
theorem Private.step {ev : MemoryEvent N R} (hprivate : Private leaves h past s)
    (hsep : Separate haccepts hwindow leaves (calls past) s T)
    (hreach : Reach leaves (calls past) s T) (hlimit : directMapEnd ≤ limit)
    (hstep : MemoryStep limit leaves past s ev s') : Private leaves h (past ++ [ev]) s' := by
  cases hstep with
  | call hstep hcareful => exact hprivate.call hsep hreach hstep hcareful
  | copy byte hheld ha =>
    exact hprivate.other rfl fun f hf b hb => update_agree (hprivate.bytes f hf b hb)
  | @store h' va tr byte hh hfinds hwrite =>
    obtain ⟨entry, hentry, rfl, -, hin⟩ := hfinds.page hsep hreach hh hlimit
    refine hprivate.other rfl fun f hf b hb => ?_
    by_cases hsame : h' = h
    · subst hsame
      rw [← UserView.of_pages] at hentry
      unfold UserView.next UserView.store
      dsimp only
      rw [if_pos rfl, hentry]
      exact update_agree (hprivate.bytes f hf b hb)
    · have hne : entry.1 ≠ f := fun heq => hprivate.alone h' hh hsame _ entry hentry (heq ▸ hf)
      have hkept : (poke s (entry.1.asUsize + va % pageSize) byte).machine.memory b =
          s.machine.memory b := by
        refine poke_agreesOff hin byte b fun c hc => ?_
        rw [Set.mem_singleton_iff.mp hc]
        exact not_inFrame_of_ne f.aligned entry.1.aligned
          (fun heq => hne (PhysFrame.ext_val heq.symm)) hb
      unfold UserView.next
      dsimp only
      rw [if_neg hsame, hkept]
      exact hprivate.bytes f hf b hb
  | load hh hfinds => exact hprivate.other rfl hprivate.bytes

/-- In every run the trees stay apart, and every space keeps what is in its own frames. -/
theorem private_of_run {s₀ : SpaceSystem N R} {evs : List (MemoryEvent N R)}
    (hstart : Separate haccepts hwindow leaves [] s₀ T) (hlimit : directMapEnd ≤ limit)
    (hrun : MemoryRun limit leaves s₀ evs s) :
    (∃ T, Separate haccepts hwindow leaves (calls evs) s T ∧ Reach leaves (calls evs) s T) ∧
      ∀ h, Private leaves h evs s := by
  induction hrun with
  | nil =>
    obtain ⟨T, hsep, hreach⟩ := Reach.of_run hstart .nil fun past ev rest heq => by
      cases past <;> cases heq
    refine ⟨⟨T, hsep, hreach⟩, fun h => ⟨?_, ?_, ?_⟩⟩
    · exact fun f hf => absurd hf (Set.notMem_empty f)
    · exact fun _ _ _ _ _ _ hown => absurd hown (Set.notMem_empty _)
    · exact fun f hf => absurd hf (Set.notMem_empty f)
  | snoc _ hstep ih =>
    obtain ⟨⟨T, hsep, hreach⟩, hprivate⟩ := ih
    exact ⟨hstep.reach hsep hreach hlimit, fun h => (hprivate h).step hsep hreach hlimit hstep⟩

omit [Build] in
/-- A run passes through the states before and after each of its events. -/
theorem MemoryRun.event [Build] {s₀ : SpaceSystem N R} {evs rest : List (MemoryEvent N R)}
    {ev : MemoryEvent N R} (hrun : MemoryRun limit leaves s₀ evs s)
    (heq : evs = past ++ ev :: rest) :
    ∃ s₁ s₂, MemoryRun limit leaves s₀ past s₁ ∧ MemoryStep limit leaves past s₁ ev s₂ := by
  induction hrun generalizing rest with
  | nil => cases past <;> cases heq
  | snoc hrun hstep ih =>
    rcases List.eq_nil_or_concat rest with rfl | ⟨rest', last, rfl⟩
    · obtain ⟨rfl, hlast⟩ := List.append_inj' heq rfl
      cases hlast
      exact ⟨_, _, hrun, hstep⟩
    · rw [List.concat_eq_append, ← List.cons_append, ← List.append_assoc] at heq
      exact ih (List.append_inj' heq rfl).1

end Private

/-! ## One page -/

def twoSpacesEvents : List (MemoryEvent 1 1) :=
  [.call createFirst, .call createSecond, .call allocCall, .call mapCall]

/-- Then code of the first space stores a byte. -/
def storedOnce : List (MemoryEvent 1 1) := twoSpacesEvents ++ [.store firstSpace 0x400005 7]

theorem twoSpaces_events : let _ : Build := debugBuild
    MemoryRun (2 ^ 40) ∅ eightFramesSpaces twoSpacesEvents pageMapped := by
  intro _
  obtain ⟨hfirst, hsecond, halloc, hmap⟩ := twoSpaces_steps
  have hcareful : mapCall.op.Careful ∅ [createFirst, createSecond, allocCall] :=
    twoSpaces_careful _ _ [] rfl
  have hcreated : MemoryRun (2 ^ 40) ∅ eightFramesSpaces [.call createFirst] firstCreated :=
    .snoc .nil (.call hfirst trivial)
  have hboth : MemoryRun (2 ^ 40) ∅ eightFramesSpaces [.call createFirst, .call createSecond]
      bothCreated := hcreated.snoc (.call hsecond trivial)
  have hallocated := hboth.snoc (.call halloc trivial)
  exact hallocated.snoc (.call hmap hcareful)

theorem twoSpaces_view : (UserView.of firstSpace twoSpacesEvents).pages 0x400 =
    some (leafFrame, writable) ∧ leafFrame ∈ (UserView.of firstSpace twoSpacesEvents).own := by
  have howns : ∀ own, mapCall.ownBy firstSpace own = own := fun _ => if_pos mapCall_names
  have hlast : UserView.of firstSpace twoSpacesEvents = UserView.next firstSpace
      (UserView.of firstSpace [.call createFirst, .call createSecond, .call allocCall])
      (.call mapCall) := rfl
  rw [UserView.of_pages, hlast]
  unfold UserView.next
  dsimp only
  rw [howns]
  refine ⟨?_, Set.mem_insert _ _⟩
  show spacePages firstSpace twoSpacesCalls 0x400 = _
  rw [twoSpaces_pages.1, Function.update_self]

/-- The root of the first space is the first frame that was handed out. -/
theorem firstSpace_installs (s : SpaceSystem 1 1) (harena : s.arena = pageMapped.arena) :
    Installs s firstSpace (regimeOf s 4096) := by
  have hon : Ttbr0On tcrEl1Value := by decide
  have hget := twoSpaces_live.1
  rw [← harena] at hget
  exact ⟨rfl, rfl, hon, _, hget, rfl⟩

/-- Code of the space stores a byte and loads it. -/
theorem onePage_stored : let _ : Build := debugBuild
    ∃ s, MemoryRun (2 ^ 40) ∅ eightFramesSpaces
      (storedOnce ++ [.load firstSpace 0x400005 7]) s := by
  intro _
  have hcreated : firstSpace ∈ createdSpaces (calls twoSpacesEvents) := (twoSpaces_created _).1
  have hfinds : El0Finds (2 ^ 40) pageMapped firstSpace 0x400005
      ⟨0x3005, writable.attributes⟩ := by
    refine ⟨by decide, by decide, regimeOf pageMapped 4096, firstSpace_installs _ rfl, ?_⟩
    decide +kernel
  have hstore := twoSpaces_events.snoc (.store 7 hcreated hfinds (by decide))
  have hfinds' : El0Finds (2 ^ 40) (poke pageMapped 0x3005 7) firstSpace 0x400005
      ⟨0x3005, writable.attributes⟩ := by
    refine ⟨by decide, by decide, regimeOf _ 4096, firstSpace_installs _ rfl, ?_⟩
    decide +kernel
  have hcreated' : firstSpace ∈ createdSpaces (calls storedOnce) := hcreated
  have hload := hstore.snoc (.load hcreated' hfinds')
  exact ⟨_, hload⟩

/-! ## The results -/

section Results

variable [Build] {N R : ℕ} {extent : PhysFrameRange} {reserved : List PhysFrameRange}
  {limit : ℕ} {s : SpaceSystem N R} {h : AddressSpaceHandle} {past : List (MemoryEvent N R)}

/-- In every run of calls and of stores and loads of user code, each store has gone to a page
that was mapped with `USER` and `WRITE` through a capability to its space, and the hardware
goes on giving each space the map of its pages: no store changes what any space gets to. -/
theorem stores_keep_translations {A : SetAllocator ℕ} {s₀ : SpaceSystem N R}
    {evs : List (MemoryEvent N R)} (haccepts : Accepts N R extent reserved)
    (hwindow : extent.stop.val ≤ directMapEnd)
    (hmodels : Models extent reserved s₀.machine.frames A) (htable : s₀.table.WellFormed)
    (harena : s₀.arena.WellFormed) (hlimit : directMapEnd ≤ limit)
    (hrun : MemoryRun limit A.outstanding s₀ evs s) :
    (∀ past h va byte rest, evs = past ++ .store h va byte :: rest →
      ∃ entry, spacePages h (calls past) (va / pageSize) = some entry ∧
        entry.2.contains .user ∧ entry.2.contains .write) ∧
      ∀ h ∈ createdSpaces (calls evs), ∀ r, Installs s h r →
        ∀ va < 2 ^ 48, r.ttbr0Walk limit va = (spacePages h (calls evs)).walk limit va := by
  have hstart : Separate haccepts hwindow A.outstanding [] s₀ fun _ => Tree.empty 512 3 _ _ 0 :=
    .start htable harena hmodels _
  constructor
  · intro past h va byte rest hstore
    obtain ⟨s₁, s₂, hpast, hstep⟩ := hrun.event hstore
    obtain ⟨⟨T, hsep, hreach⟩, -⟩ := private_of_run hstart hlimit hpast
    cases hstep with
    | store byte hh hfinds hwrite =>
      obtain ⟨entry, hentry, rfl, -, -⟩ := hfinds.page hsep hreach hh hlimit
      exact ⟨entry, hentry, hfinds.2.1, hwrite⟩
  · intro h hh r hinstalls va hva
    obtain ⟨⟨T, hsep, hreach⟩, -⟩ := private_of_run hstart hlimit hrun
    exact hinstalls.walk hsep hreach hh hlimit hva

omit [Build] in
/-- Code of the first space stores to its page and loads from it. -/
theorem stores_keep_translations_onePage : let _ : Build := debugBuild
    ∃ s, MemoryRun (2 ^ 40) ∅ eightFramesSpaces
        (storedOnce ++ [.load firstSpace 0x400005 7]) s ∧
      ∀ r, Installs s firstSpace r → ∀ va < 2 ^ 48,
        r.ttbr0Walk (2 ^ 40) va = (spacePages firstSpace twoSpacesCalls).walk (2 ^ 40) va := by
  intro _
  obtain ⟨haccepts, hmodels⟩ := eightFrames_models
  obtain ⟨s, hrun⟩ := onePage_stored
  have hmodels' : Models eightFrames firstReserved eightFramesSpaces.machine.frames _ := hmodels
  have hkeeps := stores_keep_translations haccepts (by decide) hmodels' bootSpaces_wellFormed.1
    bootSpaces_wellFormed.2 (by decide) hrun
  exact ⟨s, hrun, hkeeps.2 _ (twoSpaces_created [allocCall, mapCall]).1⟩

/-- In every such run, a load of user code from an own frame of its space returns what the view
of the space has there without any access of another space: the byte of the last store of its
own code or of the kernel, or zero since the frame was allocated. -/
theorem loads_private {A : SetAllocator ℕ} {s₀ : SpaceSystem N R}
    {evs rest : List (MemoryEvent N R)} {va : ℕ} {byte : BitVec 8}
    {entry : PhysFrame × MappingFlags} (haccepts : Accepts N R extent reserved)
    (hwindow : extent.stop.val ≤ directMapEnd)
    (hmodels : Models extent reserved s₀.machine.frames A) (htable : s₀.table.WellFormed)
    (harena : s₀.arena.WellFormed) (hlimit : directMapEnd ≤ limit)
    (hrun : MemoryRun limit A.outstanding s₀ evs s) (hload : evs = past ++ .load h va byte :: rest)
    (hpage : (UserView.of h past).pages (va / pageSize) = some entry)
    (hown : entry.1 ∈ (UserView.of h past).own) :
    byte = (UserView.of h (past.filter (MemoryEvent.concerns h))).bytes
      (entry.1.asUsize + va % pageSize) := by
  have hstart : Separate haccepts hwindow A.outstanding [] s₀ fun _ => Tree.empty 512 3 _ _ 0 :=
    .start htable harena hmodels _
  obtain ⟨s₁, s₂, hpast, hstep⟩ := hrun.event hload
  obtain ⟨⟨T, hsep, hreach⟩, hprivate⟩ := private_of_run hstart hlimit hpast
  rw [UserView.of_filter]
  cases hstep with
  | load hh hfinds =>
    obtain ⟨entry', hentry', rfl, -, hin⟩ := hfinds.page hsep hreach hh hlimit
    rw [← UserView.of_pages, hpage] at hentry'
    cases hentry'
    exact (hprivate h).bytes _ hown _ hin

omit [Build] in
theorem loads_private_onePage : (7 : BitVec 8) =
    (UserView.of firstSpace (storedOnce.filter (MemoryEvent.concerns firstSpace))).bytes
      (0x3000 + 0x400005 % pageSize) := by
  let _ : Build := debugBuild
  obtain ⟨haccepts, hmodels⟩ := eightFrames_models
  obtain ⟨s, hrun⟩ := onePage_stored
  have hmodels' : Models eightFrames firstReserved eightFramesSpaces.machine.frames _ := hmodels
  have hview : (UserView.of firstSpace storedOnce).pages 0x400 = some (leafFrame, writable) ∧
      leafFrame ∈ (UserView.of firstSpace storedOnce).own := by
    unfold storedOnce
    rw [UserView.of_snoc]
    obtain ⟨hpages, hown⟩ := UserView.next_other (h := firstSpace)
      (UserView.of firstSpace twoSpacesEvents)
      (rfl : (MemoryEvent.store firstSpace 0x400005 7 : MemoryEvent 1 1).call? = none)
    rw [hpages, hown]
    exact twoSpaces_view
  exact loads_private haccepts (by decide) hmodels' bootSpaces_wellFormed.1
    bootSpaces_wellFormed.2 (by decide) hrun rfl hview.1 hview.2

end Results

end Tyrne
