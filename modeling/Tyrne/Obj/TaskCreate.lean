import Tyrne.Cap.Contents
import Tyrne.Cap.Handles
import Tyrne.Obj.ArenaRuns
import Tyrne.Obj.TaskLoader

/-!
# A task for a loaded image

`task_create_from_image` takes a slot of the task arena and then one of the capability table.
When the table is full it gives the arena slot back, so that nothing but the generation of
that slot has changed.
-/

namespace Tyrne

open CapabilityTable

inductive TaskCreateError
  | invalidAddressSpaceCap (error : CapError)
  | taskArenaFull
  | capTableExhausted (error : CapError)
  deriving DecidableEq, Repr

/-- The capability table and the task arena. -/
structure TaskTables where
  table : CapabilityTable
  tasks : TaskArena

namespace TaskTables

variable {ε ε' α : Type}

def onTable (mapErr : CapError → ε) (m : TableM α) : Prog TaskTables ε α :=
  Prog.zoom TaskTables.table (fun table s => { s with table }) mapErr m

def onTasks (mapErr : ObjError → ε) (m : Prog TaskArena ObjError α) : Prog TaskTables ε α :=
  Prog.zoom TaskTables.tasks (fun tasks s => { s with tasks }) mapErr m

end TaskTables

open TaskTables

variable [Build]

/-- The address space that the capability names. -/
def loadedAddressSpace (asCap : CapHandle) :
    Prog TaskTables TaskCreateError AddressSpaceHandle := do
  let cap ← onTable .invalidAddressSpaceCap (lookup asCap)
  match cap.object with
  | .addressSpace handle => return handle
  | _ => Prog.fail (.invalidAddressSpaceCap .wrongKind)

def taskCreateFromImage (loaded : LoadedImage) (id : BitVec 32) (taskRights : CapRights) :
    Prog TaskTables TaskCreateError CapHandle := do
  let asHandle ← loadedAddressSpace loaded.asCap
  let taskHandle ← onTasks (fun _ => .taskArenaFull) (createTask ⟨id, asHandle⟩)
  match ← (onTable (fun e => e) (insertRoot ⟨taskRights, .task taskHandle⟩)).attempt with
  | .ok taskCap => return taskCap
  | .error e =>
    debugAssert (e = .capsExhausted) "insert_root returned a non-CapsExhausted error"
    let _ ← (onTasks (fun e => e) (destroyTask taskHandle)).attempt
    Prog.fail (.capTableExhausted e)

/-! ## The lookup of the address space -/

variable {s s' : TaskTables} {asCap : CapHandle} {loaded : LoadedImage} {id : BitVec 32}
  {taskRights : CapRights}

omit [Build] in
/-- The capability `asCap` names the address space `handle`. -/
def NamesAddressSpace (t : CapabilityTable) (asCap : CapHandle) (handle : AddressSpaceHandle) :
    Prop :=
  ∃ rights, (lookup asCap).run t = .ok ⟨rights, .addressSpace handle⟩ t

omit [Build] in
theorem loadedAddressSpace_cases (s : TaskTables) (asCap : CapHandle) :
    (∃ err, (loadedAddressSpace asCap).run s = .err err s) ∨
    ∃ handle, NamesAddressSpace s.table asCap handle ∧
      (loadedAddressSpace asCap).run s = .ok handle s := by
  unfold loadedAddressSpace
  rcases lookup_cases s.table asCap with ⟨e, _, hrun⟩ | ⟨_, hrun⟩
  · have hlook : (onTable .invalidAddressSpaceCap (lookup asCap) :
        Prog TaskTables TaskCreateError _).run s = .ok e.capability s := Prog.zoom_ok hrun
    rw [Prog.bind_ok hlook]
    generalize e.capability = cap at hrun
    obtain ⟨rights, object⟩ := cap
    cases object with
    | addressSpace handle => exact Or.inr ⟨handle, ⟨rights, hrun⟩, rfl⟩
    | _ => exact Or.inl ⟨_, rfl⟩
  · exact Or.inl ⟨_, Prog.bind_err (Prog.zoom_err hrun)⟩

/-! ## The two acquisitions -/

omit [Build] in
/-- Nothing has changed but generations of vacant arena slots. -/
structure Unchanged (s s' : TaskTables) : Prop where
  table : s'.table = s.table
  live : s'.tasks.live = s.tasks.live
  tasks : ∀ slot, s'.tasks.get slot = s.tasks.get slot

omit [Build] in
/-- One new task of the address space `asHandle`, and one new root that names it. -/
structure Created (id : BitVec 32) (taskRights : CapRights) (asHandle : AddressSpaceHandle)
    (hd : CapHandle) (s s' : TaskTables) (slot : SlotId) : Prop where
  live : slot ∉ s.tasks.live ∧ s'.tasks.live = insert slot s.tasks.live
  task : s'.tasks.get slot = some ⟨id, asHandle⟩
  tasks : ∀ slot', slot' ≠ slot → s'.tasks.get slot' = s.tasks.get slot'
  capabilities : s'.table.capabilities = ⟨taskRights, .task ⟨slot⟩⟩ ::ₘ s.table.capabilities
  root : (s'.table.slots hd.index).entry = some (rootEntry ⟨taskRights, .task ⟨slot⟩⟩)
  fresh : (lookup hd).run s.table = .err .invalidHandle s.table
  minted : (lookup hd).run s'.table = .ok ⟨taskRights, .task ⟨slot⟩⟩ s'.table
  kept : ∀ hd' c, hd' ≠ hd →
    ((lookup hd').run s'.table = .ok c s'.table ↔ (lookup hd').run s.table = .ok c s.table)

omit [Build] in
theorem taskArena_small : taskArenaCapacity < 65536 := by decide

omit [Build] in
theorem live_congr {a a' : TaskArena} (hget : ∀ slot, a'.get slot = a.get slot) :
    a'.live = a.live := by
  ext slot
  rw [Arena.mem_live taskArena_small, Arena.mem_live taskArena_small, hget]

omit [Build] in
/-- A task allocated and destroyed again leaves the arena's tasks as they were. -/
theorem get_rolledBack {a : TaskArena} {head : Index} (hvacant : a.Vacant head) (task : Task)
    (slot : SlotId) : ((a.allocated head task).freed head).get slot = a.get slot := by
  have hnew : (a.allocated head task).get ⟨head, (a.slots head).generation⟩ = some task := by
    rw [Arena.get_allocated_eq hvacant, if_pos rfl]
  rw [Arena.get_freed_eq hnew slot, Arena.get_allocated_eq hvacant]
  split
  · next heq =>
    rw [heq]
    exact (Arena.get_vacant hvacant).symm
  · rfl

omit [Build] in
theorem Created.of_installed {asHandle : AddressSpaceHandle} {head n : Index}
    (htable : s.table.WellFormed) (hvacant : s.tasks.Vacant head) (hn : s.table.freeHead = some n) :
    Created id taskRights asHandle ⟨n, (s.table.slots n).generation⟩ s
      ⟨s.table.installed n
        (rootEntry ⟨taskRights, .task ⟨⟨head, (s.tasks.slots head).generation⟩⟩⟩),
        s.tasks.allocated head ⟨id, asHandle⟩⟩ ⟨head, (s.tasks.slots head).generation⟩ := by
  have hfree := htable.freeHead_vacant hn
  have hget : ∀ slot', (s.tasks.allocated head ⟨id, asHandle⟩).get slot' =
      if slot' = ⟨head, (s.tasks.slots head).generation⟩ then some ⟨id, asHandle⟩
      else s.tasks.get slot' := fun slot' => Arena.get_allocated_eq hvacant slot'
  refine ⟨⟨?_, ?_⟩, ?_, fun slot' hne => ?_, installed_capabilities htable hn, ?_, ?_,
    lookup_installed htable hn, fun hd' c hne => ?_⟩
  · rw [Arena.mem_live taskArena_small]
    exact not_not.mpr (Arena.get_vacant hvacant)
  · ext slot'
    rw [Finset.mem_insert, Arena.mem_live taskArena_small, Arena.mem_live taskArena_small, hget]
    split
    · next heq => simp [heq]
    · next hne => simp [hne]
  · rw [hget, if_pos rfl]
  · rw [hget, if_neg hne]
  · exact installed_entry
  · apply lookup_err
    intro e he
    have hentry := he.entry
    rw [hfree.2] at hentry
    cases hentry
  · exact lookup_installed_other hne

/-- A creation leaves an error and nothing changed, or it has made one task and one root. -/
theorem taskCreateFromImage_cases (htable : s.table.WellFormed) (htasks : s.tasks.WellFormed)
    (loaded : LoadedImage) (id : BitVec 32) (taskRights : CapRights) :
    (∃ err s', (taskCreateFromImage loaded id taskRights).run s = .err err s' ∧
      Unchanged s s' ∧ s'.table.WellFormed ∧ s'.tasks.WellFormed) ∨
    ∃ hd s' asHandle slot, (taskCreateFromImage loaded id taskRights).run s = .ok hd s' ∧
      NamesAddressSpace s.table loaded.asCap asHandle ∧
      Created id taskRights asHandle hd s s' slot ∧
      s'.table.WellFormed ∧ s'.tasks.WellFormed := by
  unfold taskCreateFromImage
  rcases loadedAddressSpace_cases s loaded.asCap with ⟨err, hrun⟩ | ⟨asHandle, hnames, hrun⟩
  · exact Or.inl ⟨err, s, Prog.bind_err hrun, ⟨rfl, rfl, fun _ => rfl⟩, htable, htasks⟩
  rw [Prog.bind_ok hrun]
  rcases htasks.allocate_run (ε := ObjError) ⟨id, asHandle⟩ with
    ⟨hfull, halloc⟩ | ⟨head, hvacant, hhead, halloc⟩
  · have hcreate : (createTask ⟨id, asHandle⟩).run s.tasks = .err .arenaFull s.tasks :=
      Prog.bind_ok halloc
    exact Or.inl ⟨_, s, Prog.bind_err (Prog.zoom_err hcreate), ⟨rfl, rfl, fun _ => rfl⟩, htable,
      htasks⟩
  have hcreate : (onTasks (fun _ => .taskArenaFull) (createTask ⟨id, asHandle⟩) :
      Prog TaskTables TaskCreateError _).run s = .ok ⟨⟨head, (s.tasks.slots head).generation⟩⟩
        ⟨s.table, s.tasks.allocated head ⟨id, asHandle⟩⟩ :=
    Prog.zoom_ok (Prog.bind_ok halloc : (createTask ⟨id, asHandle⟩).run s.tasks = _)
  rw [Prog.bind_ok hcreate]
  have hallocated : (s.tasks.allocated head ⟨id, asHandle⟩).WellFormed := htasks.allocated hhead
  rcases insertRoot_run htable ⟨taskRights, .task ⟨⟨head, (s.tasks.slots head).generation⟩⟩⟩ with
    ⟨_, hinsert⟩ | ⟨n, hn, hinsert⟩
  · -- the table is full, and the task goes again
    left
    have hnew : (s.tasks.allocated head ⟨id, asHandle⟩).get
        ⟨head, (s.tasks.slots head).generation⟩ = some ⟨id, asHandle⟩ := by
      rw [Arena.get_allocated_eq hvacant, if_pos rfl]
    have hdestroy : (destroyTask ⟨⟨head, (s.tasks.slots head).generation⟩⟩).run
        (s.tasks.allocated head ⟨id, asHandle⟩) =
          .ok ⟨id, asHandle⟩ ((s.tasks.allocated head ⟨id, asHandle⟩).freed head) :=
      Prog.bind_ok (Arena.free_live hnew)
    have hlive : ((s.tasks.allocated head ⟨id, asHandle⟩).get
        ⟨head, (s.tasks.slots head).generation⟩).isSome := by
      rw [hnew]
      rfl
    have hfreed := hallocated.freed hlive
    have hrefused : ((onTable (fun e => e) (insertRoot ⟨taskRights, .task
        ⟨⟨head, (s.tasks.slots head).generation⟩⟩⟩) : Prog TaskTables CapError _).attempt :
          Prog TaskTables TaskCreateError _).run ⟨s.table, s.tasks.allocated head ⟨id, asHandle⟩⟩ =
        .ok (.error .capsExhausted) ⟨s.table, s.tasks.allocated head ⟨id, asHandle⟩⟩ :=
      Prog.attempt_err (Prog.zoom_err hinsert)
    refine ⟨.capTableExhausted .capsExhausted,
      ⟨s.table, (s.tasks.allocated head ⟨id, asHandle⟩).freed head⟩, ?_, ⟨rfl, ?_, ?_⟩, htable, ?_⟩
    · rw [Prog.bind_ok hrefused]
      dsimp only
      rw [debugAssert_pos rfl, Prog.pure_bind_run]
      exact Prog.bind_ok (Prog.attempt_ok (Prog.zoom_ok hdestroy))
    · exact live_congr (get_rolledBack hvacant _)
    · exact get_rolledBack hvacant _
    · exact hfreed
  · right
    have hminted : ((onTable (fun e => e) (insertRoot ⟨taskRights, .task
        ⟨⟨head, (s.tasks.slots head).generation⟩⟩⟩) : Prog TaskTables CapError _).attempt :
          Prog TaskTables TaskCreateError _).run ⟨s.table, s.tasks.allocated head ⟨id, asHandle⟩⟩ =
        .ok (.ok _) ⟨_, s.tasks.allocated head ⟨id, asHandle⟩⟩ :=
      Prog.attempt_ok (Prog.zoom_ok hinsert)
    refine ⟨_, _, asHandle, _, ?_, hnames, Created.of_installed htable hvacant hn,
      htable.installed hn (rootEntry_leaf s.table _), hallocated⟩
    rw [Prog.bind_ok hminted]
    rfl

/-- Whatever the state and the arguments, an error leaves the live tasks and capabilities as they
were, and a success has made exactly one task, bound to the loaded address space, and exactly
one root capability, which names it. Nothing panics. -/
theorem taskCreateFromImage_atomic (htable : s.table.WellFormed) (htasks : s.tasks.WellFormed)
    (loaded : LoadedImage) (id : BitVec 32) (taskRights : CapRights) :
    (∀ err s', (taskCreateFromImage loaded id taskRights).run s = .err err s' → Unchanged s s') ∧
      (∀ hd s', (taskCreateFromImage loaded id taskRights).run s = .ok hd s' →
        ∃ asHandle slot, NamesAddressSpace s.table loaded.asCap asHandle ∧
          Created id taskRights asHandle hd s s' slot) ∧
      (∀ cause, (taskCreateFromImage loaded id taskRights).run s ≠ .panic cause) ∧
      ∀ s', ((taskCreateFromImage loaded id taskRights).run s).state = some s' →
        s'.table.WellFormed ∧ s'.tasks.WellFormed := by
  rcases taskCreateFromImage_cases htable htasks loaded id taskRights with
    ⟨err, s₁, hrun, hunchanged, hwf⟩ | ⟨hd, s₁, asHandle, slot, hrun, hnames, hcreated, hwf⟩
  · rw [hrun]
    refine ⟨fun err' s' heq => ?_, fun hd s' heq => ?_, fun cause heq => ?_, fun s' heq => ?_⟩
    · cases heq
      exact hunchanged
    · cases heq
    · cases heq
    · cases heq
      exact hwf
  · rw [hrun]
    refine ⟨fun err' s' heq => ?_, fun hd s' heq => ?_, fun cause heq => ?_, fun s' heq => ?_⟩
    · cases heq
    · cases heq
      exact ⟨asHandle, slot, hnames, hcreated⟩
    · cases heq
    · cases heq
      exact hwf

/-- A table that holds the capability of the first address space, and no tasks. -/
def firstSpaceTables : TaskTables where
  table := new.installed 0 (rootEntry ⟨⟨0xf⟩, .addressSpace ⟨.firstSlot⟩⟩)
  tasks := Arena.new

def firstSpaceImage : LoadedImage := ⟨⟨0, 0⟩, ⟨4096⟩, ⟨12288⟩, 4096, 4096⟩

omit [Build] in
theorem taskCreateFromImage_atomic_first : let _ : Build := debugBuild
    ∃ s' asHandle slot,
      (taskCreateFromImage firstSpaceImage 7 ⟨0xf⟩).run firstSpaceTables = .ok ⟨1, 0⟩ s' ∧
      NamesAddressSpace firstSpaceTables.table firstSpaceImage.asCap asHandle ∧
      Created 7 ⟨0xf⟩ asHandle ⟨1, 0⟩ firstSpaceTables s' slot := by
  intro _
  have htable : firstSpaceTables.table.WellFormed :=
    new_wellFormed.installed rfl (rootEntry_leaf new _)
  have htasks : firstSpaceTables.tasks.WellFormed := Arena.new_wellFormed taskArena_small
  have hrun : (taskCreateFromImage firstSpaceImage 7 ⟨0xf⟩).run firstSpaceTables =
      .ok ⟨1, 0⟩ _ := rfl
  have hatomic := taskCreateFromImage_atomic htable htasks firstSpaceImage 7 ⟨0xf⟩
  obtain ⟨asHandle, slot, hnames, hcreated⟩ := hatomic.2.1 _ _ hrun
  exact ⟨_, asHandle, slot, hrun, hnames, hcreated⟩

end Tyrne
