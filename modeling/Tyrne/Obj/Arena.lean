import Tyrne.Library.Chain
import Tyrne.Machine

/-!
# The generic arena

`Arena T N` is the fixed-size array of generation-tagged slots that stores every
kind of kernel object. Free slots form a list threaded through `nextFree`.
-/

namespace Tyrne

/-- Identifier of a slot within an arena. -/
structure SlotId where
  index : Index
  generation : Generation
  deriving DecidableEq, Repr

/-- The empty arena's head slot. -/
def SlotId.firstSlot : SlotId := ⟨0, 0⟩

/-- One storage cell of an arena. -/
structure ArenaSlot (T : Type) where
  entry : Option T
  generation : Generation
  nextFree : Option Index

structure Arena (T : Type) (N : ℕ) where
  slots : Index → ArenaSlot T
  freeHead : Option Index

namespace Arena

variable {T : Type} {N : ℕ}

/-- An empty arena with every slot threaded into the free list. -/
def new : Arena T N where
  slots i := { entry := none, generation := 0, nextFree := freshLink N i }
  freeHead := if N > 0 then some 0 else none

/-- Store `slot` at `i`. -/
def setSlot (a : Arena T N) (i : Index) (slot : ArenaSlot T) : Arena T N :=
  { a with slots := Function.update a.slots i slot }

/-- Allocate a new slot, storing `value` in it. -/
def allocate [Build] {ε : Type} (value : T) : Prog (Arena T N) ε (Option SlotId) := do
  let a ← Prog.get
  match a.freeHead with
  | none => return none
  | some head =>
    debugAssert (head.toNat < N) "free_head out of bounds"
    if head.toNat < N then
      let slot := a.slots head
      Prog.set { a.setSlot head { slot with entry := some value, nextFree := none } with
        freeHead := slot.nextFree }
      return some { index := head, generation := slot.generation }
    else
      return none

/-- Free the slot named by `id`, returning the stored value. -/
def free {ε : Type} (id : SlotId) : Prog (Arena T N) ε (Option T) := do
  let a ← Prog.get
  let slot := a.slots id.index
  if id.index.toNat < N ∧ slot.generation = id.generation then
    match slot.entry with
    | none => return none
    | some value =>
      Prog.set { a.setSlot id.index
          { entry := none, generation := slot.generation + 1, nextFree := a.freeHead } with
        freeHead := some id.index }
      return some value
  else
    return none

/-- The value at `id`, or `none` if stale or freed. -/
def get (a : Arena T N) (id : SlotId) : Option T :=
  if id.index.toNat < N then
    if (a.slots id.index).generation = id.generation then (a.slots id.index).entry else none
  else none

/-- The value at `id` together with the way to write it back. -/
def getMut (a : Arena T N) (id : SlotId) : Option (T × (T → Arena T N)) :=
  (a.get id).map fun value =>
    (value, fun value' => a.setSlot id.index { a.slots id.index with entry := some value' })

/-- Every slot is in use. -/
def isFull (a : Arena T N) : Prop := a.freeHead = none

instance (a : Arena T N) : Decidable a.isFull := inferInstanceAs (Decidable (_ = _))

/-- The slot `i` exists and holds no value. -/
def Vacant (a : Arena T N) (i : Index) : Prop := i.toNat < N ∧ (a.slots i).entry = none

/-- The free list visits exactly the vacant slots, each once. -/
def WellFormed (a : Arena T N) : Prop :=
  Chain.Lists (fun i => (a.slots i).nextFree) a.freeHead a.Vacant

/-! ## What allocation and freeing do -/

variable {a : Arena T N} {id id' : SlotId} {value : T} {ε : Type}

theorem get_eq_some_iff : a.get id = some value ↔
    id.index.toNat < N ∧ (a.slots id.index).generation = id.generation ∧
      (a.slots id.index).entry = some value := by
  unfold get
  by_cases hbound : id.index.toNat < N
  · by_cases hgen : (a.slots id.index).generation = id.generation <;> simp [hbound, hgen]
  · simp [hbound]

/-- The value stored in the slot `head`, taken off the free list. -/
def allocated (a : Arena T N) (head : Index) (value : T) : Arena T N :=
  { a.setSlot head { a.slots head with entry := some value, nextFree := none } with
    freeHead := (a.slots head).nextFree }

/-- The slot `i` vacated and put on the free list. -/
def freed (a : Arena T N) (i : Index) : Arena T N :=
  { a.setSlot i
      { entry := none, generation := (a.slots i).generation + 1, nextFree := a.freeHead } with
    freeHead := some i }

theorem allocate_run [Build] (a : Arena T N) (value : T) :
    (allocate value : Prog (Arena T N) ε _).run a = .ok none a ∨
    (∃ head, a.freeHead = some head ∧ head.toNat < N ∧
      (allocate value : Prog (Arena T N) ε _).run a =
        .ok (some ⟨head, (a.slots head).generation⟩) (a.allocated head value)) ∨
    ∃ msg, (allocate value : Prog (Arena T N) ε _).run a = .panic (.assertion msg) := by
  unfold allocate
  rw [Prog.get_bind_run]
  cases hhead : a.freeHead with
  | none => exact Or.inl rfl
  | some head =>
    dsimp only
    by_cases hbound : head.toNat < N
    · right
      left
      refine ⟨head, rfl, hbound, ?_⟩
      rw [debugAssert_pos hbound, Prog.pure_bind_run, if_pos hbound]
      rfl
    · cases hbuild : Build.debugAssertions with
      | true =>
        right
        right
        rw [debugAssert_neg hbuild hbound]
        exact ⟨_, rfl⟩
      | false =>
        left
        simp [debugAssert, hbuild, hbound]

theorem free_run (a : Arena T N) (id : SlotId) :
    (a.get id = none ∧ (free id : Prog (Arena T N) ε _).run a = .ok none a) ∨
    ∃ value, a.get id = some value ∧
      (free id : Prog (Arena T N) ε _).run a = .ok (some value) (a.freed id.index) := by
  unfold free get
  rw [Prog.get_bind_run]
  by_cases hbound : id.index.toNat < N
  · by_cases hgen : (a.slots id.index).generation = id.generation
    · cases hentry : (a.slots id.index).entry with
      | none =>
        left
        simp [hbound, hgen, hentry]
      | some value =>
        right
        refine ⟨value, by simp [hbound, hgen], ?_⟩
        simp [hbound, hgen, hentry, freed]
    · left
      simp [hbound, hgen]
  · left
    simp [hbound]

/-- A live id is freed. -/
theorem free_live {id : SlotId} (hget : a.get id = some value) :
    (free id : Prog (Arena T N) ε _).run a = .ok (some value) (a.freed id.index) := by
  rcases free_run (ε := ε) a id with ⟨hnone, _⟩ | ⟨value', hsome, hrun⟩
  · rw [hget] at hnone
    cases hnone
  · rw [hget] at hsome
    cases hsome
    exact hrun

theorem get_allocated {head : Index} (id : SlotId) (hbound : head.toNat < N) :
    ((a.allocated head value).get id).isSome ↔
      (a.get id).isSome ∨ id = ⟨head, (a.slots head).generation⟩ := by
  simp only [Option.isSome_iff_exists, get_eq_some_iff, allocated, setSlot]
  by_cases hindex : id.index = head
  · obtain ⟨i, g⟩ := id
    dsimp only at hindex
    subst hindex
    simp only [Function.update_self, Option.some.injEq, SlotId.mk.injEq, true_and]
    constructor
    · rintro ⟨-, -, hgen, -⟩
      exact Or.inr hgen.symm
    · rintro (⟨-, -, hgen, -⟩ | hgen)
      · exact ⟨value, hbound, hgen, rfl⟩
      · exact ⟨value, hbound, hgen.symm, rfl⟩
  · have hne : id ≠ ⟨head, (a.slots head).generation⟩ := by
      rintro rfl
      exact hindex rfl
    simp [Function.update_of_ne hindex, hne]

theorem get_freed (id' : SlotId) (hlive : (a.get id).isSome) :
    ((a.freed id.index).get id').isSome ↔ (a.get id').isSome ∧ id' ≠ id := by
  obtain ⟨v, hv⟩ := Option.isSome_iff_exists.mp hlive
  obtain ⟨-, hgen, -⟩ := get_eq_some_iff.mp hv
  simp only [Option.isSome_iff_exists, get_eq_some_iff, freed, setSlot]
  by_cases hindex : id'.index = id.index
  · have hsame : (a.slots id'.index).generation = id'.generation → id' = id := by
      intro hgen'
      obtain ⟨i, g⟩ := id
      obtain ⟨i', g'⟩ := id'
      dsimp only at *
      subst hindex
      rw [← hgen', hgen]
    simp only [hindex, Function.update_self]
    constructor
    · rintro ⟨_, -, -, hcon⟩
      cases hcon
    · rintro ⟨⟨_, -, hgen', -⟩, hne⟩
      exact absurd (hsame (hindex ▸ hgen')) hne
  · have hne : id' ≠ id := fun heq => hindex (heq ▸ rfl)
    simp [Function.update_of_ne hindex, hne]

/-- A freed slot is gone and the other ids lead where they did. -/
theorem get_freed_eq (hget : a.get id = some value) (id' : SlotId) :
    (a.freed id.index).get id' = if id' = id then none else a.get id' := by
  obtain ⟨hbound, hgen, _⟩ := get_eq_some_iff.mp hget
  obtain ⟨i, g⟩ := id
  obtain ⟨i', g'⟩ := id'
  dsimp only at hbound hgen
  by_cases hi : i' = i
  · subst hi
    by_cases hg : g' = g
    · simp [get, freed, setSlot, hg]
    · have hne : ¬ (a.slots i').generation = g' := fun heq => hg (heq.symm.trans hgen)
      simp [get, freed, setSlot, hg, hne]
  · simp [get, freed, setSlot, hi]

/-- A value written over the one of a live id is under that id only. -/
theorem get_written_eq (hget : a.get id = some value) (value' : T) (id' : SlotId) :
    (a.setSlot id.index { a.slots id.index with entry := some value' }).get id' =
      if id' = id then some value' else a.get id' := by
  obtain ⟨hbound, hgen, _⟩ := get_eq_some_iff.mp hget
  obtain ⟨i, g⟩ := id
  obtain ⟨i', g'⟩ := id'
  dsimp only at hbound hgen
  by_cases hi : i' = i
  · subst hi
    by_cases hg : g' = g
    · simp [get, setSlot, hg, hbound, hgen]
    · have hne : ¬ (a.slots i').generation = g' := fun heq => hg (heq.symm.trans hgen)
      simp [get, setSlot, hg, hne]
  · simp [get, setSlot, hi]

/-! ## Creating and destroying objects -/

/-- A creation that goes through makes one more slot live. -/
theorem create_cases [Build] {H : Type} (a : Arena T N) (value : T) (mk : SlotId → H) (full : ε) :
    let m : Prog (Arena T N) ε H := do
      let slot ← allocate value
      let slot ← Prog.okOr slot full
      return mk slot
    (∃ err, m.run a = .err err a) ∨
    (∃ slot a', m.run a = .ok (mk slot) a' ∧
      ∀ id, (a'.get id).isSome ↔ (a.get id).isSome ∨ id = slot) ∨
    ∃ msg, m.run a = .panic (.assertion msg) := by
  intro m
  rcases allocate_run (ε := ε) a value with hrun | ⟨head, _, hbound, hrun⟩ | ⟨msg, hrun⟩
  · exact Or.inl ⟨_, Prog.bind_ok hrun⟩
  · exact Or.inr (Or.inl ⟨_, _, Prog.bind_ok hrun, fun id => get_allocated id hbound⟩)
  · exact Or.inr (Or.inr ⟨msg, Prog.bind_panic hrun⟩)

/-- A destruction that goes through makes the slot, and no other, dead. -/
theorem destroy_cases (a : Arena T N) (id : SlotId) (invalid : ε) :
    let m : Prog (Arena T N) ε T := do
      let value ← free id
      Prog.okOr value invalid
    (∃ err, m.run a = .err err a) ∨
    ∃ value a', m.run a = .ok value a' ∧ (a.get id).isSome ∧
      ∀ id', (a'.get id').isSome ↔ (a.get id').isSome ∧ id' ≠ id := by
  intro m
  rcases free_run (ε := ε) a id with ⟨_, hrun⟩ | ⟨value, hget, hrun⟩
  · exact Or.inl ⟨_, Prog.bind_ok hrun⟩
  · have hlive : (a.get id).isSome := by rw [hget]; rfl
    exact Or.inr ⟨value, _, Prog.bind_ok hrun, hlive, fun id' => get_freed id' hlive⟩

/-- Writing back through `getMut` makes no slot live and none dead. -/
theorem getMut_live {store : T → Arena T N} (value' : T) (id' : SlotId)
    (hmut : a.getMut id = some (value, store)) :
    ((store value').get id').isSome ↔ (a.get id').isSome := by
  unfold getMut at hmut
  obtain ⟨v, hget, hpair⟩ := Option.map_eq_some_iff.mp hmut
  cases hpair
  obtain ⟨hbound, hgen, hentry⟩ := get_eq_some_iff.mp hget
  simp only [Option.isSome_iff_exists, get_eq_some_iff, setSlot]
  by_cases hindex : id'.index = id.index
  · simp [hindex, hbound, hgen, hentry]
  · simp [Function.update_of_ne hindex]

/-- Writing back the value that is there changes nothing. -/
theorem getMut_same (hget : a.get id = some value) :
    ∃ store, a.getMut id = some (value, store) ∧ store value = a := by
  refine ⟨fun value' => a.setSlot id.index { a.slots id.index with entry := some value' }, ?_, ?_⟩
  · unfold getMut
    rw [hget]
    rfl
  · obtain ⟨_, _, hentry⟩ := get_eq_some_iff.mp hget
    have hslot : { a.slots id.index with entry := some value } = a.slots id.index := by
      rw [← hentry]
    dsimp only [setSlot]
    rw [hslot, Function.update_eq_self]

/-! ## The free list -/

theorem new_wellFormed (hN : N < 65536) : (new : Arena T N).WellFormed := by
  refine (freshLink_lists hN).congr (fun i _ => rfl) fun i => ?_
  constructor
  · intro hbound
    exact ⟨hbound, rfl⟩
  · intro hvacant
    exact hvacant.1

theorem allocated_vacant {head i : Index} :
    (a.allocated head value).Vacant i ↔ a.Vacant i ∧ i ≠ head := by
  unfold Vacant allocated setSlot
  by_cases hi : i = head
  · subst hi
    simp
  · simp [hi]

theorem freed_vacant {i j : Index} (hbound : i.toNat < N) :
    (a.freed i).Vacant j ↔ j = i ∨ a.Vacant j := by
  unfold Vacant freed setSlot
  by_cases hj : j = i
  · subst hj
    simp [hbound]
  · simp [hj]

/-- The slot that an allocation takes is vacant. -/
theorem WellFormed.head_vacant {head : Index} (hwf : a.WellFormed)
    (hhead : a.freeHead = some head) : a.Vacant head := by
  unfold WellFormed at hwf
  rw [hhead] at hwf
  exact hwf.head_mem

/-- No id of a vacant slot names a value. -/
theorem get_vacant (hvacant : a.Vacant id.index) : a.get id = none := by
  rw [Option.eq_none_iff_forall_not_mem]
  intro value hget
  obtain ⟨_, _, hentry⟩ := get_eq_some_iff.mp hget
  rw [hvacant.2] at hentry
  cases hentry

/-- An allocation stores the value under a fresh id and leaves the other ids as they are. -/
theorem get_allocated_eq {head : Index} (hvacant : a.Vacant head) (id : SlotId) :
    (a.allocated head value).get id =
      if id = ⟨head, (a.slots head).generation⟩ then some value else a.get id := by
  obtain ⟨i, g⟩ := id
  by_cases hi : i = head
  · subst hi
    by_cases hg : g = (a.slots i).generation
    · simp [get, allocated, setSlot, hg, hvacant.1]
    · have hne : ¬ (a.slots i).generation = g := fun heq => hg heq.symm
      simp [get, allocated, setSlot, hg, hne]
  · simp [get, allocated, setSlot, hi]

theorem WellFormed.allocated {head : Index} (hwf : a.WellFormed)
    (hhead : a.freeHead = some head) : (a.allocated head value).WellFormed := by
  unfold WellFormed at hwf
  rw [hhead] at hwf
  refine hwf.pop.congr (fun i hi => ?_) fun i => allocated_vacant.symm
  have hslot : ((a.allocated head value).slots i) = a.slots i :=
    Function.update_of_ne hi.2 _ _
  rw [hslot]

theorem WellFormed.freed {id : SlotId} (hwf : a.WellFormed) (hlive : (a.get id).isSome) :
    (a.freed id.index).WellFormed := by
  obtain ⟨v, hv⟩ := Option.isSome_iff_exists.mp hlive
  obtain ⟨hbound, -, hentry⟩ := get_eq_some_iff.mp hv
  have hused : ¬ a.Vacant id.index := by
    intro hvacant
    rw [hvacant.2] at hentry
    cases hentry
  have hlink : ((a.freed id.index).slots id.index).nextFree = a.freeHead := by
    simp [Arena.freed, setSlot]
  refine (Chain.Lists.push hwf hused hlink fun j hj => ?_).congr (fun j _ => rfl)
    fun j => (freed_vacant hbound).symm
  simp [Arena.freed, setSlot, hj]

/-- On a well-formed arena an allocation takes a vacant slot or finds the arena full. -/
theorem WellFormed.allocate_run [Build] (hwf : a.WellFormed) (value : T) :
    ((∀ i, ¬ a.Vacant i) ∧ (allocate value : Prog (Arena T N) ε _).run a = .ok none a) ∨
    ∃ head, a.Vacant head ∧ a.freeHead = some head ∧
      (allocate value : Prog (Arena T N) ε _).run a =
        .ok (some ⟨head, (a.slots head).generation⟩) (a.allocated head value) := by
  unfold allocate
  rw [Prog.get_bind_run]
  cases hhead : a.freeHead with
  | none => exact Or.inl ⟨(Chain.Lists.head_none_iff hwf).mp hhead, rfl⟩
  | some head =>
    have hvacant := hwf.head_vacant hhead
    refine Or.inr ⟨head, hvacant, rfl, ?_⟩
    dsimp only
    rw [debugAssert_pos hvacant.1, Prog.pure_bind_run, if_pos hvacant.1]
    rfl

/-- Writing a value over another one links no slot differently. -/
theorem WellFormed.written (hwf : a.WellFormed) (hget : a.get id = some value) (value' : T) :
    (a.setSlot id.index { a.slots id.index with entry := some value' }).WellFormed := by
  obtain ⟨_, _, hentry⟩ := get_eq_some_iff.mp hget
  refine Chain.Lists.congr hwf (fun i _ => ?_) fun i => ?_
  · by_cases hi : i = id.index
    · subst hi
      simp [setSlot]
    · simp [setSlot, hi]
  · unfold Vacant setSlot
    by_cases hi : i = id.index
    · subst hi
      simp [hentry]
    · simp [hi]

@[simp] theorem allocated_generation {head i : Index} :
    ((a.allocated head value).slots i).generation = (a.slots i).generation := by
  unfold allocated setSlot
  by_cases hi : i = head
  · subst hi
    simp
  · simp [hi]

theorem freed_generation {i j : Index} : ((a.freed i).slots j).generation =
    if j = i then (a.slots j).generation + 1 else (a.slots j).generation := by
  unfold freed setSlot
  by_cases hj : j = i
  · subst hj
    simp
  · simp [hj]

end Arena

end Tyrne
