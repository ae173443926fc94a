import Tyrne.Library.KeyStore
import Tyrne.Obj.Arena

/-!
# The arena as a store that issues its own keys

Any sequence of calls, with any arguments, from an empty arena. Every call is a step of the
store whose keys are the live ids and whose capacity is the number of slots. The generation of
a slot counts how often it has been freed, so that an id whose slot was freed does not come
back until the count has gone round.
-/

namespace Tyrne

variable {T : Type} {N : ℕ}

inductive ArenaOp (T : Type)
  | allocate (value : T)
  | free (id : SlotId)
  | get (id : SlotId)
  /-- A write through the reference that `get_mut` returns. -/
  | getMut (id : SlotId) (write : T → T)

inductive ArenaReply (T : Type)
  | slot (id : Option SlotId)
  | value (value : Option T)

structure ArenaEvent (T : Type) where
  op : ArenaOp T
  reply : ArenaReply T

def ArenaOp.exec [Build] : ArenaOp T → Prog (Arena T N) Empty (ArenaReply T)
  | .allocate value => do return .slot (← Arena.allocate value)
  | .free id => do return .value (← Arena.free id)
  | .get id => do return .value ((← Prog.get).get id)
  | .getMut id write => do
    match (← Prog.get).getMut id with
    | none => return .value none
    | some (value, store) =>
      Prog.set (store (write value))
      return .value (some value)

/-- The call returned. -/
def ArenaStep [Build] (a : Arena T N) (ev : ArenaEvent T) (a' : Arena T N) : Prop :=
  ev.op.exec.run a = .ok ev.reply a'

namespace ArenaEvent

/-- The event as an operation of the store. -/
def spec (ev : ArenaEvent T) : KeyStore.Op SlotId T × KeyStore.Reply SlotId T :=
  (match ev.op with
    | .allocate value => .insert value
    | .free id => .erase id
    | .get id => .read id
    | .getMut id write => .modify id write,
  match ev.reply with
    | .slot id => .issued id
    | .value value => .found value)

/-- The event has freed the slot `i`. -/
def Frees (i : Index) (ev : ArenaEvent T) : Bool :=
  match ev.op, ev.reply with
  | .free id, .value (some _) => id.index = i
  | _, _ => false

/-- How often the slot `i` was freed. -/
def frees (i : Index) (evs : List (ArenaEvent T)) : ℕ := evs.countP (Frees i)

end ArenaEvent

open ArenaEvent

namespace Arena

variable {a a' : Arena T N} {id : SlotId} {value : T}

/-! ## The live ids -/

/-- The ids that name a value. -/
def live (a : Arena T N) : Finset SlotId :=
  ((cells N).filter fun i => (a.slots i).entry.isSome).image fun i => ⟨i, (a.slots i).generation⟩

theorem mem_live (hN : N < 65536) : id ∈ a.live ↔ a.get id ≠ none := by
  unfold live
  rw [Finset.mem_image, Option.ne_none_iff_exists']
  constructor
  · rintro ⟨i, hi, rfl⟩
    obtain ⟨hcell, hentry⟩ := Finset.mem_filter.mp hi
    obtain ⟨value, hvalue⟩ := Option.isSome_iff_exists.mp hentry
    exact ⟨value, get_eq_some_iff.mpr ⟨(mem_cells hN).mp hcell, rfl, hvalue⟩⟩
  · rintro ⟨value, hget⟩
    obtain ⟨hbound, hgen, hentry⟩ := get_eq_some_iff.mp hget
    refine ⟨id.index, Finset.mem_filter.mpr ⟨(mem_cells hN).mpr hbound, by rw [hentry]; rfl⟩, ?_⟩
    rw [hgen]

theorem card_live (a : Arena T N) :
    a.live.card = ((cells N).filter fun i => (a.slots i).entry.isSome).card :=
  Finset.card_image_of_injective _ fun _ _ heq => (SlotId.mk.inj heq).1

/-- All slots are taken when as many ids are live. -/
theorem card_live_eq_iff (hN : N < 65536) : a.live.card = N ↔ ∀ i, ¬ a.Vacant i := by
  have hcells := card_cells hN
  rw [card_live]
  constructor
  · intro hcard i hvacant
    have hall : (cells N).filter (fun i => (a.slots i).entry.isSome) = cells N :=
      Finset.eq_of_subset_of_card_le (Finset.filter_subset _ _) (by omega)
    have hmem := hall ▸ (mem_cells hN).mpr hvacant.1
    have hentry := (Finset.mem_filter.mp hmem).2
    rw [hvacant.2] at hentry
    cases hentry
  · intro hfull
    rw [Finset.filter_true_of_mem, hcells]
    intro i hi
    rw [← Option.ne_none_iff_isSome]
    intro hnone
    exact hfull i ⟨(mem_cells hN).mp hi, hnone⟩

theorem card_live_lt (hN : N < 65536) {i : Index} (hvacant : a.Vacant i) : a.live.card < N := by
  have hle : a.live.card ≤ N := by
    rw [card_live]
    exact (Finset.card_filter_le _ _).trans_eq (card_cells hN)
  have hne : a.live.card ≠ N := fun heq => (card_live_eq_iff hN).mp heq i hvacant
  omega

/-- The arena as a store. -/
def toStore (hN : N < 65536) (a : Arena T N) : KeyStore SlotId T where
  lookup := a.get
  keys := a.live
  mem_keys _ := mem_live hN

theorem toStore_new (hN : N < 65536) : (new : Arena T N).toStore hN = KeyStore.empty := by
  apply KeyStore.ext_lookup
  intro id
  show (new : Arena T N).get id = none
  rw [Option.eq_none_iff_forall_not_mem]
  intro value hget
  obtain ⟨_, _, hentry⟩ := get_eq_some_iff.mp hget
  cases hentry

theorem toStore_allocated (hN : N < 65536) {head : Index} (hvacant : a.Vacant head) :
    (a.allocated head value).toStore hN =
      (a.toStore hN).put ⟨head, (a.slots head).generation⟩ value := by
  apply KeyStore.ext_lookup
  intro id
  have hget : (a.allocated head value).get id = _ := get_allocated_eq hvacant id
  refine hget.trans ?_
  split
  · next heq =>
    rw [heq]
    exact KeyStore.put_self.symm
  · next hne => exact (KeyStore.put_other (m := a.toStore hN) hne).symm

theorem toStore_freed (hN : N < 65536) (hget : a.get id = some value) :
    (a.freed id.index).toStore hN = (a.toStore hN).remove id := by
  apply KeyStore.ext_lookup
  intro id'
  refine (get_freed_eq hget id').trans ?_
  split
  · next heq =>
    rw [heq]
    exact KeyStore.remove_self.symm
  · next hne => exact (KeyStore.remove_other (m := a.toStore hN) hne).symm

theorem toStore_written (hN : N < 65536) (hget : a.get id = some value) (value' : T) :
    (a.setSlot id.index { a.slots id.index with entry := some value' }).toStore hN =
      (a.toStore hN).put id value' := by
  apply KeyStore.ext_lookup
  intro id'
  refine (get_written_eq hget value' id').trans ?_
  split
  · next heq =>
    rw [heq]
    exact KeyStore.put_self.symm
  · next hne => exact (KeyStore.put_other (m := a.toStore hN) hne).symm

end Arena

/-! ## What a call does -/

open Arena

variable [Build] {a a' : Arena T N} {ev : ArenaEvent T} {evs : List (ArenaEvent T)}

omit [Build] in
/-- The effect of a call on the arena. -/
inductive ArenaEffect (a : Arena T N) : ArenaEvent T → Arena T N → Prop
  | full {value : T} : (∀ i, ¬ a.Vacant i) → ArenaEffect a ⟨.allocate value, .slot none⟩ a
  | allocated {value : T} {head : Index} : a.freeHead = some head → a.Vacant head →
      ArenaEffect a ⟨.allocate value, .slot (some ⟨head, (a.slots head).generation⟩)⟩
        (a.allocated head value)
  | stale {id : SlotId} : a.get id = none → ArenaEffect a ⟨.free id, .value none⟩ a
  | freed {id : SlotId} {value : T} : a.get id = some value →
      ArenaEffect a ⟨.free id, .value (some value)⟩ (a.freed id.index)
  | read {id : SlotId} : ArenaEffect a ⟨.get id, .value (a.get id)⟩ a
  | missing {id : SlotId} {write : T → T} : a.get id = none →
      ArenaEffect a ⟨.getMut id write, .value none⟩ a
  | written {id : SlotId} {write : T → T} {value : T} : a.get id = some value →
      ArenaEffect a ⟨.getMut id write, .value (some value)⟩
        (a.setSlot id.index { a.slots id.index with entry := some (write value) })

/-- Every call on a well-formed arena returns, with one of the effects. -/
theorem ArenaEffect.of_exec (hwf : a.WellFormed) (op : ArenaOp T) :
    ∃ reply a', op.exec.run a = .ok reply a' ∧ ArenaEffect a ⟨op, reply⟩ a' := by
  cases op with
  | allocate value =>
    rcases hwf.allocate_run (ε := Empty) value with ⟨hfull, hrun⟩ | ⟨head, hvacant, hhead, hrun⟩
    · exact ⟨_, _, Prog.bind_ok hrun, .full hfull⟩
    · exact ⟨_, _, Prog.bind_ok hrun, .allocated hhead hvacant⟩
  | free id =>
    rcases free_run (ε := Empty) a id with ⟨hget, hrun⟩ | ⟨value, hget, hrun⟩
    · exact ⟨_, _, Prog.bind_ok hrun, .stale hget⟩
    · exact ⟨_, _, Prog.bind_ok hrun, .freed hget⟩
  | get id => exact ⟨_, _, rfl, .read⟩
  | getMut id write =>
    cases hget : a.get id with
    | none =>
      have hmut : a.getMut id = none := by
        unfold getMut
        rw [hget]
        rfl
      refine ⟨.value none, a, ?_, .missing hget⟩
      unfold ArenaOp.exec
      rw [Prog.get_bind_run, hmut]
      rfl
    | some value =>
      have hmut : a.getMut id = some (value, fun value' =>
          a.setSlot id.index { a.slots id.index with entry := some value' }) := by
        unfold getMut
        rw [hget]
        rfl
      refine ⟨.value (some value), _, ?_, .written hget⟩
      unfold ArenaOp.exec
      rw [Prog.get_bind_run, hmut]
      rfl

theorem ArenaEffect.of_step (hwf : a.WellFormed) (hstep : ArenaStep a ev a') :
    ArenaEffect a ev a' := by
  obtain ⟨reply, t, hrun, heffect⟩ := ArenaEffect.of_exec hwf ev.op
  obtain ⟨hreply, rfl⟩ := Result.ok.inj ((show _ = _ from hstep).symm.trans hrun)
  obtain ⟨op, reply'⟩ := ev
  dsimp only at hreply
  subst hreply
  exact heffect

omit [Build] in
theorem ArenaEffect.wellFormed (heffect : ArenaEffect a ev a') (hwf : a.WellFormed) :
    a'.WellFormed := by
  cases heffect with
  | full => exact hwf
  | allocated hhead => exact hwf.allocated hhead
  | stale => exact hwf
  | freed hget => exact hwf.freed (by rw [hget]; rfl)
  | read => exact hwf
  | missing => exact hwf
  | written hget => exact hwf.written hget _

omit [Build] in
/-- A call is a step of the store. -/
theorem ArenaEffect.simulates (hN : N < 65536) (heffect : ArenaEffect a ev a') :
    KeyStore.Step N (a.toStore hN) ev.spec (a'.toStore hN) := by
  cases heffect with
  | full hfull => exact .full ((card_live_eq_iff hN).mpr hfull)
  | @allocated value head _ hvacant =>
    rw [toStore_allocated hN hvacant]
    refine .insert ?_ (card_live_lt hN hvacant)
    exact get_vacant hvacant
  | @stale id hget =>
    have hstep : KeyStore.Step N (a.toStore hN) (.erase id, .found (a.get id)) _ := .erase
    rwa [KeyStore.remove_absent hget, hget] at hstep
  | @freed id value hget =>
    rw [toStore_freed hN hget]
    have hstep : KeyStore.Step N (a.toStore hN) (.erase id, .found (a.get id)) _ := .erase
    rwa [hget] at hstep
  | read => exact .read
  | missing hget => exact .missing hget
  | written hget =>
    rw [toStore_written hN hget]
    exact .modify hget

omit [Build] in
/-- A call moves the generation of a slot on when it frees the slot. -/
theorem ArenaEffect.generation (heffect : ArenaEffect a ev a') (i : Index) :
    (a'.slots i).generation = (a.slots i).generation + BitVec.ofNat 32 (frees i [ev]) := by
  cases heffect with
  | full => simp [frees, Frees]
  | allocated => simp [frees, Frees]
  | stale => simp [frees, Frees]
  | @freed id value hget =>
    rw [freed_generation]
    by_cases hi : i = id.index
    · simp [frees, Frees, hi]
    · have hne : id.index ≠ i := fun heq => hi heq.symm
      simp [frees, Frees, hi, hne]
  | read => simp [frees, Frees]
  | missing => simp [frees, Frees]
  | @written id write value hget =>
    by_cases hi : i = id.index
    · simp [frees, Frees, setSlot, hi]
    · simp [frees, Frees, setSlot, hi]

/-! ## Whole runs -/

theorem ArenaRun.wellFormed (hwf : a.WellFormed) (hrun : Run ArenaStep a evs a') :
    a'.WellFormed :=
  hrun.invariant (fun _ _ _ h hstep => (ArenaEffect.of_step h hstep).wellFormed h) hwf

/-- A run of the arena is a run of the store. -/
theorem ArenaRun.simulates (hN : N < 65536) (hwf : a.WellFormed) (hrun : Run ArenaStep a evs a') :
    Run (KeyStore.Step N) (a.toStore hN) (evs.map spec) (a'.toStore hN) := by
  induction hrun with
  | nil => exact .nil _
  | cons hstep _ ih =>
    have heffect := ArenaEffect.of_step hwf hstep
    exact .cons (heffect.simulates hN) (ih (heffect.wellFormed hwf))

/-- The generation of a slot counts its frees. -/
theorem ArenaRun.generation (hwf : a.WellFormed) (hrun : Run ArenaStep a evs a') (i : Index) :
    (a'.slots i).generation = (a.slots i).generation + BitVec.ofNat 32 (frees i evs) := by
  induction hrun with
  | nil => simp [frees]
  | @cons a a₁ a' ev evs hstep _ ih =>
    have heffect := ArenaEffect.of_step hwf hstep
    have hcount : frees i (ev :: evs) = frees i [ev] + frees i evs := by
      unfold frees
      rw [← List.countP_append]
      rfl
    rw [ih (heffect.wellFormed hwf), heffect.generation i, hcount, BitVec.ofNat_add,
      BitVec.add_assoc]

/-- An id whose slot was freed leads nowhere until the generation has gone round. -/
theorem ArenaRun.stale {id : SlotId} {value : T} {past rest : List (ArenaEvent T)}
    (hwf : a.WellFormed)
    (hrun : Run ArenaStep a (past ++ ⟨.free id, .value (some value)⟩ :: rest) a')
    (hfew : frees id.index rest + 1 < 2 ^ 32) : a'.get id = none := by
  obtain ⟨a₁, hpast, hrest⟩ := hrun.split
  have hwf₁ := ArenaRun.wellFormed hwf hpast
  cases hrest with
  | @cons _ a₂ _ _ _ hstep hrest =>
    have heffect := ArenaEffect.of_step hwf₁ hstep
    have hgen := ArenaRun.generation (heffect.wellFormed hwf₁) hrest id.index
    rw [heffect.generation id.index] at hgen
    cases heffect with
    | freed hget =>
      obtain ⟨_, hlive, _⟩ := get_eq_some_iff.mp hget
      have hone : frees id.index [(⟨.free id, .value (some value)⟩ : ArenaEvent T)] = 1 := by
        simp [frees, Frees]
      rw [hlive, hone, BitVec.add_assoc, ← BitVec.ofNat_add, Nat.add_comm] at hgen
      rw [Option.eq_none_iff_forall_not_mem]
      intro value' hget'
      obtain ⟨_, hsame, _⟩ := get_eq_some_iff.mp hget'
      -- the generation has moved, by fewer steps than it has values
      have hzero : BitVec.ofNat 32 (frees id.index rest + 1) = 0 := by
        rw [hgen] at hsame
        simpa using hsame
      have hmod := congrArg BitVec.toNat hzero
      rw [BitVec.toNat_ofNat, Nat.mod_eq_of_lt hfew] at hmod
      exact absurd hmod (Nat.succ_ne_zero _)

omit [Build] in
theorem getMut_fst (a : Arena T N) (id : SlotId) : (a.getMut id).map Prod.fst = a.get id := by
  unfold getMut
  cases a.get id <;> rfl

omit [Build] in
theorem getMut_none {id : SlotId} (hget : a.get id = none) : a.getMut id = none := by
  unfold getMut
  rw [hget]
  rfl

omit [Build] in
theorem free_none {id : SlotId} (hget : a.get id = none) :
    (Arena.free id : Prog (Arena T N) Empty _).run a = .ok none a := by
  rcases free_run (ε := Empty) a id with ⟨_, hrun⟩ | ⟨value, hsome, _⟩
  · exact hrun
  · rw [hget] at hsome
    cases hsome

/-- What holds of the arena `a` that the calls `evs` have made out of an empty one. -/
structure RefinesMap (hN : N < 65536) (evs : List (ArenaEvent T)) (a : Arena T N) : Prop where
  /-- The calls are a run of the store of the live ids. -/
  run : Run (KeyStore.Step N) KeyStore.empty (evs.map spec) (a.toStore hN)
  /-- The free list lists exactly the vacant slots, each once. -/
  freeList : ∃ l, Chain.IsChain (fun i => (a.slots i).nextFree) a.freeHead l ∧ l.Nodup ∧
    ∀ i, i ∈ l ↔ i.toNat < N ∧ (a.slots i).entry = none
  total : ∀ op : ArenaOp T, ∃ reply a', op.exec.run a = .ok reply a'
  full : ∀ (value : T) found a', (Arena.allocate value : Prog (Arena T N) Empty _).run a =
    .ok found a' → (found = none ↔ a.live.card = N)
  /-- From its allocation to its release an id leads to its own value. -/
  access : ∀ past mid value id,
    evs = past ++ ⟨.allocate value, .slot (some id)⟩ :: mid → (∀ ev ∈ mid, ev.op ≠ .free id) →
      a.get id = some (KeyStore.rewritten id value (mid.map spec)) ∧
      (a.getMut id).map Prod.fst = some (KeyStore.rewritten id value (mid.map spec))
  /-- And from then on to none. -/
  stale : ∀ past rest id value, evs = past ++ ⟨.free id, .value (some value)⟩ :: rest →
    frees id.index rest + 1 < 2 ^ 32 → a.get id = none ∧ a.getMut id = none ∧
      (Arena.free id : Prog (Arena T N) Empty _).run a = .ok none a
  frame : ∀ ev a' id, ArenaStep a ev a' → KeyStore.touched ev.spec ≠ some id →
    a'.get id = a.get id
  staleFree : ∀ id, a.get id = none →
    (Arena.free id : Prog (Arena T N) Empty _).run a = .ok none a

theorem ArenaRun.refines (hN : N < 65536) (hrun : Run ArenaStep (Arena.new : Arena T N) evs a) :
    RefinesMap hN evs a := by
  have hnew : (Arena.new : Arena T N).WellFormed := new_wellFormed hN
  have hwf := ArenaRun.wellFormed hnew hrun
  have hstore := ArenaRun.simulates hN hnew hrun
  rw [toStore_new hN] at hstore
  refine ⟨hstore, hwf, fun op => ?_, fun value found a' halloc => ?_,
    fun past mid value id heq hkept => ?_,
    fun past rest id value heq hfew => ?_, fun ev a' id hstep htouched => ?_, fun id => free_none⟩
  · obtain ⟨reply, a', hexec, _⟩ := ArenaEffect.of_exec hwf op
    exact ⟨reply, a', hexec⟩
  · rw [card_live_eq_iff hN]
    rcases hwf.allocate_run (ε := Empty) value with ⟨hfull, hrun⟩ | ⟨head, hvacant, _, hrun⟩
    · obtain ⟨rfl, _⟩ := Result.ok.inj (hrun.symm.trans halloc)
      exact iff_of_true rfl hfull
    · obtain ⟨rfl, _⟩ := Result.ok.inj (hrun.symm.trans halloc)
      exact iff_of_false (Option.some_ne_none _) fun hfull => hfull head hvacant
  · rw [heq, List.map_append, List.map_cons] at hstore
    have hget : a.get id = some (KeyStore.rewritten id value (mid.map spec)) := by
      refine KeyStore.run_inserted hstore fun e he => ?_
      obtain ⟨ev, hev, rfl⟩ := List.mem_map.mp he
      intro herase
      apply hkept ev hev
      unfold spec at herase
      cases hop : ev.op <;> rw [hop] at herase <;> cases herase
      rfl
    exact ⟨hget, (getMut_fst a id).trans hget⟩
  · rw [heq] at hrun
    have hget := ArenaRun.stale hnew hrun hfew
    exact ⟨hget, getMut_none hget, free_none hget⟩
  · exact ((ArenaEffect.of_step hwf hstep).simulates hN).frame htouched

/-- For every capacity that the constructor accepts. -/
theorem arena_refines_map (hN : N ≤ 65535) (hrun : Run ArenaStep (Arena.new : Arena T N) evs a) :
    RefinesMap (Nat.lt_succ_of_le hN) evs a :=
  ArenaRun.refines (Nat.lt_succ_of_le hN) hrun

omit [Build] in
/-- The only slot of an arena allocated, freed and allocated again: the first id is stale. -/
theorem arena_refines_map_reuse : let _ : Build := debugBuild
    let a : Arena ℕ 1 := ((Arena.new.allocated 0 7).freed 0).allocated 0 8
    a.get ⟨0, 0⟩ = none ∧ a.get ⟨0, 1⟩ = some 8 := by
  intro _ a
  have hfirst : ArenaStep (Arena.new : Arena ℕ 1) ⟨.allocate 7, .slot (some ⟨0, 0⟩)⟩
      (Arena.new.allocated 0 7) := rfl
  have hfree : ArenaStep (Arena.new.allocated 0 7 : Arena ℕ 1)
      ⟨.free ⟨0, 0⟩, .value (some 7)⟩ ((Arena.new.allocated 0 7).freed 0) := rfl
  have hsecond : ArenaStep ((Arena.new.allocated 0 7).freed 0 : Arena ℕ 1)
      ⟨.allocate 8, .slot (some ⟨0, 1⟩)⟩ a := rfl
  have hrun := Run.cons hfirst (.cons hfree (.cons hsecond (.nil a)))
  have hrefines := arena_refines_map (by decide) hrun
  have hstale := hrefines.stale [⟨.allocate 7, .slot (some ⟨0, 0⟩)⟩] _ ⟨0, 0⟩ 7 rfl (by decide)
  have haccess := hrefines.access
    [⟨.allocate 7, .slot (some ⟨0, 0⟩)⟩, ⟨.free ⟨0, 0⟩, .value (some 7)⟩] [] 8 ⟨0, 1⟩ rfl
    (fun ev hev => nomatch hev)
  exact ⟨hstale.1, haccess.1⟩

end Tyrne
