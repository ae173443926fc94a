import Tyrne.Library.Run
import Tyrne.Cap.Revoke

/-!
# Runs of table operations

A run starts from the empty table and applies the six mutating operations in any order
with any arguments, whatever they return. The step lemma `Effect.of_exec` says once
what an operation can do; invariants and counts of whole runs follow from it.
-/

namespace Tyrne

open CapabilityTable

inductive TableOp
  | insertRoot (cap : Capability)
  | capCopy (src : CapHandle) (newRights : CapRights)
  | capDerive (src : CapHandle) (newRights : CapRights) (newObject : CapObject)
  | capRevoke (src : CapHandle)
  | capDrop (handle : CapHandle)
  | capTake (handle : CapHandle)
  deriving DecidableEq, Repr

inductive TableReply
  | handle (handle : CapHandle)
  | done
  | taken (cap : Capability)
  deriving DecidableEq, Repr

def TableOp.exec [Build] : TableOp → TableM TableReply
  | .insertRoot cap => do return .handle (← CapabilityTable.insertRoot cap)
  | .capCopy src newRights => do return .handle (← CapabilityTable.capCopy src newRights)
  | .capDerive src newRights newObject => do
    return .handle (← CapabilityTable.capDerive src newRights newObject)
  | .capRevoke src => do
    CapabilityTable.capRevoke src
    return .done
  | .capDrop handle => do
    CapabilityTable.capDrop handle
    return .done
  | .capTake handle => do return .taken (← CapabilityTable.capTake handle)

/-- One operation of a run, with the tables before and after it. -/
structure TableEvent where
  before : CapabilityTable
  op : TableOp
  reply : Except CapError TableReply
  after : CapabilityTable

/-- The operation returned; an operation that panics has no step. -/
structure TableStep [Build] (t : CapabilityTable) (ev : TableEvent) (t' : CapabilityTable) :
    Prop where
  before : ev.before = t
  after : ev.after = t'
  exec : ev.op.exec.run t = .returned ev.reply t'

abbrev TableRun [Build] := Run TableStep

namespace CapabilityTable

variable {t t' : CapabilityTable} {i j n p : Index} {e : SlotEntry} {hd : CapHandle}

theorem new_wellFormed : new.WellFormed where
  bounded i hi := by simp [Occupied, new] at hi
  free := (freshLink_lists (by decide)).congr (fun _ _ => rfl) fun i => by
    simp [Vacant, new]
  parent i nd p hnd := by simp [nodeAt, read, new] at hnd
  depth i nd hnd := by simp [nodeAt, read, new] at hnd
  root i nd hnd := by simp [nodeAt, read, new] at hnd
  children p := Chain.IsChain.lists (l := []) rfl fun i => by simp [parentAt, read, new]

/-! ## The step lemma -/

/-- What an operation can do to a well-formed table, and what it then returns. -/
inductive Effect (t : CapabilityTable) :
    TableOp → Except CapError TableReply → CapabilityTable → Prop
  | failed (op : TableOp) (err : CapError) : Effect t op (.error err) t
  | insertRoot {cap : Capability} {n : Index} : t.freeHead = some n →
      Effect t (.insertRoot cap) (.ok (.handle ⟨n, (t.slots n).generation⟩))
        (t.installed n (rootEntry cap))
  | capCopy {src : CapHandle} {newRights : CapRights} {e : SlotEntry} {n : Index} :
      Resolves t src e → t.freeHead = some n →
      e.capability.rights.contains .duplicate → e.capability.rights.contains newRights →
      Effect t (.capCopy src newRights) (.ok (.handle ⟨n, (t.slots n).generation⟩))
        (t.installed n (peerEntry t e newRights))
  | capDerive {src : CapHandle} {newRights : CapRights} {newObject : CapObject}
      {e : SlotEntry} {n : Index} : Resolves t src e → t.freeHead = some n →
      e.capability.rights.contains .derive → e.capability.rights.contains newRights →
      e.depth + 1 ≤ maxDerivationDepth →
      Effect t (.capDerive src newRights newObject)
        (.ok (.handle ⟨n, (t.slots n).generation⟩))
        (t.installed n (childEntry t src.index e newRights newObject))
  | capRevoke {src : CapHandle} {e : SlotEntry} {ds : List Index} : Resolves t src e →
      e.capability.rights.contains .revoke → ds.Nodup →
      (∀ d, d ∈ ds ↔ t.StrictDescendant src.index d) →
      Effect t (.capRevoke src) (.ok .done) (t.pruned src.index ds)
  | capDrop {hd : CapHandle} {e : SlotEntry} {t' : CapabilityTable} : Resolves t hd e →
      e.firstChild = none → Unlinked t hd.index e t' →
      Effect t (.capDrop hd) (.ok .done) (t'.freed hd.index)
  | capTake {hd : CapHandle} {e : SlotEntry} {t' : CapabilityTable} : Resolves t hd e →
      e.firstChild = none → Unlinked t hd.index e t' →
      Effect t (.capTake hd) (.ok (.taken e.capability)) (t'.freed hd.index)

/-- Every operation on a well-formed table returns, with one of the effects. -/
theorem Effect.of_exec [Build] (h : t.WellFormed) (op : TableOp) :
    ∃ reply t', op.exec.run t = .returned reply t' ∧ Effect t op reply t' := by
  have hfailed : ∀ {α : Type} {m : TableM α} {f : α → TableM TableReply} {err : CapError},
      m.run t = .err err t → op.exec = m >>= f →
      ∃ reply t', op.exec.run t = .returned reply t' ∧ Effect t op reply t' := by
    intro α m f err hm hop
    exact ⟨.error err, t, by rw [hop, Prog.bind_err hm]; rfl, .failed op err⟩
  cases op with
  | insertRoot cap =>
    rcases insertRoot_run h cap with ⟨-, hrun⟩ | ⟨n, hn, hrun⟩
    · exact hfailed hrun rfl
    · exact ⟨_, _, Prog.bind_ok hrun, .insertRoot hn⟩
  | capCopy src newRights =>
    rcases capCopy_run h src newRights with ⟨err, -, hrun⟩ | ⟨e, n, -, he, hn, hdup, hrights, hrun⟩
    · exact hfailed hrun rfl
    · exact ⟨_, _, Prog.bind_ok hrun, .capCopy he hn hdup hrights⟩
  | capDerive src newRights newObject =>
    rcases capDerive_run h src newRights newObject with
      ⟨err, -, hrun⟩ | ⟨e, n, -, he, hn, hder, hrights, hdepth, hrun⟩
    · exact hfailed hrun rfl
    · exact ⟨_, _, Prog.bind_ok hrun, .capDerive he hn hder hrights hdepth⟩
  | capRevoke src =>
    rcases capRevoke_run h src with ⟨err, -, hrun⟩ | ⟨e, ds, -, he, hrights, hnodup, hds, hrun⟩
    · exact hfailed hrun rfl
    · exact ⟨_, _, Prog.bind_ok hrun, .capRevoke he hrights hnodup hds⟩
  | capDrop hd =>
    rcases capDrop_run h hd with ⟨err, -, hrun⟩ | ⟨e, t', -, he, hleaf, hunlink, hrun⟩
    · exact hfailed hrun rfl
    · exact ⟨_, _, Prog.bind_ok hrun, .capDrop he hleaf hunlink⟩
  | capTake hd =>
    rcases capTake_run h hd with ⟨err, -, hrun⟩ | ⟨e, t', -, he, hleaf, hunlink, hrun⟩
    · exact hfailed hrun rfl
    · exact ⟨_, _, Prog.bind_ok hrun, .capTake he hleaf hunlink⟩

theorem Effect.of_step [Build] (h : t.WellFormed) {ev : TableEvent} (hstep : TableStep t ev t') :
    Effect t ev.op ev.reply t' := by
  obtain ⟨reply, t'', hrun, heffect⟩ := Effect.of_exec h ev.op
  obtain ⟨rfl, rfl⟩ := Result.returned_inj.mp (hstep.exec.symm.trans hrun)
  exact heffect

theorem Effect.wellFormed {op : TableOp} {reply : Except CapError TableReply}
    (heffect : Effect t op reply t') (h : t.WellFormed) : t'.WellFormed := by
  cases heffect with
  | failed => exact h
  | insertRoot hn => exact h.installed hn (rootEntry_leaf t _)
  | capCopy he hn _ hrights => exact h.installed hn (h.peerEntry_leaf he.entry hrights)
  | capDerive he hn _ hrights hdepth =>
    exact h.installed hn (WellFormed.childEntry_leaf he.entry hrights hdepth)
  | capRevoke _ _ hnodup hds => exact h.pruned hnodup hds
  | capDrop he hleaf hunlink => exact h.removed he.entry hleaf hunlink
  | capTake he hleaf hunlink => exact h.removed he.entry hleaf hunlink

theorem step_wellFormed [Build] {ev : TableEvent} (h : t.WellFormed)
    (hstep : TableStep t ev t') : t'.WellFormed :=
  (Effect.of_step h hstep).wellFormed h

theorem run_wellFormed [Build] {evs : List TableEvent} (hrun : TableRun new evs t) :
    t.WellFormed :=
  hrun.invariant (fun _ _ _ => step_wellFormed) new_wellFormed

/-- A well-formed table is full exactly when all its slots are occupied. -/
theorem WellFormed.isFull_iff (h : t.WellFormed) :
    t.isFull ↔ ∀ i : Index, i.toNat < capTableCapacity → t.Occupied i := by
  unfold isFull
  rw [h.free.head_none_iff]
  unfold Vacant Occupied
  constructor
  · intro hall i hi
    exact Option.isSome_iff_ne_none.mpr fun hnone => hall i ⟨hi, hnone⟩
  · intro hall i hi
    have := hall i hi.1
    simp [hi.2] at this

/-! ## Well-formedness of whole runs -/

/-- The links are followed without an internal error: `linkChild` always finds the
parent it is given by a copy or a derivation, and `unlinkFromSiblings` always finds the
slot of a resolved handle in its parent's list. -/
structure LinksSound [Build] (t : CapabilityTable) : Prop where
  copy : ∀ src e n t', Resolves t src e → popFree.run t = .ok (some n) t' →
    ∃ c t'', (linkChild e.parent n).run t' = .ok c t''
  derive : ∀ src e n t', Resolves t src e → popFree.run t = .ok (some n) t' →
    ∃ c t'', (linkChild (some src.index) n).run t' = .ok c t''
  unlink : ∀ hd e, Resolves t hd e → ∃ t', (unlinkFromSiblings hd.index).run t = .ok () t'

theorem WellFormed.linkChild_popped (h : t.WellFormed) {parent : Option Index}
    (hparent : ∀ p, parent = some p → t.Occupied p) (hpop : popFree.run t = .ok (some n) t') :
    ∃ c t'', (linkChild parent n).run t' = .ok c t'' := by
  cases hhead : t.freeHead with
  | none =>
    rw [popFree_none hhead] at hpop
    cases hpop
  | some m =>
    rw [popFree_some hhead (h.freeHead_vacant hhead).1] at hpop
    obtain ⟨rfl, rfl⟩ : m = n ∧ t.popped m = t' := by simpa using hpop
    refine ⟨_, _, linkChild_run fun p hp => ?_⟩
    have hocc := hparent p hp
    refine ⟨?_, h.bounded p hocc⟩
    rw [occupied_iff] at hocc ⊢
    simpa using hocc

theorem WellFormed.linksSound [Build] (h : t.WellFormed) : t.LinksSound where
  copy src e n t' he hpop := h.linkChild_popped (fun p hp =>
    h.parent_occupied (i := src.index) ((read_of_entry he.entry).trans hp)) hpop
  derive src e n t' he hpop := h.linkChild_popped (fun p hp => by
    cases hp
    simp [Occupied, he.entry]) hpop
  unlink hd e he := by
    obtain ⟨t', hrun, -⟩ := unlinkFromSiblings_run h he.entry
    exact ⟨t', hrun⟩

/-- After any sequence of operations with any arguments and any outcomes the table is
well formed, `isFull` tells whether all slots are occupied, no internal error of the
link functions is reachable and no further operation panics. -/
theorem wellFormed_of_run [Build] {evs : List TableEvent} (hrun : TableRun new evs t) :
    t.WellFormed ∧
    (t.isFull ↔ ∀ i : Index, i.toNat < capTableCapacity → t.Occupied i) ∧
    t.LinksSound ∧
    ∀ op : TableOp, ∃ reply t', op.exec.run t = .returned reply t' := by
  have h := run_wellFormed hrun
  refine ⟨h, h.isFull_iff, h.linksSound, fun op => ?_⟩
  obtain ⟨reply, t', hop, -⟩ := Effect.of_exec h op
  exact ⟨reply, t', hop⟩

/-- A root with a child, a grandchild and a copy of the child, then revoked. -/
theorem wellFormed_of_run_revoked : ∃ (t t' : CapabilityTable) (evs : List TableEvent)
    (ev : TableEvent) (cap : Capability),
    evs.map (·.op) = [.insertRoot cap, .capDerive ⟨0, 0⟩ ⟨3⟩ .debugConsole,
      .capCopy ⟨1, 0⟩ ⟨1⟩, .capDerive ⟨1, 0⟩ ⟨1⟩ .debugConsole] ∧
    @TableRun ⟨true⟩ new evs t ∧ t.WellFormed ∧ t.parentAt 1 = some 0 ∧
    t.parentAt 2 = some 0 ∧ t.parentAt 3 = some 1 ∧
    ev.op = .capRevoke ⟨0, 0⟩ ∧ ev.reply = .ok .done ∧
    @TableRun ⟨true⟩ new (evs ++ [ev]) t' ∧ t'.WellFormed ∧ t'.Occupied 0 ∧
    ∀ i ∈ ([1, 2, 3] : List Index), t'.Vacant i := by
  let _ : Build := ⟨true⟩
  let cap : Capability := ⟨⟨0xf⟩, .debugConsole⟩
  let t₁ := new.installed 0 (rootEntry cap)
  let e := childEntry t₁ 0 (rootEntry cap) ⟨3⟩ .debugConsole
  let t₂ := t₁.installed 1 e
  let t₃ := t₂.installed 2 (peerEntry t₂ e ⟨1⟩)
  let t₄ := t₃.installed 3 (childEntry t₃ 1 e ⟨1⟩ .debugConsole)
  have hroot : TableStep new ⟨new, .insertRoot cap, .ok (.handle ⟨0, 0⟩), t₁⟩ t₁ :=
    ⟨rfl, rfl, rfl⟩
  have hchild : TableStep t₁
      ⟨t₁, .capDerive ⟨0, 0⟩ ⟨3⟩ .debugConsole, .ok (.handle ⟨1, 0⟩), t₂⟩ t₂ :=
    ⟨rfl, rfl, by with_unfolding_all rfl⟩
  have hpeer : TableStep t₂ ⟨t₂, .capCopy ⟨1, 0⟩ ⟨1⟩, .ok (.handle ⟨2, 0⟩), t₃⟩ t₃ :=
    ⟨rfl, rfl, by with_unfolding_all rfl⟩
  have hgrandchild : TableStep t₃
      ⟨t₃, .capDerive ⟨1, 0⟩ ⟨1⟩ .debugConsole, .ok (.handle ⟨3, 0⟩), t₄⟩ t₄ :=
    ⟨rfl, rfl, by with_unfolding_all rfl⟩
  have hrun := Run.cons hroot (.cons hchild (.cons hpeer (.single hgrandchild)))
  have h := (wellFormed_of_run hrun).1
  have hlive : Resolves t₄ ⟨0, 0⟩ ⟨cap, none, some 2, none, 0⟩ :=
    ⟨by decide, by with_unfolding_all rfl, by with_unfolding_all rfl⟩
  obtain ⟨ds, hnodup, hds, hrevoke⟩ := capRevoke_ok h hlive (by decide)
  have hstep : TableStep t₄ ⟨t₄, .capRevoke ⟨0, 0⟩, .ok .done, t₄.pruned 0 ds⟩
      (t₄.pruned 0 ds) := ⟨rfl, rfl, Prog.bind_ok hrevoke⟩
  have hrun' := hrun.append (.single hstep)
  have hbelow : ∀ i ∈ ([1, 2, 3] : List Index), i ∈ ds := by
    have hone : t₄.StrictDescendant 0 1 := .child (by with_unfolding_all rfl)
    simp only [List.forall_mem_cons, hds]
    exact ⟨hone, .child (by with_unfolding_all rfl), hone.tail (by with_unfolding_all rfl),
      List.forall_mem_nil _⟩
  refine ⟨t₄, _, _, _, cap, rfl, hrun, h, by with_unfolding_all rfl, by with_unfolding_all rfl,
    by with_unfolding_all rfl, rfl, rfl, hrun', (wellFormed_of_run hrun').1, ?_, fun i hi => ?_⟩
  · have hself : (0 : Index) ∉ ds := fun hmem => h.not_below_self 0 ((hds 0).mp hmem)
    rw [occupied_iff, pruned_nodeAt, if_neg hself]
    exact ⟨_, by with_unfolding_all rfl⟩
  · have hmem := hbelow i hi
    refine ⟨h.bounded i (occupied_of_below ((hds i).mp hmem)), ?_⟩
    rw [entry_eq_none_iff, pruned_nodeAt, if_pos hmem]

/-! ## Errors -/

/-- The documented checks of an operation on the table, in order. -/
def checks (t : CapabilityTable) : TableOp → List (Bool × CapError)
  | .insertRoot _ => [t.roomCheck]
  | .capCopy src newRights => t.copyChecks src newRights
  | .capDerive src newRights _ => t.deriveChecks src newRights
  | .capRevoke src => t.revokeChecks src
  | .capDrop handle => t.dropChecks handle
  | .capTake handle => t.dropChecks handle

/-- An operation fails with the first failing check and changes nothing, or no check fails
and it succeeds. -/
theorem exec_of_checks [Build] (h : t.WellFormed) (op : TableOp) :
    (∃ err, firstError (t.checks op) = some err ∧ op.exec.run t = .err err t) ∨
    firstError (t.checks op) = none ∧ ∃ reply t', op.exec.run t = .ok reply t' := by
  cases op with
  | insertRoot cap =>
    rcases insertRoot_run h cap with ⟨hfull, hrun⟩ | ⟨n, hn, hrun⟩
    · exact Or.inl ⟨_, firstError_fail (roomCheck_fail hfull), Prog.bind_err hrun⟩
    · exact Or.inr ⟨firstError_pass (roomCheck_pass hn), _, _, Prog.bind_ok hrun⟩
  | capCopy src newRights =>
    rcases capCopy_run h src newRights with ⟨err, hfirst, hrun⟩ | ⟨e, n, hfirst, -, -, -, -, hrun⟩
    · exact Or.inl ⟨err, hfirst, Prog.bind_err hrun⟩
    · exact Or.inr ⟨hfirst, _, _, Prog.bind_ok hrun⟩
  | capDerive src newRights newObject =>
    rcases capDerive_run h src newRights newObject with
      ⟨err, hfirst, hrun⟩ | ⟨e, n, hfirst, -, -, -, -, -, hrun⟩
    · exact Or.inl ⟨err, hfirst, Prog.bind_err hrun⟩
    · exact Or.inr ⟨hfirst, _, _, Prog.bind_ok hrun⟩
  | capRevoke src =>
    rcases capRevoke_run h src with ⟨err, hfirst, hrun⟩ | ⟨e, ds, hfirst, -, -, -, -, hrun⟩
    · exact Or.inl ⟨err, hfirst, Prog.bind_err hrun⟩
    · exact Or.inr ⟨hfirst, _, _, Prog.bind_ok hrun⟩
  | capDrop hd =>
    rcases capDrop_run h hd with ⟨err, hfirst, hrun⟩ | ⟨e, t', hfirst, -, -, -, hrun⟩
    · exact Or.inl ⟨err, hfirst, Prog.bind_err hrun⟩
    · exact Or.inr ⟨hfirst, _, _, Prog.bind_ok hrun⟩
  | capTake hd =>
    rcases capTake_run h hd with ⟨err, hfirst, hrun⟩ | ⟨e, t', hfirst, -, -, -, hrun⟩
    · exact Or.inl ⟨err, hfirst, Prog.bind_err hrun⟩
    · exact Or.inr ⟨hfirst, _, _, Prog.bind_ok hrun⟩

/-- In every reachable table an operation with any arguments fails exactly with the first
failing check of its documented order, and then the whole table is as before. -/
theorem error_iff_firstError [Build] {evs : List TableEvent} (hrun : TableRun new evs t)
    (op : TableOp) (err : CapError) (t' : CapabilityTable) :
    op.exec.run t = .err err t' ↔ firstError (t.checks op) = some err ∧ t' = t := by
  rcases exec_of_checks (run_wellFormed hrun) op with
    ⟨err', hfirst, hexec⟩ | ⟨hfirst, reply, t'', hexec⟩
  · rw [hexec, hfirst, Result.err.injEq, Option.some_inj]
    exact and_congr_right' eq_comm
  · rw [hexec, hfirst]
    simp

/-- A copy of a root without the right to duplicate, with rights it does not have. -/
theorem error_iff_firstError_copy : ∃ (t : CapabilityTable) (evs : List TableEvent),
    evs ≠ [] ∧ @TableRun ⟨true⟩ new evs t ∧
    (@TableOp.exec ⟨true⟩ (.capCopy ⟨0, 0⟩ ⟨2⟩)).run t = .err .insufficientRights t := by
  let _ : Build := ⟨true⟩
  let t₁ := new.installed 0 (rootEntry ⟨⟨0⟩, .debugConsole⟩)
  have hroot : TableStep new
      ⟨new, .insertRoot ⟨⟨0⟩, .debugConsole⟩, .ok (.handle ⟨0, 0⟩), t₁⟩ t₁ := ⟨rfl, rfl, rfl⟩
  have hrun := Run.single hroot
  refine ⟨t₁, _, List.cons_ne_nil _ _, hrun, ?_⟩
  exact (error_iff_firstError hrun (.capCopy ⟨0, 0⟩ ⟨2⟩) .insufficientRights t₁).mpr
    ⟨by decide +kernel, rfl⟩

/-! ## Exactness of revocation -/

/-- `t'` is `t` with exactly the strict descendants of `src` gone. -/
structure Revoked (t : CapabilityTable) (src : Index) (t' : CapabilityTable) : Prop where
  /-- The slots of the strict descendants are free and their handles stale. -/
  gone : ∀ i, t.StrictDescendant src i → t'.Vacant i ∧
    ∀ hd c, hd.index = i → (lookup hd).run t = .ok c t →
      (lookup hd).run t' = .err .invalidHandle t'
  /-- Every other slot is untouched. -/
  kept : ∀ i, ¬ t.StrictDescendant src i → i ≠ src → t'.slots i = t.slots i
  /-- The source only loses its list of children. -/
  source : t'.slots src = { t.slots src with
    entry := (t.slots src).entry.map fun e => { e with firstChild := none } }
  /-- Every other handle resolves as before. -/
  handles : ∀ hd, ¬ t.StrictDescendant src hd.index → ∀ c,
    (lookup hd).run t' = .ok c t' ↔ (lookup hd).run t = .ok c t
  /-- The freed slots, fewer than the scratch array holds, go to the front of the free
  list, each once. -/
  free : ∃ ds : List Index, ds.length < capTableCapacity ∧
    (∀ i, i ∈ ds ↔ t.StrictDescendant src i) ∧
    ∀ l, Chain.IsChain t.nextFreeAt t.freeHead l →
      (ds.reverse ++ l).Nodup ∧ Chain.IsChain t'.nextFreeAt t'.freeHead (ds.reverse ++ l)

theorem pruned_slots {src : Index} {ds : List Index} (hj : j ∉ ds) :
    (t.pruned src ds).slots j = if j = src then { t.slots src with
      entry := (t.slots src).entry.map fun e => { e with firstChild := none } }
    else t.slots j := by
  unfold pruned
  rw [mapEntry_slots]
  split
  · next hjs =>
    subst hjs
    rw [freedAll_slots hj]
  · exact freedAll_slots hj

/-- A slot with the same generation and the same capability answers every handle
alike. -/
theorem lookup_congr (hgen : (t'.slots hd.index).generation = (t.slots hd.index).generation)
    (hnode : t'.nodeAt hd.index = t.nodeAt hd.index) {c : Capability} :
    (lookup hd).run t' = .ok c t' ↔ (lookup hd).run t = .ok c t := by
  have himp : ∀ {t t' : CapabilityTable},
      (t'.slots hd.index).generation = (t.slots hd.index).generation →
      t'.nodeAt hd.index = t.nodeAt hd.index → (lookup hd).run t = .ok c t →
      (lookup hd).run t' = .ok c t' := by
    intro t t' hgen hnode hok
    obtain ⟨e, he, rfl⟩ := lookup_eq_ok_iff.mp hok
    obtain ⟨e', he', hnode'⟩ :=
      exists_entry_of_read (hnode.trans (read_of_entry (g := fun e => some e.node) he.entry))
    refine lookup_eq_ok_iff.mpr ⟨e', ⟨he.bounded, hgen.trans he.generation, he'⟩, ?_⟩
    exact congrArg Node.capability (Option.some.inj hnode')
  exact ⟨himp hgen.symm hnode.symm, himp hgen hnode⟩

theorem WellFormed.pruned_revoked (h : t.WellFormed) {src : Index} {ds : List Index}
    (hsrc : t.Occupied src) (hnodup : ds.Nodup)
    (hds : ∀ d, d ∈ ds ↔ t.StrictDescendant src d) : Revoked t src (t.pruned src ds) := by
  have hself : src ∉ ds := fun hmem => h.not_below_self src ((hds src).mp hmem)
  have hoccupied : ∀ d ∈ ds, t.Occupied d := fun d hd => occupied_of_below ((hds d).mp hd)
  refine ⟨?gone, ?kept, ?source, ?handles, ?free⟩
  case gone =>
    intro i hi
    have hmem := (hds i).mpr hi
    have hnone : ((t.pruned src ds).slots i).entry = none := by
      rw [entry_eq_none_iff, pruned_nodeAt, if_pos hmem]
    refine ⟨⟨h.bounded i (hoccupied i hmem), hnone⟩, ?_⟩
    rintro hd c rfl -
    apply lookup_err
    intro e he
    rw [he.entry] at hnone
    cases hnone
  case kept =>
    intro i hi hne
    rw [pruned_slots fun hmem => hi ((hds i).mp hmem), if_neg hne]
  case source => rw [pruned_slots hself, if_pos rfl]
  case handles =>
    intro hd hnot c
    have hmem : hd.index ∉ ds := fun hmem => hnot ((hds hd.index).mp hmem)
    apply lookup_congr
    · rw [pruned_generation hnodup, if_neg hmem]
    · rw [pruned_nodeAt, if_neg hmem]
  case free =>
    refine ⟨ds, ?_, hds, fun l hl => ?_⟩
    · have hlength := length_le_of_nodup (List.nodup_cons.mpr ⟨hself, hnodup⟩) fun i hi => by
        rcases List.mem_cons.mp hi with rfl | hi
        · exact h.bounded _ hsrc
        · exact h.bounded i (hoccupied i hi)
      rwa [List.length_cons] at hlength
    · obtain ⟨l', hl', -, hmem⟩ := h.free
      obtain rfl := hl.unique hl'
      have hdisjoint : ∀ d ∈ ds, d ∉ l := by
        intro d hd hdl
        exact ne_of_vacant_of_occupied ((hmem d).mp hdl) (hoccupied d hd) rfl
      have hchain : Chain.IsChain (t.pruned src ds).nextFreeAt (t.pruned src ds).freeHead
          (ds.reverse ++ l) :=
        (freedAll_chain hl hnodup hdisjoint).congr fun _ _ => pruned_nextFreeAt
      exact ⟨hchain.nodup, hchain⟩

/-- In every reachable table a revocation through a live handle with the right succeeds
and removes exactly the strict descendants of its source. -/
theorem capRevoke_exact [Build] {evs : List TableEvent} {c : Capability} {src : CapHandle}
    (hrun : TableRun new evs t) (hlive : (lookup src).run t = .ok c t)
    (hrights : c.rights.contains .revoke) :
    ∃ t', (capRevoke src).run t = .ok () t' ∧ Revoked t src.index t' := by
  have h := run_wellFormed hrun
  obtain ⟨e, he, rfl⟩ := lookup_eq_ok_iff.mp hlive
  obtain ⟨ds, hnodup, hds, hrevoke⟩ := capRevoke_ok h he hrights
  refine ⟨_, hrevoke, h.pruned_revoked ?_ hnodup hds⟩
  simp [Occupied, he.entry]

/-- A root with all management rights and one derived child. -/
theorem capRevoke_exact_child : ∃ (t t' : CapabilityTable) (evs : List TableEvent),
    @TableRun ⟨true⟩ new evs t ∧ t.StrictDescendant 0 1 ∧
    (@capRevoke ⟨true⟩ ⟨0, 0⟩).run t = .ok () t' ∧ Revoked t 0 t' := by
  let _ : Build := ⟨true⟩
  let cap : Capability := ⟨⟨0xf⟩, .debugConsole⟩
  let t₁ := new.installed 0 (rootEntry cap)
  let t₂ := t₁.installed 1 (childEntry t₁ 0 (rootEntry cap) ⟨1⟩ .debugConsole)
  have hroot : TableStep new ⟨new, .insertRoot cap, .ok (.handle ⟨0, 0⟩), t₁⟩ t₁ :=
    ⟨rfl, rfl, rfl⟩
  have hchild : TableStep t₁
      ⟨t₁, .capDerive ⟨0, 0⟩ ⟨1⟩ .debugConsole, .ok (.handle ⟨1, 0⟩), t₂⟩ t₂ :=
    ⟨rfl, rfl, by with_unfolding_all rfl⟩
  have hrun := Run.cons hroot (.single hchild)
  have hlive : (lookup ⟨0, 0⟩).run t₂ = .ok cap t₂ := rfl
  obtain ⟨t', hrevoke, hrevoked⟩ := capRevoke_exact hrun hlive (by decide)
  exact ⟨t₂, t', _, hrun, .child rfl, hrevoke, hrevoked⟩

end CapabilityTable

end Tyrne
