import Tyrne.Cap.WellFormed

/-!
# What each table operation does

On a well-formed table every operation ends without a panic, and its result is either
an error with the table untouched or one of the three effects of
`Tyrne.Cap.WellFormed`. The lemmas state this operation by operation, with the guards
under which the effect happens.
-/

namespace Tyrne.CapabilityTable

variable {t t' : CapabilityTable} {i j n p : Index} {e : SlotEntry} {hd src : CapHandle}

/-! ## Reading -/

/-- The handle names the occupied slot that holds `e`. -/
structure Resolves (t : CapabilityTable) (hd : CapHandle) (e : SlotEntry) : Prop where
  bounded : hd.index.toNat < capTableCapacity
  generation : (t.slots hd.index).generation = hd.generation
  entry : (t.slots hd.index).entry = some e

theorem Resolves.unique {e' : SlotEntry} (h : Resolves t hd e) (h' : Resolves t hd e') :
    e = e' :=
  Option.some.inj (h.entry.symm.trans h'.entry)

/-- The entry that the handle names, if it is valid. -/
def named (t : CapabilityTable) (hd : CapHandle) : Option SlotEntry :=
  if hd.index.toNat < capTableCapacity ∧ (t.slots hd.index).generation = hd.generation then
    (t.slots hd.index).entry
  else
    none

theorem named_eq_some : t.named hd = some e ↔ Resolves t hd e := by
  unfold named
  constructor
  · intro hnamed
    split at hnamed
    · next hvalid => exact ⟨hvalid.1, hvalid.2, hnamed⟩
    · cases hnamed
  · intro h
    rw [if_pos ⟨h.bounded, h.generation⟩]
    exact h.entry

theorem named_eq_none (h : ∀ e, ¬ Resolves t hd e) : t.named hd = none := by
  apply Option.eq_none_iff_forall_ne_some.mpr
  intro e hnamed
  exact h e (named_eq_some.mp hnamed)

/-! ## The documented checks

The checks that each operation makes, in the documented order, each with the error that
is reported when it is the first to fail. -/

/-- The error of the first check that does not pass. -/
def firstError (checks : List (Bool × CapError)) : Option CapError :=
  (checks.find? fun check => !check.1).map (·.2)

/-- The handle is valid. -/
def handleCheck (t : CapabilityTable) (hd : CapHandle) : Bool × CapError :=
  ((t.named hd).isSome, .invalidHandle)

/-- The named capability holds `rights`; otherwise `err`. -/
def rightsCheck (t : CapabilityTable) (hd : CapHandle) (rights : CapRights) (err : CapError) :
    Bool × CapError :=
  ((t.named hd).any fun e => e.capability.rights.contains rights, err)

/-- A child of the named capability is not too deep. -/
def depthCheck (t : CapabilityTable) (hd : CapHandle) : Bool × CapError :=
  ((t.named hd).any fun e => e.depth + 1 ≤ maxDerivationDepth, .derivationTooDeep)

/-- The named capability has no children. -/
def leafCheck (t : CapabilityTable) (hd : CapHandle) : Bool × CapError :=
  ((t.named hd).any fun e => e.firstChild = none, .hasChildren)

/-- The table is not full. -/
def roomCheck (t : CapabilityTable) : Bool × CapError := (¬ t.isFull, .capsExhausted)

def copyChecks (t : CapabilityTable) (src : CapHandle) (newRights : CapRights) :
    List (Bool × CapError) :=
  [t.handleCheck src, t.rightsCheck src .duplicate .insufficientRights,
    t.rightsCheck src newRights .widenedRights, t.roomCheck]

def deriveChecks (t : CapabilityTable) (src : CapHandle) (newRights : CapRights) :
    List (Bool × CapError) :=
  [t.handleCheck src, t.rightsCheck src .derive .insufficientRights,
    t.rightsCheck src newRights .widenedRights, t.depthCheck src, t.roomCheck]

def revokeChecks (t : CapabilityTable) (src : CapHandle) : List (Bool × CapError) :=
  [t.handleCheck src, t.rightsCheck src .revoke .insufficientRights]

/-- The checks of `capDrop` and of `capTake`. -/
def dropChecks (t : CapabilityTable) (hd : CapHandle) : List (Bool × CapError) :=
  [t.handleCheck hd, t.leafCheck hd]

section FirstError

variable {checks : List (Bool × CapError)} {err : CapError} {rights : CapRights}

@[simp] theorem firstError_nil : firstError [] = none := rfl

theorem firstError_pass {check : Bool × CapError} (hpass : check.1 = true) :
    firstError (check :: checks) = firstError checks := by
  simp [firstError, hpass]

theorem firstError_fail {check : Bool × CapError} (hfail : check.1 = false) :
    firstError (check :: checks) = some check.2 := by
  simp [firstError, hfail]

theorem handleCheck_fail (h : ∀ e, ¬ Resolves t hd e) : (t.handleCheck hd).1 = false := by
  simp [handleCheck, named_eq_none h]

theorem isFull_iff_freeHead : t.isFull ↔ t.freeHead = none := Iff.rfl

theorem roomCheck_fail (h : t.freeHead = none) : t.roomCheck.1 = false := by
  simp [roomCheck, isFull_iff_freeHead, h]

theorem roomCheck_pass (h : t.freeHead = some n) : t.roomCheck.1 = true := by
  simp [roomCheck, isFull_iff_freeHead, h]

variable (h : Resolves t hd e)
include h

theorem Resolves.handleCheck : (t.handleCheck hd).1 = true := by
  simp [CapabilityTable.handleCheck, named_eq_some.mpr h]

theorem Resolves.rightsCheck :
    (t.rightsCheck hd rights err).1 = decide (e.capability.rights.contains rights) := by
  simp [CapabilityTable.rightsCheck, named_eq_some.mpr h]

theorem Resolves.depthCheck :
    (t.depthCheck hd).1 = decide (e.depth + 1 ≤ maxDerivationDepth) := by
  simp [CapabilityTable.depthCheck, named_eq_some.mpr h]

theorem Resolves.leafCheck : (t.leafCheck hd).1 = decide (e.firstChild = none) := by
  simp [CapabilityTable.leafCheck, named_eq_some.mpr h]

end FirstError

theorem slotAt_run (hi : i.toNat < capTableCapacity) : (slotAt i).run t = .ok (t.slots i) t :=
  if_pos hi

theorem modifySlot_run (hi : i.toNat < capTableCapacity) (f : Slot → Slot) :
    (modifySlot i f).run t = .ok () (t.withSlot i (f (t.slots i))) :=
  if_pos hi

theorem setEntry_run (hi : i.toNat < capTableCapacity) (entry : Option SlotEntry) :
    (setEntry i entry).run t = .ok () (t.withEntry i entry) :=
  if_pos hi

theorem modifyEntry_run (hi : i.toNat < capTableCapacity) (f : SlotEntry → SlotEntry) :
    (modifyEntry i f).run t = .ok () (t.mapEntry i f) :=
  if_pos hi

theorem resolveHandle_ok (h : Resolves t hd e) : (resolveHandle hd).run t = .ok hd.index t := by
  simp [resolveHandle, Prog.require, h.bounded, h.generation, h.entry]

theorem resolveHandle_err (h : ∀ e, ¬ Resolves t hd e) :
    (resolveHandle hd).run t = .err .invalidHandle t := by
  unfold resolveHandle Prog.require
  by_cases hbound : hd.index.toNat < capTableCapacity
  · by_cases hgen : (t.slots hd.index).generation = hd.generation
    · cases hent : (t.slots hd.index).entry with
      | none => simp [hbound, hgen, hent]
      | some e => exact absurd ⟨hbound, hgen, hent⟩ (h e)
    · simp [hbound, hgen]
  · simp [hbound]

theorem entryOf_ok (h : Resolves t hd e) : (entryOf hd).run t = .ok e t := by
  rw [entryOf, Prog.bind_ok (resolveHandle_ok h), Prog.bind_ok (slotAt_run h.bounded), h.entry]
  rfl

theorem entryOf_err (h : ∀ e, ¬ Resolves t hd e) : (entryOf hd).run t = .err .invalidHandle t := by
  rw [entryOf, Prog.bind_err (resolveHandle_err h)]

theorem lookup_ok (h : Resolves t hd e) : (lookup hd).run t = .ok e.capability t := by
  rw [lookup, Prog.bind_ok (entryOf_ok h)]
  rfl

theorem lookup_err (h : ∀ e, ¬ Resolves t hd e) : (lookup hd).run t = .err .invalidHandle t := by
  rw [lookup, Prog.bind_err (entryOf_err h)]

theorem depthOf_ok (h : Resolves t hd e) : (depthOf hd).run t = .ok e.depth t := by
  rw [depthOf, Prog.bind_ok (entryOf_ok h)]
  rfl

/-- A lookup returns the capability of the named slot, or `InvalidHandle`. -/
theorem lookup_cases (t : CapabilityTable) (hd : CapHandle) :
    (∃ e, Resolves t hd e ∧ (lookup hd).run t = .ok e.capability t) ∨
    ((∀ e, ¬ Resolves t hd e) ∧ (lookup hd).run t = .err .invalidHandle t) := by
  by_cases h : ∃ e, Resolves t hd e
  · obtain ⟨e, he⟩ := h
    exact Or.inl ⟨e, he, lookup_ok he⟩
  · rw [not_exists] at h
    exact Or.inr ⟨h, lookup_err h⟩

theorem lookup_keeps (hd : CapHandle) : (lookup hd).Keeps id := by
  intro t t' ht
  rcases lookup_cases t hd with ⟨e, -, hrun⟩ | ⟨-, hrun⟩
  · rw [hrun] at ht
    cases ht
    rfl
  · rw [hrun] at ht
    cases ht
    rfl

theorem lookup_eq_ok_iff {c : Capability} :
    (lookup hd).run t = .ok c t ↔ ∃ e, Resolves t hd e ∧ e.capability = c := by
  rcases lookup_cases t hd with ⟨e, he, hrun⟩ | ⟨hnone, hrun⟩
  · rw [hrun]
    constructor
    · rintro ⟨⟩
      exact ⟨e, he, rfl⟩
    · rintro ⟨e', he', rfl⟩
      rw [he.unique he']
  · rw [hrun]
    constructor
    · rintro ⟨⟩
    · rintro ⟨e, he, -⟩
      exact absurd he (hnone e)

/-! ## Installing -/

theorem popFree_none (h : t.freeHead = none) : popFree.run t = .ok none t := by
  simp [popFree, h]

theorem popFree_some (h : t.freeHead = some n) (hn : n.toNat < capTableCapacity) :
    popFree.run t = .ok (some n) (t.popped n) := by
  unfold popFree
  rw [Prog.get_bind_run]
  simp only [h]
  rw [Prog.bind_ok (slotAt_run hn)]
  unfold setFreeHead
  rw [Prog.modify_bind_run, Prog.bind_ok (modifySlot_run hn _)]
  rfl

theorem linkChild_run {parent : Option Index}
    (hp : ∀ p, parent = some p → t.Occupied p ∧ p.toNat < capTableCapacity) :
    (linkChild parent n).run t = .ok (parent.bind t.firstChildAt) (t.linked parent n) := by
  unfold linkChild
  cases parent with
  | none => rfl
  | some p =>
    obtain ⟨hocc, hbound⟩ := hp p rfl
    obtain ⟨pe, hpe⟩ := hocc.exists_entry
    dsimp only
    rw [Prog.bind_ok (slotAt_run hbound)]
    simp only [hpe]
    rw [Prog.bind_ok (modifyEntry_run hbound _), Option.bind_some, firstChildAt, read_of_entry hpe]
    rfl

/-- The common end of the three installing operations. -/
def installAt (mk : Option Index → SlotEntry) (parent : Option Index) : TableM CapHandle := do
  let newIndex ← popFree
  let newIndex ← Prog.okOr newIndex .capsExhausted
  let slot ← slotAt newIndex
  let formerFirstChild ← linkChild parent newIndex
  setEntry newIndex (some (mk formerFirstChild))
  return { index := newIndex, generation := slot.generation }

/-- An installing operation returns a handle for the popped slot, now filled, or finds
the table full. -/
theorem installAt_run (h : t.WellFormed) (mk : Option Index → SlotEntry) (parent : Option Index)
    (hmk : ∀ s, (mk s).parent = parent)
    (hparent : ∀ p, parent = some p → t.Occupied p) :
    (t.freeHead = none ∧ (installAt mk parent).run t = .err .capsExhausted t) ∨
    (∃ n, t.freeHead = some n ∧ (installAt mk parent).run t =
      .ok ⟨n, (t.slots n).generation⟩ (t.installed n (mk (parent.bind t.firstChildAt)))) := by
  unfold installAt
  cases hhead : t.freeHead with
  | none =>
    left
    rw [Prog.bind_ok (popFree_none hhead)]
    exact ⟨rfl, rfl⟩
  | some n =>
    right
    have hn := h.freeHead_vacant hhead
    have hlink : (linkChild parent n).run (t.popped n) =
        .ok (parent.bind t.firstChildAt) ((t.popped n).linked parent n) := by
      have hfirst : (t.popped n).firstChildAt = t.firstChildAt := funext fun _ => popped_read
      rw [← hfirst]
      apply linkChild_run
      intro p hp
      have hocc := hparent p hp
      refine ⟨?_, h.bounded p hocc⟩
      rw [occupied_iff] at hocc ⊢
      simpa using hocc
    refine ⟨n, rfl, ?_⟩
    rw [Prog.bind_ok (popFree_some hhead hn.1), Prog.okOr_some, Prog.pure_bind_run,
      Prog.bind_ok (slotAt_run hn.1), Prog.bind_ok hlink, Prog.bind_ok (setEntry_run hn.1 _),
      Prog.pure_run, installed, hmk, popped_slots, if_pos rfl]

/-- The issued handle resolves to the installed capability. -/
theorem installed_entry : ((t.installed n e).slots n).entry = some e := by
  unfold installed
  rw [withEntry_slots, if_pos rfl]

theorem lookup_installed (h : t.WellFormed) (hn : t.freeHead = some n) :
    (lookup ⟨n, (t.slots n).generation⟩).run (t.installed n e) =
      .ok e.capability (t.installed n e) :=
  lookup_ok ⟨(h.freeHead_vacant hn).1, installed_generation, installed_entry⟩

/-- The entry of a root that holds `cap`. -/
def rootEntry (cap : Capability) : SlotEntry :=
  { capability := cap, parent := none, firstChild := none, nextSibling := none, depth := 0 }

/-- The entry of a peer of `e` with rights `newRights`. -/
def peerEntry (t : CapabilityTable) (e : SlotEntry) (newRights : CapRights) : SlotEntry :=
  { capability := ⟨newRights, e.capability.object⟩
    parent := e.parent
    firstChild := none
    nextSibling := e.parent.bind t.firstChildAt
    depth := e.depth }

/-- The entry of a child of the slot `p`, which holds `e`. -/
def childEntry (t : CapabilityTable) (p : Index) (e : SlotEntry) (newRights : CapRights)
    (newObject : CapObject) : SlotEntry :=
  { capability := ⟨newRights, newObject⟩
    parent := some p
    firstChild := none
    nextSibling := t.firstChildAt p
    depth := e.depth + 1 }

theorem rootEntry_leaf (t : CapabilityTable) (cap : Capability) : Leaf t (rootEntry cap) where
  leaf := rfl
  depth := Nat.zero_le _
  root _ := ⟨rfl, rfl⟩
  child _ hp := nomatch hp

theorem WellFormed.peerEntry_leaf (h : t.WellFormed) (he : (t.slots i).entry = some e)
    {newRights : CapRights} (hrights : e.capability.rights.contains newRights) :
    Leaf t (peerEntry t e newRights) := by
  have hnode : t.nodeAt i = some e.node := read_of_entry he
  refine ⟨rfl, h.depth i _ hnode, ?root, ?child⟩
  case root =>
    intro hp
    change e.parent = none at hp
    exact ⟨(h.root i _ hnode hp).1, by simp [peerEntry, hp]⟩
  case child =>
    intro p hp
    change e.parent = some p at hp
    obtain ⟨pn, hpn, hdepth, hcontains⟩ := h.parent i _ p hnode hp
    exact ⟨by simp [peerEntry, hp], pn, hpn, hdepth,
      CapRights.contains_trans hcontains hrights⟩

theorem WellFormed.childEntry_leaf (he : (t.slots p).entry = some e)
    {newRights : CapRights} {newObject : CapObject}
    (hrights : e.capability.rights.contains newRights)
    (hdepth : e.depth + 1 ≤ maxDerivationDepth) :
    Leaf t (childEntry t p e newRights newObject) := by
  refine ⟨rfl, hdepth, (nomatch ·), ?_⟩
  rintro q ⟨⟩
  exact ⟨rfl, e.node, read_of_entry he, rfl, hrights⟩

theorem insertRoot_run (h : t.WellFormed) (cap : Capability) :
    (t.freeHead = none ∧ (insertRoot cap).run t = .err .capsExhausted t) ∨
    (∃ n, t.freeHead = some n ∧ (insertRoot cap).run t =
      .ok ⟨n, (t.slots n).generation⟩ (t.installed n (rootEntry cap))) :=
  installAt_run h (fun _ => rootEntry cap) none (fun _ => rfl) fun _ hp => nomatch hp

/-- A copy reports its first failing check and changes nothing, or installs a peer of its
source. -/
theorem capCopy_run (h : t.WellFormed) (src : CapHandle) (newRights : CapRights) :
    (∃ err, firstError (t.copyChecks src newRights) = some err ∧
      (capCopy src newRights).run t = .err err t) ∨
    (∃ e n, firstError (t.copyChecks src newRights) = none ∧ Resolves t src e ∧
      t.freeHead = some n ∧
      e.capability.rights.contains .duplicate ∧ e.capability.rights.contains newRights ∧
      (capCopy src newRights).run t =
        .ok ⟨n, (t.slots n).generation⟩ (t.installed n (peerEntry t e newRights))) := by
  unfold capCopy copyChecks
  by_cases hres : ∃ e, Resolves t src e
  swap
  · rw [not_exists] at hres
    exact Or.inl ⟨_, firstError_fail (handleCheck_fail hres), Prog.bind_err (entryOf_err hres)⟩
  obtain ⟨e, he⟩ := hres
  rw [Prog.bind_ok (entryOf_ok he), firstError_pass he.handleCheck]
  dsimp only
  by_cases hdup : e.capability.rights.contains .duplicate
  swap
  · refine Or.inl ⟨.insufficientRights, firstError_fail ?_, ?_⟩
    · rw [he.rightsCheck, decide_eq_false hdup]
    · rw [Prog.require_neg hdup]
      rfl
  rw [firstError_pass (by rw [he.rightsCheck, decide_eq_true hdup])]
  by_cases hrights : e.capability.rights.contains newRights
  swap
  · refine Or.inl ⟨.widenedRights, firstError_fail ?_, ?_⟩
    · rw [he.rightsCheck, decide_eq_false hrights]
    · rw [Prog.require_pos hdup, Prog.require_neg hrights]
      rfl
  rw [firstError_pass (by rw [he.rightsCheck, decide_eq_true hrights]), Prog.require_pos hdup,
    Prog.require_pos hrights, Prog.pure_bind_run, Prog.pure_bind_run]
  have hparent : ∀ p, e.parent = some p → t.Occupied p := fun p hp =>
    h.parent_occupied (i := src.index) ((read_of_entry he.entry).trans hp)
  rcases installAt_run h (fun s => { peerEntry t e newRights with nextSibling := s }) e.parent
    (fun _ => rfl) hparent with ⟨hfull, hrun⟩ | ⟨n, hn, hrun⟩
  · exact Or.inl ⟨_, firstError_fail (roomCheck_fail hfull), hrun⟩
  · exact Or.inr ⟨e, n, firstError_pass (roomCheck_pass hn), he, hn, hdup, hrights, hrun⟩

/-- A derivation reports its first failing check and changes nothing, or installs a child
of its source. -/
theorem capDerive_run (h : t.WellFormed) (src : CapHandle) (newRights : CapRights)
    (newObject : CapObject) :
    (∃ err, firstError (t.deriveChecks src newRights) = some err ∧
      (capDerive src newRights newObject).run t = .err err t) ∨
    (∃ e n, firstError (t.deriveChecks src newRights) = none ∧ Resolves t src e ∧
      t.freeHead = some n ∧
      e.capability.rights.contains .derive ∧ e.capability.rights.contains newRights ∧
      e.depth + 1 ≤ maxDerivationDepth ∧
      (capDerive src newRights newObject).run t =
        .ok ⟨n, (t.slots n).generation⟩
          (t.installed n (childEntry t src.index e newRights newObject))) := by
  unfold capDerive deriveChecks
  by_cases hres : ∃ e, Resolves t src e
  swap
  · rw [not_exists] at hres
    exact Or.inl ⟨_, firstError_fail (handleCheck_fail hres), Prog.bind_err (entryOf_err hres)⟩
  obtain ⟨e, he⟩ := hres
  rw [Prog.bind_ok (entryOf_ok he), firstError_pass he.handleCheck]
  dsimp only
  by_cases hder : e.capability.rights.contains .derive
  swap
  · refine Or.inl ⟨.insufficientRights, firstError_fail ?_, ?_⟩
    · rw [he.rightsCheck, decide_eq_false hder]
    · rw [Prog.require_neg hder]
      rfl
  rw [firstError_pass (by rw [he.rightsCheck, decide_eq_true hder])]
  by_cases hrights : e.capability.rights.contains newRights
  swap
  · refine Or.inl ⟨.widenedRights, firstError_fail ?_, ?_⟩
    · rw [he.rightsCheck, decide_eq_false hrights]
    · rw [Prog.require_pos hder, Prog.require_neg hrights]
      rfl
  rw [firstError_pass (by rw [he.rightsCheck, decide_eq_true hrights])]
  by_cases hdepth : e.depth + 1 ≤ maxDerivationDepth
  swap
  · refine Or.inl ⟨.derivationTooDeep, firstError_fail ?_, ?_⟩
    · rw [he.depthCheck, decide_eq_false hdepth]
    · rw [Prog.require_pos hder, Prog.require_pos hrights, Prog.require_neg hdepth]
      rfl
  rw [firstError_pass (by rw [he.depthCheck, decide_eq_true hdepth]), Prog.require_pos hder,
    Prog.require_pos hrights, Prog.require_pos hdepth, Prog.pure_bind_run, Prog.pure_bind_run,
    Prog.pure_bind_run]
  have hparent : ∀ p, some src.index = some p → t.Occupied p := by
    rintro p ⟨⟩
    simp [Occupied, he.entry]
  rcases installAt_run h
    (fun s => { childEntry t src.index e newRights newObject with nextSibling := s })
    (some src.index) (fun _ => rfl) hparent with ⟨hfull, hrun⟩ | ⟨n, hn, hrun⟩
  · exact Or.inl ⟨_, firstError_fail (roomCheck_fail hfull), hrun⟩
  · exact Or.inr ⟨e, n, firstError_pass (roomCheck_pass hn), he, hn, hder, hrights, hdepth, hrun⟩

/-! ## Removing -/

theorem freed_withEntry (t : CapabilityTable) (i : Index) (entry : Option SlotEntry) :
    (t.withEntry i entry).freed i = t.freed i := by
  simp [freed, withEntry, withSlot]

section Remove

variable [Build]

theorem freeSlot_run (hi : i.toNat < capTableCapacity) :
    (freeSlot i).run t = .ok () (t.freed i) := by
  unfold freeSlot
  rw [Prog.get_bind_run, if_pos hi, Prog.bind_ok (modifySlot_run hi _)]
  rfl

/-- The walk along a sibling chain that contains `i` behind its head stops at the
predecessor of `i`. -/
theorem unlinkWalk_run {s : Option Index} {l : List Index} {c : Index} {fuel : ℕ}
    (hchain : Chain.IsChain t.siblingAt (some c) (c :: l)) (hi : i ∈ l)
    (hbound : ∀ j ∈ c :: l, j.toNat < capTableCapacity) (hfuel : l.length < fuel) :
    ∃ c' ∈ c :: l, t.siblingAt c' = some i ∧ (unlinkWalk i s fuel (some c)).run t =
      .ok () (t.mapEntry c' fun ce => { ce with nextSibling := s }) := by
  induction l generalizing c fuel with
  | nil => simp at hi
  | cons d l ih =>
    obtain ⟨fuel, rfl⟩ : ∃ k, fuel = k + 1 := ⟨fuel - 1, by omega⟩
    have hc : c.toNat < capTableCapacity := hbound c List.mem_cons_self
    have hnext : t.siblingAt c = some d := hchain.2.1
    have hstep : (unlinkWalk i s (fuel + 1) (some c)).run t =
        (if some d = some i then modifyEntry c fun ce => { ce with nextSibling := s }
          else unlinkWalk i s fuel (some d)).run t := by
      rw [unlinkWalk, Prog.bind_ok (slotAt_run hc), ← hnext]
      rfl
    rw [hstep]
    by_cases hdi : d = i
    · subst hdi
      refine ⟨c, List.mem_cons_self, hnext, ?_⟩
      rw [if_pos rfl, modifyEntry_run hc]
    · have hil : i ∈ l := (List.mem_cons.mp hi).resolve_left (Ne.symm hdi)
      have hfuel' : l.length < fuel := by
        rw [List.length_cons] at hfuel
        omega
      obtain ⟨c', hc', hci, hrun⟩ := ih ⟨rfl, hchain.2.2⟩ hil
        (fun j hj => hbound j (List.mem_cons_of_mem _ hj)) hfuel'
      refine ⟨c', List.mem_cons_of_mem _ hc', hci, ?_⟩
      rw [if_neg (by simpa using hdi), hrun]

theorem unlinkFromSiblings_run (h : t.WellFormed) (he : (t.slots i).entry = some e) :
    ∃ t', (unlinkFromSiblings i).run t = .ok () t' ∧ Unlinked t i e t' := by
  have hocc : ∀ {j}, t.Occupied j → j.toNat < capTableCapacity := fun hj => h.bounded _ hj
  have hi : i.toNat < capTableCapacity := hocc (by simp [Occupied, he])
  unfold unlinkFromSiblings
  rw [Prog.bind_ok (slotAt_run hi), he, Prog.okOr_some, Prog.pure_bind_run]
  cases hp : e.parent with
  | none => exact ⟨t, rfl, .root hp⟩
  | some p =>
    have hparent : t.parentAt i = some p := (read_of_entry he).trans hp
    have hpocc := h.parent_occupied hparent
    obtain ⟨pe, hpe⟩ := hpocc.exists_entry
    dsimp only
    rw [Prog.bind_ok (slotAt_run (hocc hpocc)), hpe]
    dsimp only
    by_cases hfirst : pe.firstChild = some i
    · rw [if_pos hfirst]
      exact ⟨_, modifyEntry_run (hocc hpocc) _, .head hp ((read_of_entry hpe).trans hfirst)⟩
    · rw [if_neg hfirst]
      obtain ⟨l, hl, hnodup, hmem⟩ := h.children p
      rw [show t.firstChildAt p = pe.firstChild from read_of_entry hpe] at hl
      have hil : i ∈ l := (hmem i).mpr hparent
      have hbound : ∀ j ∈ l, j.toNat < capTableCapacity := fun j hj =>
        hocc (.of_read ((hmem j).mp hj))
      have hlength := length_le_of_nodup hnodup hbound
      cases l with
      | nil => simp at hil
      | cons c l =>
        have hhead : pe.firstChild = some c := hl.1
        have hic : i ≠ c := by
          rintro rfl
          exact hfirst hhead
        have hfuel : l.length < capTableCapacity + 1 := by
          rw [List.length_cons] at hlength
          omega
        obtain ⟨c', hc', hci, hrun⟩ := unlinkWalk_run (s := e.nextSibling) ⟨rfl, hl.2⟩
          ((List.mem_cons.mp hil).resolve_left hic) hbound hfuel
        rw [hhead]
        exact ⟨_, hrun, .middle hp ((hmem c').mp hc') hci⟩

/-- A drop reports its first failing check and changes nothing, or unlinks and frees a
leaf. -/
theorem capDrop_run (h : t.WellFormed) (hd : CapHandle) :
    (∃ err, firstError (t.dropChecks hd) = some err ∧ (capDrop hd).run t = .err err t) ∨
    (∃ e t', firstError (t.dropChecks hd) = none ∧ Resolves t hd e ∧ e.firstChild = none ∧
      Unlinked t hd.index e t' ∧
      (capDrop hd).run t = .ok () (t'.freed hd.index)) := by
  unfold capDrop dropChecks
  by_cases hres : ∃ e, Resolves t hd e
  swap
  · rw [not_exists] at hres
    exact Or.inl ⟨_, firstError_fail (handleCheck_fail hres),
      Prog.bind_err (resolveHandle_err hres)⟩
  obtain ⟨e, he⟩ := hres
  rw [Prog.bind_ok (resolveHandle_ok he), Prog.bind_ok (slotAt_run he.bounded), he.entry,
    Prog.okOr_some, Prog.pure_bind_run, firstError_pass he.handleCheck]
  by_cases hleaf : e.firstChild = none
  swap
  · refine Or.inl ⟨.hasChildren, firstError_fail ?_, ?_⟩
    · rw [he.leafCheck, decide_eq_false hleaf]
    · rw [Prog.require_neg hleaf]
      rfl
  have hpass : firstError [t.leafCheck hd] = none :=
    firstError_pass (by rw [he.leafCheck, decide_eq_true hleaf])
  obtain ⟨t', hrun, hunlink⟩ := unlinkFromSiblings_run h he.entry
  refine Or.inr ⟨e, t', hpass, he, hleaf, hunlink, ?_⟩
  rw [Prog.require_pos hleaf, Prog.pure_bind_run, Prog.bind_ok hrun, freeSlot_run he.bounded]

/-- A take reports its first failing check and changes nothing, or unlinks and frees a leaf
and returns its capability. -/
theorem capTake_run (h : t.WellFormed) (hd : CapHandle) :
    (∃ err, firstError (t.dropChecks hd) = some err ∧ (capTake hd).run t = .err err t) ∨
    (∃ e t', firstError (t.dropChecks hd) = none ∧ Resolves t hd e ∧ e.firstChild = none ∧
      Unlinked t hd.index e t' ∧
      (capTake hd).run t = .ok e.capability (t'.freed hd.index)) := by
  unfold capTake dropChecks
  by_cases hres : ∃ e, Resolves t hd e
  swap
  · rw [not_exists] at hres
    exact Or.inl ⟨_, firstError_fail (handleCheck_fail hres),
      Prog.bind_err (resolveHandle_err hres)⟩
  obtain ⟨e, he⟩ := hres
  rw [Prog.bind_ok (resolveHandle_ok he), Prog.bind_ok (slotAt_run he.bounded), he.entry,
    Prog.okOr_some, Prog.pure_bind_run, firstError_pass he.handleCheck]
  by_cases hleaf : e.firstChild = none
  swap
  · refine Or.inl ⟨.hasChildren, firstError_fail ?_, ?_⟩
    · rw [he.leafCheck, decide_eq_false hleaf]
    · rw [Prog.require_neg hleaf]
      rfl
  have hpass : firstError [t.leafCheck hd] = none :=
    firstError_pass (by rw [he.leafCheck, decide_eq_true hleaf])
  obtain ⟨t', hrun, hunlink⟩ := unlinkFromSiblings_run h he.entry
  refine Or.inr ⟨e, t', hpass, he, hleaf, hunlink, ?_⟩
  have hcap : t'.read (fun e => some e.capability) hd.index = some e.capability :=
    (hunlink.read_same fun _ _ _ => rfl).trans (read_of_entry he.entry)
  obtain ⟨e', he', hcap'⟩ := exists_entry_of_read hcap
  rw [Prog.require_pos hleaf, Prog.pure_bind_run, Prog.bind_ok hrun,
    Prog.bind_ok (slotAt_run he.bounded), Prog.bind_ok (setEntry_run he.bounded _), he',
    Prog.okOr_some, Prog.pure_bind_run, Prog.bind_ok (freeSlot_run he.bounded), freed_withEntry,
    Option.some.inj hcap']
  rfl

end Remove

end Tyrne.CapabilityTable
