import Tyrne.Ipc.Conservation

/-!
# Generations of endpoint slots

The waiter state of a slot outlives the endpoint that wrote it. It is not seen by the next
owner, because each operation compares the recorded generation first. The invariant: the
recorded generation of a slot is at most the number of times the slot was freed, and a
slot that is free and whose record is up to date is idle.

Messages may be lost when an endpoint is destroyed, capabilities may not: an endpoint is
destroyed only while its state carries none.
-/

namespace Tyrne

open CapabilityTable IpcQueues

variable {h h' : EndpointHandle} {q q' : IpcQueues} {st : EndpointState} {arena : EndpointArena}

/-! ## Capabilities in flight belong to live endpoints -/

/-- Every capability in flight belongs to the live endpoint of its slot. -/
def CapOwned (arena : EndpointArena) (q : IpcQueues) : Prop :=
  ∀ i, (q.states i).cap ≠ none → Live arena ⟨⟨i, q.slotGenerations i⟩⟩

namespace CapOwned

theorem not_undrained (howned : CapOwned arena q) (hlive : Live arena h) : ¬ q.Undrained h := by
  intro hun
  obtain ⟨hgen, hcap⟩ := hun
  have heq := (howned h.slot.index hcap).unique hlive rfl
  apply hgen
  rw [← heq]

theorem put (howned : CapOwned arena q) (hlive : Live arena h) : CapOwned arena (q.put h st) := by
  intro i hcap
  by_cases hi : i = h.slot.index
  · subst hi
    simpa [IpcQueues.put] using hlive
  · simp only [IpcQueues.put, Function.update_of_ne hi] at hcap ⊢
    exact howned i hcap

theorem refused (howned : CapOwned arena q) (hq : Refused arena q q') : CapOwned arena q' := by
  cases hq with
  | early => exact howned
  | settled hlive => exact howned.put hlive

/-- Destroying an endpoint whose state carries no capability. -/
theorem destroyed {arena' : EndpointArena} (howned : CapOwned arena q)
    (hdrained : (q.effective h).cap = none)
    (hlive' : ∀ h', Live arena' h' ↔ Live arena h' ∧ h' ≠ h) : CapOwned arena' q := by
  intro i hcap
  refine (hlive' _).mpr ⟨howned i hcap, fun heq => ?_⟩
  subst heq
  apply hcap
  simpa [effective] using hdrained

end CapOwned

/-! ## The recorded generations -/

/-- `frees` counts how often each slot has been freed. -/
structure Generations (frees : Index → ℕ) (arena : EndpointArena) (q : IpcQueues) : Prop where
  wellFormed : arena.WellFormed
  generation : ∀ i, (arena.slots i).generation.toNat = frees i
  recorded : ∀ i, (q.slotGenerations i).toNat ≤ frees i
  vacant : ∀ i, arena.Vacant i → (q.slotGenerations i).toNat = frees i → q.states i = .idle

namespace Generations

variable {frees : Index → ℕ}

theorem live_generation (hgens : Generations frees arena q) (hlive : Live arena h) :
    h.slot.generation.toNat = frees h.slot.index := by
  obtain ⟨_, hgen, _⟩ := live_iff.mp hlive
  rw [← hgen]
  exact hgens.generation h.slot.index

theorem live_not_vacant (hlive : Live arena h) : ¬ arena.Vacant h.slot.index := by
  intro hvacant
  obtain ⟨_, _, hentry⟩ := live_iff.mp hlive
  rw [hvacant.2] at hentry
  cases hentry

theorem put (hgens : Generations frees arena q) (hlive : Live arena h) :
    Generations frees arena (q.put h st) where
  wellFormed := hgens.wellFormed
  generation := hgens.generation
  recorded i := by
    by_cases hi : i = h.slot.index
    · subst hi
      have hgen := hgens.live_generation hlive
      simp [IpcQueues.put, hgen]
    · simpa [IpcQueues.put, hi] using hgens.recorded i
  vacant i hvacant hrecorded := by
    have hi : i ≠ h.slot.index := fun heq => live_not_vacant hlive (heq ▸ hvacant)
    have hsame : (q.slotGenerations i).toNat = frees i := by
      simpa [IpcQueues.put, hi] using hrecorded
    simpa [IpcQueues.put, hi] using hgens.vacant i hvacant hsame

theorem refused (hgens : Generations frees arena q) (hq : Refused arena q q') :
    Generations frees arena q' := by
  cases hq with
  | early => exact hgens
  | settled hlive => exact hgens.put hlive

/-- A new endpoint is idle, whatever its slot's previous owner has left. -/
theorem fresh (hgens : Generations frees arena q) {head : Index} (hvacant : arena.Vacant head) :
    q.effective ⟨⟨head, (arena.slots head).generation⟩⟩ = .idle := by
  unfold effective
  split
  · next hgen =>
    apply hgens.vacant head hvacant
    dsimp only at hgen
    rw [hgen]
    exact hgens.generation head
  · rfl

theorem allocated (hgens : Generations frees arena q) {head : Index} (ep : Endpoint)
    (hhead : arena.freeHead = some head) : Generations frees (arena.allocated head ep) q where
  wellFormed := hgens.wellFormed.allocated hhead
  generation i := by
    rw [Arena.allocated_generation]
    exact hgens.generation i
  recorded := hgens.recorded
  vacant i hvacant hrecorded := hgens.vacant i (Arena.allocated_vacant.mp hvacant).1 hrecorded

theorem freed (hgens : Generations frees arena q) (hlive : Live arena h)
    (hbound : frees h.slot.index + 1 < 2 ^ 32) :
    Generations (fun i => if i = h.slot.index then frees i + 1 else frees i)
      (arena.freed h.slot.index) q where
  wellFormed := hgens.wellFormed.freed hlive
  generation i := by
    have hgen := hgens.generation i
    rw [Arena.freed_generation]
    split
    · next heq =>
      subst heq
      rw [BitVec.toNat_add, hgen]
      exact Nat.mod_eq_of_lt hbound
    · exact hgen
  recorded i := by
    have hrecorded := hgens.recorded i
    split <;> omega
  vacant i hvacant hrecorded := by
    have hold := hgens.recorded i
    by_cases heq : i = h.slot.index
    · simp only [heq, if_pos] at hrecorded hold
      omega
    · simp only [heq, if_false] at hrecorded
      have hbefore := (Arena.freed_vacant (live_iff.mp hlive).1).mp hvacant
      exact hgens.vacant i (hbefore.resolve_left heq) hrecorded

end Generations

theorem new_generations : Generations (fun _ => 0) Arena.new IpcQueues.new where
  wellFormed := Arena.new_wellFormed (by decide)
  generation _ := rfl
  recorded _ := le_rfl
  vacant _ _ _ := rfl

namespace IpcSystem

variable {τ : Type} [DecidableEq τ] {s s' : IpcSystem τ} {ev : Event τ}

/-! ## What a run counts -/

omit [DecidableEq τ] in
/-- The event destroys no endpoint whose state carries a capability. -/
def CapDrained (ev : Event τ) : Prop :=
  match ev.op with
  | .destroyEndpoint h => (ev.before.queues.effective h).cap = none
  | _ => True

/-- The event frees the endpoint slot `i`. -/
def Frees (i : Index) (ev : Event τ) : Bool :=
  match ev.op, ev.reply with
  | .destroyEndpoint h, .ok _ => h.slot.index = i
  | _, _ => false

/-- How often the endpoint slot `i` is freed. -/
def reuses (i : Index) (evs : List (Event τ)) : ℕ := evs.countP (Frees i)

omit [DecidableEq τ] in
theorem reuses_snoc (i : Index) (past : List (Event τ)) (ev : Event τ) :
    reuses i (past ++ [ev]) = if Frees i ev then reuses i past + 1 else reuses i past := by
  unfold reuses
  rw [List.countP_append, List.countP_singleton]
  split <;> rfl

omit [DecidableEq τ] in
theorem reuses_le (i : Index) (past : List (Event τ)) (ev : Event τ) :
    reuses i past ≤ reuses i (past ++ [ev]) := by
  rw [reuses_snoc]
  split <;> omega

/-- The capability handle of the operation names the endpoint. -/
def Names (s : IpcSystem τ) (op : IpcOp τ) (h : EndpointHandle) : Prop :=
  match op with
  | .send who epCap _ _ => target (s.tables who) epCap = some h
  | .recv who epCap => target (s.tables who) epCap = some h
  | .cancelRecv who epCap => target (s.tables who) epCap = some h
  | _ => False

/-- The event uses the endpoint or destroys it. -/
def Uses (h : EndpointHandle) (ev : Event τ) : Prop :=
  Names ev.before ev.op h ∨ ev.op = .destroyEndpoint h

variable [Build]

/-! ## One step -/

/-- What a creation does to the arena. -/
theorem Step.created (harena : s.epArena.WellFormed) {ep : Endpoint} {reply : IpcReply}
    (hop : ev.op = .createEndpoint ep) (hreply : ev.reply = .ok reply) (hstep : Step s ev s') :
    ∃ head, s.epArena.freeHead = some head ∧ s.epArena.Vacant head ∧
      reply = .endpoint ⟨⟨head, (s.epArena.slots head).generation⟩⟩ ∧
      s' = { s with epArena := s.epArena.allocated head ep } := by
  have hexec := hstep.exec
  rw [hop, hreply] at hexec
  obtain ⟨handle, s₁, hzoom, hpure⟩ := Prog.bind_eq_ok.mp hexec
  cases hpure
  rcases harena.allocate_run (ε := ObjError) ep with ⟨_, hrun⟩ | ⟨head, hvacant, hhead, hrun⟩
  · have hfull : (Tyrne.createEndpoint ep).run s.epArena = .err .arenaFull s.epArena :=
      Prog.bind_ok hrun
    have herr : (Prog.zoom epArena (fun epArena s => { s with epArena }) SystemError.obj
        (Tyrne.createEndpoint ep)).run s = .err (.obj .arenaFull) s := Prog.zoom_err hfull
    rw [herr] at hzoom
    cases hzoom
  · have hcreated : (Tyrne.createEndpoint ep).run s.epArena =
        .ok ⟨⟨head, (s.epArena.slots head).generation⟩⟩ (s.epArena.allocated head ep) :=
      Prog.bind_ok hrun
    have hok : (Prog.zoom epArena (fun epArena s => { s with epArena }) SystemError.obj
        (Tyrne.createEndpoint ep)).run s =
        .ok ⟨⟨head, (s.epArena.slots head).generation⟩⟩
          { s with epArena := s.epArena.allocated head ep } := Prog.zoom_ok hcreated
    rw [hok] at hzoom
    cases hzoom
    exact ⟨head, hhead, hvacant, rfl, rfl⟩

/-- What a destruction does to the arena. -/
theorem Step.destroyed {reply : IpcReply} (hop : ev.op = .destroyEndpoint h)
    (hreply : ev.reply = .ok reply) (hstep : Step s ev s') :
    Live s.epArena h ∧ s' = { s with epArena := s.epArena.freed h.slot.index } := by
  have hexec := hstep.exec
  rw [hop, hreply] at hexec
  obtain ⟨value, s₁, hzoom, hpure⟩ := Prog.bind_eq_ok.mp hexec
  cases hpure
  rcases Arena.free_run (ε := ObjError) s.epArena h.slot with ⟨_, hrun⟩ | ⟨ep, hget, hrun⟩
  · have hstale : (Tyrne.destroyEndpoint h).run s.epArena = .err .invalidHandle s.epArena :=
      Prog.bind_ok hrun
    have herr : (Prog.zoom epArena (fun epArena s => { s with epArena }) SystemError.obj
        (Tyrne.destroyEndpoint h)).run s = .err (.obj .invalidHandle) s := Prog.zoom_err hstale
    rw [herr] at hzoom
    cases hzoom
  · have hfreed : (Tyrne.destroyEndpoint h).run s.epArena =
        .ok ep (s.epArena.freed h.slot.index) := Prog.bind_ok hrun
    have hok : (Prog.zoom epArena (fun epArena s => { s with epArena }) SystemError.obj
        (Tyrne.destroyEndpoint h)).run s =
        .ok ep { s with epArena := s.epArena.freed h.slot.index } := Prog.zoom_ok hfreed
    rw [hok] at hzoom
    cases hzoom
    refine ⟨?_, rfl⟩
    unfold Live
    rw [hget]
    rfl

omit [DecidableEq τ] [Build] in
/-- The event frees `i` only as a destruction that succeeds. -/
theorem frees_iff {i : Index} : Frees i ev = true ↔
    ∃ h reply, ev.op = .destroyEndpoint h ∧ ev.reply = .ok reply ∧ h.slot.index = i := by
  unfold Frees
  constructor
  · intro hfrees
    split at hfrees
    · next h reply hop hreply => exact ⟨h, reply, hop, hreply, by simpa using hfrees⟩
    · cases hfrees
  · intro hdestroy
    obtain ⟨h, reply, hop, hreply, rfl⟩ := hdestroy
    rw [hop, hreply]
    simp

/-- How a step moves the arena, the queues and the endpoints that are live. -/
inductive Moved (s : IpcSystem τ) (ev : Event τ) (s' : IpcSystem τ) : Prop
  | created {head : Index} {ep : Endpoint} : s.epArena.freeHead = some head →
      s.epArena.Vacant head → ev.op = .createEndpoint ep →
      ev.reply = .ok (.endpoint ⟨⟨head, (s.epArena.slots head).generation⟩⟩) →
      s'.epArena = s.epArena.allocated head ep → s'.queues = s.queues → Moved s ev s'
  | destroyed {h : EndpointHandle} {reply : IpcReply} : Live s.epArena h →
      ev.op = .destroyEndpoint h → ev.reply = .ok reply →
      s'.epArena = s.epArena.freed h.slot.index → s'.queues = s.queues → Moved s ev s'
  | wrote {h : EndpointHandle} {st : EndpointState} : Live s.epArena h → Names ev.before ev.op h →
      (∀ i, Frees i ev = false) → s'.epArena = s.epArena → s'.queues = s.queues.put h st →
      Moved s ev s'
  | kept {q : IpcQueues} : Refused s.epArena s.queues q → (∀ i, Frees i ev = false) →
      s'.epArena = s.epArena → s'.queues = q → Moved s ev s'

theorem Moved.of_step (harena : s.epArena.WellFormed) (hwf : ∀ who, (s.tables who).WellFormed)
    (hstep : Step s ev s') : Moved s ev s' := by
  have heffect := Effect.of_step hwf hstep
  have hbefore := hstep.before
  generalize hop : ev.op = op at heffect
  generalize hreply : ev.reply = reply at heffect
  have hnever : (∀ h, op ≠ .destroyEndpoint h) ∨ (∃ err, reply = .error err) →
      ∀ i, Frees i ev = false := by
    intro hno i
    by_contra hcon
    obtain ⟨h, r, hdestroy, hok, _⟩ := frees_iff.mp (Bool.eq_true_of_not_eq_false hcon)
    rcases hno with hno | ⟨err, hno⟩
    · exact hno h (hop ▸ hdestroy)
    · rw [hno, hok] at hreply
      cases hreply
  cases heffect with
  | failed hq => exact .kept hq (hnever (Or.inr ⟨_, rfl⟩)) rfl rfl
  | createEndpoint =>
    obtain ⟨head, hhead, hvacant, hhandle, hs'⟩ := Step.created harena hop hreply hstep
    exact .created hhead hvacant hop (hreply.trans (congrArg _ hhandle))
      (congrArg epArena hs') rfl
  | destroyEndpoint =>
    obtain ⟨hlive, hs'⟩ := Step.destroyed hop hreply hstep
    exact .destroyed hlive hop hreply (congrArg epArena hs') rfl
  | table => exact .kept .early (hnever (Or.inl (by simp))) rfl rfl
  | createNotification => exact .kept .early (hnever (Or.inl (by simp))) rfl rfl
  | destroyNotification => exact .kept .early (hnever (Or.inl (by simp))) rfl rfl
  | notify => exact .kept .early (hnever (Or.inl (by simp))) rfl rfl
  | send hend =>
    have hno := hnever (Or.inl (by simp))
    cases hend with
    | delivered htarget hlive =>
      refine .wrote hlive ?_ hno rfl rfl
      simp only [Names, hop, hbefore]
      exact target_of_targets htarget
    | enqueued htarget hlive =>
      refine .wrote hlive ?_ hno rfl rfl
      simp only [Names, hop, hbefore]
      exact target_of_targets htarget
  | recv hend =>
    have hno := hnever (Or.inl (by simp))
    cases hend with
    | received htarget hlive =>
      refine .wrote hlive ?_ hno rfl rfl
      simp only [Names, hop, hbefore]
      exact target_of_targets htarget
    | registered htarget hlive =>
      refine .wrote hlive ?_ hno rfl rfl
      simp only [Names, hop, hbefore]
      exact target_of_targets htarget
  | cancelRecv hend =>
    have hno := hnever (Or.inl (by simp))
    cases hend with
    | cancelled htarget hlive =>
      refine .wrote hlive ?_ hno rfl rfl
      simp only [Names, hop, hbefore]
      exact target_of_targets htarget
    | nothing _ _ hq => exact .kept hq hno rfl rfl

end IpcSystem

end Tyrne
