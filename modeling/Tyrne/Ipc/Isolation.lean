import Tyrne.Ipc.Generations

/-!
# Successive owners of an endpoint slot

Over a run in which every endpoint slot is freed fewer than 2^32 times, a new endpoint
starts idle, its receives return what was sent to it and nothing else, and a capability
to a destroyed endpoint changes nothing.
-/

namespace Tyrne

open CapabilityTable IpcQueues

variable {h : EndpointHandle}

namespace IpcSystem

variable {τ : Type} {s s' : IpcSystem τ} {ev : Event τ}

/-! ## What a step does to one endpoint -/

namespace Moved

theorem live_of_live (hmoved : Moved s ev s') (hlive : Live s.epArena h)
    (hnot : ev.op ≠ .destroyEndpoint h) : Live s'.epArena h := by
  cases hmoved with
  | @created head ep _ hvacant _ _ harena =>
    rw [harena]
    exact (Arena.get_allocated h.slot hvacant.1).mpr (Or.inl hlive)
  | @destroyed h' _ hlive' hop _ harena =>
    rw [harena]
    refine (Arena.get_freed h.slot hlive').mpr ⟨hlive, fun heq => ?_⟩
    obtain ⟨slot⟩ := h
    obtain ⟨slot'⟩ := h'
    dsimp only at heq
    rw [heq] at hnot
    exact hnot hop
  | wrote _ _ _ harena => rwa [harena]
  | kept _ _ harena => rwa [harena]

/-- An endpoint that is live after a step was live before, or is the new one. -/
theorem live_before (hmoved : Moved s ev s') (hlive : Live s'.epArena h) :
    Live s.epArena h ∨ ev.reply = .ok (.endpoint h) ∧
      s.queues.effective h = s'.queues.effective h ∧ s.epArena.Vacant h.slot.index ∧
      (s.epArena.slots h.slot.index).generation = h.slot.generation := by
  cases hmoved with
  | @created head ep _ hvacant _ hreply harena hqueues =>
    rw [harena] at hlive
    rcases (Arena.get_allocated h.slot hvacant.1).mp hlive with hold | hnew
    · exact Or.inl hold
    · obtain ⟨slot⟩ := h
      dsimp only at hnew
      subst hnew
      exact Or.inr ⟨hreply, by rw [hqueues], hvacant, rfl⟩
  | @destroyed h' _ hlive' hop _ harena =>
    rw [harena] at hlive
    exact Or.inl ((Arena.get_freed h.slot hlive').mp hlive).1
  | wrote _ _ _ harena =>
    rw [harena] at hlive
    exact Or.inl hlive
  | kept _ _ harena =>
    rw [harena] at hlive
    exact Or.inl hlive

/-- A step that does not use the endpoint leaves its state. -/
theorem effective_eq (hmoved : Moved s ev s') (hlive : Live s.epArena h)
    (hnot : ¬ Names ev.before ev.op h) : s'.queues.effective h = s.queues.effective h := by
  cases hmoved with
  | created _ _ _ _ _ hqueues => rw [hqueues]
  | destroyed _ _ _ _ hqueues => rw [hqueues]
  | @wrote h' st hlive' hnames _ _ hqueues =>
    rw [hqueues]
    apply effective_put_other hlive' hlive
    rintro rfl
    exact hnot hnames
  | kept hq _ _ hqueues =>
    rw [hqueues]
    exact hq.agree h hlive

theorem capOwned (hmoved : Moved s ev s') (howned : CapOwned s.epArena s.queues)
    (hdrained : CapDrained ev) (hbefore : ev.before = s) : CapOwned s'.epArena s'.queues := by
  cases hmoved with
  | created _ hvacant _ _ harena hqueues =>
    rw [harena, hqueues]
    exact fun i hcap => (Arena.get_allocated _ hvacant.1).mpr (Or.inl (howned i hcap))
  | @destroyed h' _ hlive hop _ harena hqueues =>
    rw [harena, hqueues]
    simp only [CapDrained, hop, hbefore] at hdrained
    refine howned.destroyed hdrained fun h => ?_
    obtain ⟨slot⟩ := h
    obtain ⟨slot'⟩ := h'
    simpa [Live] using Arena.get_freed slot hlive
  | wrote hlive _ _ harena hqueues =>
    rw [harena, hqueues]
    exact howned.put hlive
  | kept hq _ harena hqueues =>
    rw [harena, hqueues]
    exact howned.refused hq

theorem wellFormed (hmoved : Moved s ev s') (harena : s.epArena.WellFormed) :
    s'.epArena.WellFormed := by
  cases hmoved with
  | created hhead _ _ _ hnext =>
    rw [hnext]
    exact harena.allocated hhead
  | destroyed hlive _ _ hnext =>
    rw [hnext]
    exact harena.freed hlive
  | wrote _ _ _ hnext => rwa [hnext]
  | kept _ _ hnext => rwa [hnext]

/-- The counts of frees follow the generations, as long as none wraps. -/
theorem generations {past : List (Event τ)} (hmoved : Moved s ev s')
    (hgens : Generations (fun i => reuses i past) s.epArena s.queues)
    (hbound : ∀ i, reuses i (past ++ [ev]) < 2 ^ 32) :
    Generations (fun i => reuses i (past ++ [ev])) s'.epArena s'.queues := by
  have hsame : (∀ i, Frees i ev = false) →
      (fun i => reuses i (past ++ [ev])) = fun i => reuses i past := by
    intro hnever
    funext i
    rw [reuses_snoc, hnever i]
    rfl
  cases hmoved with
  | created hhead _ hop _ harena hqueues =>
    have hnever : ∀ i, Frees i ev = false := by
      intro i
      simp [Frees, hop]
    rw [harena, hqueues, hsame hnever]
    exact hgens.allocated _ hhead
  | @destroyed h' _ hlive hop hreply harena hqueues =>
    have hcount : (fun i => reuses i (past ++ [ev])) =
        fun i => if i = h'.slot.index then reuses i past + 1 else reuses i past := by
      funext i
      rw [reuses_snoc]
      simp [Frees, hop, hreply, eq_comm]
    have hlast := hbound h'.slot.index
    rw [reuses_snoc, frees_iff.mpr ⟨h', _, hop, hreply, rfl⟩, if_pos rfl] at hlast
    rw [harena, hqueues, hcount]
    exact hgens.freed hlive hlast
  | wrote hlive _ hnever harena hqueues =>
    rw [harena, hqueues, hsame hnever]
    exact hgens.put hlive
  | kept hq hnever harena hqueues =>
    rw [harena, hqueues, hsame hnever]
    exact hgens.refused hq

end Moved

variable [DecidableEq τ] [Build]

/-- A handle that names no live endpoint gives no message and gets none. -/
theorem Effect.silent (heffect : Effect ev.before ev.op ev.reply ev.after)
    (hdead : ¬ Live ev.before.epArena h) : accepted h ev = [] ∧ returned h ev = [] := by
  obtain ⟨before, op, reply, after⟩ := ev
  dsimp only at *
  have hother : ∀ {h' : EndpointHandle} {who : τ} {epCap : CapHandle} {required : CapRights},
      Targets (before.tables who) epCap required h' → Live before.epArena h' →
      target (before.tables who) epCap ≠ some h := by
    intro h' who epCap required htarget hlive heq
    rw [target_of_targets htarget] at heq
    cases heq
    exact hdead hlive
  cases heffect with
  | send hend =>
    cases hend with
    | delivered htarget hlive => exact ⟨if_neg (hother htarget hlive), rfl⟩
    | enqueued htarget hlive => exact ⟨if_neg (hother htarget hlive), rfl⟩
  | recv hend =>
    cases hend with
    | received htarget hlive => exact ⟨rfl, if_neg (hother htarget hlive)⟩
    | registered => exact ⟨rfl, rfl⟩
  | failed => simp [accepted, returned]
  | _ => exact ⟨rfl, rfl⟩

/-! ## No capability is stranded -/

/-- The tables and the endpoint arena are well formed, and every capability in flight
belongs to a live endpoint. -/
structure CapSound (s : IpcSystem τ) : Prop where
  tables : ∀ who, (s.tables who).WellFormed
  arena : s.epArena.WellFormed
  capOwned : CapOwned s.epArena s.queues

omit [Build] [DecidableEq τ] in
theorem capSound_boot : CapSound (boot : IpcSystem τ) where
  tables _ := new_wellFormed
  arena := Arena.new_wellFormed (by decide)
  capOwned _ hcap := absurd rfl hcap

theorem CapSound.step (hsound : CapSound s) (hstep : Step s ev s') (hdrained : CapDrained ev) :
    CapSound s' := by
  have hmoved := Moved.of_step hsound.arena hsound.tables hstep
  exact ⟨step_wellFormed hsound.tables hstep, hmoved.wellFormed hsound.arena,
    hmoved.capOwned hsound.capOwned hdrained hstep.before⟩

theorem capSound_of_run {evs : List (Event τ)} (hrun : Run Step boot evs s)
    (hdrained : ∀ ev ∈ evs, CapDrained ev) : CapSound s :=
  (hrun.with_events hdrained).invariant (fun _ _ _ hsound hstep => hsound.step hstep.2 hstep.1)
    capSound_boot

/-! ## What a run keeps -/

/-- What holds after the events `past`: the generations count the frees, no capability is
stranded, an endpoint that has not been created has no messages, and the messages of a
live endpoint are those that were returned and the one it holds. -/
structure History (past : List (Event τ)) (s : IpcSystem τ) : Prop where
  tables : ∀ who, (s.tables who).WellFormed
  generations : Generations (fun i => reuses i past) s.epArena s.queues
  capOwned : CapOwned s.epArena s.queues
  unborn : ∀ h, ¬ Live s.epArena h → reuses h.slot.index past ≤ h.slot.generation.toNat →
    past.flatMap (accepted h) = [] ∧ past.flatMap (returned h) = []
  ledger : ∀ h, Live s.epArena h →
    past.flatMap (returned h) ++ held s h = past.flatMap (accepted h)
  inOrder : ∀ h, past.flatMap (returned h) <+: past.flatMap (accepted h)

omit [DecidableEq τ] [Build] in
theorem held_boot (h : EndpointHandle) : held (boot : IpcSystem τ) h = [] := by
  unfold held effective
  split <;> rfl

omit [DecidableEq τ] [Build] in
theorem history_boot : History [] (boot : IpcSystem τ) where
  tables _ := new_wellFormed
  generations := new_generations
  capOwned _ hcap := absurd rfl hcap
  unborn _ _ _ := ⟨rfl, rfl⟩
  ledger h _ := held_boot h
  inOrder _ := List.prefix_rfl

variable {past : List (Event τ)}

omit [DecidableEq τ] [Build] in
theorem flatMap_silent {f : Event τ → List (Message × Option Capability)} (hf : f ev = []) :
    (past ++ [ev]).flatMap f = past.flatMap f := by
  rw [List.flatMap_append, List.flatMap_singleton, hf, List.append_nil]

theorem History.step (hhist : History past s) (hstep : Step s ev s') (hdrained : CapDrained ev)
    (hbound : ∀ i, reuses i (past ++ [ev]) < 2 ^ 32) : History (past ++ [ev]) s' := by
  have hmoved := Moved.of_step hhist.generations.wellFormed hhist.tables hstep
  have heffect := Effect.of_step hhist.tables hstep
  have hgens := hmoved.generations hhist.generations hbound
  have hwf := heffect.wellFormed hhist.tables
  have hcaps := hmoved.capOwned hhist.capOwned hdrained hstep.before
  obtain ⟨rfl, rfl, -⟩ := hstep
  -- a new endpoint has no messages, in the past or in its slot
  have hnew : ∀ h, Live ev.after.epArena h → ¬ Live ev.before.epArena h →
      past.flatMap (accepted h) = [] ∧ past.flatMap (returned h) = [] ∧ held ev.after h = [] := by
    intro h hlive hdead
    obtain ⟨_, hqueues, hvacant, hgen⟩ := (hmoved.live_before hlive).resolve_left hdead
    have hcount := hhist.generations.generation h.slot.index
    rw [hgen] at hcount
    obtain ⟨haccepted, hreturned⟩ := hhist.unborn h hdead hcount.ge
    have hfresh := hhist.generations.fresh hvacant
    refine ⟨haccepted, hreturned, ?_⟩
    unfold held
    rw [← hqueues, show h = ⟨⟨h.slot.index, (ev.before.epArena.slots h.slot.index).generation⟩⟩ by
      rw [hgen], hfresh]
    rfl
  have hledger : ∀ h, Live ev.after.epArena h →
      (past ++ [ev]).flatMap (returned h) ++ held ev.after h =
        (past ++ [ev]).flatMap (accepted h) := by
    intro h hlive
    by_cases hbefore : Live ev.before.epArena h
    · have hmessages := heffect.messages hhist.tables (hbefore.putsApart _)
      simp only [List.flatMap_append, List.flatMap_singleton]
      rw [List.append_assoc, ← hmessages, ← List.append_assoc, hhist.ledger h hbefore]
    · obtain ⟨haccepted, hreturned⟩ := heffect.silent hbefore
      obtain ⟨hpast, hgave, hheld⟩ := hnew h hlive hbefore
      rw [flatMap_silent haccepted, flatMap_silent hreturned, hpast, hgave, hheld]
      rfl
  refine ⟨hwf, hgens, hcaps, fun h hdead hunborn => ?_, hledger, fun h => ?_⟩
  · have hle := reuses_le h.slot.index past ev
    by_cases hbefore : Live ev.before.epArena h
    · -- only its own destruction ends it, and that counts
      have hgen := hhist.generations.live_generation hbefore
      have hdestroy : ev.op = .destroyEndpoint h := by
        by_contra hnot
        exact hdead (hmoved.live_of_live hbefore hnot)
      cases hmoved with
      | created _ _ hop => simp [hop] at hdestroy
      | @destroyed h' reply _ hop hreply =>
        have hfrees := frees_iff.mpr ⟨h, reply, hdestroy, hreply, rfl⟩
        rw [reuses_snoc, hfrees, if_pos rfl] at hunborn
        omega
      | wrote _ _ _ harena => exact absurd (harena ▸ hbefore) hdead
      | kept _ _ harena => exact absurd (harena ▸ hbefore) hdead
    · obtain ⟨haccepted, hreturned⟩ := heffect.silent hbefore
      obtain ⟨hpast, hgave⟩ := hhist.unborn h hbefore (hle.trans hunborn)
      exact ⟨(flatMap_silent haccepted).trans hpast, (flatMap_silent hreturned).trans hgave⟩
  · by_cases hbefore : Live ev.before.epArena h
    · have hmessages := heffect.messages hhist.tables (hbefore.putsApart _)
      have hpast := hhist.ledger h hbefore
      simp only [List.flatMap_append, List.flatMap_singleton]
      rw [← hpast, List.append_assoc, hmessages, ← List.append_assoc]
      exact List.prefix_append _ _
    · obtain ⟨haccepted, hreturned⟩ := heffect.silent hbefore
      rw [flatMap_silent haccepted, flatMap_silent hreturned]
      exact hhist.inOrder h

theorem history_of_run {evs : List (Event τ)} (hrun : Run Step boot evs s)
    (hdrained : ∀ ev ∈ evs, CapDrained ev) (hreuse : ∀ i, reuses i evs < 2 ^ 32) :
    History evs s := by
  have hsteps := hrun.with_events hdrained
  refine hsteps.history (I := fun past s => (∀ i, reuses i past < 2 ^ 32) → History past s)
    (fun _ => history_boot) (fun past s ev s' hhist hstep hbound => ?_) hreuse
  have hpast : ∀ i, reuses i past < 2 ^ 32 :=
    fun i => (reuses_le i past ev).trans_lt (hbound i)
  exact (hhist hpast).step hstep.2 hstep.1 hbound

/-! ## Stale capabilities and first uses -/

omit [DecidableEq τ] [Build] in
theorem reuses_append_le (i : Index) (past rest : List (Event τ)) :
    reuses i past ≤ reuses i (past ++ rest) := by
  unfold reuses
  rw [List.countP_append]
  exact Nat.le_add_right _ _

/-- A destroyed endpoint stays dead. -/
theorem dead_of_destroyed {evs : List (Event τ)} {reply : IpcReply}
    (hrun : Run Step boot evs s) (hdrained : ∀ ev ∈ evs, CapDrained ev)
    (hreuse : ∀ i, reuses i evs < 2 ^ 32) (hev : ev ∈ evs) (hop : ev.op = .destroyEndpoint h)
    (hreply : ev.reply = .ok reply) : ¬ Live s.epArena h := by
  intro hlive
  obtain ⟨s₁, s₂, past, rest, hpast, hstep, _, rfl⟩ := hrun.exists_step hev
  have hbefore : ∀ i, reuses i past < 2 ^ 32 :=
    fun i => (reuses_append_le i past _).trans_lt (hreuse i)
  have hhist := history_of_run hpast
    (fun ev hmem => hdrained ev (List.mem_append_left _ hmem)) hbefore
  have hlast := history_of_run hrun hdrained hreuse
  have hthen := hhist.generations.live_generation (Step.destroyed hop hreply hstep).1
  have hnow := hlast.generations.live_generation hlive
  have hfrees := frees_iff.mpr ⟨h, reply, hop, hreply, rfl⟩
  have hcount := reuses_append_le h.slot.index (past ++ [ev]) rest
  rw [reuses_snoc, hfrees, if_pos rfl, List.append_assoc, List.singleton_append] at hcount
  omega

/-- A call that has changed nothing by the time it fails, or that has settled its
endpoint: what it does after that is decided by the effective state. -/
def SettledSame {α : Type} (m : IpcM α) (c c' : IpcCall) : Prop :=
  m.run c = m.run c' ∨ ∃ err, m.run c = .err err c ∧ m.run c' = .err err c'

/-- The call with the state of the endpoint written back. -/
def settledCall (c : IpcCall) (h : EndpointHandle) : IpcCall :=
  { c with queues := c.queues.put h (c.queues.effective h) }

omit [DecidableEq τ] in
/-- The checks in front of an operation and the settling of its endpoint. -/
theorem settledSame_of_checks {α : Type} {c : IpcCall} {epCap : CapHandle}
    {required : CapRights} (pre : IpcM Unit) {rest : EndpointHandle → EndpointState → IpcM α}
    (hpre : (∀ c', c'.table = c.table → pre.run c' = .ok () c') ∨
      ∃ err, ∀ c', c'.table = c.table → pre.run c' = .err err c')
    (htarget : target c.table epCap = some h) (hlive : Live c.epArena h)
    (hdrained : ¬ c.queues.Undrained h) :
    SettledSame (do
      let epHandle ← validateEpCap epCap required
      pre
      requireLive epHandle
      let peeked ← IpcCall.onQueues (peekState epHandle)
      rest epHandle peeked) c (settledCall c h) := by
  rcases validateEpCap_cases c.table epCap required with ⟨h', htarget', hrun⟩ | ⟨_, err, hrun⟩
  swap
  · exact Or.inr ⟨err, Prog.bind_err (hrun c rfl), Prog.bind_err (hrun _ rfl)⟩
  have hsame : h' = h := by
    rw [target_of_targets htarget'] at htarget
    exact Option.some.inj htarget
  subst hsame
  unfold SettledSame
  rw [Prog.bind_ok (hrun c rfl), Prog.bind_ok (hrun (settledCall c h') rfl)]
  rcases hpre with hpre | ⟨err, hpre⟩
  swap
  · exact Or.inr ⟨err, Prog.bind_err (hpre c rfl), Prog.bind_err (hpre _ rfl)⟩
  rw [Prog.bind_ok (hpre c rfl), Prog.bind_ok (hpre (settledCall c h') rfl)]
  have hok : ∀ c' : IpcCall, Live c'.epArena h' → (requireLive h').run c' = .ok () c' := by
    intro c' hlive'
    rcases requireLive_run c' h' with ⟨_, hrun⟩ | ⟨hdead, _⟩
    · exact hrun
    · exact absurd hlive' hdead
  rw [Prog.bind_ok (hok c hlive), Prog.bind_ok (hok (settledCall c h') hlive)]
  have hpeek : (peekState h').run c.queues =
      .ok (c.queues.effective h') (c.queues.put h' (c.queues.effective h')) := by
    rcases peekState_run (q := c.queues) hlive.bound with ⟨hun, _⟩ | hrun
    · exact absurd hun hdrained
    · exact hrun
  have hpeek' : (peekState h').run (settledCall c h').queues =
      .ok (c.queues.effective h') (c.queues.put h' (c.queues.effective h')) := by
    rcases peekState_run (q := (settledCall c h').queues) hlive.bound with ⟨hun, _⟩ | hrun
    · exact absurd hun.1 (by simp [settledCall, IpcQueues.put])
    · simpa [settledCall] using hrun
  rw [Prog.bind_ok (onQueues_ok hpeek), Prog.bind_ok (onQueues_ok hpeek')]
  exact Or.inl rfl

/-- Each operation on a live endpoint settles it first. -/
theorem ipcSend_settled {c : IpcCall} {epCap : CapHandle} (msg : Message)
    (transfer : Option CapHandle) (htarget : target c.table epCap = some h)
    (hlive : Live c.epArena h) (hdrained : ¬ c.queues.Undrained h) :
    SettledSame (ipcSend epCap msg transfer) c (settledCall c h) := by
  have hpre := (validateTransfer_cases c.table transfer).imp_left And.right
  exact settledSame_of_checks _ hpre htarget hlive hdrained

theorem ipcRecv_settled {c : IpcCall} {epCap : CapHandle}
    (htarget : target c.table epCap = some h)
    (hlive : Live c.epArena h) (hdrained : ¬ c.queues.Undrained h) :
    SettledSame (ipcRecv epCap) c (settledCall c h) :=
  settledSame_of_checks (pure ()) (Or.inl fun _ _ => rfl) htarget hlive hdrained

theorem ipcCancelRecv_settled {c : IpcCall} {epCap : CapHandle}
    (htarget : target c.table epCap = some h)
    (hlive : Live c.epArena h) (hdrained : ¬ c.queues.Undrained h) :
    SettledSame (ipcCancelRecv epCap) c (settledCall c h) :=
  settledSame_of_checks (pure ()) (Or.inl fun _ _ => rfl) htarget hlive hdrained

omit [DecidableEq τ] [Build] in
/-- An operation through a capability to a dead endpoint is refused at once. -/
theorem stale_of_checks {α : Type} {c : IpcCall} {epCap : CapHandle} {required : CapRights}
    (pre : IpcM Unit) {rest : EndpointHandle → IpcM α}
    (hpre : pre.run c = .ok () c ∨ ∃ err, pre.run c = .err err c)
    (htarget : target c.table epCap = some h) (hdead : ¬ Live c.epArena h) :
    ∃ err, (do
      let epHandle ← validateEpCap epCap required
      pre
      requireLive epHandle
      rest epHandle).run c = .err err c := by
  rcases validateEpCap_run c epCap required with ⟨h', htarget', hrun⟩ | ⟨_, err, hrun⟩
  swap
  · exact ⟨err, Prog.bind_err hrun⟩
  have hsame : h' = h := by
    rw [target_of_targets htarget'] at htarget
    exact Option.some.inj htarget
  subst hsame
  rw [Prog.bind_ok hrun]
  rcases hpre with hpre | ⟨err, hpre⟩
  swap
  · exact ⟨err, Prog.bind_err hpre⟩
  rw [Prog.bind_ok hpre]
  rcases requireLive_run c h' with ⟨hlive, _⟩ | ⟨_, err, hrun⟩
  · exact absurd hlive hdead
  · exact ⟨err, Prog.bind_err hrun⟩

/-- The system with the state of the endpoint written as idle. -/
def withIdle (s : IpcSystem τ) (h : EndpointHandle) : IpcSystem τ :=
  { s with queues := s.queues.put h .idle }

/-- The operation ends the same whether the slot of `h` holds what it does or `Idle`; if
it is refused before it looks, each state is left as it was. -/
def AsOnIdle (s : IpcSystem τ) (h : EndpointHandle) (op : IpcOp τ) : Prop :=
  (exec op).run s = (exec op).run (s.withIdle h) ∨
    ∃ err, (exec op).run s = .err err s ∧
      (exec op).run (s.withIdle h) = .err err (s.withIdle h)

/-- A call of the system ends as the call itself does. -/
theorem asOnIdle_of_call {α : Type} {who : τ} {op : IpcOp τ} {m : IpcM α} {f : α → IpcReply}
    (hexec : exec op = onCall who m >>= fun a => pure (f a))
    (hidle : s.queues.effective h = .idle)
    (hsettled : SettledSame m (s.call who) (settledCall (s.call who) h)) : AsOnIdle s h op := by
  have hcall : (s.withIdle h).call who = settledCall (s.call who) h := by
    unfold settledCall
    dsimp only [call, withIdle]
    rw [hidle]
  unfold AsOnIdle
  rw [hexec]
  rcases hsettled with hsame | ⟨err, hrun, hrun'⟩
  · have hzoom : (onCall who m).run s = (onCall who m).run (s.withIdle h) := by
      unfold onCall Prog.zoom
      dsimp only
      rw [hcall, ← hsame]
      rfl
    rw [Prog.bind_run, Prog.bind_run, hzoom]
    exact Or.inl rfl
  · refine Or.inr ⟨.ipc err, Prog.bind_err ?_, Prog.bind_err ?_⟩
    · have hzoom : (onCall who m).run s = .err (.ipc err) (s.endCall who (s.call who)) :=
        Prog.zoom_err hrun
      rwa [endCall_call] at hzoom
    · rw [← hcall] at hrun'
      have hzoom : (onCall who m).run (s.withIdle h) =
          .err (.ipc err) ((s.withIdle h).endCall who ((s.withIdle h).call who)) :=
        Prog.zoom_err hrun'
      rwa [endCall_call] at hzoom

theorem History.asOnIdle (hhist : History past s) (hlive : Live s.epArena h)
    (hidle : s.queues.effective h = .idle) {op : IpcOp τ} (hnames : Names s op h) :
    AsOnIdle s h op := by
  have hdrained := hhist.capOwned.not_undrained hlive
  cases op with
  | send who epCap msg transfer =>
    exact asOnIdle_of_call rfl hidle (ipcSend_settled (c := s.call who) msg transfer hnames hlive
      hdrained)
  | recv who epCap =>
    exact asOnIdle_of_call rfl hidle (ipcRecv_settled (c := s.call who) hnames hlive hdrained)
  | cancelRecv who epCap =>
    have hsettled := ipcCancelRecv_settled (c := s.call who) hnames hlive hdrained
    exact asOnIdle_of_call (f := fun _ => .done) rfl hidle hsettled
  | _ => exact hnames.elim

/-- An operation through a capability to a dead endpoint changes nothing at all. -/
theorem stale_unchanged {op : IpcOp τ} (hnames : Names s op h) (hdead : ¬ Live s.epArena h) :
    ∃ err, (exec op).run s = .err err s := by
  have hcall : ∀ {α : Type} {who : τ} {m : IpcM α} {f : α → IpcReply},
      (∃ err, m.run (s.call who) = .err err (s.call who)) →
      ∃ err, (onCall who m >>= fun a => pure (f a)).run s = .err err s := by
    intro α who m f hstale
    obtain ⟨err, hrun⟩ := hstale
    have hzoom : (onCall who m).run s = .err (.ipc err) (s.endCall who (s.call who)) :=
      Prog.zoom_err hrun
    rw [endCall_call] at hzoom
    exact ⟨_, Prog.bind_err hzoom⟩
  cases op with
  | send who epCap msg transfer =>
    have hpre := (validateTransfer_run (s.call who) transfer).imp_left And.right
    exact hcall (f := .sent) (stale_of_checks (c := s.call who) _ hpre hnames hdead)
  | recv who epCap =>
    have hpre : (pure () : IpcM Unit).run (s.call who) = .ok () (s.call who) := rfl
    exact hcall (f := .received)
      (stale_of_checks (c := s.call who) (pure ()) (Or.inl hpre) hnames hdead)
  | cancelRecv who epCap =>
    have hpre : (pure () : IpcM Unit).run (s.call who) = .ok () (s.call who) := rfl
    exact hcall (f := fun _ : Unit => .done)
      (stale_of_checks (c := s.call who) (pure ()) (Or.inl hpre) hnames hdead)
  | _ => exact hnames.elim

/-- The events since a creation that leave the new endpoint alone. -/
theorem effective_since {mid : List (Event τ)} {s₁ : IpcSystem τ}
    (hhist : History past s₁) (hlive : Live s₁.epArena h)
    (hidle : s₁.queues.effective h = .idle) (hrun : Run Step s₁ mid s)
    (hdrained : ∀ ev ∈ mid, CapDrained ev) (hbound : ∀ i, reuses i (past ++ mid) < 2 ^ 32)
    (hunused : ∀ ev ∈ mid, ¬ Uses h ev) :
    Live s.epArena h ∧ s.queues.effective h = .idle := by
  induction hrun generalizing past with
  | nil => exact ⟨hlive, hidle⟩
  | @cons s₁ s₂ s₃ ev rest hstep _ ih =>
    have hev : ¬ Uses h ev := hunused ev List.mem_cons_self
    have hnext : ∀ i, reuses i ((past ++ [ev]) ++ rest) < 2 ^ 32 := by
      rwa [List.append_assoc, List.singleton_append]
    have hone : ∀ i, reuses i (past ++ [ev]) < 2 ^ 32 :=
      fun i => (reuses_append_le i (past ++ [ev]) rest).trans_lt (hnext i)
    have hmoved := Moved.of_step hhist.generations.wellFormed hhist.tables hstep
    apply ih (hhist.step hstep (hdrained ev List.mem_cons_self) hone)
      (hmoved.live_of_live hlive fun hop => hev (Or.inr hop))
    · rw [hmoved.effective_eq hlive fun hnames => hev (Or.inl hnames)]
      exact hidle
    · exact fun ev' hev' => hdrained ev' (List.mem_cons_of_mem _ hev')
    · exact hnext
    · exact fun ev' hev' => hunused ev' (List.mem_cons_of_mem _ hev')

/-- In a run that frees each slot fewer than 2^32 times and strands no capability: a new
endpoint is idle until it is first used, and its first use ends as on an idle endpoint;
the receives on an endpoint return, in order, messages that were sent to that endpoint;
and an operation through a capability to a destroyed endpoint changes nothing. -/
theorem generations_isolate {evs : List (Event τ)} (hrun : Run Step boot evs s)
    (hdrained : ∀ ev ∈ evs, CapDrained ev) (hreuse : ∀ i, reuses i evs < 2 ^ 32) :
    (∀ past create mid h, evs = past ++ create :: mid →
      create.reply = .ok (.endpoint h) → (∀ ev ∈ mid, ¬ Uses h ev) →
      s.queues.effective h = .idle ∧ ∀ op, Names s op h → AsOnIdle s h op) ∧
    (∀ h, evs.flatMap (returned h) <+: evs.flatMap (accepted h)) ∧
    ∀ h, (∃ ev ∈ evs, ev.op = .destroyEndpoint h ∧ ev.reply = .ok .destroyed) →
      ∀ op, Names s op h → ∃ err, (exec op).run s = .err err s := by
  have hlast := history_of_run hrun hdrained hreuse
  refine ⟨?_, hlast.inOrder, ?_⟩
  · intro past create mid h hevs hreply hunused
    subst hevs
    obtain ⟨s₁, hpast, hrest⟩ := hrun.split
    cases hrest with
    | @cons _ s₂ _ _ _ hstep hmid =>
      have hbound : ∀ i, reuses i ((past ++ [create]) ++ mid) < 2 ^ 32 := by
        rwa [List.append_assoc, List.singleton_append]
      have hbefore : ∀ i, reuses i past < 2 ^ 32 :=
        fun i => (reuses_append_le i past _).trans_lt (hreuse i)
      have hone : ∀ i, reuses i (past ++ [create]) < 2 ^ 32 :=
        fun i => (reuses_append_le i (past ++ [create]) mid).trans_lt (hbound i)
      have hcreate : CapDrained create := hdrained create (by simp)
      have hhist := history_of_run hpast
        (fun ev hmem => hdrained ev (List.mem_append_left _ hmem)) hbefore
      have hnew := hhist.step hstep hcreate hone
      have hmoved := Moved.of_step hhist.generations.wellFormed hhist.tables hstep
      have heffect := Effect.of_step hhist.tables hstep
      have hborn : Live s₂.epArena h ∧ s₂.queues.effective h = .idle := by
        generalize hop : create.op = op at heffect
        rw [hreply] at heffect
        cases heffect with
        | createEndpoint =>
          obtain ⟨head, _, hvacant, hhandle, hs₂⟩ :=
            Step.created hhist.generations.wellFormed hop hreply hstep
          cases hhandle
          rw [hs₂]
          exact ⟨(Arena.get_allocated _ hvacant.1).mpr (Or.inr rfl),
            hhist.generations.fresh hvacant⟩
      obtain ⟨hlive, hidle⟩ := effective_since hnew hborn.1 hborn.2 hmid
        (fun ev hmem => hdrained ev (by simp [hmem])) hbound hunused
      exact ⟨hidle, fun op hnames => hlast.asOnIdle hlive hidle hnames⟩
  · intro h hdestroy op hnames
    obtain ⟨ev, hev, hop, hreply⟩ := hdestroy
    exact stale_unchanged hnames (dead_of_destroyed hrun hdrained hreuse hev hop hreply)

/-- An endpoint with a message in it that nobody has received. -/
def abandoned : IpcSystem Bool := sender.performed (.send false ⟨0, 0⟩ ⟨1, 2, 3, 4⟩ none)

/-- The endpoint is destroyed and another takes its slot. -/
def reused : IpcSystem Bool :=
  (abandoned.performed (.destroyEndpoint ⟨⟨0, 0⟩⟩)).performed (.createEndpoint ⟨8⟩)

omit [DecidableEq τ] [Build] in
/-- The slot still holds the message of its first owner, and its second one is idle. -/
theorem generations_isolate_reused : ∃ evs : List (Event Bool),
    @Run _ _ (@Step Bool _ ⟨true⟩) boot evs reused ∧ evs.length = 5 ∧
    reused.queues.states 0 = .sendPending ⟨1, 2, 3, 4⟩ none ∧
    reused.queues.effective ⟨⟨0, 1⟩⟩ = .idle := by
  have hendpoint := performed_step (boot : IpcSystem Bool) (.createEndpoint ⟨7⟩)
    (.endpoint ⟨⟨0, 0⟩⟩) (by with_unfolding_all rfl)
  have hsender := performed_step endpointOnly
    (.table false (.insertRoot ⟨.send, .endpoint ⟨⟨0, 0⟩⟩⟩)) (.table (.handle ⟨0, 0⟩))
    (by with_unfolding_all rfl)
  have hsend := performed_step sender (.send false ⟨0, 0⟩ ⟨1, 2, 3, 4⟩ none) (.sent .enqueued)
    (by with_unfolding_all rfl)
  have hdestroy := performed_step abandoned (.destroyEndpoint ⟨⟨0, 0⟩⟩) .destroyed
    (by with_unfolding_all rfl)
  have hcreate := performed_step (abandoned.performed (.destroyEndpoint ⟨⟨0, 0⟩⟩))
    (.createEndpoint ⟨8⟩) (.endpoint ⟨⟨0, 1⟩⟩) (by with_unfolding_all rfl)
  let _ : Build := ⟨true⟩
  have hrun := Run.cons hendpoint (.cons hsender (.cons hsend (.cons hdestroy
    (.single hcreate))))
  have hdrained : (abandoned.queues.effective ⟨⟨0, 0⟩⟩).cap = none := by
    with_unfolding_all rfl
  have hisolated := generations_isolate hrun (by simpa [CapDrained] using hdrained) fun i =>
    Nat.lt_of_le_of_lt List.countP_le_length (by simp)
  have hfirst := hisolated.1 [_, _, _, _] _ [] ⟨⟨0, 1⟩⟩ rfl rfl (by simp)
  exact ⟨_, hrun, rfl, by with_unfolding_all rfl, hfirst.1⟩

end IpcSystem

end Tyrne
