import Tyrne.Syscall.Console
import Tyrne.Syscall.Traps
import Tyrne.Syscall.Words

/-!
# The payload of a message, end to end

A message that a send accepted stays in its endpoint until a receive reports it, and the two
register layouts agree. A transferred capability moves from the sender's table, where its
handle goes stale, to the receiver's, where the returned word names it.
-/

namespace Tyrne

open CapabilityTable IpcQueues IpcSystem SyscallContext

variable {τ : Type} [DecidableEq τ] [Build] {s s' s₀ s₁ s₂ s₃ : IpcSystem τ} {tr : Trap τ}
  {h : EndpointHandle} {ret : SyscallReturn}

/-! ## The two ends -/

/-- What a send that was accepted has taken from its sender. -/
theorem sent_taken {who : τ} {epCap : CapHandle} {msg : Message} {transfer : Option CapHandle}
    {outcome : SendOutcome}
    (heffect : Effect s (.send who epCap msg transfer) (.ok (.sent outcome)) s') :
    ∃ h owned, Targets (s.tables who) epCap .send h ∧ Live s.epArena h ∧
      Transferable (s.tables who) transfer ∧
      Taken (s.tables who) transfer owned (s'.tables who) := by
  cases heffect with
  | send hend =>
    cases hend with
    | @delivered h owned _ htarget hlive _ hxfer htaken =>
      refine ⟨h, owned, htarget, hlive, hxfer, ?_⟩
      rwa [endCall_tables_self]
    | @enqueued h owned _ htarget hlive _ hxfer htaken =>
      refine ⟨h, owned, htarget, hlive, hxfer, ?_⟩
      rwa [endCall_tables_self]

/-- What a receive that got a message has installed for its receiver. -/
theorem received_installed {who : τ} {epCap : CapHandle} {msg : Message} {xfer : Option CapHandle}
    (heffect : Effect s (.recv who epCap) (.ok (.received (.received msg xfer))) s') :
    ∃ cap, Installed (s.tables who) cap xfer (s'.tables who) := by
  cases heffect with
  | recv hend =>
    cases hend with
    | @received _ _ cap _ _ _ _ _ hinst =>
      refine ⟨cap, ?_⟩
      rwa [endCall_tables_self]

namespace Trap

/-- What the frame of a send carries: the message of `x1` to `x4`, and the capability that
`x5` names. -/
def payload (tr : Trap τ) : Message × Option Capability :=
  (decodeSendMessage tr.args.args,
    named (tr.before.tables tr.who) (decodeCapHandle (x5 tr.args.args)))

/-- A send that reports success has put its payload in its endpoint; the word `x5`, unless it
is the sentinel, named a capability and names none any more. -/
theorem Acts.sends (hacts : tr.Acts) (hwf : ∀ who, (tr.before.tables who).WellFormed)
    (hsends : tr.Sends h) :
    Live tr.after.epArena h ∧ held tr.after h = [tr.payload] ∧
      ∀ hd, decodeCapHandle (x5 tr.args.args) = some hd →
        (∃ c, (lookup hd).run (tr.before.tables tr.who) = .ok c (tr.before.tables tr.who)) ∧
        (lookup hd).run (tr.after.tables tr.who) =
          .err .invalidHandle (tr.after.tables tr.who) := by
  have hkeeps := hacts.keeps hwf
  obtain ⟨hnumber, hendpoint, ret, hret, hstatus⟩ := hsends
  cases hacts with
  | quiet hsend => exact absurd hnumber hsend
  | @refused _ err heffect =>
    rw [heffect] at hret
    cases hret
    exact absurd hstatus (SyscallError.asStatus_ne_ok (.ipc err))
  | received hrecv =>
    rw [hnumber] at hrecv
    cases hrecv
  | @sent outcome _ _ hstep =>
    have heffect : Effect tr.before tr.sendOp (.ok (.sent outcome)) tr.after :=
      Effect.of_step hwf hstep
    obtain ⟨h', owned, htarget, hlive, hxfer, htaken⟩ := sent_taken heffect
    have hnames : tr.endpoint = some h' := target_of_targets htarget
    rw [hendpoint] at hnames
    cases hnames
    have haccepted : accepted h (tr.event tr.sendOp (.ok (.sent outcome))) = [tr.payload] :=
      if_pos hendpoint
    have hreturned : returned h (tr.event tr.sendOp (.ok (.sent outcome))) = [] := rfl
    have hmessages := messages hstep hwf hlive
    rw [haccepted, hreturned, List.nil_append] at hmessages
    have hfits := held_length tr.after h
    rw [← hmessages, List.length_append, List.length_singleton] at hfits
    have hempty : held tr.before h = [] := List.eq_nil_of_length_eq_zero (by omega)
    rw [hempty, List.nil_append] at hmessages
    refine ⟨hkeeps.epArena ▸ hlive, hmessages.symm, fun hd hword => ?_⟩
    obtain ⟨c, hlookup, -⟩ := hxfer hd hword
    rw [hword] at htaken
    cases htaken with
    | cap hrun => exact ⟨⟨c, hlookup⟩, (capTake_moves (hwf tr.who) hrun).2.2.2⟩

/-- A receive that reports a message returns what its endpoint held: the words in `x2` to
`x5`, and in `x6` the word of a handle that now names the capability, if there is one. -/
theorem Acts.reports (hacts : tr.Acts) (hwf : ∀ who, (tr.before.tables who).WellFormed)
    (hlive : Live tr.before.epArena h) {msg : Message} {cap : Option Capability}
    (hheld : held tr.before h = [(msg, cap)]) (hreports : tr.Reports h ret) :
    ret.payload[1] = msg.label ∧ ret.payload[2] = msg.params.1 ∧
      ret.payload[3] = msg.params.2.1 ∧ ret.payload[4] = msg.params.2.2 ∧
      (cap = none → ret.payload[5] = nullCapHandle) ∧
      ∀ c, cap = some c → ∃ hd, decodeCapHandle ret.payload[5] = some hd ∧
        (lookup hd).run (tr.after.tables tr.who) = .ok c (tr.after.tables tr.who) := by
  obtain ⟨hnumber, hendpoint, hret, hstatus, hcode⟩ := hreports
  cases hacts with
  | quiet _ hrecv => exact absurd hnumber hrecv
  | @refused _ err heffect =>
    rw [heffect] at hret
    cases hret
    exact absurd hstatus (SyscallError.asStatus_ne_ok (.ipc err))
  | sent hsend =>
    rw [hnumber] at hsend
    cases hsend
  | @received outcome _ heffect hstep =>
    rw [heffect] at hret
    cases hret
    obtain ⟨msg', xfer, rfl⟩ := encodeRecvOutcome_received hcode
    have hmessages := messages hstep hwf hlive
    have haccepted : accepted h
        (tr.event tr.recvOp (.ok (.received (.received msg' xfer)))) = [] := rfl
    have hreturned : returned h (tr.event tr.recvOp (.ok (.received (.received msg' xfer)))) =
        [(msg', named (tr.after.tables tr.who) xfer)] := if_pos hendpoint
    rw [haccepted, hreturned, hheld] at hmessages
    obtain ⟨hpair, -⟩ := List.cons.inj hmessages
    obtain ⟨rfl, rfl⟩ := Prod.mk.inj hpair
    have hsystem : Effect tr.before tr.recvOp (.ok (.received (.received msg xfer))) tr.after :=
      Effect.of_step hwf hstep
    obtain ⟨cap, hinst⟩ := received_installed hsystem
    refine ⟨rfl, rfl, rfl, rfl, fun hnone => ?_, fun c hsome => ?_⟩
    · rw [named_of_installed (hwf tr.who) hinst] at hnone
      subst hnone
      generalize tr.before.tables tr.who = t, tr.after.tables tr.who = t' at hinst
      cases hinst
      rfl
    · cases xfer with
      | none => cases hsome
      | some hd => exact ⟨hd, decode_encode (some hd), named_eq_some.mp hsome⟩

end Trap

/-! ## Traps of given calls -/

omit [DecidableEq τ] in
/-- A context that borrows `call`. -/
def borrowing (call : IpcCall) : SyscallContext Unit where
  toIpcCall := call
  console := []
  memory _ := 0
  userWindow := .empty
  taskAs := ()
  hasCurrentTask := true

/-- The frame of a send. -/
def sendArgs (epCap : CapHandle) (msg : Message) (transfer : Option CapHandle) : SyscallArgs :=
  ⟨1, #v[encodeCapHandle (some epCap), msg.label, msg.params.1, msg.params.2.1, msg.params.2.2,
    encodeCapHandle transfer]⟩

/-- The frame of a receive. -/
def recvArgs (epCap : CapHandle) : SyscallArgs :=
  ⟨2, #v[encodeCapHandle (some epCap), 0, 0, 0, 0, 0]⟩

section Frames

variable [Mmu Unit] {who : τ} {epCap : CapHandle} {msg : Message} {transfer : Option CapHandle}
  {call : IpcCall}

/-- The trap of a call that sends. -/
theorem sendTrap {outcome : SendOutcome}
    (hcall : (ipcSend epCap msg transfer).run (s.call who) = .ok outcome call) :
    TrapStep Unit s ⟨s, who, sendArgs epCap msg transfer,
      .resume (SyscallReturn.ok.withPayload 0 (encodeSendOutcome outcome)), s.endCall who call⟩
      (s.endCall who call) := by
  refine ⟨rfl, rfl, borrowing (s.call who), borrowing call, rfl, ?_, rfl⟩
  have hargs : (sysSend (sendArgs epCap msg transfer).args : SyscallM Unit _) = (do
      return SyscallReturn.ok.withPayload 0 (encodeSendOutcome
        (← SyscallContext.onIpc (ipcSend epCap msg transfer)))) := by
    have hep : decodeRequiredCapHandle (x0 (sendArgs epCap msg transfer).args) = epCap :=
      decodeRequired_encode epCap
    have htransfer : decodeCapHandle (x5 (sendArgs epCap msg transfer).args) = transfer :=
      decode_encode transfer
    have hmsg : decodeSendMessage (sendArgs epCap msg transfer).args = msg := rfl
    unfold sysSend
    rw [hep, htransfer, hmsg]
  have hok : (sysSend (sendArgs epCap msg transfer).args).run (borrowing (s.call who)) =
      .ok (SyscallReturn.ok.withPayload 0 (encodeSendOutcome outcome)) (borrowing call) := by
    rw [hargs]
    exact Prog.bind_ok (Prog.zoom_ok hcall)
  exact Prog.bind_ok (settle_ok hok)

/-- The trap of a call that receives. -/
theorem recvTrap {outcome : RecvOutcome}
    (hcall : (ipcRecv epCap).run (s.call who) = .ok outcome call) :
    TrapStep Unit s ⟨s, who, recvArgs epCap, .resume (encodeRecvOutcome outcome),
      s.endCall who call⟩ (s.endCall who call) := by
  refine ⟨rfl, rfl, borrowing (s.call who), borrowing call, rfl, ?_, rfl⟩
  have hargs : (sysRecv (recvArgs epCap).args : SyscallM Unit _) = (do
      return encodeRecvOutcome (← SyscallContext.onIpc (ipcRecv epCap))) := by
    have hep : decodeRequiredCapHandle (x0 (recvArgs epCap).args) = epCap :=
      decodeRequired_encode epCap
    unfold sysRecv
    rw [hep]
  have hok : (sysRecv (recvArgs epCap).args).run (borrowing (s.call who)) =
      .ok (encodeRecvOutcome outcome) (borrowing call) := by
    rw [hargs]
    exact Prog.bind_ok (Prog.zoom_ok hcall)
  exact Prog.bind_ok (settle_ok hok)

theorem sendTrap_of_exec {outcome : SendOutcome}
    (hexec : (exec (.send who epCap msg transfer)).run s = .ok (.sent outcome) s') :
    TrapStep Unit s ⟨s, who, sendArgs epCap msg transfer,
      .resume (SyscallReturn.ok.withPayload 0 (encodeSendOutcome outcome)), s'⟩ s' := by
  obtain ⟨_, s₁, hzoom, hpure⟩ := Prog.bind_eq_ok.mp hexec
  cases hpure
  obtain ⟨call, hcall, rfl⟩ := Prog.zoom_eq_ok.mp hzoom
  exact sendTrap hcall

theorem recvTrap_of_exec {outcome : RecvOutcome}
    (hexec : (exec (.recv who epCap)).run s = .ok (.received outcome) s') :
    TrapStep Unit s ⟨s, who, recvArgs epCap, .resume (encodeRecvOutcome outcome), s'⟩ s' := by
  obtain ⟨_, s₁, hzoom, hpure⟩ := Prog.bind_eq_ok.mp hexec
  cases hpure
  obtain ⟨call, hcall, rfl⟩ := Prog.zoom_eq_ok.mp hzoom
  exact recvTrap hcall

variable {effect : SyscallEffect} {required : CapRights}

omit [DecidableEq τ] [Build] [Mmu Unit] in
theorem sendArgs_endpoint (htarget : Targets (s.tables who) epCap required h) :
    (⟨s, who, sendArgs epCap msg transfer, effect, s'⟩ : Trap τ).endpoint = some h := by
  have hep : decodeRequiredCapHandle (x0 (sendArgs epCap msg transfer).args) = epCap :=
    decodeRequired_encode epCap
  unfold Trap.endpoint
  rw [hep]
  exact target_of_targets htarget

omit [DecidableEq τ] [Build] [Mmu Unit] in
theorem recvArgs_endpoint (htarget : Targets (s.tables who) epCap required h) :
    (⟨s, who, recvArgs epCap, effect, s'⟩ : Trap τ).endpoint = some h := by
  have hep : decodeRequiredCapHandle (x0 (recvArgs epCap).args) = epCap :=
    decodeRequired_encode epCap
  unfold Trap.endpoint
  rw [hep]
  exact target_of_targets htarget

end Frames

/-! ## A slot freed 2 ^ 32 times -/

section Calls

variable {c : IpcCall} {epCap : CapHandle}

/-- A receive on an idle endpoint registers. -/
theorem ipcRecv_of_idle (hwf : c.table.WellFormed) (htarget : Targets c.table epCap .recv h)
    (hlive : Live c.epArena h) (howned : Owned c.epArena c.queues)
    (hidle : c.queues.effective h = .idle) :
    (ipcRecv epCap).run c = .ok .pending { c with queues := c.queues.put h .recvWaiting } := by
  have hend := ipcRecv_end (s := c) hwf epCap
  generalize (ipcRecv epCap).run c = r at hend
  cases hend with
  | refused _ hrefusable =>
    rcases hrefusable h htarget hlive with ⟨hcap, -⟩ | hwaiting
    · rw [hidle] at hcap
      exact absurd rfl hcap
    · rw [hidle] at hwaiting
      cases hwaiting
  | undrained hlive' hun => exact absurd hun (howned.not_undrained hlive')
  | received htarget' _ hheld =>
    rw [← htarget.unique htarget', hidle] at hheld
    cases hheld
  | registered htarget' => rw [htarget.unique htarget']

/-- A receive on an endpoint that holds a message returns it, if its capability fits. -/
theorem ipcRecv_of_held (hwf : c.table.WellFormed) (htarget : Targets c.table epCap .recv h)
    (hlive : Live c.epArena h) (howned : Owned c.epArena c.queues) {msg : Message}
    {cap : Option Capability} (hheld : (c.queues.effective h).held = some (msg, cap))
    (hroom : ¬ c.table.isFull) :
    ∃ xfer t', Installed c.table cap xfer t' ∧ (ipcRecv epCap).run c =
      .ok (.received msg xfer) ⟨c.epArena, c.queues.put h .idle, t'⟩ := by
  have hend := ipcRecv_end (s := c) hwf epCap
  generalize (ipcRecv epCap).run c = r at hend ⊢
  cases hend with
  | refused _ hrefusable =>
    rcases hrefusable h htarget hlive with ⟨-, hfull⟩ | hwaiting
    · exact absurd hfull hroom
    · rw [hwaiting] at hheld
      cases hheld
  | undrained hlive' hun => exact absurd hun (howned.not_undrained hlive')
  | @received h' _ _ xfer t' htarget' _ hheld' hinst =>
    obtain rfl := htarget.unique htarget'
    rw [hheld] at hheld'
    cases hheld'
    exact ⟨xfer, t', hinst, rfl⟩
  | registered htarget' _ hidle =>
    rw [← htarget.unique htarget'] at hidle
    rw [hidle] at hheld
    cases hheld

end Calls

/-- The endpoint over which the sender sends a spare capability to itself. -/
def sideEndpoint : EndpointHandle := ⟨⟨1, 0⟩⟩

def sideCap : Capability := ⟨CapRights.send.union .recv, .endpoint sideEndpoint⟩

def spareCap : Capability := ⟨CapRights.transfer.union .consoleWrite, .debugConsole⟩

/-- The spare capability is a leaf in slot 2 of the sender's table, in the generation `g`. -/
structure Spare (t : CapabilityTable) (g : Generation) : Prop where
  wellFormed : t.WellFormed
  side : (lookup ⟨1, 0⟩).run t = .ok sideCap t
  spare : ∃ e, Resolves t ⟨2, g⟩ e ∧ e.capability = spareCap ∧ e.firstChild = none

/-- The state between two rounds; `r` is the table of the receiver. -/
structure Spinning (r : CapabilityTable) (g : Generation) (s : IpcSystem Bool) : Prop where
  sender : Spare (s.tables false) g
  receiver : s.tables true = r
  owned : Owned s.epArena s.queues
  live : Live s.epArena sideEndpoint
  idle : s.queues.effective sideEndpoint = .idle

namespace Spare

variable {t t' : CapabilityTable} {g : Generation} {c : Capability}

omit [Build] in
theorem targets (ht : Spare t g) {required : CapRights}
    (hright : sideCap.rights.contains required) : Targets t ⟨1, 0⟩ required sideEndpoint :=
  ⟨sideCap, ht.side, rfl, hright⟩

/-- Taking the spare capability and installing it again advances the generation. -/
theorem round (ht : Spare t g) (htake : (capTake ⟨2, g⟩).run t = .ok c t') :
    t'.WellFormed ∧ (lookup ⟨1, 0⟩).run t' = .ok sideCap t' ∧ c = spareCap ∧ ¬ t'.isFull ∧
      ∀ hd u, (insertRoot c).run t' = .ok hd u → Spare u (g + 1) := by
  have hkept : ∀ {op : TableOp} {r : TableReply} {t₁ t₂ : CapabilityTable}, t₁.WellFormed →
      op.exec.run t₁ = .ok r t₂ → ¬ Releases ⟨1, 0⟩ ⟨t₁, op, .ok r, t₂⟩ →
      (lookup ⟨1, 0⟩).run t₁ = .ok sideCap t₁ → (lookup ⟨1, 0⟩).run t₂ = .ok sideCap t₂ := by
    intro op r t₁ t₂ hwf hexec hrel hlive
    have heffect := CapabilityTable.Effect.of_ok hwf hexec
    let ev : TableEvent := ⟨t₁, op, .ok r, t₂⟩
    have hev : CapabilityTable.Effect ev.before ev.op ev.reply ev.after := heffect
    exact hev.lookup_kept hwf hrel hlive
  obtain ⟨e, he, hcap, -⟩ := ht.spare
  have hwf' := (capTake_moves ht.wellFormed htake).1
  have hside' : (lookup ⟨1, 0⟩).run t' = .ok sideCap t' := by
    have hexec : (TableOp.capTake ⟨2, g⟩).exec.run t = .ok (.taken c) t' := Prog.bind_ok htake
    apply hkept ht.wellFormed hexec _ ht.side
    rintro ⟨-, hhandle⟩
    cases hhandle
  rcases capTake_run ht.wellFormed ⟨2, g⟩ with ⟨err, -, herr⟩ | ⟨e', u, -, he', -, hunlink, hok⟩
  · rw [htake] at herr
    cases herr
  rw [htake] at hok
  cases hok
  obtain rfl := he.unique he'
  have hhead : (u.freed 2).freeHead = some 2 := rfl
  have hgen : ((u.freed 2).slots 2).generation = g + 1 := by
    rw [freed_generation, if_pos rfl, hunlink.generation]
    exact congrArg (· + 1) he.generation
  refine ⟨hwf', hside', hcap, ?_, fun hd t₂ hinsert => ?_⟩
  · rw [isFull_iff_freeHead, hhead]
    exact fun hcon => (nomatch hcon)
  · have hexec : (TableOp.insertRoot e.capability).exec.run (u.freed 2) = .ok (.handle hd) t₂ :=
      Prog.bind_ok hinsert
    refine ⟨(insertRoot_moves hwf' hinsert).1, hkept hwf' hexec (fun hrel => hrel.2) hside', ?_⟩
    rcases insertRoot_run hwf' e.capability with ⟨hnone, -⟩ | ⟨n, hn, hok⟩
    · rw [hhead] at hnone
      cases hnone
    · rw [hinsert] at hok
      cases hok
      cases hn
      refine ⟨rootEntry e.capability, ⟨he.bounded, ?_, installed_entry⟩, hcap, rfl⟩
      rw [installed_generation]
      exact hgen

end Spare

omit [Build] in
theorem call_endCall (s : IpcSystem τ) (who : τ) (c : IpcCall) :
    (s.endCall who c).call who = c := by
  simp [call, endCall, setTable]

/-- A round: the sender registers at the side endpoint, sends itself the spare capability and
collects it. -/
theorem Spinning.round [Mmu Unit] {r : CapabilityTable} {g : Generation} {s : IpcSystem Bool}
    (hs : Spinning r g s) : ∃ trs s', Run (TrapStep Unit) s trs s' ∧ Spinning r (g + 1) s' ∧
      ∀ tr ∈ trs, tr.endpoint = some sideEndpoint := by
  have hrecv : Targets (s.tables false) ⟨1, 0⟩ .recv sideEndpoint := hs.sender.targets (by decide)
  have hsend : Targets (s.tables false) ⟨1, 0⟩ .send sideEndpoint := hs.sender.targets (by decide)
  have hwf := hs.sender.wellFormed
  obtain ⟨e, he, hcap, hleaf⟩ := hs.sender.spare
  have hregister := ipcRecv_of_idle (c := s.call false) hwf hrecv hs.live hs.owned hs.idle
  let c₁ : IpcCall := { s.call false with queues := s.queues.put sideEndpoint .recvWaiting }
  have howned₁ : Owned s.epArena c₁.queues := hs.owned.put hs.live
  have hdel : Deliverable c₁ ⟨1, 0⟩ (some ⟨2, g⟩) sideEndpoint := by
    refine ⟨hsend, hs.live, effective_put, ?_, ?_⟩
    · rintro _ ⟨⟩
      exact ⟨e.capability, lookup_ok he, hcap ▸ by decide⟩
    · rintro _ e' ⟨⟩ he'
      rw [← he.unique he']
      exact hleaf
  obtain ⟨c₂, hdeliver⟩ := hdel.delivers hwf (howned₁.not_undrained hs.live) ⟨0, 0, 0, 0⟩
  have hend := ipcSend_end (s := c₁) hwf ⟨1, 0⟩ ⟨0, 0, 0, 0⟩ (some ⟨2, g⟩)
  rw [hdeliver] at hend
  cases hend with
  | @delivered h' owned t' htarget _ _ _ htaken =>
  obtain rfl := hsend.unique htarget
  cases htaken with
  | @cap _ c _ htake =>
  obtain ⟨hwf₂, hside₂, -, hroom, hback⟩ := hs.sender.round htake
  have hrecv₂ : Targets t' ⟨1, 0⟩ .recv sideEndpoint := ⟨sideCap, hside₂, rfl, by decide⟩
  let c₂ : IpcCall :=
    ⟨s.epArena, c₁.queues.put sideEndpoint (.recvComplete ⟨0, 0, 0, 0⟩ (some c)), t'⟩
  have howned₂ : Owned s.epArena c₂.queues := howned₁.put hs.live
  have hheld₂ : (c₂.queues.effective sideEndpoint).held = some (⟨0, 0, 0, 0⟩, some c) :=
    congrArg EndpointState.held effective_put
  obtain ⟨xfer, t₃, hinst, hcollect⟩ :=
    ipcRecv_of_held (c := c₂) hwf₂ hrecv₂ hs.live howned₂ hheld₂ hroom
  cases hinst with
  | @cap _ hd _ hinsert =>
  let c₃ : IpcCall := ⟨s.epArena, c₂.queues.put sideEndpoint .idle, t₃⟩
  have hcall₂ : (ipcSend ⟨1, 0⟩ ⟨0, 0, 0, 0⟩ (some ⟨2, g⟩)).run ((s.endCall false c₁).call false) =
      .ok .delivered c₂ := by
    rw [call_endCall]
    exact hdeliver
  have hcall₃ : (ipcRecv ⟨1, 0⟩).run (((s.endCall false c₁).endCall false c₂).call false) =
      .ok (.received ⟨0, 0, 0, 0⟩ (some hd)) c₃ := by
    rw [call_endCall]
    exact hcollect
  have hrun := Run.cons (recvTrap hregister) (.cons (sendTrap hcall₂) (.single (recvTrap hcall₃)))
  refine ⟨_, _, hrun, ⟨?_, ?_, howned₂.put hs.live, hs.live, effective_put⟩, ?_⟩
  · rw [endCall_tables_self]
    exact hback hd t₃ hinsert
  · rw [endCall_tables_of_ne (by decide), endCall_tables_of_ne (by decide),
      endCall_tables_of_ne (by decide)]
    exact hs.receiver
  · have hsend₁ : Targets ((s.endCall false c₁).tables false) ⟨1, 0⟩ .send sideEndpoint := by
      rw [endCall_tables_self]
      exact hsend
    have hrecv₃ : Targets (((s.endCall false c₁).endCall false c₂).tables false) ⟨1, 0⟩ .recv
        sideEndpoint := by
      rw [endCall_tables_self]
      exact hrecv₂
    simp only [List.mem_cons, List.not_mem_nil, or_false]
    rintro tr (rfl | rfl | rfl)
    · exact recvArgs_endpoint hrecv
    · exact sendArgs_endpoint hsend₁
    · exact recvArgs_endpoint hrecv₃

/-- Any number of rounds. -/
theorem Spinning.rounds [Mmu Unit] {r : CapabilityTable} (n : ℕ) {g : Generation}
    {s : IpcSystem Bool} (hs : Spinning r g s) : ∃ trs s', Run (TrapStep Unit) s trs s' ∧
      Spinning r (g + BitVec.ofNat 32 n) s' ∧ ∀ tr ∈ trs, tr.endpoint = some sideEndpoint := by
  induction n generalizing g s with
  | zero => exact ⟨[], s, .nil s, by simpa using hs, by simp⟩
  | succ n ih =>
    obtain ⟨trs₁, s₁, hrun₁, hs₁, hside₁⟩ := hs.round
    obtain ⟨trs₂, s₂, hrun₂, hs₂, hside₂⟩ := ih hs₁
    refine ⟨trs₁ ++ trs₂, s₂, hrun₁.append hrun₂, ?_, fun tr htr => ?_⟩
    · have hsum : g + 1 + BitVec.ofNat 32 n = g + BitVec.ofNat 32 (n + 1) := by
        rw [BitVec.ofNat_add, add_assoc, add_comm (BitVec.ofNat 32 n)]
        rfl
      rwa [hsum] at hs₂
    · exact (List.mem_append.mp htr).elim (hside₁ tr) (hside₂ tr)

/-! ## From one end to the other -/

variable {AS : Type} [Mmu AS]

/-- In every run of traps from a state that a run of the IPC system set up: if a send on `h`
reports success, the next receive on `h` that reports a message returns the four words of the
send, and the sentinel if no capability was transferred, else a word for a handle that names
in the receiver's table the capability that `x5` named in the sender's. The handle of `x5`
does not resolve after the send, and does when the message is reported only if its slot is in
use and was freed a multiple of `2 ^ 32` times meanwhile, the send included. -/
theorem payload_end_to_end {setup : List (IpcSystem.Event τ)} (hsetup : Run Step boot setup s₀)
    {snd rcv : Trap τ} {trs : List (Trap τ)} (hsnd : TrapStep AS s₀ snd s₁)
    (hbetween : Run (TrapStep AS) s₁ trs s₂) (hrcv : TrapStep AS s₂ rcv s₃)
    (hsends : snd.Sends h) (hnext : ∀ tr ∈ trs, ∀ ret, ¬ tr.Reports h ret)
    (hreports : rcv.Reports h ret) :
    (∀ i : Fin 4, ret.payload[i.val + 1] = snd.args.args[i.val + 1]) ∧
    (x5 snd.args.args = nullCapHandle → ret.payload[5] = nullCapHandle) ∧
    (x5 snd.args.args ≠ nullCapHandle → ∃ c hd,
      (lookup (decodeRequiredCapHandle (x5 snd.args.args))).run (s₀.tables snd.who) =
        .ok c (s₀.tables snd.who) ∧
      decodeCapHandle ret.payload[5] = some hd ∧
      (lookup hd).run (s₃.tables rcv.who) = .ok c (s₃.tables rcv.who) ∧
      (lookup (decodeRequiredCapHandle (x5 snd.args.args))).run (s₁.tables snd.who) =
        .err .invalidHandle (s₁.tables snd.who) ∧
      ((∃ c', (lookup (decodeRequiredCapHandle (x5 snd.args.args))).run (s₃.tables snd.who) =
          .ok c' (s₃.tables snd.who)) ↔
        (s₃.tables snd.who).Occupied (decodeRequiredCapHandle (x5 snd.args.args)).index ∧
          Trap.freeCount snd.who (decodeRequiredCapHandle (x5 snd.args.args)).index
            (snd :: trs ++ [rcv]) % 2 ^ 32 = 0)) := by
  have hwf₀ := run_wellFormed hsetup
  have hall : Run (TrapStep AS) s₀ (snd :: trs ++ [rcv]) s₃ := (Run.cons hsnd hbetween).snoc hrcv
  have hsent := hsnd.acts
  have hreceived := hrcv.acts
  have hwf₁ := traps_wellFormed (.single hsnd) hwf₀
  have hwf₂ := traps_wellFormed hbetween hwf₁
  obtain ⟨rfl, rfl, -⟩ := hsnd
  obtain ⟨rfl, rfl, -⟩ := hrcv
  obtain ⟨hlive₁, hheld₁, hword⟩ := hsent.sends hwf₀ hsends
  obtain ⟨hlive₂, hheld₂⟩ := held_of_traps hbetween hwf₁ hlive₁ hheld₁ hnext
  obtain ⟨hlabel, hp₀, hp₁, hp₂, hnone, hsome⟩ :=
    hreceived.reports hwf₂ hlive₂ hheld₂ hreports
  refine ⟨fun i => ?_, fun hnull => ?_, fun hnull => ?_⟩
  · match i with
    | 0 => exact hlabel
    | 1 => exact hp₀
    | 2 => exact hp₁
    | 3 => exact hp₂
  · apply hnone
    rw [hnull]
    rfl
  · have hdecode : decodeCapHandle (x5 snd.args.args) =
        some (decodeRequiredCapHandle (x5 snd.args.args)) := if_neg hnull
    obtain ⟨⟨c, hlookup⟩, hgone⟩ := hword _ hdecode
    obtain ⟨hd, hencoded, hnamed⟩ := hsome c (by rw [hdecode]; exact named_eq_some.mpr hlookup)
    refine ⟨c, hd, hlookup, hencoded, hnamed, hgone, ?_⟩
    obtain ⟨e, he, -⟩ := lookup_eq_ok_iff.mp hlookup
    have hgen := generation_of_traps hall hwf₀ snd.who
      (decodeRequiredCapHandle (x5 snd.args.args)).index
    rw [he.generation] at hgen
    exact lookup_iff_of_freed he.bounded hgen

/-- The trap by which the sender gives its capability away. -/
def giveTrap : Trap Bool :=
  ⟨giverAndReceiver, false, sendArgs ⟨0, 0⟩ ⟨1, 2, 3, 4⟩ (some ⟨1, 0⟩),
    .resume (SyscallReturn.ok.withPayload 0 (encodeSendOutcome .enqueued)), given⟩

/-- The trap by which the receiver collects it. -/
def collectTrap : Trap Bool :=
  ⟨given, true, recvArgs ⟨0, 0⟩,
    .resume (encodeRecvOutcome (.received ⟨1, 2, 3, 4⟩ (some ⟨1, 0⟩))), collected⟩

omit [DecidableEq τ] [Build] in
/-- The receiver gets the four words and a handle for the capability. -/
theorem payload_end_to_end_gift :
    (∀ i : Fin 4, (encodeRecvOutcome (.received ⟨1, 2, 3, 4⟩ (some ⟨1, 0⟩))).payload[i.val + 1] =
      giveTrap.args.args[i.val + 1]) ∧
    ∃ c hd, (lookup hd).run (collected.tables true) = .ok c (collected.tables true) ∧
      decodeCapHandle (encodeRecvOutcome (.received ⟨1, 2, 3, 4⟩ (some ⟨1, 0⟩))).payload[5] =
        some hd := by
  let _ : Build := debugBuild
  let _ : Mmu Unit := onePageMmu
  obtain ⟨setup, hsetup, -⟩ := giverAndReceiver_run
  have hsnd : TrapStep Unit giverAndReceiver giveTrap given :=
    sendTrap_of_exec (by with_unfolding_all rfl)
  have hrcv : TrapStep Unit given collectTrap collected :=
    recvTrap_of_exec (by with_unfolding_all rfl)
  have hsends : giveTrap.Sends ⟨⟨0, 0⟩⟩ :=
    ⟨rfl, by with_unfolding_all rfl, _, rfl, rfl⟩
  have hreports : collectTrap.Reports ⟨⟨0, 0⟩⟩ _ :=
    ⟨rfl, by with_unfolding_all rfl, rfl, rfl, rfl⟩
  obtain ⟨hwords, -, hgift⟩ :=
    payload_end_to_end hsetup hsnd (.nil given) hrcv hsends (by simp) hreports
  obtain ⟨c, hd, -, hword, hnamed, -⟩ := hgift (by decide)
  exact ⟨hwords, c, hd, hnamed, hword⟩

/-! ### The reused slot -/

/-- Two endpoints; the sender has a gift and a spare capability, the receiver may receive on
the first endpoint. -/
def spinBoard : IpcSystem Bool :=
  ((((((boot.performed (.createEndpoint ⟨7⟩)).performed (.createEndpoint ⟨8⟩)).performed
    (.table false (.insertRoot ⟨.send, .endpoint ⟨⟨0, 0⟩⟩⟩))).performed
    (.table false (.insertRoot sideCap))).performed
    (.table false (.insertRoot ⟨.transfer, .debugConsole⟩))).performed
    (.table false (.insertRoot spareCap))).performed
    (.table true (.insertRoot ⟨.recv, .endpoint ⟨⟨0, 0⟩⟩⟩))

/-- The spare capability is on its way. -/
def spareSent : IpcSystem Bool :=
  (spinBoard.performed (.recv false ⟨1, 0⟩)).performed
    (.send false ⟨1, 0⟩ ⟨0, 0, 0, 0⟩ (some ⟨3, 0⟩))

/-- So is the gift, from slot 2. -/
def giftSent : IpcSystem Bool :=
  spareSent.performed (.send false ⟨0, 0⟩ ⟨1, 2, 3, 4⟩ (some ⟨2, 0⟩))

/-- The spare capability arrives in slot 2. -/
def spareBack : IpcSystem Bool := giftSent.performed (.recv false ⟨1, 0⟩)

omit [DecidableEq τ] [Build] in
theorem spareSent_run : ∃ setup : List (IpcSystem.Event Bool),
    @Run _ _ (@Step Bool _ debugBuild) boot setup spareSent ∧ ∀ ev ∈ setup, Drained ev := by
  let s₁ : IpcSystem Bool := boot.performed (.createEndpoint ⟨7⟩)
  let s₂ := s₁.performed (.createEndpoint ⟨8⟩)
  let s₃ := s₂.performed (.table false (.insertRoot ⟨.send, .endpoint ⟨⟨0, 0⟩⟩⟩))
  let s₄ := s₃.performed (.table false (.insertRoot sideCap))
  let s₅ := s₄.performed (.table false (.insertRoot ⟨.transfer, .debugConsole⟩))
  let s₆ := s₅.performed (.table false (.insertRoot spareCap))
  let s₈ := spinBoard.performed (.recv false ⟨1, 0⟩)
  have h₁ := performed_step (boot : IpcSystem Bool) (.createEndpoint ⟨7⟩) (.endpoint ⟨⟨0, 0⟩⟩)
    (by with_unfolding_all rfl)
  have h₂ := performed_step s₁ (.createEndpoint ⟨8⟩) (.endpoint ⟨⟨1, 0⟩⟩)
    (by with_unfolding_all rfl)
  have h₃ := performed_step s₂ (.table false (.insertRoot ⟨.send, .endpoint ⟨⟨0, 0⟩⟩⟩))
    (.table (.handle ⟨0, 0⟩)) (by with_unfolding_all rfl)
  have h₄ := performed_step s₃ (.table false (.insertRoot sideCap)) (.table (.handle ⟨1, 0⟩))
    (by with_unfolding_all rfl)
  have h₅ := performed_step s₄ (.table false (.insertRoot ⟨.transfer, .debugConsole⟩))
    (.table (.handle ⟨2, 0⟩)) (by with_unfolding_all rfl)
  have h₆ := performed_step s₅ (.table false (.insertRoot spareCap)) (.table (.handle ⟨3, 0⟩))
    (by with_unfolding_all rfl)
  have h₇ := performed_step s₆ (.table true (.insertRoot ⟨.recv, .endpoint ⟨⟨0, 0⟩⟩⟩))
    (.table (.handle ⟨0, 0⟩)) (by with_unfolding_all rfl)
  have h₈ := performed_step spinBoard (.recv false ⟨1, 0⟩) (.received .pending)
    (by with_unfolding_all rfl)
  have h₉ := performed_step s₈ (.send false ⟨1, 0⟩ ⟨0, 0, 0, 0⟩ (some ⟨3, 0⟩))
    (.sent .delivered) (by with_unfolding_all rfl)
  let _ : Build := debugBuild
  have hsetup := Run.cons h₁ (.cons h₂ (.cons h₃ (.cons h₄ (.cons h₅ (.cons h₆ (.cons h₇
    (.cons h₈ (.single h₉))))))))
  exact ⟨_, hsetup, by simp [Drained]⟩

/-- The trap by which the sender gives the gift away. -/
def giftTrap : Trap Bool :=
  ⟨spareSent, false, sendArgs ⟨0, 0⟩ ⟨1, 2, 3, 4⟩ (some ⟨2, 0⟩),
    .resume (SyscallReturn.ok.withPayload 0 (encodeSendOutcome .enqueued)), giftSent⟩

/-- The trap by which it collects the spare capability. -/
def spareTrap : Trap Bool :=
  ⟨giftSent, false, recvArgs ⟨1, 0⟩,
    .resume (encodeRecvOutcome (.received ⟨0, 0, 0, 0⟩ (some ⟨2, 1⟩))), spareBack⟩

omit [DecidableEq τ] [Build] in
theorem spareBack_sound : Sound spareBack := by
  have hgift := performed_step spareSent (.send false ⟨0, 0⟩ ⟨1, 2, 3, 4⟩ (some ⟨2, 0⟩))
    (.sent .enqueued) (by with_unfolding_all rfl)
  have hspare := performed_step giftSent (.recv false ⟨1, 0⟩)
    (.received (.received ⟨0, 0, 0, 0⟩ (some ⟨2, 1⟩))) (by with_unfolding_all rfl)
  let _ : Build := debugBuild
  obtain ⟨setup, hsetup, hdrained⟩ := spareSent_run
  have hsent := (boot_sound.run hsetup hdrained).step (by simp [Drained]) hgift
  exact hsent.step (by simp [Drained]) hspare

omit [DecidableEq τ] [Build] in
theorem spareBack_spinning : Spinning (spareBack.tables true) 1 spareBack where
  sender := by
    refine ⟨spareBack_sound.tables false, by with_unfolding_all rfl, rootEntry spareCap, ?_, rfl,
      rfl⟩
    exact ⟨by decide, by with_unfolding_all rfl, by with_unfolding_all rfl⟩
  receiver := rfl
  owned := spareBack_sound.owned
  live := by with_unfolding_all rfl
  idle := by with_unfolding_all rfl

omit [DecidableEq τ] [Build] in
/-- After `2 ^ 32 - 1` rounds over the side endpoint the handle of `x5` is back when the
message is reported: it names the spare capability. -/
theorem payload_reused : ∃ (setup : List (IpcSystem.Event Bool)) (s₂ s₃ : IpcSystem Bool)
    (trs : List (Trap Bool)) (rcv : Trap Bool) (ret : SyscallReturn),
    @Run _ _ (@Step Bool _ debugBuild) boot setup spareSent ∧
    @TrapStep Bool _ Unit debugBuild onePageMmu spareSent giftTrap giftSent ∧
    Run (@TrapStep Bool _ Unit debugBuild onePageMmu) giftSent trs s₂ ∧
    @TrapStep Bool _ Unit debugBuild onePageMmu s₂ rcv s₃ ∧
    @Trap.Sends Bool debugBuild ⟨⟨0, 0⟩⟩ giftTrap ∧
    (∀ tr ∈ trs, ∀ ret, ¬ @Trap.Reports Bool debugBuild ⟨⟨0, 0⟩⟩ tr ret) ∧
    @Trap.Reports Bool debugBuild ⟨⟨0, 0⟩⟩ rcv ret ∧ x5 giftTrap.args.args = 2 ∧
    (lookup (decodeRequiredCapHandle 2)).run (s₃.tables giftTrap.who) =
      .ok spareCap (s₃.tables giftTrap.who) := by
  let _ : Build := debugBuild
  let _ : Mmu Unit := onePageMmu
  obtain ⟨setup, hsetup, -⟩ := spareSent_run
  have hsnd : TrapStep Unit spareSent giftTrap giftSent :=
    sendTrap_of_exec (by with_unfolding_all rfl)
  have hspare : TrapStep Unit giftSent spareTrap spareBack :=
    recvTrap_of_exec (by with_unfolding_all rfl)
  obtain ⟨trs, s₂, hrounds, hspun, hside⟩ := spareBack_spinning.rounds (2 ^ 32 - 1)
  have hback : (1 : Generation) + BitVec.ofNat 32 (2 ^ 32 - 1) = 0 := by decide +kernel
  rw [hback] at hspun
  have hquiet : ∀ tr : Trap Bool, tr.endpoint = some sideEndpoint →
      ∀ ret, ¬ tr.Reports ⟨⟨0, 0⟩⟩ ret := by
    intro tr hendpoint ret hreports
    have hsame := hendpoint.symm.trans hreports.2.1
    exact absurd hsame (by decide)
  -- the message of the gift is still there, and the receiver's table is the one it was
  have hheld : held spareBack ⟨⟨0, 0⟩⟩ =
      [(⟨1, 2, 3, 4⟩, some ⟨.transfer, .debugConsole⟩)] := by with_unfolding_all rfl
  have hlive : Live spareBack.epArena ⟨⟨0, 0⟩⟩ := by with_unfolding_all rfl
  have hwf := spareBack_sound.tables
  obtain ⟨hlive₂, hheld₂⟩ :=
    held_of_traps hrounds hwf hlive hheld fun tr htr => hquiet tr (hside tr htr)
  have hstate : ((s₂.call true).queues.effective ⟨⟨0, 0⟩⟩).held =
      some (⟨1, 2, 3, 4⟩, some ⟨.transfer, .debugConsole⟩) := by
    unfold held at hheld₂
    exact Option.toList_eq_singleton_iff.mp hheld₂
  have htarget : Targets (s₂.tables true) ⟨0, 0⟩ .recv ⟨⟨0, 0⟩⟩ := by
    rw [hspun.receiver]
    exact ⟨⟨.recv, .endpoint ⟨⟨0, 0⟩⟩⟩, by with_unfolding_all rfl, rfl, by decide⟩
  have hroom : ¬ (s₂.tables true).isFull := by
    have hhead : (spareBack.tables true).freeHead = some 1 := by with_unfolding_all rfl
    rw [hspun.receiver, isFull_iff_freeHead, hhead]
    exact fun hcon => (nomatch hcon)
  obtain ⟨xfer, t', -, hcall⟩ := ipcRecv_of_held (c := s₂.call true)
    (traps_wellFormed hrounds hwf true) htarget hlive₂ hspun.owned hstate hroom
  have hbetween := Run.cons hspare hrounds
  refine ⟨setup, s₂, _, _, _, _, hsetup, hsnd, hbetween, recvTrap hcall,
    ⟨rfl, by with_unfolding_all rfl, _, rfl, rfl⟩, ?_,
    ⟨rfl, recvArgs_endpoint htarget, rfl, rfl, rfl⟩, by decide, ?_⟩
  · intro tr htr
    rcases List.mem_cons.mp htr with rfl | htr
    · exact hquiet spareTrap (by with_unfolding_all rfl)
    · exact hquiet tr (hside tr htr)
  · obtain ⟨e, he, hcap, -⟩ := hspun.sender.spare
    have hsame : ((s₂.endCall true ⟨(s₂.call true).epArena,
        (s₂.call true).queues.put ⟨⟨0, 0⟩⟩ .idle, t'⟩).tables giftTrap.who) = s₂.tables false :=
      endCall_tables_of_ne (by decide)
    have hword : decodeRequiredCapHandle 2 = ⟨2, 0⟩ := by decide
    rw [hsame, hword, ← hcap]
    exact lookup_ok he

end Tyrne
